import EdvrPatch.Hotkeys.Hotkey

/-! The settings menu's keys (`menu_keys.h`): which of the keys of Elite's own panels the
menu adopts as aliases of its actions. -/
namespace EdvrPatch.Ui

open Hotkeys

inductive MenuNav
  | up | down | left | right | select | back | pageNext | pagePrev | readOn | readBack
  | home | end_ | reset | count
  deriving DecidableEq

def kMenuAliasMax : Nat := 20

structure MenuAliasSlot where
  binding : Option Text
  eliteName : Option Text
  keyboard : Bool
  chorded : Bool
  modifierMain : Bool

structure MenuAliasInput where
  element : Option Text
  nav : MenuNav
  repeats : Bool
  slots : Int
  slot : Fin 2 → MenuAliasSlot

/-- The keys with their actions and the registered hotkeys, as far as the counts go. -/
structure MenuFixedKeys where
  keys : List (Int × MenuNav)
  escapeVk : Int
  summonVk : Int
  summonMods : UInt32
  registered : List Int

inductive MenuAliasSkip
  | notKeyboard | unnamed | chord | shiftKey | summonKey | sameAsFixed | fixedWins | edvrHotkey
  | duplicate
  deriving DecidableEq

structure MenuAlias where
  vk : Int
  nav : MenuNav
  repeats : Bool
  modifierMain : Bool
  name : Text
  element : Text
  eliteName : Text

structure MenuAliasSkipped where
  element : Text
  name : Text
  nav : MenuNav
  reason : MenuAliasSkip
  vk : Int
  fixedNav : MenuNav
  summonChord : Bool

structure MenuAliasTable where
  aliases : List MenuAlias
  skipped : List MenuAliasSkipped
  navName : MenuNav → Text
  adopted : Bool

/-- The table while it is made: an action that has no name yet gets the fixed one. -/
structure Resolving where
  aliases : List MenuAlias := []
  skipped : List MenuAliasSkipped := []
  navName : MenuNav → Option Text := fun _ => none

def kFixedNavName : MenuNav → Text
  | .up => "Up".toList
  | .down => "Down".toList
  | .left => "Left".toList
  | .right => "Right".toList
  | .select => "Enter".toList
  | .back => "Esc".toList
  | .pageNext => "Tab".toList
  | .pagePrev => "Tab".toList
  | .readOn => "PgDn".toList
  | .readBack => "PgUp".toList
  | .home => "Home".toList
  | .end_ => "End".toList
  | .reset => "R".toList
  | .count => []

def copyStr (n : Nat) (s : Text) : Text := s.take (n - 1)

def isCtrlVk (vk : Int) : Bool := vk = 0x11 || vk = 0xA2 || vk = 0xA3
def isAltVk (vk : Int) : Bool := vk = 0x12 || vk = 0xA4 || vk = 0xA5
def isShiftVk (vk : Int) : Bool := vk = 0x10 || vk = 0xA0 || vk = 0xA1

def recordSkip (out : Resolving) (e : MenuAliasInput) (name : Text) (reason : MenuAliasSkip)
    (vk : Int) (fixedNav : MenuNav) (summonChord : Bool) : Resolving :=
  if kMenuAliasMax ≤ out.skipped.length then out
  else
    let k : MenuAliasSkipped :=
      { element := copyStr 24 (e.element.getD []), name := copyStr 32 name, nav := e.nav
        reason, vk, fixedNav, summonChord }
    { out with skipped := out.skipped ++ [k] }

def Resolving.nameNav (out : Resolving) (nav : MenuNav) (name : Text) : Resolving :=
  if (out.navName nav).isSome then out
  else { out with navName := Function.update out.navName nav (some (copyStr 12 name)) }

def MenuFixedKeys.fixedNav (fixed : MenuFixedKeys) (vk : Int) : Option MenuNav :=
  match fixed.keys.find? fun k => k.1 = vk with
  | some k => some k.2
  | none => if fixed.escapeVk ≠ 0 ∧ vk = fixed.escapeVk then some .back else none

def MenuFixedKeys.halfOfSummon (fixed : MenuFixedKeys) (vk : Int) : Bool :=
  isCtrlVk vk && fixed.summonMods &&& kHotkeyCtrl != 0 ||
    isAltVk vk && fixed.summonMods &&& kHotkeyAlt != 0

/-- How the keys are named: a binding's key and modifiers, and the name that the panel
prints. -/
structure KeyNames where
  virtualKeyFromName : Text → Int × UInt32
  menuKeyDisplayName : Int → Text

section

variable (names : KeyNames) (fixed : MenuFixedKeys)

def adopt (e : MenuAliasInput) (s : MenuAliasSlot) (vk : Int) (name : Text) : MenuAlias where
  vk := vk
  nav := e.nav
  repeats := e.repeats
  modifierMain := s.modifierMain || isCtrlVk vk || isAltVk vk
  name := copyStr 12 name
  element := copyStr 24 (e.element.getD [])
  eliteName := copyStr 32 (s.eliteName.getD [])

def resolveSlot (out : Resolving) (e : MenuAliasInput) (s : MenuAliasSlot) : Resolving :=
  let binding := s.binding.getD []
  let elite := s.eliteName.getD []
  if !s.keyboard then
    recordSkip out e (if elite ≠ [] then elite else ['?']) .notKeyboard 0 .count false
  else if binding = [] then
    recordSkip out e (if elite ≠ [] then elite else ['?']) .unnamed 0 .count false
  else if s.chorded then recordSkip out e binding .chord 0 .count false
  else
  let (vk, mods) := names.virtualKeyFromName binding
  if vk ≤ 0 ∨ 255 < vk then
    recordSkip out e (if elite ≠ [] then elite else binding) .unnamed 0 .count false
  else if mods ≠ 0 then recordSkip out e binding .chord vk .count false
  else
  let name := copyStr 12 (names.menuKeyDisplayName vk)
  if isShiftVk vk then recordSkip out e name .shiftKey vk .count false
  else if fixed.summonVk ≠ 0 ∧ vk = fixed.summonVk then
    recordSkip out e name .summonKey vk .count false
  else if fixed.halfOfSummon vk then recordSkip out e name .summonKey vk .count true
  else
  match fixed.fixedNav vk with
  | some nav =>
    let same := nav = e.nav
    let out := recordSkip out e name (if same then .sameAsFixed else .fixedWins) vk nav false
    if same then out.nameNav e.nav name else out
  | none =>
  if vk ∈ fixed.registered then recordSkip out e name .edvrHotkey vk .count false
  else if vk ∈ out.aliases.map MenuAlias.vk then recordSkip out e name .duplicate vk .count false
  else if kMenuAliasMax ≤ out.aliases.length then out
  else { out with aliases := out.aliases ++ [adopt e s vk name] }.nameNav e.nav name

def MenuAliasInput.considered (e : MenuAliasInput) : List (MenuAliasInput × MenuAliasSlot) :=
  ((List.finRange 2).take e.slots.toNat).map fun s => (e, e.slot s)

def resolveElement (out : Resolving) (e : MenuAliasInput) : Resolving :=
  if e.nav = .count then out
  else e.considered.foldl (fun out p => resolveSlot names fixed out p.1 p.2) out

def menuAliasResolve (input : List MenuAliasInput) : MenuAliasTable :=
  let out := (input.take (kMenuAliasMax / 2)).foldl (resolveElement names fixed) {}
  { aliases := out.aliases
    skipped := out.skipped
    navName := fun nav => (out.navName nav).getD (kFixedNavName nav)
    adopted := 0 < out.aliases.length }

/-! The rules, as they are told: for each slot the first one that refuses it, and the slot
that had its key before. -/

abbrev Considered := MenuAliasInput × MenuAliasSlot

def considered (input : List MenuAliasInput) : List Considered :=
  ((input.take (kMenuAliasMax / 2)).filter fun e => e.nav ≠ .count).flatMap
    MenuAliasInput.considered

def Considered.vk (p : Considered) : Int :=
  (names.virtualKeyFromName (p.2.binding.getD [])).1

def Considered.mods (p : Considered) : UInt32 :=
  (names.virtualKeyFromName (p.2.binding.getD [])).2

def Considered.Named (p : Considered) : Prop := 0 < p.vk names ∧ p.vk names ≤ 255

instance (p : Considered) : Decidable (p.Named names) := inferInstanceAs (Decidable (_ ∧ _))

/-- R9, R8, R6, R4, R3, R1, R2 and R5, in the order of `menu_keys.h`. -/
def refusals (p : Considered) : List (Bool × MenuAliasSkip) :=
  [(!p.2.keyboard, .notKeyboard),
   (p.2.binding.getD [] = [] ∨ ¬p.Named names, .unnamed),
   (p.2.chorded ∨ p.mods names ≠ 0, .chord),
   (isShiftVk (p.vk names), .shiftKey),
   (p.vk names = fixed.summonVk ∨ fixed.halfOfSummon (p.vk names), .summonKey),
   (fixed.fixedNav (p.vk names) = some p.1.nav, .sameAsFixed),
   (fixed.fixedNav (p.vk names) ≠ none, .fixedWins),
   (p.vk names ∈ fixed.registered, .edvrHotkey)]

def firstRefusal (p : Considered) : Option MenuAliasSkip :=
  ((refusals names fixed p).find? Prod.fst).map Prod.snd

/-- The refusal of the code, which asks whether the slot is flagged as a chord before it
looks its key up. -/
def codeRefusal (p : Considered) : Option MenuAliasSkip :=
  if p.2.keyboard ∧ p.2.binding.getD [] ≠ [] ∧ p.2.chorded then some .chord
  else firstRefusal names fixed p

/-- A keyboard slot that is flagged as a chord, on a key that this build cannot name. -/
def Considered.Blurred (p : Considered) : Prop :=
  p.2.keyboard ∧ p.2.binding.getD [] ≠ [] ∧ p.2.chorded ∧ ¬p.Named names

instance (p : Considered) : Decidable (p.Blurred names) := inferInstanceAs (Decidable (_ ∧ _))

section

variable (refusal : Considered → Option MenuAliasSkip)

/-- A slot that no rule refuses has its key, unless one before it has (R7). -/
def fate (earlier : List Considered) (p : Considered) : Option MenuAliasSkip :=
  match refusal p with
  | some reason => some reason
  | none =>
    if ∃ q ∈ earlier, refusal q = none ∧ q.vk names = p.vk names then some .duplicate
    else none

def fates (slots : List Considered) : List (Considered × Option MenuAliasSkip) :=
  slots.mapIdx fun i p => (p, fate names refusal (slots.take i) p)

end

def Considered.name (p : Considered) : Text :=
  copyStr 12 (names.menuKeyDisplayName (p.vk names))

def Considered.alias_ (p : Considered) : MenuAlias :=
  adopt p.1 p.2 (p.vk names) (p.name names)

def Considered.shown (p : Considered) : MenuAliasSkip → Text
  | .notKeyboard => if p.2.eliteName.getD [] ≠ [] then p.2.eliteName.getD [] else ['?']
  | .unnamed =>
    if p.2.eliteName.getD [] ≠ [] then p.2.eliteName.getD []
    else if p.2.binding.getD [] = [] then ['?'] else p.2.binding.getD []
  | .chord => p.2.binding.getD []
  | _ => p.name names

def Considered.readKey (p : Considered) : MenuAliasSkip → Int
  | .notKeyboard | .unnamed => 0
  | .chord => if p.2.chorded then 0 else p.vk names
  | _ => p.vk names

def Considered.skippedFor (p : Considered) (reason : MenuAliasSkip) : MenuAliasSkipped where
  element := copyStr 24 (p.1.element.getD [])
  name := copyStr 32 (p.shown names reason)
  nav := p.1.nav
  reason := reason
  vk := p.readKey names reason
  fixedNav :=
    if reason = .sameAsFixed ∨ reason = .fixedWins then (fixed.fixedNav (p.vk names)).getD .count
    else .count
  summonChord := reason = .summonKey ∧ p.vk names ≠ fixed.summonVk

def feeds (nav : MenuNav) (f : Considered × Option MenuAliasSkip) : Bool :=
  f.1.1.nav = nav ∧ (f.2 = none ∨ f.2 = some .sameAsFixed)

variable {names fixed} {refusal : Considered → Option MenuAliasSkip}

theorem fates_snoc (slots : List Considered) (p : Considered) :
    fates names refusal (slots ++ [p]) =
      fates names refusal slots ++ [(p, fate names refusal slots p)] := by
  unfold fates
  rw [List.mapIdx_append]
  congr 1
  · apply List.mapIdx_eq_mapIdx_iff.mpr
    intro i inside
    rw [List.take_append_of_le_length (by omega)]
  · simp

theorem copyStr_copyStr (n : Nat) (s : Text) : copyStr n (copyStr n s) = copyStr n s := by
  simp [copyStr, List.take_take]

theorem recordSkip_room {out : Resolving} (room : out.skipped.length < kMenuAliasMax)
    {p : Considered} {name : Text} {reason : MenuAliasSkip} {vk : Int} {nav : MenuNav} {half : Bool}
    (entry : p.skippedFor names fixed reason =
      ⟨copyStr 24 (p.1.element.getD []), copyStr 32 name, p.1.nav, reason, vk, nav, half⟩) :
    recordSkip out p.1 name reason vk nav half =
      { out with skipped := out.skipped ++ [p.skippedFor names fixed reason] } := by
  unfold recordSkip
  rw [if_neg (by omega), entry]

variable (names fixed) in
/-- What a slot does to a table that has room: it is skipped for the first rule that refuses
it, or as a duplicate, or it is adopted. -/
inductive Resolved (out : Resolving) (p : Considered) : Resolving → Prop
  | skipped (reason) : codeRefusal names fixed p = some reason → reason ≠ .sameAsFixed →
    Resolved out p { out with skipped := out.skipped ++ [p.skippedFor names fixed reason] }
  | same : codeRefusal names fixed p = some .sameAsFixed → Resolved out p
      ({ out with skipped := out.skipped ++ [p.skippedFor names fixed .sameAsFixed] }.nameNav p.1.nav
        (p.name names))
  | duplicate : codeRefusal names fixed p = none → p.vk names ∈ out.aliases.map MenuAlias.vk →
    Resolved out p { out with skipped := out.skipped ++ [p.skippedFor names fixed .duplicate] }
  | adopted : codeRefusal names fixed p = none → p.vk names ∉ out.aliases.map MenuAlias.vk →
    Resolved out p
      ({ out with aliases := out.aliases ++ [p.alias_ names] }.nameNav p.1.nav (p.name names))

theorem resolveSlot_resolved {out : Resolving} (p : Considered)
    (room : out.skipped.length < kMenuAliasMax) (room' : out.aliases.length < kMenuAliasMax) :
    Resolved names fixed out p (resolveSlot names fixed out p.1 p.2) := by
  have rules : codeRefusal names fixed p =
      if p.2.keyboard ∧ p.2.binding.getD [] ≠ [] ∧ p.2.chorded then some .chord
      else ((refusals names fixed p).find? Prod.fst).map Prod.snd := rfl
  have pair : names.virtualKeyFromName (p.2.binding.getD []) = (p.vk names, p.mods names) := rfl
  have skip {name reason vk nav half} (first : codeRefusal names fixed p = some reason)
      (other : reason ≠ .sameAsFixed) (entry : p.skippedFor names fixed reason =
        ⟨copyStr 24 (p.1.element.getD []), copyStr 32 name, p.1.nav, reason, vk, nav, half⟩) :
      Resolved names fixed out p (recordSkip out p.1 name reason vk nav half) := by
    rw [recordSkip_room room entry]
    exact .skipped reason first other
  unfold refusals Considered.Named at rules
  simp only [resolveSlot, pair]
  by_cases pad : p.2.keyboard
  swap
  · rw [if_pos (by simpa using pad)]
    exact skip (by simp [rules, pad]) (by decide) (by simp [Considered.skippedFor, Considered.shown, Considered.readKey])
  rw [if_neg (by simpa using pad)]
  by_cases unnamed : p.2.binding.getD [] = []
  · rw [if_pos unnamed]
    exact skip (by simp [rules, pad, unnamed]) (by decide)
      (by simp [Considered.skippedFor, Considered.shown, Considered.readKey, unnamed])
  rw [if_neg unnamed]
  by_cases chorded : p.2.chorded
  · rw [if_pos chorded]
    exact skip (by simp [rules, pad, unnamed, chorded]) (by decide)
      (by simp [Considered.skippedFor, Considered.shown, Considered.readKey, chorded])
  rw [if_neg chorded]
  by_cases key : p.vk names ≤ 0 ∨ 255 < p.vk names
  · rw [if_pos key]
    have out_of_range : ¬(0 < p.vk names ∧ p.vk names ≤ 255) := by omega
    exact skip (by simp [rules, pad, unnamed, chorded, out_of_range]) (by decide)
      (by simp [Considered.skippedFor, Considered.shown, Considered.readKey, unnamed])
  rw [if_neg key]
  have in_range : 0 < p.vk names ∧ p.vk names ≤ 255 := by omega
  by_cases mods : p.mods names = 0
  swap
  · rw [if_pos mods]
    exact skip (by simp [rules, pad, unnamed, chorded, in_range, mods]) (by decide)
      (by simp [Considered.skippedFor, Considered.shown, Considered.readKey, chorded])
  rw [if_neg (by simpa using mods)]
  by_cases shift : isShiftVk (p.vk names)
  · rw [if_pos shift]
    exact skip (by simp [rules, pad, unnamed, chorded, in_range, mods, shift]) (by decide) rfl
  rw [if_neg shift]
  by_cases summon : fixed.summonVk ≠ 0 ∧ p.vk names = fixed.summonVk
  · rw [if_pos summon]
    have summoned : (p.vk names = fixed.summonVk) = True := eq_true summon.2
    exact skip (by simp [rules, pad, unnamed, chorded, in_range, mods, shift, summoned]) (by decide)
      (by simp [Considered.skippedFor, Considered.shown, Considered.readKey, summoned, Considered.name])
  rw [if_neg summon]
  have apart : p.vk names ≠ fixed.summonVk := fun same => summon ⟨by omega, same⟩
  by_cases half : fixed.halfOfSummon (p.vk names)
  · rw [if_pos half]
    exact skip (by simp [rules, pad, unnamed, chorded, in_range, mods, shift, half]) (by decide)
      (by simp [Considered.skippedFor, Considered.shown, Considered.readKey, apart, Considered.name])
  rw [if_neg half]
  cases own : fixed.fixedNav (p.vk names) with
  | some nav =>
    dsimp only
    by_cases same : nav = p.1.nav
    · have first : codeRefusal names fixed p = some .sameAsFixed := by
        simp [rules, pad, unnamed, chorded, in_range, mods, shift, apart, half, own, same]
      have entry : p.skippedFor names fixed .sameAsFixed = ⟨copyStr 24 (p.1.element.getD []),
          copyStr 32 (p.name names), p.1.nav, .sameAsFixed, p.vk names, nav, false⟩ := by
        simp [Considered.skippedFor, Considered.shown, Considered.readKey, own]
      have recorded := recordSkip_room room entry
      rw [if_pos same, if_pos same]
      exact recorded ▸ .same first
    · rw [if_neg same, if_neg same]
      exact skip (by simp [rules, pad, unnamed, chorded, in_range, mods, shift, apart, half, own, same])
        (by decide)
        (by simp [Considered.skippedFor, Considered.shown, Considered.readKey, own, Considered.name])
  | none =>
    by_cases registered : p.vk names ∈ fixed.registered
    · rw [if_pos registered]
      exact skip
        (by simp [rules, pad, unnamed, chorded, in_range, mods, shift, apart, half, own, registered])
        (by decide) rfl
    rw [if_neg registered]
    have first : codeRefusal names fixed p = none := by
      simp [rules, pad, unnamed, chorded, in_range, mods, shift, apart, half, own, registered]
    by_cases taken : p.vk names ∈ out.aliases.map MenuAlias.vk
    · rw [if_pos taken]
      have entry : p.skippedFor names fixed .duplicate = ⟨copyStr 24 (p.1.element.getD []),
          copyStr 32 (p.name names), p.1.nav, .duplicate, p.vk names, .count, false⟩ := rfl
      have recorded := recordSkip_room room entry
      exact recorded ▸ .duplicate first taken
    · rw [if_neg taken, if_neg (by omega)]
      exact .adopted first taken

variable (names fixed) in
structure Settled (slots : List Considered) (out : Resolving) : Prop where
  aliases : out.aliases =
    ((fates names (codeRefusal names fixed) slots).filter fun f => f.2 = none).map fun f =>
      f.1.alias_ names
  skipped : out.skipped = (fates names (codeRefusal names fixed) slots).filterMap fun f =>
    f.2.map (f.1.skippedFor names fixed)
  named : ∀ nav, out.navName nav =
    ((fates names (codeRefusal names fixed) slots).find? (feeds nav)).map fun f => f.1.name names
  taken : ∀ vk, vk ∈ out.aliases.map MenuAlias.vk ↔
    ∃ q ∈ slots, codeRefusal names fixed q = none ∧ q.vk names = vk
  distinct : (out.aliases.map MenuAlias.vk).Nodup

variable {slots : List Considered} {out : Resolving}

theorem nameNav_named (out : Resolving) (nav other : MenuNav) (name : Text) :
    (out.nameNav nav (copyStr 12 name)).navName other =
      (out.navName other).or (if nav = other then some (copyStr 12 name) else none) := by
  unfold Resolving.nameNav
  by_cases here : nav = other
  · subst here
    cases known : out.navName nav <;> simp [known, copyStr_copyStr]
  · cases known : out.navName nav <;> simp [here, Function.update_of_ne (Ne.symm here)]

@[simp] theorem nameNav_aliases (out : Resolving) (nav : MenuNav) (name : Text) :
    (out.nameNav nav name).aliases = out.aliases := by
  unfold Resolving.nameNav
  split <;> rfl

@[simp] theorem nameNav_skipped (out : Resolving) (nav : MenuNav) (name : Text) :
    (out.nameNav nav name).skipped = out.skipped := by
  unfold Resolving.nameNav
  split <;> rfl

theorem find_feeds_snoc (p : Considered) (nav : MenuNav) :
    ((fates names refusal (slots ++ [p])).find? (feeds nav)).map (fun f => f.1.name names) =
      (((fates names refusal slots).find? (feeds nav)).map fun f => f.1.name names).or
        (if feeds nav (p, fate names refusal slots p) then some (p.name names) else none) := by
  rw [fates_snoc, List.find?_append]
  cases (fates names refusal slots).find? (feeds nav) with
  | some f => simp
  | none => by_cases feed : feeds nav (p, fate names refusal slots p) <;> simp [feed]

theorem Settled.step (known : Settled names fixed slots out) (p : Considered)
    (room : out.skipped.length < kMenuAliasMax) (room' : out.aliases.length < kMenuAliasMax) :
    Settled names fixed (slots ++ [p])
      (resolveSlot names fixed out p.1 p.2) := by
  have resolved : Resolved names fixed out p _ := resolveSlot_resolved p room room'
  generalize resolveSlot names fixed out p.1 p.2 = next at resolved
  cases resolved with
  | skipped reason first other =>
    have fate_eq : fate names (codeRefusal names fixed) slots p = some reason := by
      simp [fate, first]
    refine ⟨?_, ?_, fun nav => ?_, fun vk => ?_, known.distinct⟩
    · simp [fates_snoc, fate_eq, known.aliases]
    · simp [fates_snoc, fate_eq, known.skipped]
    · rw [find_feeds_snoc, fate_eq, ← known.named]
      simp [feeds, other]
    · simp [known.taken, first]
  | same first =>
    have fate_eq : fate names (codeRefusal names fixed) slots p = some .sameAsFixed := by
      simp [fate, first]
    refine ⟨?_, ?_, fun nav => ?_, fun vk => ?_, by simpa using known.distinct⟩
    · simp [fates_snoc, fate_eq, known.aliases]
    · simp [fates_snoc, fate_eq, known.skipped]
    · rw [find_feeds_snoc, fate_eq, ← known.named]
      unfold Considered.name
      rw [nameNav_named]
      simp [feeds]
    · simp [known.taken, first]
  | duplicate first taken =>
    have earlier := (known.taken _).mp taken
    have fate_eq : fate names (codeRefusal names fixed) slots p = some .duplicate := by
      simp only [fate, first, if_pos earlier]
    refine ⟨?_, ?_, fun nav => ?_, fun vk => ?_, known.distinct⟩
    · simp [fates_snoc, fate_eq, known.aliases]
    · simp [fates_snoc, fate_eq, known.skipped]
    · rw [find_feeds_snoc, fate_eq, ← known.named]
      simp [feeds]
    · rw [known.taken]
      constructor
      · rintro ⟨q, member, facts⟩
        exact ⟨q, List.mem_append_left _ member, facts⟩
      · rintro ⟨q, member, facts⟩
        obtain before | here := List.mem_append.mp member
        · exact ⟨q, before, facts⟩
        · rw [List.mem_singleton.mp here] at facts
          rw [← facts.2]
          exact earlier
  | adopted first free =>
    have fate_eq : fate names (codeRefusal names fixed) slots p = none := by
      simp only [fate, first, if_neg (mt (known.taken _).mpr free)]
    refine ⟨?_, ?_, fun nav => ?_, fun vk => ?_, ?_⟩
    · simp [fates_snoc, fate_eq, known.aliases]
    · simp [fates_snoc, fate_eq, known.skipped]
    · rw [find_feeds_snoc, fate_eq, ← known.named]
      unfold Considered.name
      rw [nameNav_named]
      simp [feeds]
    · have own : (p.alias_ names).vk = p.vk names := rfl
      have old := known.taken vk
      simp only [nameNav_aliases, List.map_append, List.map_cons, List.map_nil, List.mem_append,
        List.mem_singleton, own, old]
      constructor
      · rintro (⟨q, member, facts⟩ | rfl)
        · exact ⟨q, .inl member, facts⟩
        · exact ⟨p, .inr rfl, first, rfl⟩
      · rintro ⟨q, before | rfl, facts⟩
        · exact .inl ⟨q, before, facts⟩
        · exact .inr facts.2.symm
    · simp only [nameNav_aliases, List.map_append, List.map_cons, List.map_nil]
      refine List.nodup_append.mpr ⟨known.distinct, by simp, fun vk held other here same => ?_⟩
      rw [same, List.mem_singleton.mp here] at held
      exact free held

theorem length_fates (fs : List (Considered × Option MenuAliasSkip)) :
    (fs.filter fun f => f.2 = none).length +
        (fs.filterMap fun f => f.2.map (f.1.skippedFor names fixed)).length = fs.length := by
  induction fs with
  | nil => rfl
  | cons f fs ih =>
    obtain ⟨p, reason⟩ := f
    cases reason <;> simp <;> omega

theorem Settled.length (known : Settled names fixed slots out) :
    out.aliases.length + out.skipped.length = slots.length := by
  rw [known.aliases, List.length_map, known.skipped, length_fates]
  exact List.length_mapIdx

theorem settled_run (few : slots.length ≤ kMenuAliasMax) :
    Settled names fixed slots
      (slots.foldl (fun out p => resolveSlot names fixed out p.1 p.2) {}) := by
  induction slots using List.reverseRecOn with
  | nil => exact ⟨rfl, rfl, fun _ => rfl, by simp, List.nodup_nil⟩
  | append_singleton slots p ih =>
    rw [List.length_append, List.length_singleton] at few
    have known := ih (by omega)
    have total := known.length
    rw [List.foldl_append]
    exact known.step p (by omega) (by omega)

theorem foldl_resolveElement (elements : List MenuAliasInput) (out : Resolving) :
    elements.foldl (resolveElement names fixed) out =
      ((elements.filter fun e => e.nav ≠ .count).flatMap MenuAliasInput.considered).foldl
        (fun out p => resolveSlot names fixed out p.1 p.2) out := by
  induction elements generalizing out with
  | nil => rfl
  | cons e elements ih =>
    rw [List.foldl_cons, ih]
    unfold resolveElement
    by_cases none_ : e.nav = .count <;> simp [none_]

theorem length_considered (input : List MenuAliasInput) :
    (considered input).length ≤ kMenuAliasMax := by
  have each (elements : List MenuAliasInput) :
      (elements.flatMap MenuAliasInput.considered).length ≤ 2 * elements.length := by
    induction elements with
    | nil => exact Nat.le_refl 0
    | cons e elements ih =>
      have two : e.considered.length ≤ 2 := by
        simp only [MenuAliasInput.considered, List.length_map, List.length_take,
          List.length_finRange]
        omega
      rw [List.flatMap_cons, List.length_append, List.length_cons]
      omega
  have ten := List.length_take_le (kMenuAliasMax / 2) input
  have fewer := List.length_filter_le (fun e : MenuAliasInput => e.nav ≠ .count)
    (input.take (kMenuAliasMax / 2))
  have double := each ((input.take (kMenuAliasMax / 2)).filter fun e => e.nav ≠ .count)
  unfold considered
  omega

theorem codeRefusal_clear {p : Considered} (clear : ¬p.Blurred names) :
    codeRefusal names fixed p = firstRefusal names fixed p := by
  unfold codeRefusal
  split
  · rename_i flagged
    obtain ⟨pad, bound, chorded⟩ := flagged
    have named : p.Named names := by
      by_contra unnamed
      exact clear ⟨pad, bound, chorded, unnamed⟩
    simp [firstRefusal, refusals, pad, bound, chorded, named]
  · rfl

theorem codeRefusal_blurred {p : Considered} (blurred : p.Blurred names) :
    codeRefusal names fixed p = some .chord ∧ firstRefusal names fixed p = some .unnamed := by
  obtain ⟨pad, bound, chorded, unnamed⟩ := blurred
  exact ⟨if_pos ⟨pad, bound, chorded⟩, by simp [firstRefusal, refusals, pad, bound, unnamed]⟩

theorem fates_congr {other : Considered → Option MenuAliasSkip}
    (same : ∀ p ∈ slots, refusal p = other p) : fates names refusal slots = fates names other slots := by
  induction slots using List.reverseRecOn with
  | nil => rfl
  | append_singleton slots p ih =>
    have here := same p (List.mem_append_right _ (List.mem_singleton_self p))
    have before : ∀ q ∈ slots, refusal q = other q := fun q member =>
      same q (List.mem_append_left _ member)
    have earlier : (∃ q ∈ slots, refusal q = none ∧ q.vk names = p.vk names) ↔
        ∃ q ∈ slots, other q = none ∧ q.vk names = p.vk names :=
      exists_congr fun q => and_congr_right fun member => by rw [before q member]
    rw [fates_snoc, fates_snoc, ih before]
    unfold fate
    simp only [here, earlier]

/-- A slot is skipped as a chord exactly when that rule is the first to refuse it. -/
theorem count_fates_chord (slots : List Considered) :
    ((fates names refusal slots).filterMap Prod.snd).count .chord =
      slots.countP fun p => refusal p = some .chord := by
  induction slots using List.reverseRecOn with
  | nil => rfl
  | append_singleton slots p ih =>
    rw [fates_snoc, List.filterMap_append, List.count_append, List.countP_append, ih]
    congr 1
    unfold fate
    cases first : refusal p with
    | some reason => by_cases chord : reason = .chord <;> simp [first, chord]
    | none =>
      dsimp only
      split <;> simp [first]

theorem countP_chord (slots : List Considered) :
    slots.countP (fun p => codeRefusal names fixed p = some .chord) =
      slots.countP (fun p => firstRefusal names fixed p = some .chord) +
        slots.countP fun p => p.Blurred names := by
  induction slots with
  | nil => rfl
  | cons p slots ih =>
    rw [List.countP_cons, List.countP_cons, List.countP_cons, ih]
    by_cases blurred : p.Blurred names
    · obtain ⟨code, told⟩ : codeRefusal names fixed p = some .chord ∧
          firstRefusal names fixed p = some .unnamed := codeRefusal_blurred blurred
      simp [code, told, blurred]
      omega
    · simp [codeRefusal_clear blurred, blurred]
      omega

structure Free (fixed : MenuFixedKeys) (vk : Int) : Prop where
  shift : ¬isShiftVk vk
  own : ∀ k ∈ fixed.keys, k.1 ≠ vk
  escape : vk ≠ fixed.escapeVk
  summon : vk ≠ fixed.summonVk
  ctrl : isCtrlVk vk → fixed.summonMods &&& kHotkeyCtrl = 0
  alt : isAltVk vk → fixed.summonMods &&& kHotkeyAlt = 0
  registered : vk ∉ fixed.registered

theorem free_of_firstRefusal {p : Considered} (first : firstRefusal names fixed p = none) :
    Free fixed (p.vk names) := by
  have passed : ∀ rule ∈ refusals names fixed p, rule.1 = false := by
    simpa [firstRefusal, List.find?_eq_none] using first
  simp only [refusals, List.forall_mem_cons, decide_eq_false_iff_not, not_or, not_not]
    at passed
  obtain ⟨-, ⟨-, key⟩, -, shift, ⟨summon, half⟩, -, none_, registered, -⟩ := passed
  unfold MenuFixedKeys.fixedNav at none_
  split at none_
  · cases none_
  rename_i missing
  refine ⟨by simp [shift], ?_, ?_, summon, ?_, ?_, registered⟩
  · simpa using List.find?_eq_none.mp missing
  · split at none_
    · cases none_
    · have positive := key.1
      omega
  · intro ctrl
    simp only [MenuFixedKeys.halfOfSummon, ctrl] at half
    grind
  · intro alt
    simp only [MenuFixedKeys.halfOfSummon, alt] at half
    grind

structure MenuAliasTable.Follows (names : KeyNames) (fixed : MenuFixedKeys)
    (slots : List Considered) (table : MenuAliasTable) : Prop where
  aliases : table.aliases =
    ((fates names (firstRefusal names fixed) slots).filter fun f => f.2 = none).map fun f =>
      f.1.alias_ names
  skipped : table.skipped = (fates names (firstRefusal names fixed) slots).filterMap fun f =>
    f.2.map (f.1.skippedFor names fixed)
  all : table.aliases.length + table.skipped.length = slots.length
  legend : ∀ nav, table.navName nav =
    (((fates names (firstRefusal names fixed) slots).find? (feeds nav)).map fun f =>
      f.1.name names).getD (kFixedNavName nav)
  distinct : (table.aliases.map MenuAlias.vk).Nodup
  free : ∀ a ∈ table.aliases, Free fixed a.vk

theorem settled_menuAliasResolve (names : KeyNames) (fixed : MenuFixedKeys)
    (input : List MenuAliasInput) :
    ∃ out, Settled names fixed (considered input) out ∧ menuAliasResolve names fixed input =
      { aliases := out.aliases, skipped := out.skipped
        navName := fun nav => (out.navName nav).getD (kFixedNavName nav)
        adopted := 0 < out.aliases.length } := by
  refine ⟨_, settled_run (length_considered input), ?_⟩
  unfold menuAliasResolve considered
  rw [foldl_resolveElement]

theorem reasons_of_entries (fs : List (Considered × Option MenuAliasSkip)) :
    (fs.filterMap fun f => f.2.map (f.1.skippedFor names fixed)).map MenuAliasSkipped.reason =
      fs.filterMap Prod.snd := by
  rw [List.map_filterMap]
  refine List.filterMap_congr fun f _ => ?_
  rw [Option.map_map]
  exact Option.map_id'

/-- Menu aliases never share a key, and every slot has the outcome of the rules as they are
told, exactly when no slot that is flagged as a chord is on a key without a name. -/
theorem menuAliasResolve_follows_iff (names : KeyNames) (fixed : MenuFixedKeys)
    (input : List MenuAliasInput) :
    (menuAliasResolve names fixed input).Follows names fixed (considered input) ↔
      ∀ p ∈ considered input, ¬p.Blurred names := by
  obtain ⟨out, known, table⟩ := settled_menuAliasResolve names fixed input
  rw [table]
  constructor
  · intro follows
    have entries := congrArg (List.map MenuAliasSkipped.reason) (known.skipped.symm.trans follows.skipped)
    rw [reasons_of_entries, reasons_of_entries] at entries
    have chords := congrArg (List.count MenuAliasSkip.chord) entries
    rw [count_fates_chord, count_fates_chord, countP_chord] at chords
    have none_ : (considered input).countP (fun p => p.Blurred names) = 0 := by omega
    simpa using List.countP_eq_zero.mp none_
  · intro clear
    have same : fates names (codeRefusal names fixed) (considered input) =
        fates names (firstRefusal names fixed) (considered input) :=
      fates_congr fun p member => codeRefusal_clear (clear p member)
    refine ⟨?_, ?_, known.length, fun nav => ?_, known.distinct, ?_⟩
    · rw [known.aliases, same]
    · rw [known.skipped, same]
    · dsimp only
      rw [known.named, same]
    · intro a member
      obtain ⟨q, isSlot, first, key⟩ := (known.taken a.vk).mp (List.mem_map_of_mem member)
      rw [← key]
      rw [codeRefusal_clear (clear q isSlot)] at first
      exact free_of_firstRefusal first

def bracketless : KeyNames where
  virtualKeyFromName _ := (0, 0)
  menuKeyDisplayName _ := []

def bracketChord : MenuAliasInput where
  element := some ['U', 'I', '_', 'U', 'p']
  nav := .up
  repeats := true
  slots := 1
  slot _ :=
    { binding := some "LEFTBRACKET".toList, eliteName := some "Key_LeftBracket".toList
      keyboard := true, chorded := true, modifierMain := false }

def plainKeys : MenuFixedKeys where
  keys := [(0x26, .up)]
  escapeVk := 0x1B
  summonVk := 0
  summonMods := 0
  registered := []

/-- The key has no name, and the slot is told as a chord. -/
theorem bracketChord_told_as_chord :
    ¬(menuAliasResolve bracketless plainKeys [bracketChord]).Follows bracketless plainKeys
      (considered [bracketChord]) := by
  intro follows
  have reasons := congrArg (List.map MenuAliasSkipped.reason) follows.skipped
  have coded : (menuAliasResolve bracketless plainKeys [bracketChord]).skipped.map
      MenuAliasSkipped.reason = [.chord] := by decide +kernel
  have told : (fates bracketless (firstRefusal bracketless plainKeys) (considered [bracketChord])).filterMap
      Prod.snd = [.unnamed] := by decide +kernel
  rw [coded, reasons_of_entries, told] at reasons
  cases reasons

end

end EdvrPatch.Ui
