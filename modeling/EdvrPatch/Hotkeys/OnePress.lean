import EdvrPatch.Hotkeys.Hotkey

/-! One press fires one hotkey, as long as one of the bindings that are held is the best
of all that the registry holds. -/
namespace EdvrPatch.Hotkeys

variable {ι : Type}

namespace Board

variable (s : Board ι) (keys : Int → Bool) (held : UInt32)

def Current (b : Binding) : Prop :=
  b.vk ≠ 0 ∧ ∃ i, (s.hotkey i).binding = b

def Pressed (vk : Int) : Prop :=
  s.keys vk = false ∧ keys vk = true ∧ ∃ b, s.Current b ∧ b.vk = vk ∧ modsSatisfied b.mods held = true

/-- One binding on each key that was pressed fires, and no hotkey does whose key was down
at its last poll. -/
def OnePress : Prop :=
  (∀ vk, s.Pressed keys held vk →
    ∃! b : Binding, s.Current b ∧ b.vk = vk ∧ ∃ i, (s.hotkey i).binding = b ∧ s.fires keys held i = true) ∧
  ∀ i, s.found i = true → s.fires keys held i = false

/-- The binding is held, has all the modifiers of every registered one on its key that is
held, and is that of a hotkey that is not latched. -/
structure Best (b : Binding) : Prop where
  current : s.Current b
  satisfied : modsSatisfied b.mods held = true
  contains : ∀ r ∈ s.bindings, r.vk = b.vk → modsSatisfied r.mods held = true →
    modsSatisfied r.mods b.mods = true
  unlatched : ∃ i, (s.hotkey i).binding = b ∧ (s.hotkey i).down = false

def Decided : Prop :=
  ∀ vk, s.Pressed keys held vk → ∃! b : Binding, b.vk = vk ∧ s.Best held b

end Board

def Step.binding (virtualKeyFromName : Text → Int × UInt32) : Step ι → Option Binding
  | .setBinding _ name =>
    if (virtualKeyFromName name).1 = 0 then none
    else some ⟨(virtualKeyFromName name).1, (virtualKeyFromName name).2⟩
  | .poll _ _ => none

def firstDistinct (asked : List Binding) : List Binding :=
  asked.reverse.dedup.reverse

theorem modsSatisfied_self (mods : UInt32) : modsSatisfied mods mods = true := by
  unfold modsSatisfied
  rw [UInt32.and_not_self]
  rfl

theorem betterMatchExists_eq_false {bindings : List Binding} {mine : Binding} {held : UInt32} :
    betterMatchExists bindings mine held = false ↔
      ∀ r ∈ bindings, r.vk = mine.vk → modsSatisfied r.mods held = true →
        modsSatisfied r.mods mine.mods = true := by
  unfold betterMatchExists
  rw [List.any_eq_false]
  refine forall₂_congr fun r _ => ⟨fun none same sat => ?_, fun all some => ?_⟩
  · by_contra lacks
    have other : r.mods ≠ mine.mods := by
      intro eq
      rw [eq] at lacks
      exact lacks (modsSatisfied_self mine.mods)
    exact none (by simp [same, other, sat, Bool.eq_false_iff.mpr lacks])
  · simp only [Bool.and_eq_true, beq_iff_eq, Bool.not_eq_true'] at some
    obtain ⟨⟨⟨same, -⟩, sat⟩, lacks⟩ := some
    rw [all same sat] at lacks
    cases lacks

namespace Board

variable {s : Board ι} {keys : Int → Bool} {held : UInt32}

theorem fires_iff {i : ι} : s.fires keys held i = true ↔
    ((s.hotkey i).binding.vk ≠ 0 ∧ keys (s.hotkey i).binding.vk = true ∧
      modsSatisfied (s.hotkey i).binding.mods held = true ∧
      ∀ r ∈ s.bindings, r.vk = (s.hotkey i).binding.vk → modsSatisfied r.mods held = true →
        modsSatisfied r.mods (s.hotkey i).binding.mods = true) ∧ (s.hotkey i).down = false := by
  rw [← betterMatchExists_eq_false]
  unfold fires Hotkey.pressedWith hotkeyWouldFire
  by_cases bound : (s.hotkey i).binding.vk = 0
  · simp [bound]
  · rw [if_neg bound]
    simp [bound, and_assoc]

theorem fires_binding_iff {b : Binding} (down : keys b.vk = true) :
    (s.Current b ∧ ∃ i, (s.hotkey i).binding = b ∧ s.fires keys held i = true) ↔ s.Best held b := by
  constructor
  · rintro ⟨current, i, rfl, fires⟩
    obtain ⟨⟨-, -, satisfied, contains⟩, up⟩ := fires_iff.mp fires
    exact ⟨current, satisfied, contains, i, rfl, up⟩
  · rintro ⟨current, satisfied, contains, i, rfl, up⟩
    exact ⟨current, i, rfl, fires_iff.mpr ⟨⟨current.1, down, satisfied, contains⟩, up⟩⟩

def Latched (s : Board ι) : Prop :=
  ∀ i, s.found i = true → (s.hotkey i).down = true

theorem Latched.silent (latched : Latched s) {i : ι} (found : s.found i = true) :
    s.fires keys held i = false := by
  refine Bool.eq_false_iff.mpr fun fires => ?_
  have up := (fires_iff.mp fires).2
  rw [latched i found] at up
  cases up

section

variable [DecidableEq ι] {virtualKeyFromName : Text → Int × UInt32}

theorem Latched.step (latched : Latched s) (step : Step ι) :
    Latched (s.step virtualKeyFromName step) := by
  intro i found
  cases step with
  | setBinding j name =>
    change (Function.update s.hotkey j _ i).down = true
    by_cases this : i = j
    · subst this
      rw [Function.update_self]
      exact latched i found
    · rw [Function.update_of_ne this]
      exact latched i found
  | poll keys held =>
    change (((s.hotkey i).binding.vk ≠ 0 && keys (s.hotkey i).binding.vk) = true) at found
    rw [Bool.and_eq_true, decide_eq_true_eq] at found
    obtain ⟨bound, down⟩ := found
    change ((s.hotkey i).pressedWith s.bindings (keys (s.hotkey i).binding.vk) held true).2.down = true
    unfold Hotkey.pressedWith
    rw [if_neg bound]
    exact down

theorem Latched.run (steps : List (Step ι)) : Latched (run virtualKeyFromName steps) :=
  List.foldlRecOn steps _ (fun _ none => absurd none Bool.false_ne_true)
    fun _ latched step _ => latched.step step

/-- A registry that has the first sixteen of the distinct bindings has them after one more. -/
theorem registerBinding_firstDistinct (asked : List Binding) {b : Binding} (named : b.vk ≠ 0) :
    registerBinding ((firstDistinct asked).take 16) b = (firstDistinct (asked ++ [b])).take 16 := by
  have mem : b ∈ firstDistinct asked ↔ b ∈ asked := by simp [firstDistinct]
  have same (known : b ∈ asked) : firstDistinct (asked ++ [b]) = firstDistinct asked := by
    simp [firstDistinct, known]
  have more (new : b ∉ asked) : firstDistinct (asked ++ [b]) = firstDistinct asked ++ [b] := by
    simp [firstDistinct, new]
  unfold registerBinding
  rw [if_neg named, List.length_take]
  by_cases known : b ∈ asked
  · rw [same known]
    split
    · rfl
    split
    · rename_i other room
      rw [List.take_of_length_le (by omega)] at other
      exact absurd (mem.mpr known) other
    · rfl
  · rw [more known, if_neg fun held => known (mem.mp (List.mem_of_mem_take held))]
    split
    · rw [List.take_of_length_le (by omega), List.take_of_length_le (by simp; omega)]
    · rw [List.take_append_of_le_length (by omega)]

theorem run_bindings (steps : List (Step ι)) :
    (run virtualKeyFromName steps).bindings =
      (firstDistinct (steps.filterMap (Step.binding virtualKeyFromName))).take 16 := by
  induction steps using List.reverseRecOn with
  | nil => rfl
  | append_singleton steps step ih =>
    rw [List.filterMap_append, run, List.foldl_append]
    change ((run virtualKeyFromName steps).step virtualKeyFromName step).bindings = _
    cases step with
    | setBinding i name =>
      change registerBinding (run virtualKeyFromName steps).bindings
        ⟨(virtualKeyFromName name).1, _⟩ = _
      rw [ih]
      by_cases named : (virtualKeyFromName name).1 = 0
      · simp [Step.binding, registerBinding, named]
      · rw [registerBinding_firstDistinct _ named]
        simp [Step.binding, named]
    | poll keys held =>
      change (run virtualKeyFromName steps).bindings = _
      rw [ih]
      exact congrArg _ (congrArg firstDistinct (List.append_nil _).symm)

end

/-- In any run the registry has the first sixteen distinct bindings that were set, and a poll
answers each press with one binding exactly if one is the best. -/
theorem one_press_iff [DecidableEq ι] (virtualKeyFromName : Text → Int × UInt32)
    (steps : List (Step ι)) (keys : Int → Bool) (held : UInt32) :
    (run virtualKeyFromName steps).bindings =
        (firstDistinct (steps.filterMap (Step.binding virtualKeyFromName))).take 16 ∧
      ((run virtualKeyFromName steps).OnePress keys held ↔
        (run virtualKeyFromName steps).Decided keys held) := by
  refine ⟨run_bindings steps, ?_⟩
  have silent : ∀ i, (run virtualKeyFromName steps).found i = true →
      (run virtualKeyFromName steps).fires keys held i = false :=
    fun _ => (Latched.run steps).silent
  generalize run virtualKeyFromName steps = s at silent
  unfold OnePress Decided
  rw [and_iff_left silent]
  refine forall₂_congr fun vk pressed => ?_
  have same : ∀ b : Binding, (s.Current b ∧ b.vk = vk ∧
      ∃ i, (s.hotkey i).binding = b ∧ s.fires keys held i = true) ↔ b.vk = vk ∧ s.Best held b := by
    intro b
    rw [and_left_comm]
    refine and_congr_right fun own => fires_binding_iff ?_
    rw [own]
    exact pressed.2.1
  exact existsUnique_congr same

end Board

def named (name : Text) : Int × UInt32 :=
  if name = "CTRL+F".toList then (0x46, kHotkeyCtrl)
  else if name = "SHIFT+F".toList then (0x46, kHotkeyShift)
  else (0, 0)

/-- Of two chords on one key neither contains the other, and a press with both modifiers
held fires none. -/
theorem crossed_chords_fire_none :
    ¬∀ (steps : List (Step Bool)) (keys : Int → Bool) (held : UInt32),
      (Board.run named steps).OnePress keys held := by
  intro all
  obtain ⟨one, -⟩ := all [.setBinding false "CTRL+F".toList, .setBinding true "SHIFT+F".toList]
    (fun vk => vk = 0x46) (kHotkeyCtrl ||| kHotkeyShift)
  obtain ⟨b, ⟨-, -, i, -, fires⟩, -⟩ := one 0x46
    ⟨rfl, rfl, ⟨0x46, kHotkeyCtrl⟩, ⟨by decide, false, by decide⟩, rfl, by decide⟩
  cases i with
  | false => exact absurd fires (by decide)
  | true => exact absurd fires (by decide)

end EdvrPatch.Hotkeys
