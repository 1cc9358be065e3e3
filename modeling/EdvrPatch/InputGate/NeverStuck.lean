import EdvrPatch.InputGate.Gate

/-! What the game gets of a key. A press that it got is followed by its release, but for a
summon key whose modifiers are pressed in between, and a key that is held when the menu
closes stays silent, as far as the gate can name it. -/
namespace EdvrPatch.InputGate

open Lib

/-- An event of the device, with the gate and the call that it was read with. -/
structure Reading where
  gate : Gate
  call : DataCall
  event : DiObjectData

namespace Reading

variable (s : Setup) (r : Reading)

def chorded : Bool := Gate.swallow s r.call && decide (r.event.dwOfs = s.unpackSummon.1)

def waits : Bool := r.gate.releaseTail && decide (r.event.dwOfs < 256) && r.gate.heldDik r.event.dwOfs

def given : Bool :=
  !r.call.filtered || !(r.chorded s || (r.event.down && (r.gate.keysPrivate || r.waits)))

end Reading

def GateOp.readings (g : Gate) : GateOp → List Reading
  | .data call => call.events.map (Reading.mk g call)
  | _ => []

def readings (s : Setup) (ops : List GateOp) : List Reading :=
  (traced (fun g op => (Gate.apply s g op, GateOp.readings g op)) {} ops).2

def menuOpen (s : Setup) (ops : List GateOp) : Bool :=
  ops.foldl (fun isOpen op => match op with
    | .setPrivate priv _ => priv && s.privateWanted
    | _ => isOpen) false

def GateOp.released (s : Setup) (vk : Nat) : GateOp → Bool
  | .setPrivate priv readKey => !(priv && s.privateWanted) && !readKey vk
  | .tick readKey => !readKey vk
  | .data _ => false

/-- The key was held when the menu closed, and has not been released since. -/
def HeldSince (s : Setup) (vk : Nat) (ops : List GateOp) : Prop :=
  VK_XBUTTON2 < vk ∧ vk < 256 ∧ ∃ before priv readKey after,
    ops = before ++ GateOp.setPrivate priv readKey :: after ∧ menuOpen s before = true ∧
    (priv && s.privateWanted) = false ∧ readKey vk = true ∧ ∀ op ∈ after, op.released s vk = false

/-- `vkOf` is the virtual key that the key with a scan code sets. -/
structure NeverStuck (s : Setup) (vkOf : Nat → Nat) (ops : List GateOp) : Prop where
  inOrder : (received s ops).Sublist (produced ops)
  /-- The release after a press that the game got. -/
  released : ∀ before (r : Reading) between (r' : Reading) after,
    readings s ops = before ++ r :: between ++ r' :: after →
    r.event.down = true → r'.event.down = false → r'.event.dwOfs = r.event.dwOfs →
    (∀ m ∈ between, m.event.dwOfs = r.event.dwOfs → m.event.down = true) → r.given s = true →
    r'.given s = true
  silent : ∀ before call after, ops = before ++ GateOp.data call :: after →
    ∀ e ∈ (gateAfter s before).filterDeviceData s call, e.down = true → ¬HeldSince s (vkOf e.dwOfs) before

/-- No press is read before the modifiers of the summon key are, and the gate has a name
for each key that is held. -/
structure Spared (s : Setup) (vkOf : Nat → Nat) (ops : List GateOp) : Prop where
  /-- A release that the chord swallows ends a press that was read with the menu open, the
  modifiers held, or the key waiting for its release. -/
  chord : ∀ before (r : Reading) between (r' : Reading) after,
    readings s ops = before ++ r :: between ++ r' :: after →
    r.event.down = true → r'.event.down = false → r'.event.dwOfs = r.event.dwOfs →
    (∀ m ∈ between, m.event.dwOfs = r.event.dwOfs → m.event.down = true) →
    r'.call.filtered = true → r'.chorded s = true →
    r.call.filtered = true ∧ (r.gate.keysPrivate = true ∨ r.chorded s = true ∨ r.waits = true)
  /-- A press of a key that is held since the menu closed is read with the menu open or the
  modifiers held, or some key that is held has its scan code. -/
  named : ∀ before call after, ops = before ++ GateOp.data call :: after → ∀ e ∈ call.events, e.down = true →
    HeldSince s (vkOf e.dwOfs) before → call.filtered = true ∧
      (menuOpen s before = true ∨ (Reading.mk (gateAfter s before) call e).chorded s = true ∨
        ∃ vk, HeldSince s vk before ∧ s.inputGateDikOf vk = e.dwOfs ∧ e.dwOfs ≠ 0)

section

variable {s : Setup} {g : Gate} {call : DataCall} {ops : List GateOp} {op : GateOp}

theorem dataKept_eq (s : Setup) (g : Gate) (call : DataCall) (e : DiObjectData) :
    dataKept g.keysPrivate s.unpackSummon.1 (Gate.swallow s call) e =
      !((Reading.mk g call e).chorded s || (e.down && g.keysPrivate)) := by
  unfold dataKept Reading.chorded Gate.swallow
  dsimp only
  generalize decide (s.unpackSummon.1 ≠ 0) = named
  generalize summonModsHeldNow s.unpackSummon.2 call.readKey = held
  generalize decide (e.dwOfs = s.unpackSummon.1) = same
  generalize e.down = down
  generalize g.keysPrivate = priv
  revert named held same down priv
  decide

theorem given_of_filtered (g : Gate) {call : DataCall} (filtered : call.filtered = true) (e : DiObjectData) :
    (Reading.mk g call e).given s =
      (!(g.releaseTail && g.tailDrops e) &&
        dataKept g.keysPrivate s.unpackSummon.1 (Gate.swallow s call) e) := by
  rw [dataKept_eq]
  unfold Reading.given Reading.waits Gate.tailDrops
  dsimp only
  rw [filtered]
  generalize (Reading.mk g call e).chorded s = chorded
  generalize e.down = down
  generalize g.keysPrivate = priv
  generalize g.releaseTail = tail
  generalize decide (e.dwOfs < 256) = small
  generalize g.heldDik e.dwOfs = held
  revert chorded down priv tail small held
  decide

theorem filterDeviceData_eq (s : Setup) (g : Gate) (call : DataCall) :
    g.filterDeviceData s call = call.events.filter fun e => (Reading.mk g call e).given s := by
  unfold Gate.filterDeviceData
  split
  · rename_i untouched
    refine (List.filter_eq_self.mpr fun e mem => ?_).symm
    rcases untouched with none | unfiltered
    · rw [none] at mem
      cases mem
    · have passes : call.filtered = false := by simpa using unfiltered
      unfold Reading.given
      rw [passes]
      rfl
  · rename_i touched
    have filtered : call.filtered = true := by simpa using (not_or.mp touched).2
    split
    · rename_i idle
      obtain ⟨shared, free, noTail⟩ := idle
      refine (List.filter_eq_self.mpr fun e _ => ?_).symm
      simp [Reading.given, Reading.chorded, Reading.waits, shared, free, noTail]
    · have first := compact_take (dataKept g.keysPrivate s.unpackSummon.1 (Gate.swallow s call)) call.events
        call.events.length
      unfold inputGateFilterData
      generalize compact (dataKept g.keysPrivate s.unpackSummon.1 (Gate.swallow s call)) call.events
        call.events.length = once at first
      obtain ⟨buffer, kept⟩ := once
      rw [List.take_length] at first
      dsimp only at first ⊢
      cases tail : g.releaseTail with
      | false =>
        refine first.trans (List.filter_congr fun e _ => ?_)
        rw [given_of_filtered g filtered e, tail]
        rfl
      | true =>
        rw [if_pos rfl, compact_take, first, List.filter_filter]
        refine List.filter_congr fun e _ => ?_
        rw [given_of_filtered g filtered e, tail]
        rfl

theorem gateAfter_snoc (s : Setup) (ops : List GateOp) (op : GateOp) :
    gateAfter s (ops ++ [op]) = (gateAfter s ops).apply s op := by
  simp [gateAfter, List.foldl_append]

theorem traced_gate {ε : Type} (say : Gate → GateOp → List ε) (ops : List GateOp) :
    (traced (fun g op => (Gate.apply s g op, say g op)) {} ops).1 = gateAfter s ops := by
  induction ops using List.reverseRecOn with
  | nil => rfl
  | append_singleton ops op ih =>
    rw [traced_concat, gateAfter_snoc, ih]

theorem readings_snoc (s : Setup) (ops : List GateOp) (op : GateOp) :
    readings s (ops ++ [op]) = readings s ops ++ op.readings (gateAfter s ops) := by
  unfold readings
  rw [traced_concat, traced_gate]

theorem received_snoc (s : Setup) (ops : List GateOp) (op : GateOp) :
    received s (ops ++ [op]) = received s ops ++ (gateAfter s ops).gives s op := by
  unfold received
  rw [traced_concat, traced_gate]

theorem received_eq (s : Setup) (ops : List GateOp) :
    received s ops = ((readings s ops).filter (Reading.given s)).map Reading.event := by
  induction ops using List.reverseRecOn with
  | nil => rfl
  | append_singleton ops op ih =>
    rw [received_snoc, readings_snoc, List.filter_append, List.map_append, ih]
    congr 1
    cases op with
    | data call =>
      show (gateAfter s ops).filterDeviceData s call = _
      rw [filterDeviceData_eq]
      simp [GateOp.readings, List.filter_map, Function.comp_def]
    | _ => rfl

theorem produced_eq (s : Setup) (ops : List GateOp) : produced ops = (readings s ops).map Reading.event := by
  induction ops using List.reverseRecOn with
  | nil => rfl
  | append_singleton ops op ih =>
    rw [readings_snoc, List.map_append, ← ih]
    unfold produced
    rw [List.flatMap_append]
    congr 1
    cases op with
    | data call => simp [GateOp.readings, Function.comp_def]
    | _ => rfl

theorem menuOpen_snoc (s : Setup) (ops : List GateOp) (op : GateOp) :
    menuOpen s (ops ++ [op]) = match op with
      | .setPrivate priv _ => priv && s.privateWanted
      | _ => menuOpen s ops := by
  unfold menuOpen
  rw [List.foldl_append]
  rfl

/-- A key is held after one more call if it was and is not found released, or if the call
closes the menu and finds it down. -/
theorem heldSince_snoc (vk : Nat) :
    HeldSince s vk (ops ++ [op]) ↔ (HeldSince s vk ops ∧ op.released s vk = false) ∨
      (VK_XBUTTON2 < vk ∧ vk < 256 ∧ menuOpen s ops = true ∧ ∃ priv readKey, op = .setPrivate priv readKey ∧
        (priv && s.privateWanted) = false ∧ readKey vk = true) := by
  constructor
  · rintro ⟨key, small, before, priv, readKey, after, split, isOpen, closes, down, held⟩
    rcases List.eq_nil_or_concat after with rfl | ⟨shorter, last, rfl⟩
    · obtain ⟨rfl, isOp⟩ := List.append_inj' split rfl
      cases isOp
      exact .inr ⟨key, small, isOpen, priv, readKey, rfl, closes, down⟩
    · rw [List.concat_eq_append, ← List.cons_append, ← List.append_assoc] at split
      obtain ⟨rfl, isOp⟩ := List.append_inj' split rfl
      cases isOp
      rw [List.concat_eq_append] at held
      exact .inl ⟨⟨key, small, before, priv, readKey, shorter, rfl, isOpen, closes, down,
        fun x mem => held x (List.mem_append_left _ mem)⟩, held op (by simp)⟩
  · rintro (⟨⟨key, small, before, priv, readKey, after, rfl, isOpen, closes, down, held⟩, still⟩ |
      ⟨key, small, isOpen, priv, readKey, rfl, closes, down⟩)
    · refine ⟨key, small, before, priv, readKey, after ++ [op], by simp, isOpen, closes, down, fun x mem => ?_⟩
      rcases List.mem_append.mp mem with old | new
      · exact held x old
      · rw [List.mem_singleton.mp new]
        exact still
    · exact ⟨key, small, ops, priv, readKey, [], rfl, isOpen, closes, down, nofun⟩

/-- While the menu is closed, the tail is the keys that are held since it did. -/
structure Tailed (s : Setup) (g : Gate) (held : Nat → Prop) : Prop where
  vk : ∀ vk, g.heldVk vk = true ↔ held vk
  dik : ∀ k, g.heldDik k = Gate.dikHeld s g.heldVk k
  tail : g.releaseTail = (List.range 256).any g.heldVk

theorem setHeld_tailed {heldVk : Nat → Bool} {held : Nat → Prop} (same : ∀ vk, heldVk vk = true ↔ held vk) :
    Tailed s (g.setHeld s heldVk) held := ⟨same, fun _ => rfl, rfl⟩

theorem Tailed.refresh {held : Nat → Prop} (h : Tailed s g held) (small : ∀ vk, held vk → vk < 256)
    (readKey : Nat → Bool) :
    Tailed s (g.refreshReleaseTail s readKey) fun vk => held vk ∧ readKey vk = true := by
  unfold Gate.refreshReleaseTail
  split
  · rename_i noTail
    have none : ∀ vk, ¬held vk := by
      intro vk isHeld
      refine noTail ?_
      rw [h.tail, List.any_eq_true]
      exact ⟨vk, List.mem_range.mpr (small vk isHeld), (h.vk vk).mpr isHeld⟩
    refine ⟨fun vk => (h.vk vk).trans ?_, h.dik, h.tail⟩
    exact ⟨fun isHeld => absurd isHeld (none vk), And.left⟩
  · refine setHeld_tailed fun vk => ?_
    rw [Bool.and_eq_true, h.vk vk]

theorem Tailed.congr {held held' : Nat → Prop} (h : Tailed s g held) (same : ∀ vk, held vk ↔ held' vk) :
    Tailed s g held' := ⟨fun vk => (h.vk vk).trans (same vk), h.dik, h.tail⟩

theorem refresh_keysPrivate (g : Gate) (readKey : Nat → Bool) :
    (g.refreshReleaseTail s readKey).keysPrivate = g.keysPrivate := by
  unfold Gate.refreshReleaseTail
  split <;> rfl

theorem gate_follows (s : Setup) (ops : List GateOp) :
    (gateAfter s ops).keysPrivate = menuOpen s ops ∧
    (menuOpen s ops = false → Tailed s (gateAfter s ops) fun vk => HeldSince s vk ops) := by
  induction ops using List.reverseRecOn with
  | nil =>
    refine ⟨rfl, fun _ => ⟨fun vk => ⟨nofun, ?_⟩, fun k => ?_, ?_⟩⟩
    · rintro ⟨_, _, before, _, _, _, split, _⟩
      cases before <;> cases split
    · simp [gateAfter, Gate.dikHeld]
    · simp [gateAfter]
  | append_singleton ops op ih =>
    obtain ⟨flag, follows⟩ := ih
    rw [gateAfter_snoc, menuOpen_snoc]
    generalize gateAfter s ops = g at flag follows
    have small : ∀ vk, HeldSince s vk ops → vk < 256 := fun vk held => held.2.1
    -- A call that refreshes while the menu is closed.
    have refreshed : ∀ readKey, menuOpen s ops = false → (∀ vk, op.released s vk = !readKey vk) →
        Tailed s (g.refreshReleaseTail s readKey) fun vk => HeldSince s vk (ops ++ [op]) := by
      intro readKey closed reads
      refine ((follows closed).refresh small readKey).congr fun vk => ?_
      rw [heldSince_snoc, reads vk, closed]
      simp
    cases op with
    | setPrivate priv readKey =>
      show (g.inputGateSetPrivate s priv readKey).keysPrivate = _ ∧ _
      unfold Gate.apply Gate.inputGateSetPrivate
      dsimp only
      cases want : priv && s.privateWanted with
      | true =>
        refine ⟨?_, nofun⟩
        split
        · rfl
        · rename_i same
          simpa using same
      | false =>
        cases isOpen : menuOpen s ops with
        | true =>
          rw [if_pos (by rw [flag, isOpen]; decide)]
          have captured : Tailed s (g.captureReleaseTail s readKey) fun vk =>
              HeldSince s vk (ops ++ [GateOp.setPrivate priv readKey]) := by
            refine setHeld_tailed fun vk => ?_
            rw [heldSince_snoc, isOpen]
            simp only [Bool.and_eq_true, decide_eq_true_eq]
            constructor
            · rintro ⟨⟨below, key⟩, down⟩
              exact .inr ⟨key, below, trivial, priv, readKey, rfl, want, down⟩
            · rintro (⟨held, still⟩ | ⟨key, below, _, _, _, same, _, down⟩)
              · simp only [GateOp.released, want] at still
                exact ⟨⟨held.2.1, held.1⟩, by simpa using still⟩
              · cases same
                exact ⟨⟨below, key⟩, down⟩
          exact ⟨rfl, fun _ => ⟨captured.vk, captured.dik, captured.tail⟩⟩
        | false =>
          rw [if_neg (by rw [flag, isOpen]; decide)]
          refine ⟨(refresh_keysPrivate g readKey).trans (flag.trans isOpen), fun _ => ?_⟩
          exact refreshed readKey isOpen fun vk => by simp [GateOp.released, want]
    | tick readKey =>
      refine ⟨(refresh_keysPrivate g readKey).trans flag, fun closed => ?_⟩
      exact refreshed readKey closed fun _ => rfl
    | data call =>
      refine ⟨flag, fun closed => (follows closed).congr fun vk => ?_⟩
      rw [heldSince_snoc]
      simp [GateOp.released]

theorem inputGateDikOf_lt (s : Setup) (vk : Nat) : s.inputGateDikOf vk < 256 := by
  unfold Setup.inputGateDikOf
  dsimp only
  split
  · omega
  split
  · decide
  split
  · omega
  · rename_i sc
    have below : s.mapVirtualKey vk < 2 ^ 8 := by omega
    split
    · exact Nat.or_lt_two_pow below (by decide)
    · exact below

theorem waits_iff (closed : menuOpen s ops = false) (call : DataCall) (e : DiObjectData) :
    (Reading.mk (gateAfter s ops) call e).waits = true ↔
      ∃ vk, HeldSince s vk ops ∧ s.inputGateDikOf vk = e.dwOfs ∧ e.dwOfs ≠ 0 := by
  obtain ⟨isVk, isDik, isTail⟩ := (gate_follows s ops).2 closed
  unfold Reading.waits
  dsimp only
  rw [isDik, isTail]
  simp only [Bool.and_eq_true, decide_eq_true_eq, List.any_eq_true, Gate.dikHeld, List.mem_range]
  constructor
  · rintro ⟨_, vk, _, ⟨held, named⟩, same⟩
    exact ⟨vk, (isVk vk).mp held, same, same ▸ named⟩
  · rintro ⟨vk, held, same, named⟩
    have isHeld := (isVk vk).mpr held
    exact ⟨⟨⟨vk, held.2.1, isHeld⟩, same ▸ inputGateDikOf_lt s vk⟩, vk, held.2.1, ⟨isHeld, same ▸ named⟩, same⟩

theorem Reading.given_up {r : Reading} (up : r.event.down = false) :
    r.given s = true ↔ ¬(r.call.filtered = true ∧ r.chorded s = true) := by
  unfold Reading.given
  rw [up]
  cases r.call.filtered <;> cases r.chorded s <;> simp

theorem Reading.given_down {r : Reading} (down : r.event.down = true) :
    r.given s = true ↔ ¬(r.call.filtered = true ∧
      (r.gate.keysPrivate = true ∨ r.chorded s = true ∨ r.waits = true)) := by
  unfold Reading.given
  rw [down]
  cases r.call.filtered <;> cases r.chorded s <;> cases r.gate.keysPrivate <;> cases r.waits <;> simp

theorem received_sublist (s : Setup) (ops : List GateOp) : (received s ops).Sublist (produced ops) := by
  rw [received_eq, produced_eq s]
  exact List.filter_sublist.map _

end

/-- Given or not, every event keeps its place, and no key is left stuck just where the runs
are spared. -/
theorem neverStuck_iff (s : Setup) (vkOf : Nat → Nat) (ops : List GateOp) :
    received s ops = ((readings s ops).filter (Reading.given s)).map Reading.event ∧
    (NeverStuck s vkOf ops ↔ Spared s vkOf ops) := by
  refine ⟨received_eq s ops, fun ok => ⟨?_, ?_⟩, fun spared => ⟨received_sublist s ops, ?_, ?_⟩⟩
  · intro before r between r' after split down up same noUp filtered chorded
    by_contra admitted
    have isGiven := ok.released before r between r' after split down up same noUp
      ((Reading.given_down down).mpr admitted)
    exact (Reading.given_up up).mp isGiven ⟨filtered, chorded⟩
  · intro before call after split e mem down held
    by_contra unnamed
    refine ok.silent before call after split e ?_ down held
    rw [filterDeviceData_eq]
    refine List.mem_filter.mpr ⟨mem, (Reading.given_down down).mpr fun ⟨filtered, dropped⟩ => unnamed ⟨filtered, ?_⟩⟩
    cases isOpen : menuOpen s before with
    | true => exact .inl rfl
    | false =>
      rcases dropped with priv | chorded | waits
      · rw [(gate_follows s before).1, isOpen] at priv
        cases priv
      · exact .inr (.inl chorded)
      · exact .inr (.inr ((waits_iff isOpen call e).mp waits))
  · intro before r between r' after split down up same noUp isGiven
    refine (Reading.given_up up).mpr fun ⟨filtered, chorded⟩ => ?_
    exact (Reading.given_down down).mp isGiven
      (spared.chord before r between r' after split down up same noUp filtered chorded)
  · intro before call after split e mem down held
    rw [filterDeviceData_eq] at mem
    obtain ⟨mem, isGiven⟩ := List.mem_filter.mp mem
    obtain ⟨filtered, named⟩ := spared.named before call after split e mem down held
    refine (Reading.given_down down).mp isGiven ⟨filtered, ?_⟩
    cases isOpen : menuOpen s before with
    | true =>
      refine .inl ?_
      rw [(gate_follows s before).1]
      exact isOpen
    | false =>
      rcases named with impossible | chorded | named
      · rw [isOpen] at impossible
        cases impossible
      · exact .inr (.inl chorded)
      · exact .inr (.inr ((waits_iff isOpen call e).mpr named))

def ctrlF8 : Setup := { summon := 0x80014277, mapVirtualKey := fun vk => if vk = 0x77 then 0x42 else 0 }

def ctrlBeforeRelease : List GateOp :=
  [.data { events := [⟨0x42, 0x80, 10, 1, 0⟩], readKey := fun vk => vk == 0x77 },
    .data { events := [⟨0x42, 0, 20, 2, 0⟩], readKey := fun vk => vk == VK_CONTROL }]

/-- The game gets the press, and never the release. -/
theorem neverStuck_fails : received ctrlF8 ctrlBeforeRelease = [⟨0x42, 0x80, 10, 1, 0⟩] ∧
    ¬NeverStuck ctrlF8 (fun _ => 0x77) ctrlBeforeRelease := by
  refine ⟨by decide +kernel, fun ok => ?_⟩
  have isGiven := ok.released [] _ [] _ [] rfl (by decide) (by decide) rfl nofun (by decide +kernel)
  exact absurd isGiven (by decide +kernel)

end EdvrPatch.InputGate
