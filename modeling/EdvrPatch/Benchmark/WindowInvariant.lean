import EdvrPatch.Benchmark.Feed

/-! What the two tables hold while the window is open: the frames of the sample in one,
each with its result once that has come, and the strays in the other. -/
namespace EdvrPatch.Benchmark

open Lib

namespace NativeBenchmarkCollector

def entryKeys (c : NativeBenchmarkCollector) (i : Fin kCapacity) : Nat := (c.entries i).sequence

def orphanKeys (c : NativeBenchmarkCollector) (j : Fin kOrphanCapacity) : Nat := (c.orphans j).sequence

/-- The CPU observations of `cs` and the GPU observations of `gs` have been taken in. -/
structure Good (feed : List BenchmarkTick) (scope now : Nat) (cs gs : List BenchmarkTick)
    (c : NativeBenchmarkCollector) : Prop where
  scope : c.scope = scope
  now : c.lastNowMs = now
  running : c.phase = .sampling ∨ c.phase = .drain
  start : c.sampleStartMs = sampleStart feed
  stop : c.sampleEndMs = sampleEnd feed
  drain : c.drainEndMs = drainEnd feed
  first : c.firstSequence = 1
  overflow : c.overflow = false
  lost : c.transportLost = false
  tidy : Tidy c.entryKeys 0 (probes kCapacity)
  frames : used c.entryKeys 0 ≤ (cs.filter fun t => InSample feed t).length
  kept : ∀ i, c.entryKeys i ≠ 0 → (∃ t ∈ cs, InSample feed t ∧ t.sample.cpuSequence = c.entryKeys i) ∧
    (c.entries i).admitted = true ∧
    ((c.entries i).gpuSeen = true → ∃ u ∈ gs, u.sample.gpuSequence = c.entryKeys i)
  held : ∀ t ∈ cs, InSample feed t → ∃ i, c.entryKeys i = t.sample.cpuSequence ∧
    ∀ u ∈ gs, u.sample.gpuSequence = t.sample.cpuSequence → (c.entries i).Holds u.sample
  strays : used c.orphanKeys 0 = (gs.filter fun t => Stray feed t).length
  strayed : ∀ j, c.orphanKeys j ≠ 0 → ∃ u ∈ gs, Stray feed u ∧ u.sample.gpuSequence = c.orphanKeys j

theorem mem_probes (n : Nat) [NeZero n] (sequence : Nat) (i : Fin n) : i ∈ probes n sequence := by
  have pos : 0 < n := Nat.pos_of_ne_zero (NeZero.ne n)
  have hash : sequence % n < n := Nat.mod_lt _ pos
  refine List.mem_map.mpr ⟨(i.val + (n - sequence % n)) % n, List.mem_range.mpr (Nat.mod_lt _ pos), ?_⟩
  apply Fin.ext
  rw [Fin.val_ofNat, Nat.add_mod_mod, show sequence % n + (i.val + (n - sequence % n)) = i.val + n by omega,
    Nat.add_mod_right, Nat.mod_eq_of_lt i.isLt]

theorem exists_hole {n : Nat} [NeZero n] {keys : Fin n → Nat} (room : used keys 0 < n) (sequence : Nat) :
    ∃ i, (probes n sequence).find? (fun i => keys i = 0) = some i ∧ keys i = 0 := by
  cases found : (probes n sequence).find? fun i => keys i = 0 with
  | some i => exact ⟨i, rfl, by simpa using List.find?_some found⟩
  | none =>
    have solid : ∀ i, keys i ≠ 0 := by
      intro i
      simpa using List.find?_eq_none.mp found i (mem_probes n sequence i)
    rw [used, Finset.filter_true_of_mem fun i _ => solid i, Finset.card_univ, Fintype.card_fin] at room
    exact absurd room (Nat.lt_irrefl n)

theorem full_of_no_hole {n : Nat} [NeZero n] {keys : Fin n → Nat} (full : n ≤ used keys 0) (i : Fin n) :
    keys i ≠ 0 := by
  have all : (Finset.univ.filter fun i => keys i ≠ 0) = Finset.univ := by
    apply Finset.eq_univ_of_card
    rw [Fintype.card_fin]
    apply Nat.le_antisymm _ full
    calc
      _ ≤ Finset.univ.card := Finset.card_filter_le _ _
      _ = n := by rw [Finset.card_univ, Fintype.card_fin]
  have mem : i ∈ Finset.univ.filter fun i => keys i ≠ 0 := by
    rw [all]
    exact Finset.mem_univ i
  exact (Finset.mem_filter.mp mem).2

variable {scope now : Nat} {feed cs gs : List BenchmarkTick} {c : NativeBenchmarkCollector} {t : BenchmarkTick}

theorem entryKeys_setEntry (c : NativeBenchmarkCollector) (i : Fin kCapacity) (e : Entry) :
    (c.setEntry i e).entryKeys = Function.update c.entryKeys i e.sequence := by
  funext k
  by_cases same : k = i
  · subst same
    simp [entryKeys, setEntry]
  · simp [entryKeys, setEntry, same]

theorem orphanKeys_setOrphan (c : NativeBenchmarkCollector) (j : Fin kOrphanCapacity) (o : OrphanGpu) :
    (c.setOrphan j o).orphanKeys = Function.update c.orphanKeys j o.sequence := by
  funext k
  by_cases same : k = j
  · subst same
    simp [orphanKeys, setOrphan]
  · simp [orphanKeys, setOrphan, same]

def admittedEntry (sample : NativeBenchmarkObservation) : Entry :=
  { sequence := sample.cpuSequence, cpuSeen := true, atMs := sample.cpuAtMs
    cpuValid := sample.cpuValid && validValue sample.cpuMs
    cpuMs := if sample.cpuValid && validValue sample.cpuMs then sample.cpuMs else 0
    admitted := true }

theorem Good.addCpu_outside (h : Good feed scope now cs gs c) (outside : ¬InSample feed t) :
    c.addCpu t.sample = c := by
  unfold addCpu
  rw [if_pos]
  by_contra inside
  rw [h.start, h.stop, h.first] at inside
  apply outside
  refine ⟨?_, ?_, ?_⟩
  all_goals omega

theorem Good.addCpu_inside (h : Good feed scope now cs gs c) (mem : t ∈ feed) (inside : InSample feed t)
    (room : (cs.filter fun t => InSample feed t).length < kCapacity)
    (new : ∀ u ∈ cs, u.sample.cpuSequence ≠ t.sample.cpuSequence) :
    ∃ i, c.entryKeys i = 0 ∧
      i ∈ passed c.entryKeys 0 t.sample.cpuSequence (probes kCapacity t.sample.cpuSequence) ∧
      scan c.entryKeys 0 t.sample.cpuSequence (probes kCapacity t.sample.cpuSequence) = none ∧
      c.addCpu t.sample = c.setEntry i (admittedEntry t.sample) := by
  have absent : scan c.entryKeys 0 t.sample.cpuSequence (probes kCapacity t.sample.cpuSequence) = none := by
    cases found : scan c.entryKeys 0 t.sample.cpuSequence (probes kCapacity t.sample.cpuSequence) with
    | none => rfl
    | some i =>
      have key := key_of_scan found
      obtain ⟨⟨u, isTaken, _, same⟩, _⟩ := h.kept i (by rw [key]; exact inside.1)
      exact absurd (same.trans key) (new u isTaken)
  obtain ⟨i, isFirst, free⟩ :=
    exists_hole (Nat.lt_of_le_of_lt h.frames room) t.sample.cpuSequence
  refine ⟨i, free, hole_mem_passed absent isFirst, absent, ?_⟩
  have found : c.find t.sample.cpuSequence true =
      (some i, c.setEntry i { sequence := t.sample.cpuSequence }) := by
    unfold find
    rw [if_neg inside.1, show scan (fun i => (c.entries i).sequence) 0 t.sample.cpuSequence
      (probes kCapacity t.sample.cpuSequence) = none from absent]
    rw [show (probes kCapacity t.sample.cpuSequence).find? (fun i => (c.entries i).sequence = 0) = some i
      from isFirst]
    rfl
  have noOrphan : ∀ e e', ((c.setEntry i e).setEntry i e').findOrphan t.sample.cpuSequence false =
      (none, (c.setEntry i e).setEntry i e') := by
    intro e e'
    unfold findOrphan
    rw [if_neg inside.1]
    split
    · rename_i j isOrphan
      have key : c.orphanKeys j = t.sample.cpuSequence := by
        have holds := List.find?_some isOrphan
        exact of_decide_eq_true holds
      obtain ⟨u, _, stray, result⟩ := h.strayed j (by rw [key]; exact inside.1)
      exact absurd (key.symm.trans result.symm) (stray.2.2.2 t mem inside)
    · rfl
  unfold addCpu
  rw [if_neg, found]
  · dsimp only
    rw [if_neg (by simp [setEntry]), noOrphan]
    simp [setEntry, admittedEntry]
  · rw [h.start, h.stop, h.first]
    obtain ⟨nonzero, after, before⟩ := inside
    omega

theorem Good.pass_cpu (h : Good feed scope now cs gs c) (outside : ¬InSample feed t) :
    Good feed scope now (cs ++ [t]) gs c := by
  have counted : (cs ++ [t]).filter (fun t => InSample feed t) = cs.filter fun t => InSample feed t := by
    simp [List.filter_append, outside]
  refine { h with frames := by rw [counted]; exact h.frames, kept := ?_, held := ?_ }
  · intro i isUsed
    obtain ⟨⟨u, mem, rest⟩, others⟩ := h.kept i isUsed
    exact ⟨⟨u, List.mem_append_left _ mem, rest⟩, others⟩
  · intro u mem inside
    rcases List.mem_append.mp mem with before | last
    · exact h.held u before inside
    · rw [List.mem_singleton.mp last] at inside
      exact absurd inside outside

theorem Good.addCpu (h : Good feed scope now cs gs c) (mem : t ∈ feed)
    (room : (cs.filter fun t => InSample feed t).length < kCapacity)
    (new : InSample feed t → ∀ u ∈ cs, u.sample.cpuSequence ≠ t.sample.cpuSequence)
    (early : InSample feed t → ∀ u ∈ gs, u.sample.gpuSequence ≠ t.sample.cpuSequence) :
    Good feed scope now (cs ++ [t]) gs (c.addCpu t.sample) := by
  by_cases inside : InSample feed t
  · obtain ⟨i, free, isPassed, absent, equation⟩ := h.addCpu_inside mem inside room (new inside)
    rw [equation]
    have keys := entryKeys_setEntry c i (admittedEntry t.sample)
    refine ⟨h.scope, h.now, h.running, h.start, h.stop, h.drain, h.first, h.overflow, h.lost, ?_, ?_, ?_, ?_, h.strays,
      h.strayed⟩
    · rw [keys]
      exact h.tidy.insert inside.1 absent isPassed
    · rw [keys, show (admittedEntry t.sample).sequence = t.sample.cpuSequence from rfl,
        used_update_hole free inside.1]
      simpa [List.filter_append, inside] using h.frames
    · intro k isUsed
      by_cases same : k = i
      · subst same
        rw [keys, Function.update_self] at isUsed ⊢
        refine ⟨⟨t, List.mem_append_right _ (List.mem_singleton_self t), inside, rfl⟩, ?_, ?_⟩
        · simp [setEntry, admittedEntry]
        · simp [setEntry, admittedEntry]
      · rw [keys, Function.update_of_ne same] at isUsed ⊢
        obtain ⟨⟨u, isTaken, rest⟩, others⟩ := h.kept k isUsed
        rw [show (c.setEntry i (admittedEntry t.sample)).entries k = c.entries k from
          Function.update_of_ne same ..]
        exact ⟨⟨u, List.mem_append_left _ isTaken, rest⟩, others⟩
    · intro u isTaken isIn
      rcases List.mem_append.mp isTaken with before | last
      · obtain ⟨k, key, results⟩ := h.held u before isIn
        have other : k ≠ i := by
          rintro rfl
          exact isIn.1 (key.symm.trans free)
        refine ⟨k, ?_, ?_⟩
        · rw [keys, Function.update_of_ne other]
          exact key
        · rw [show (c.setEntry i (admittedEntry t.sample)).entries k = c.entries k from
            Function.update_of_ne other ..]
          exact results
      · rw [List.mem_singleton.mp last]
        refine ⟨i, ?_, fun v result same => absurd same (early inside v result)⟩
        rw [keys, Function.update_self]
        rfl
  · rw [h.addCpu_outside inside]
    exact h.pass_cpu inside

theorem Good.take_gpu (h : Good feed scope now cs gs c)
    (unheld : ∀ u ∈ cs, InSample feed u → t.sample.gpuSequence ≠ u.sample.cpuSequence)
    {orphans : Fin kOrphanCapacity → OrphanGpu} {keys : Fin kOrphanCapacity → Nat}
    (keyed : { c with orphans := orphans }.orphanKeys = keys)
    (strays : used keys 0 = ((gs ++ [t]).filter fun t => Stray feed t).length)
    (strayed : ∀ j, keys j ≠ 0 → ∃ u ∈ gs ++ [t], Stray feed u ∧ u.sample.gpuSequence = keys j) :
    Good feed scope now cs (gs ++ [t]) { c with orphans := orphans } := by
  subst keyed
  refine { h with kept := ?_, held := ?_, strays := strays, strayed := strayed }
  · intro i isUsed
    obtain ⟨taken, isAdmitted, seen⟩ := h.kept i isUsed
    refine ⟨taken, isAdmitted, fun isSeen => ?_⟩
    obtain ⟨u, mem, result⟩ := seen isSeen
    exact ⟨u, List.mem_append_left _ mem, result⟩
  · intro u mem inside
    obtain ⟨i, key, results⟩ := h.held u mem inside
    refine ⟨i, key, fun v result same => ?_⟩
    rcases List.mem_append.mp result with before | last
    · exact results v before same
    · rw [List.mem_singleton.mp last] at same
      exact absurd same (unheld u mem inside)

theorem Good.pass_gpu (h : Good feed scope now cs gs c) (apart : ¬Stray feed t)
    (unheld : ∀ u ∈ cs, InSample feed u → t.sample.gpuSequence ≠ u.sample.cpuSequence) :
    Good feed scope now cs (gs ++ [t]) c := by
  refine h.take_gpu unheld rfl ?_ ?_
  · simpa [List.filter_append, apart] using h.strays
  · intro j isUsed
    obtain ⟨u, mem, rest⟩ := h.strayed j isUsed
    exact ⟨u, List.mem_append_left _ mem, rest⟩

def gpuEntry (e : Entry) (sample : NativeBenchmarkObservation) : Entry :=
  { e with
    gpuSeen := true, atMs := if e.atMs = 0 then sample.gpuAtMs else e.atMs
    gpuValid := sample.gpuKept.1, gpuMs := sample.gpuKept.2 }

theorem Good.addGpu_found (h : Good feed scope now cs gs c) (nonzero : t.sample.gpuSequence ≠ 0)
    (inTime : t.sample.gpuAtMs ≤ drainEnd feed)
    (new : ∀ u ∈ gs, u.sample.gpuSequence ≠ t.sample.gpuSequence) {i : Fin kCapacity}
    (found : scan c.entryKeys 0 t.sample.gpuSequence (probes kCapacity t.sample.gpuSequence) = some i) :
    c.addGpu t.sample = c.setEntry i (gpuEntry (c.entries i) t.sample) := by
  have key := key_of_scan found
  obtain ⟨_, isAdmitted, seen⟩ := h.kept i (by rw [key]; exact nonzero)
  have unseen : (c.entries i).gpuSeen = false := by
    by_contra isSeen
    obtain ⟨u, mem, result⟩ := seen (by simpa using isSeen)
    exact new u mem (result.trans key)
  have isFound : c.find t.sample.gpuSequence false = (some i, c) := by
    unfold find
    rw [if_neg nonzero, show scan (fun i => (c.entries i).sequence) 0 t.sample.gpuSequence
      (probes kCapacity t.sample.gpuSequence) = some i from found]
  unfold addGpu
  rw [if_neg, isFound]
  · dsimp only
    rw [if_neg (by simp [isAdmitted, unseen])]
    rfl
  · rw [h.drain, h.first]
    omega

theorem Good.addGpu_absent (h : Good feed scope now cs gs c) (nonzero : t.sample.gpuSequence ≠ 0)
    (inTime : t.sample.gpuAtMs ≤ drainEnd feed)
    (room : (cs.filter fun t => InSample feed t).length < kCapacity)
    (absent : scan c.entryKeys 0 t.sample.gpuSequence (probes kCapacity t.sample.gpuSequence) = none) :
    c.addGpu t.sample = if t.sample.gpuAtMs < sampleStart feed then c else
      match c.findOrphan t.sample.gpuSequence true with
      | (none, c) => c
      | (some j, c) =>
        if (c.orphans j).atMs ≠ 0 then c
        else c.setOrphan j { c.orphans j with
          atMs := t.sample.gpuAtMs, valid := t.sample.gpuKept.1, ms := t.sample.gpuKept.2 } := by
  obtain ⟨i, isFirst, _⟩ := exists_hole (Nat.lt_of_le_of_lt h.frames room) t.sample.gpuSequence
  have isAbsent : c.find t.sample.gpuSequence false = (none, c) := by
    unfold find
    rw [if_neg nonzero, show scan (fun i => (c.entries i).sequence) 0 t.sample.gpuSequence
      (probes kCapacity t.sample.gpuSequence) = none from absent]
    rw [show (probes kCapacity t.sample.gpuSequence).find? (fun i => (c.entries i).sequence = 0) = some i
      from isFirst]
    rfl
  unfold addGpu
  rw [if_neg, isAbsent]
  · dsimp only
    rw [h.start, h.drain]
    by_cases early : t.sample.gpuAtMs < sampleStart feed
    · rw [if_pos early, if_pos (.inl early)]
    · rw [if_neg early, if_neg (by omega)]
      rfl
  · rw [h.drain, h.first]
    omega

theorem Good.gpu_found (h : Good feed scope now cs gs c) (nonzero : t.sample.gpuSequence ≠ 0)
    (new : ∀ u ∈ gs, u.sample.gpuSequence ≠ t.sample.gpuSequence) (taken : ∀ u ∈ cs, u ∈ feed)
    {i : Fin kCapacity} (key : c.entryKeys i = t.sample.gpuSequence) :
    Good feed scope now cs (gs ++ [t]) (c.setEntry i (gpuEntry (c.entries i) t.sample)) := by
  have keys : (c.setEntry i (gpuEntry (c.entries i) t.sample)).entryKeys = c.entryKeys := by
    rw [entryKeys_setEntry]
    exact Function.update_eq_self i c.entryKeys
  obtain ⟨⟨v, isTaken, inside, frame⟩, isAdmitted, _⟩ := h.kept i (by rw [key]; exact nonzero)
  have apart : ¬Stray feed t := fun stray =>
    stray.2.2.2 v (taken v isTaken) inside (frame.trans key)
  have counted : (gs ++ [t]).filter (fun t => Stray feed t) = gs.filter fun t => Stray feed t := by
    simp [List.filter_append, apart]
  refine { h with tidy := by rw [keys]; exact h.tidy, frames := by rw [keys]; exact h.frames,
                  kept := ?_, held := ?_, strays := ?_, strayed := ?_ }
  · intro k isUsed
    rw [keys] at isUsed ⊢
    obtain ⟨taken, isIn, seen⟩ := h.kept k isUsed
    by_cases same : k = i
    · subst same
      refine ⟨taken, ?_, fun _ => ⟨t, List.mem_append_right _ (List.mem_singleton_self t), key.symm⟩⟩
      rw [show (c.setEntry k (gpuEntry (c.entries k) t.sample)).entries k = _ from Function.update_self ..]
      exact isAdmitted
    · rw [show (c.setEntry i (gpuEntry (c.entries i) t.sample)).entries k = c.entries k from
        Function.update_of_ne same ..]
      refine ⟨taken, isIn, fun isSeen => ?_⟩
      obtain ⟨u, mem, result⟩ := seen isSeen
      exact ⟨u, List.mem_append_left _ mem, result⟩
  · intro u mem isIn
    obtain ⟨k, isKey, results⟩ := h.held u mem isIn
    rw [keys]
    refine ⟨k, isKey, fun w result same => ?_⟩
    by_cases here : k = i
    · subst here
      rw [show (c.setEntry k (gpuEntry (c.entries k) t.sample)).entries k = _ from Function.update_self ..]
      rcases List.mem_append.mp result with before | last
      · exact absurd (same.trans (isKey.symm.trans key)) (new w before)
      · rw [List.mem_singleton.mp last]
        exact ⟨rfl, rfl⟩
    · rw [show (c.setEntry i (gpuEntry (c.entries i) t.sample)).entries k = c.entries k from
        Function.update_of_ne here ..]
      rcases List.mem_append.mp result with before | last
      · exact results w before same
      · rw [List.mem_singleton.mp last] at same
        have isSame : c.entryKeys k = c.entryKeys i := by rw [isKey, key, same]
        exact absurd (h.tidy.injective (by rw [isKey]; exact isIn.1) isSame) here
  · rw [counted]
    exact h.strays
  · intro j isUsed
    obtain ⟨u, mem, rest⟩ := h.strayed j isUsed
    exact ⟨u, List.mem_append_left _ mem, rest⟩

theorem Good.put_stray (h : Good feed scope now cs gs c) (stray : Stray feed t) {j : Fin kOrphanCapacity}
    (free : c.orphanKeys j = 0) {o : OrphanGpu} (isStray : o.sequence = t.sample.gpuSequence)
    (unheld : ∀ u ∈ cs, InSample feed u → t.sample.gpuSequence ≠ u.sample.cpuSequence) :
    Good feed scope now cs (gs ++ [t]) (c.setOrphan j o) := by
  have keys := orphanKeys_setOrphan c j o
  have solid : o.sequence ≠ 0 := by
    rw [isStray]
    exact stray.1
  refine h.take_gpu unheld keys ?_ ?_
  · rw [used_update_hole free solid, h.strays]
    simp [List.filter_append, stray]
  · intro k isUsed
    by_cases same : k = j
    · subst same
      rw [Function.update_self, isStray]
      exact ⟨t, List.mem_append_right _ (List.mem_singleton_self t), stray, rfl⟩
    · rw [Function.update_of_ne same] at isUsed ⊢
      obtain ⟨u, mem, rest⟩ := h.strayed k isUsed
      exact ⟨u, List.mem_append_left _ mem, rest⟩

theorem Good.gpu_stray (h : Good feed scope now cs gs c) (stray : Stray feed t)
    (room : (cs.filter fun t => InSample feed t).length < kCapacity) (taken : ∀ u ∈ cs, u ∈ feed)
    (new : ∀ u ∈ gs, u.sample.gpuSequence ≠ t.sample.gpuSequence) :
    if (gs.filter fun t => Stray feed t).length < kOrphanCapacity then
      Good feed scope now cs (gs ++ [t]) (c.addGpu t.sample)
    else (c.addGpu t.sample).overflow = true := by
  have isStray := stray
  obtain ⟨nonzero, late, inTime, apart⟩ := stray
  have absent : scan c.entryKeys 0 t.sample.gpuSequence (probes kCapacity t.sample.gpuSequence) = none := by
    cases found : scan c.entryKeys 0 t.sample.gpuSequence (probes kCapacity t.sample.gpuSequence) with
    | none => rfl
    | some i =>
      have key := key_of_scan found
      obtain ⟨⟨v, isTaken, inside, frame⟩, _⟩ := h.kept i (by rw [key]; exact nonzero)
      exact absurd (frame.trans key) (apart v (taken v isTaken) inside)
  have missing : (probes kOrphanCapacity t.sample.gpuSequence).find?
      (fun j => (c.orphans j).sequence = t.sample.gpuSequence) = none := by
    apply List.find?_eq_none.mpr
    intro j _ same
    have key : c.orphanKeys j = t.sample.gpuSequence := of_decide_eq_true same
    obtain ⟨u, mem, _, result⟩ := h.strayed j (by rw [key]; exact nonzero)
    exact new u mem (result.trans key)
  rw [h.addGpu_absent nonzero inTime room absent, if_neg (Nat.not_lt.mpr late), ← h.strays]
  unfold findOrphan
  rw [if_neg nonzero, missing]
  split
  · rename_i isRoom
    obtain ⟨j, isFirst, free⟩ := exists_hole isRoom t.sample.gpuSequence
    rw [show (probes kOrphanCapacity t.sample.gpuSequence).find? (fun j => (c.orphans j).sequence = 0) =
      some j from isFirst, if_pos rfl]
    have put : Good feed scope now cs (gs ++ [t]) (c.setOrphan j
        ⟨t.sample.gpuSequence, t.sample.gpuAtMs, t.sample.gpuKept.1, t.sample.gpuKept.2⟩) :=
      h.put_stray isStray free rfl fun u mem inside same => apart u (taken u mem) inside same.symm
    simpa [setOrphan] using put
  · rename_i full
    have none : (probes kOrphanCapacity t.sample.gpuSequence).find?
        (fun j => (c.orphans j).sequence = 0) = none := by
      apply List.find?_eq_none.mpr
      intro j _ free
      exact full_of_no_hole (Nat.not_lt.mp full) j (of_decide_eq_true free)
    rw [none]
    rfl

structure Due (feed cs gs : List BenchmarkTick) (t : BenchmarkTick) : Prop where
  mem : t ∈ feed
  taken : ∀ u ∈ cs, u ∈ feed
  room : (cs.filter fun t => InSample feed t).length < kCapacity
  new : t.sample.gpuSequence ≠ 0 → ∀ u ∈ gs, u.sample.gpuSequence ≠ t.sample.gpuSequence
  known : ∀ u ∈ feed, InSample feed u → u.sample.cpuSequence = t.sample.gpuSequence →
    u ∈ cs ∧ t.sample.gpuAtMs ≤ drainEnd feed

theorem Good.addGpu (h : Good feed scope now cs gs c) (due : Due feed cs gs t) :
    if (gs.filter fun t => Stray feed t).length < kOrphanCapacity ∨ ¬Stray feed t then
      Good feed scope now cs (gs ++ [t]) (c.addGpu t.sample)
    else (c.addGpu t.sample).overflow = true := by
  by_cases stray : Stray feed t
  · have := h.gpu_stray stray due.room due.taken (due.new stray.1)
    simpa [stray] using this
  · rw [if_pos (.inr stray)]
    by_cases away : t.sample.gpuSequence = 0 ∨ drainEnd feed < t.sample.gpuAtMs
    · have same : c.addGpu t.sample = c := by
        unfold NativeBenchmarkCollector.addGpu
        rw [if_pos]
        rw [h.drain]
        exact away.imp id .inr
      rw [same]
      refine h.pass_gpu stray fun u isTaken inside isSame => ?_
      rcases away with isZero | late
      · exact inside.1 (isSame.symm.trans isZero)
      · have inTime := (due.known u (due.taken u isTaken) inside isSame.symm).2
        omega
    · have nonzero : t.sample.gpuSequence ≠ 0 := fun isZero => away (.inl isZero)
      have inTime : t.sample.gpuAtMs ≤ drainEnd feed := by omega
      cases found : scan c.entryKeys 0 t.sample.gpuSequence (probes kCapacity t.sample.gpuSequence) with
      | some i =>
        rw [h.addGpu_found nonzero inTime (due.new nonzero) found]
        exact h.gpu_found nonzero (due.new nonzero) due.taken (key_of_scan found)
      | none =>
        have unheld : ∀ u ∈ cs, InSample feed u → t.sample.gpuSequence ≠ u.sample.cpuSequence := by
          intro u isTaken inside isSame
          obtain ⟨i, key, _⟩ := h.held u isTaken inside
          rw [isSame] at found
          exact h.tidy.absent inside.1 found key
        have early : t.sample.gpuAtMs < sampleStart feed := by
          by_contra late
          refine stray ⟨nonzero, Nat.not_lt.mp late, inTime, fun u mem inside isSame => ?_⟩
          exact unheld u (due.known u mem inside isSame).1 inside isSame.symm
        rw [h.addGpu_absent nonzero inTime due.room found, if_pos early]
        exact h.pass_gpu stray unheld

end NativeBenchmarkCollector

end EdvrPatch.Benchmark
