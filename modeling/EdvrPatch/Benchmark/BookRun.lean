import EdvrPatch.Benchmark.Bookkeeping

/-! The collector keeps the book: every observation that it takes in without an overflow
is written down, from the call that opens the sample to the one that ends the drain. -/
namespace EdvrPatch.Benchmark

open Lib

namespace NativeBenchmarkCollector

def withTables (c : NativeBenchmarkCollector) (entries : Fin kCapacity → Entry)
    (orphans : Fin kOrphanCapacity → OrphanGpu) : NativeBenchmarkCollector :=
  { c with entries := entries, orphans := orphans }

/-- The events so far have been written down, without an overflow. -/
structure Keeps (start : Nat) (evs : List Event) (c : NativeBenchmarkCollector) : Prop where
  opened : c.sampleStartMs = start
  closed : c.sampleEndMs = start + kSampleMs
  drained : c.drainEndMs = start + kSampleMs + kDrainMs
  first : c.firstSequence = 1
  fits : c.overflow = false
  framed : Framed c.entries (bookOf start evs).frames
  strayed : Strayed c.orphans (bookOf start evs).strays

def Named (evs : List Event) : Prop :=
  (∀ p, .cpu p ∈ evs → p.sequence ≠ 0) ∧ ∀ u, .gpu u ∈ evs → u.sequence ≠ 0

section

variable {start : Nat} {evs : List Event} {c : NativeBenchmarkCollector} {e : Event}
  {entries : Fin kCapacity → Entry} {orphans : Fin kOrphanCapacity → OrphanGpu}
  {s : NativeBenchmarkObservation}

theorem Named.left {evs' : List Event} (named : Named (evs ++ evs')) : Named evs :=
  ⟨fun p mem => named.1 p (List.mem_append_left _ mem), fun u mem => named.2 u (List.mem_append_left _ mem)⟩

theorem Keeps.withTables (k : Keeps start evs c) (framed : Framed entries (bookOf start (evs ++ [e])).frames)
    (strayed : Strayed orphans (bookOf start (evs ++ [e])).strays) :
    Keeps start (evs ++ [e]) (c.withTables entries orphans) where
  opened := k.opened
  closed := k.closed
  drained := k.drained
  first := k.first
  fits := k.fits
  framed := framed
  strayed := strayed

theorem frame_nonzero (once : Once evs) (named : Named evs) :
    ∀ f ∈ (bookOf start evs).frames, f.cpu.sequence ≠ 0 :=
  fun _ mem => named.1 _ ((written_bookOf start once).frame_mem mem).1

theorem stray_nonzero (once : Once evs) (named : Named evs) :
    ∀ u ∈ (bookOf start evs).strays, u.sequence ≠ 0 :=
  fun u mem => named.2 u (((written_bookOf start once).strays u).mp mem).1

variable {sequence : Nat} {i : Fin kCapacity}

theorem find_some {create : Bool} (solid : sequence ≠ 0)
    (found : scan (fun i => (c.entries i).sequence) 0 sequence (probes kCapacity sequence) = some i) :
    c.find sequence create = (some i, c) := by
  unfold find
  rw [if_neg solid, found]

theorem find_none (create : Bool) (solid : sequence ≠ 0)
    (absent : scan (fun i => (c.entries i).sequence) 0 sequence (probes kCapacity sequence) = none) :
    (∃ i, (c.entries i).sequence = 0 ∧
      i ∈ passed (fun i => (c.entries i).sequence) 0 sequence (probes kCapacity sequence) ∧
      c.find sequence create = if create then (some i, c.setEntry i { sequence := sequence }) else (none, c)) ∨
    c.find sequence create = (none, { c with overflow := true }) := by
  unfold find
  rw [if_neg solid, absent]
  cases hole : (probes kCapacity sequence).find? fun i => (c.entries i).sequence = 0 with
  | some i => exact .inl ⟨i, by simpa using List.find?_some hole, hole_mem_passed absent hole, rfl⟩
  | none => exact .inr rfl

theorem findOrphan_false (c : NativeBenchmarkCollector) (solid : sequence ≠ 0) :
    c.findOrphan sequence false =
      ((probes kOrphanCapacity sequence).find? fun j => (c.orphans j).sequence = sequence, c) := by
  unfold findOrphan
  rw [if_neg solid]
  split
  · rename_i found
    rw [found]
  · rename_i missing
    rw [missing]
    rfl

theorem orphan_missing {strays : List Part} (h : Strayed orphans strays)
    (missing : (probes kOrphanCapacity sequence).find? (fun j => (orphans j).sequence = sequence) = none) :
    ∀ v ∈ strays, v.sequence ≠ sequence := by
  intro v mem same
  obtain ⟨j, isOrphan⟩ := h.stray v mem
  have other := List.find?_eq_none.mp missing j (mem_probes _ _ j)
  refine other (decide_eq_true ?_)
  rw [isOrphan]
  exact same

theorem orphan_found {strays : List Part} (h : Strayed orphans strays) {j : Fin kOrphanCapacity}
    (solid : sequence ≠ 0)
    (found : (probes kOrphanCapacity sequence).find? (fun j => (orphans j).sequence = sequence) = some j) :
    (orphans j).sequence = sequence ∧ ∃ v ∈ strays, v.sequence = sequence ∧ orphans j = v.orphan := by
  have key : (orphans j).sequence = sequence := by simpa using List.find?_some found
  obtain ⟨v, mem, isOrphan⟩ := h.orphan j (by rw [key]; exact solid)
  refine ⟨key, v, mem, ?_, isOrphan⟩
  rw [← key, isOrphan]
  rfl

theorem addCpu_frame
    (within : ¬(s.cpuSequence = 0 ∨ s.cpuSequence < c.firstSequence ∨ s.cpuAtMs < c.sampleStartMs ∨ c.sampleEndMs ≤ s.cpuAtMs))
    (isFound : c.find s.cpuSequence true = (some i, c.setEntry i { sequence := s.cpuSequence })) :
    c.addCpu s =
      match (probes kOrphanCapacity s.cpuSequence).find? fun j => (c.orphans j).sequence = s.cpuSequence with
      | none => c.setEntry i (admittedEntry s)
      | some j =>
        (c.setEntry i { admittedEntry s with
          gpuSeen := true, gpuValid := (c.orphans j).valid
          gpuMs := if (c.orphans j).valid then (c.orphans j).ms else 0 }).setOrphan j {} := by
  have solid : s.cpuSequence ≠ 0 := fun zero => within (.inl zero)
  have twice : ∀ e e', (c.setEntry i e).setEntry i e' = c.setEntry i e' := by
    simp [setEntry]
  have entry : ∀ e, (c.setEntry i e).entries i = e := fun e => Function.update_self ..
  unfold NativeBenchmarkCollector.addCpu
  rw [if_neg within, isFound]
  dsimp only
  rw [entry, if_neg Bool.false_ne_true, twice, findOrphan_false _ solid]
  have sameOrphans : ∀ e, (c.setEntry i e).orphans = c.orphans := fun _ => rfl
  simp only [sameOrphans]
  cases (probes kOrphanCapacity s.cpuSequence).find? fun j => (c.orphans j).sequence = s.cpuSequence with
  | none => rfl
  | some j =>
    dsimp only
    rw [entry, twice]
    rfl

theorem Keeps.addCpu (k : Keeps start evs c) (once : Once (evs ++ [Event.cpu s.cpuPart]))
    (named : Named (evs ++ [Event.cpu s.cpuPart])) (fits : (c.addCpu s).overflow = false) :
    ∃ entries orphans, c.addCpu s = c.withTables entries orphans ∧
      Keeps start (evs ++ [Event.cpu s.cpuPart]) (c.addCpu s) := by
  suffices ∃ entries orphans, c.addCpu s = c.withTables entries orphans ∧
      Framed entries (bookOf start (evs ++ [Event.cpu s.cpuPart])).frames ∧
      Strayed orphans (bookOf start (evs ++ [Event.cpu s.cpuPart])).strays by
    obtain ⟨entries, orphans, equation, framed, strayed⟩ := this
    refine ⟨entries, orphans, equation, ?_⟩
    rw [equation]
    exact k.withTables framed strayed
  have solid : s.cpuSequence ≠ 0 := named.1 s.cpuPart (by simp)
  have w := written_bookOf start once.left
  rw [bookOf_concat, Book.write]
  by_cases inside : s.cpuPart.InWindow start
  · have within : ¬(s.cpuSequence = 0 ∨ s.cpuSequence < c.firstSequence ∨ s.cpuAtMs < c.sampleStartMs ∨
        c.sampleEndMs ≤ s.cpuAtMs) := by
      obtain ⟨after, before⟩ := inside
      change start ≤ s.cpuAtMs at after
      change s.cpuAtMs < start + kSampleMs at before
      rw [k.opened, k.closed, k.first]
      omega
    rw [if_pos inside]
    have absent : scan (fun i => (c.entries i).sequence) 0 s.cpuSequence (probes kCapacity s.cpuSequence) = none := by
      cases found : scan (fun i => (c.entries i).sequence) 0 s.cpuSequence (probes kCapacity s.cpuSequence) with
      | none => rfl
      | some i =>
        have key := key_of_scan found
        obtain ⟨f, mem, isEntry⟩ := k.framed.entry i (by rw [key]; exact solid)
        rw [isEntry, Frame.entry_sequence] at key
        exact absurd key (once.new_cpu (w.frame_mem mem).1)
    rcases find_none true solid absent with ⟨i, free, isPassed, isFound⟩ | full
    · rw [addCpu_frame within isFound]
      have insert : ∀ gpu, Framed (Function.update c.entries i (Frame.mk s.cpuPart gpu).entry)
          ((bookOf start evs).frames ++ [{ cpu := s.cpuPart, gpu := gpu }]) := fun gpu =>
        k.framed.insert (f := { cpu := s.cpuPart, gpu := gpu }) solid absent isPassed free
          (frame_nonzero once.left named.left)
      cases lookup : (probes kOrphanCapacity s.cpuSequence).find? fun j => (c.orphans j).sequence = s.cpuSequence with
      | none =>
        have missing := orphan_missing k.strayed lookup
        have nothing : (bookOf start evs).strays.find? (fun u => u.sequence = s.cpuPart.sequence) = none :=
          List.find?_eq_none.mpr fun v mem isSame => missing v mem (of_decide_eq_true isSame)
        have all : (bookOf start evs).strays.filter (fun u => u.sequence ≠ s.cpuPart.sequence) =
            (bookOf start evs).strays :=
          List.filter_eq_self.mpr fun v mem => decide_eq_true (missing v mem)
        rw [nothing, all]
        exact ⟨_, c.orphans, rfl, insert none, k.strayed⟩
      | some j =>
        obtain ⟨key, u, mem, same, isOrphan⟩ := orphan_found k.strayed solid lookup
        rw [w.find_stray once.left mem same]
        dsimp only
        rw [isOrphan, u.orphan_ms]
        refine ⟨_, _, rfl, insert (some u), ?_⟩
        have removed := k.strayed.remove (j := j) (by rw [key]; exact solid)
        rw [key] at removed
        exact removed
    · unfold NativeBenchmarkCollector.addCpu at fits
      rw [if_neg within, full] at fits
      cases fits
  · refine ⟨c.entries, c.orphans, ?_, ?_, ?_⟩
    · unfold NativeBenchmarkCollector.addCpu
      rw [k.opened, k.closed, k.first, if_pos]
      · rfl
      · by_contra within
        apply inside
        change start ≤ s.cpuAtMs ∧ s.cpuAtMs < start + kSampleMs
        omega
    · rw [if_neg inside]
      exact k.framed
    · rw [if_neg inside]
      exact k.strayed

theorem findOrphan_new (solid : sequence ≠ 0) (missing : ∀ j, (c.orphans j).sequence ≠ sequence) :
    (∃ j, (c.orphans j).sequence = 0 ∧
      c.findOrphan sequence true = (some j, c.setOrphan j { sequence := sequence })) ∨
    c.findOrphan sequence true = (none, { c with overflow := true }) := by
  unfold findOrphan
  rw [if_neg solid, List.find?_eq_none.mpr fun j _ found => missing j (of_decide_eq_true found)]
  cases hole : (probes kOrphanCapacity sequence).find? fun j => (c.orphans j).sequence = 0 with
  | some j => exact .inl ⟨j, by simpa using List.find?_some hole, rfl⟩
  | none => exact .inr rfl

theorem findOrphan_overflow (sequence : Nat) (create : Bool) (full : c.overflow = true) :
    (c.findOrphan sequence create).2.overflow = true := by
  unfold findOrphan
  split
  · exact full
  split
  · exact full
  split
  · split
    · exact full
    · rfl
  · exact full

def addStray (c : NativeBenchmarkCollector) (s : NativeBenchmarkObservation) : NativeBenchmarkCollector :=
  match c.findOrphan s.gpuSequence true with
  | (none, c) => c
  | (some j, c) =>
    if (c.orphans j).atMs ≠ 0 then c
    else c.setOrphan j { c.orphans j with
      atMs := s.gpuAtMs, valid := s.gpuPart.kept.1, ms := s.gpuPart.kept.2 }

theorem addStray_overflow (full : c.overflow = true) : (c.addStray s).overflow = true := by
  have still := findOrphan_overflow s.gpuSequence true full
  unfold addStray
  generalize c.findOrphan s.gpuSequence true = r at still ⊢
  obtain ⟨_ | j, d⟩ := r
  · exact still
  · dsimp only
    split
    · exact still
    · exact still

theorem addGpu_absent {d : NativeBenchmarkCollector}
    (within : ¬(s.gpuSequence = 0 ∨ s.gpuSequence < c.firstSequence ∨ c.drainEndMs < s.gpuAtMs))
    (missing : c.find s.gpuSequence false = (none, d)) :
    c.addGpu s = if s.gpuAtMs < d.sampleStartMs ∨ d.drainEndMs < s.gpuAtMs then d else d.addStray s := by
  unfold NativeBenchmarkCollector.addGpu
  rw [if_neg within, missing]
  rfl

theorem addGpu_present
    (within : ¬(s.gpuSequence = 0 ∨ s.gpuSequence < c.firstSequence ∨ c.drainEndMs < s.gpuAtMs))
    (found : c.find s.gpuSequence false = (some i, c))
    (isAdmitted : (c.entries i).admitted = true) (unseen : (c.entries i).gpuSeen = false)
    (stamped : (c.entries i).atMs ≠ 0) :
    c.addGpu s = c.setEntry i { c.entries i with
      gpuSeen := true, gpuValid := s.gpuPart.kept.1, gpuMs := s.gpuPart.kept.2 } := by
  unfold NativeBenchmarkCollector.addGpu
  rw [if_neg within, found]
  dsimp only
  rw [if_neg (by simp [isAdmitted, unseen]), if_neg stamped]
  rfl

theorem Keeps.addGpu (k : Keeps start evs c) (pos : 0 < start) (once : Once (evs ++ [Event.gpu s.gpuPart]))
    (named : Named (evs ++ [Event.gpu s.gpuPart])) (fits : (c.addGpu s).overflow = false) :
    ∃ entries orphans, c.addGpu s = c.withTables entries orphans ∧
      Keeps start (evs ++ [Event.gpu s.gpuPart]) (c.addGpu s) := by
  suffices ∃ entries orphans, c.addGpu s = c.withTables entries orphans ∧
      Framed entries (bookOf start (evs ++ [Event.gpu s.gpuPart])).frames ∧
      Strayed orphans (bookOf start (evs ++ [Event.gpu s.gpuPart])).strays by
    obtain ⟨entries, orphans, equation, framed, strayed⟩ := this
    refine ⟨entries, orphans, equation, ?_⟩
    rw [equation]
    exact k.withTables framed strayed
  have solid : s.gpuSequence ≠ 0 := named.2 s.gpuPart (by simp)
  have w := written_bookOf start once.left
  rw [bookOf_concat, Book.write]
  by_cases inTime : s.gpuPart.InTime start
  · have within : ¬(s.gpuSequence = 0 ∨ s.gpuSequence < c.firstSequence ∨ c.drainEndMs < s.gpuAtMs) := by
      change s.gpuAtMs ≤ start + kSampleMs + kDrainMs at inTime
      rw [k.drained, k.first]
      omega
    rw [if_neg (not_not.mpr inTime)]
    cases found : scan (fun i => (c.entries i).sequence) 0 s.gpuSequence (probes kCapacity s.gpuSequence) with
    | some i =>
      have key := key_of_scan found
      obtain ⟨f, mem, isEntry⟩ := k.framed.entry i (by rw [key]; exact solid)
      have same : f.cpu.sequence = s.gpuPart.sequence := by
        rw [← Frame.entry_sequence, ← isEntry]
        exact key
      have unanswered : f.gpu = none := by
        cases isAnswered : f.gpu with
        | none => rfl
        | some v =>
          obtain ⟨isThere, isResult, _⟩ := (w.results f mem v).mp isAnswered
          exact absurd (isResult.1.trans same) (once.new_gpu isThere)
      have stamped : f.cpu.atMs ≠ 0 := by
        have inside := (w.frame_mem mem).2.1
        omega
      rw [if_pos ⟨f, mem, same⟩, addGpu_present within (find_some solid found)
        (by rw [isEntry, Frame.entry_admitted]) (by rw [isEntry, Frame.entry_gpuSeen, unanswered]; rfl)
        (by rw [isEntry, Frame.entry_atMs]; exact stamped), isEntry, ← Frame.answer_entry same]
      exact ⟨_, c.orphans, rfl, k.framed.answer isEntry mem same solid, k.strayed⟩
    | none =>
      rw [if_neg (k.framed.absent (u := s.gpuPart) solid found)]
      rcases find_none false solid found with ⟨_, _, _, isAbsent⟩ | full
      · rw [addGpu_absent within isAbsent] at fits ⊢
        rw [k.opened, k.drained] at fits ⊢
        by_cases after : start ≤ s.gpuPart.atMs
        · have inside : ¬(s.gpuAtMs < start ∨ start + kSampleMs + kDrainMs < s.gpuAtMs) :=
            not_or.mpr ⟨Nat.not_lt.mpr after, Nat.not_lt.mpr inTime⟩
          rw [if_neg inside] at fits ⊢
          rw [if_pos after]
          have fresh : ∀ v ∈ (bookOf start evs).strays, v.sequence ≠ s.gpuPart.sequence :=
            fun v mem => once.new_gpu ((w.strays v).mp mem).1
          have missing : ∀ j, (c.orphans j).sequence ≠ s.gpuSequence := by
            intro j same
            obtain ⟨v, mem, isOrphan⟩ := k.strayed.orphan j (by rw [same]; exact solid)
            rw [isOrphan] at same
            exact fresh v mem same
          unfold addStray at fits ⊢
          rcases findOrphan_new solid missing with ⟨j, free, isFound⟩ | isFull
          · have orphan : ∀ o, (c.setOrphan j o).orphans j = o := fun o => Function.update_self ..
            have twice : ∀ o o', (c.setOrphan j o).setOrphan j o' = c.setOrphan j o' := by
              simp [setOrphan]
            rw [isFound]
            dsimp only
            rw [orphan, if_neg (fun some => some rfl), twice]
            exact ⟨c.entries, _, rfl, k.framed,
              k.strayed.insert free fresh (stray_nonzero once.left named.left)⟩
          · rw [isFull] at fits
            cases fits
        · rw [if_pos (.inl (Nat.not_le.mp after)), if_neg after]
          exact ⟨c.entries, c.orphans, rfl, k.framed, k.strayed⟩
      · have isOver : ({ c with overflow := true } : NativeBenchmarkCollector).overflow = true := rfl
        rw [addGpu_absent within full] at fits
        split at fits
        · cases fits
        · rw [addStray_overflow isOver] at fits
          cases fits
  · refine ⟨c.entries, c.orphans, ?_, ?_, ?_⟩
    · unfold NativeBenchmarkCollector.addGpu
      rw [k.drained, if_pos (.inr (.inr (Nat.not_le.mp inTime)))]
      rfl
    · rw [if_pos inTime]
      exact k.framed
    · rw [if_pos inTime]
      exact k.strayed

end

end NativeBenchmarkCollector

end EdvrPatch.Benchmark
