import EdvrPatch.Benchmark.Deliveries
import EdvrPatch.Benchmark.WindowInvariant

/-! The two tables of the collector hold what the book of the sample holds: a frame in
every slot of the one that is in use, and a stray in every slot of the other. -/
namespace EdvrPatch.Benchmark

open Lib NativeBenchmarkCollector

namespace Part

def kept (p : Part) : Bool × UInt64 :=
  let valid := p.valid && validValue p.ms
  (valid, if valid then p.ms else 0)

def orphan (u : Part) : OrphanGpu :=
  { sequence := u.sequence, atMs := u.atMs, valid := u.kept.1, ms := u.kept.2 }

theorem orphan_ms (u : Part) : (if u.orphan.valid then u.orphan.ms else 0) = u.kept.2 := by
  unfold orphan kept
  dsimp only
  split <;> rfl

end Part

def Frame.entry (f : Frame) : Entry :=
  let entry :=
    { sequence := f.cpu.sequence, atMs := f.cpu.atMs, admitted := true, cpuSeen := true
      cpuValid := f.cpu.kept.1, cpuMs := f.cpu.kept.2 : Entry }
  match f.gpu with
  | none => entry
  | some u => { entry with gpuSeen := true, gpuValid := u.kept.1, gpuMs := u.kept.2 }

def NativeBenchmarkObservation.cpuPart (s : NativeBenchmarkObservation) : Part :=
  ⟨s.cpuSequence, s.cpuAtMs, s.cpuMs, s.cpuValid⟩

def NativeBenchmarkObservation.gpuPart (s : NativeBenchmarkObservation) : Part :=
  ⟨s.gpuSequence, s.gpuAtMs, s.gpuMs, s.gpuValid⟩

section

variable {f g : Frame} {u v : Part}

@[simp] theorem Frame.entry_sequence (f : Frame) : f.entry.sequence = f.cpu.sequence := by
  unfold entry
  split <;> rfl

theorem Frame.entry_admitted (f : Frame) : f.entry.admitted = true := by
  unfold entry
  split <;> rfl

theorem Frame.entry_atMs (f : Frame) : f.entry.atMs = f.cpu.atMs := by
  unfold entry
  split <;> rfl

theorem Frame.entry_gpuSeen (f : Frame) : f.entry.gpuSeen = f.gpu.isSome := by
  unfold entry
  split
  · rename_i none
    rw [none]
    rfl
  · rename_i some
    rw [some]
    rfl

theorem Frame.answer_entry (same : f.cpu.sequence = u.sequence) : (f.answer u).entry =
    { f.entry with gpuSeen := true, gpuValid := u.kept.1, gpuMs := u.kept.2 } := by
  unfold Frame.answer
  rw [if_pos same]
  unfold Frame.entry
  dsimp only
  split <;> rfl

end

/-- Every slot in use holds a frame, and every frame is found along its row. -/
structure Framed (entries : Fin kCapacity → Entry) (frames : List Frame) : Prop where
  tidy : Tidy (fun i => (entries i).sequence) 0 (probes kCapacity)
  blank : ∀ i, (entries i).sequence = 0 → entries i = {}
  entry : ∀ i, (entries i).sequence ≠ 0 → ∃ f ∈ frames, entries i = f.entry
  frame : ∀ f ∈ frames, ∃ i, entries i = f.entry

structure Strayed (orphans : Fin kOrphanCapacity → OrphanGpu) (strays : List Part) : Prop where
  orphan : ∀ j, (orphans j).sequence ≠ 0 → ∃ u ∈ strays, orphans j = u.orphan
  stray : ∀ u ∈ strays, ∃ j, orphans j = u.orphan
  single : ∀ j k, (orphans j).sequence ≠ 0 → (orphans j).sequence = (orphans k).sequence → j = k

theorem keys_update (entries : Fin kCapacity → Entry) (i : Fin kCapacity) (e : Entry) :
    (fun k => (Function.update entries i e k).sequence) =
      Function.update (fun k => (entries k).sequence) i e.sequence := by
  funext k
  by_cases same : k = i
  · subst same
    simp
  · simp [same]

namespace Framed

variable {entries : Fin kCapacity → Entry} {frames : List Frame} {f : Frame} {u : Part} {i : Fin kCapacity}

theorem empty : Framed (fun _ => {}) [] where
  tidy := fun _ held => absurd rfl held
  blank := fun _ _ => rfl
  entry := fun _ held => absurd rfl held
  frame := nofun

theorem insert (h : Framed entries frames) (solid : f.cpu.sequence ≠ 0)
    (absent : scan (fun i => (entries i).sequence) 0 f.cpu.sequence (probes kCapacity f.cpu.sequence) = none)
    (isPassed : i ∈ passed (fun i => (entries i).sequence) 0 f.cpu.sequence
      (probes kCapacity f.cpu.sequence))
    (free : (entries i).sequence = 0) (nonzero : ∀ g ∈ frames, g.cpu.sequence ≠ 0) :
    Framed (Function.update entries i f.entry) (frames ++ [f]) where
  tidy := by
    rw [keys_update, Frame.entry_sequence]
    exact h.tidy.insert solid absent isPassed
  blank := by
    intro k
    by_cases same : k = i
    · subst same
      rw [Function.update_self, Frame.entry_sequence]
      exact fun zero => absurd zero solid
    · rw [Function.update_of_ne same]
      exact h.blank k
  entry := by
    intro k
    by_cases same : k = i
    · subst same
      rw [Function.update_self]
      exact fun _ => ⟨f, by simp, rfl⟩
    · rw [Function.update_of_ne same]
      intro held
      obtain ⟨g, mem, isEntry⟩ := h.entry k held
      exact ⟨g, List.mem_append_left _ mem, isEntry⟩
  frame := by
    intro g mem
    rcases List.mem_append.mp mem with old | last
    · obtain ⟨k, isEntry⟩ := h.frame g old
      have other : k ≠ i := by
        rintro rfl
        rw [isEntry, Frame.entry_sequence] at free
        exact nonzero g old free
      exact ⟨k, by rw [Function.update_of_ne other, isEntry]⟩
    · rw [List.mem_singleton.mp last]
      exact ⟨i, Function.update_self ..⟩

theorem answer (h : Framed entries frames) (isEntry : entries i = f.entry) (mem : f ∈ frames)
    (same : f.cpu.sequence = u.sequence) (solid : u.sequence ≠ 0) :
    Framed (Function.update entries i (f.answer u).entry) (frames.map (Frame.answer u)) := by
  have sameKey : (f.answer u).entry.sequence = (entries i).sequence := by
    rw [Frame.answer_entry same, isEntry]
  have keys : (fun k => (Function.update entries i (f.answer u).entry k).sequence) =
      fun k => (entries k).sequence := by
    rw [keys_update, sameKey]
    exact Function.update_eq_self i _
  have key : (entries i).sequence = u.sequence := by rw [isEntry, Frame.entry_sequence, same]
  refine ⟨by rw [keys]; exact h.tidy, ?_, ?_, ?_⟩
  · intro k
    by_cases here : k = i
    · subst here
      rw [Function.update_self, sameKey, key]
      exact fun zero => absurd zero solid
    · rw [Function.update_of_ne here]
      exact h.blank k
  · intro k
    by_cases here : k = i
    · subst here
      rw [Function.update_self]
      exact fun _ => ⟨f.answer u, List.mem_map_of_mem mem, rfl⟩
    · rw [Function.update_of_ne here]
      intro held
      obtain ⟨g, isThere, isOther⟩ := h.entry k held
      have other : g.cpu.sequence ≠ u.sequence := by
        intro isSame
        refine here (h.tidy.injective held ?_)
        rw [key, isOther, Frame.entry_sequence, isSame]
      refine ⟨g, List.mem_map.mpr ⟨g, isThere, ?_⟩, isOther⟩
      unfold Frame.answer
      rw [if_neg other]
  · intro g' isMapped
    obtain ⟨g, isThere, rfl⟩ := List.mem_map.mp isMapped
    obtain ⟨k, isOther⟩ := h.frame g isThere
    by_cases here : k = i
    · subst here
      have isSame : g.entry = f.entry := isOther.symm.trans isEntry
      have sequence : g.cpu.sequence = u.sequence := by
        rw [← Frame.entry_sequence, isSame, Frame.entry_sequence, same]
      refine ⟨k, ?_⟩
      rw [Function.update_self, Frame.answer_entry same, Frame.answer_entry sequence, isSame]
    · refine ⟨k, ?_⟩
      rw [Function.update_of_ne here, isOther]
      unfold Frame.answer
      split
      · rename_i isSame
        refine absurd (h.tidy.injective ?_ ?_) here
        · rw [isOther, Frame.entry_sequence, isSame]
          exact solid
        · rw [key, isOther, Frame.entry_sequence, isSame]
      · rfl

theorem absent (h : Framed entries frames) (solid : u.sequence ≠ 0)
    (missing : scan (fun i => (entries i).sequence) 0 u.sequence (probes kCapacity u.sequence) = none) :
    ¬∃ f ∈ frames, f.cpu.sequence = u.sequence := by
  rintro ⟨f, mem, same⟩
  obtain ⟨i, isEntry⟩ := h.frame f mem
  refine h.tidy.absent (i := i) solid missing ?_
  rw [isEntry, Frame.entry_sequence, same]

end Framed

namespace Strayed

variable {orphans : Fin kOrphanCapacity → OrphanGpu} {strays : List Part} {u : Part}
  {j : Fin kOrphanCapacity}

theorem empty : Strayed (fun _ => {}) [] where
  orphan := fun _ held => absurd rfl held
  stray := nofun
  single := fun _ _ held _ => absurd rfl held

theorem insert (h : Strayed orphans strays) (free : (orphans j).sequence = 0)
    (fresh : ∀ v ∈ strays, v.sequence ≠ u.sequence) (nonzero : ∀ v ∈ strays, v.sequence ≠ 0) :
    Strayed (Function.update orphans j u.orphan) (strays ++ [u]) where
  orphan := by
    intro k
    by_cases same : k = j
    · subst same
      rw [Function.update_self]
      exact fun _ => ⟨u, by simp, rfl⟩
    · rw [Function.update_of_ne same]
      intro held
      obtain ⟨v, mem, isOrphan⟩ := h.orphan k held
      exact ⟨v, List.mem_append_left _ mem, isOrphan⟩
  stray := by
    intro v mem
    rcases List.mem_append.mp mem with old | last
    · obtain ⟨k, isOrphan⟩ := h.stray v old
      have other : k ≠ j := by
        rintro rfl
        rw [isOrphan] at free
        exact nonzero v old free
      exact ⟨k, by rw [Function.update_of_ne other, isOrphan]⟩
    · rw [List.mem_singleton.mp last]
      exact ⟨j, Function.update_self ..⟩
  single := by
    have apart : ∀ k, k ≠ j → (orphans k).sequence ≠ 0 → (orphans k).sequence ≠ u.sequence := by
      intro k _ held same
      obtain ⟨v, mem, isOrphan⟩ := h.orphan k held
      rw [isOrphan] at same
      exact fresh v mem same
    intro k l
    by_cases first : k = j <;> by_cases second : l = j
    · exact fun _ _ => first.trans second.symm
    · subst first
      rw [Function.update_self, Function.update_of_ne second]
      intro held same
      refine absurd same.symm (apart l second ?_)
      rw [← same]
      exact held
    · subst second
      rw [Function.update_self, Function.update_of_ne first]
      exact fun held same => absurd same (apart k first held)
    · rw [Function.update_of_ne first, Function.update_of_ne second]
      exact h.single k l

theorem remove (h : Strayed orphans strays) (held : (orphans j).sequence ≠ 0) :
    Strayed (Function.update orphans j {}) (strays.filter fun v => v.sequence ≠ (orphans j).sequence) where
  orphan := by
    intro k
    by_cases same : k = j
    · subst same
      rw [Function.update_self]
      exact fun some => absurd rfl some
    · rw [Function.update_of_ne same]
      intro some
      obtain ⟨v, mem, isOrphan⟩ := h.orphan k some
      refine ⟨v, List.mem_filter.mpr ⟨mem, ?_⟩, isOrphan⟩
      refine decide_eq_true fun isSame => same (h.single k j some ?_)
      rw [← isSame, isOrphan]
      rfl
  stray := by
    intro v mem
    obtain ⟨old, other⟩ := List.mem_filter.mp mem
    obtain ⟨k, isOrphan⟩ := h.stray v old
    have apart : k ≠ j := by
      rintro rfl
      refine of_decide_eq_true other ?_
      rw [isOrphan]
      rfl
    exact ⟨k, by rw [Function.update_of_ne apart, isOrphan]⟩
  single := by
    intro k l
    by_cases first : k = j
    · subst first
      rw [Function.update_self]
      exact fun some => absurd rfl some
    · rw [Function.update_of_ne first]
      by_cases second : l = j
      · subst second
        rw [Function.update_self]
        exact fun some same => absurd same some
      · rw [Function.update_of_ne second]
        exact h.single k l

end Strayed

end EdvrPatch.Benchmark
