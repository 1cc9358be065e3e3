import EdvrPatch.Benchmark.Collector

/-! A book of the frames of a sample: the observations of two streams are delivered in
some order, and every frame is written down with the result that is found for it. A
result that comes first waits among the strays, unless it is from before the sample. -/
namespace EdvrPatch.Benchmark

structure Part where
  sequence : Nat
  atMs : Nat
  ms : UInt64
  valid : Bool
  deriving DecidableEq, Repr

inductive Event where
  | cpu (p : Part)
  | gpu (u : Part)
  deriving DecidableEq, Repr

structure Frame where
  cpu : Part
  gpu : Option Part := none
  deriving DecidableEq, Repr

structure Book where
  frames : List Frame := []
  strays : List Part := []
  deriving DecidableEq, Repr

namespace Part

def InWindow (start : Nat) (p : Part) : Prop := start ≤ p.atMs ∧ p.atMs < start + kSampleMs

def InTime (start : Nat) (u : Part) : Prop := u.atMs ≤ start + kSampleMs + kDrainMs

instance (start : Nat) (p : Part) : Decidable (p.InWindow start) := by
  unfold InWindow
  infer_instance

instance (start : Nat) (u : Part) : Decidable (u.InTime start) := by
  unfold InTime
  infer_instance

end Part

def Frame.answer (u : Part) (f : Frame) : Frame :=
  if f.cpu.sequence = u.sequence then { f with gpu := some u } else f

def Book.write (start : Nat) (b : Book) : Event → Book
  | .cpu p =>
    if p.InWindow start then
      { frames := b.frames ++ [{ cpu := p, gpu := b.strays.find? fun u => u.sequence = p.sequence }]
        strays := b.strays.filter fun u => u.sequence ≠ p.sequence }
    else b
  | .gpu u =>
    if ¬u.InTime start then b
    else if ∃ f ∈ b.frames, f.cpu.sequence = u.sequence then
      { b with frames := b.frames.map (Frame.answer u) }
    else if start ≤ u.atMs then { b with strays := b.strays ++ [u] }
    else b

def bookOf (start : Nat) (evs : List Event) : Book := evs.foldl (Book.write start) {}

def Event.cpu? : Event → Option Part
  | .cpu p => some p
  | .gpu _ => none

def Event.gpu? : Event → Option Part
  | .cpu _ => none
  | .gpu u => some u

def cpuParts (evs : List Event) : List Part := evs.filterMap Event.cpu?

def gpuParts (evs : List Event) : List Part := evs.filterMap Event.gpu?

structure Once (evs : List Event) : Prop where
  cpu : ((cpuParts evs).map Part.sequence).Nodup
  gpu : ((gpuParts evs).map Part.sequence).Nodup

def Follows (evs : List Event) (p u : Part) : Prop :=
  ∃ before after, evs = before ++ Event.gpu u :: after ∧ .cpu p ∈ before

def Matches (start : Nat) (p u : Part) : Prop := u.sequence = p.sequence ∧ u.InTime start

def Finds (start : Nat) (evs : List Event) (p u : Part) : Prop :=
  .gpu u ∈ evs ∧ Matches start p u ∧ (start ≤ u.atMs ∨ Follows evs p u)

/-- No result from before the sample comes ahead of a frame that it belongs to. -/
def NoneEarly (start : Nat) (evs : List Event) : Prop :=
  ∀ p u, .cpu p ∈ evs → p.InWindow start → .gpu u ∈ evs → Matches start p u → u.atMs < start →
    Follows evs p u

section

variable {start : Nat} {evs evs' : List Event} {p u v : Part} {e : Event}

@[simp] theorem mem_cpuParts : p ∈ cpuParts evs ↔ .cpu p ∈ evs := by
  unfold cpuParts
  rw [List.mem_filterMap]
  constructor
  · rintro ⟨e, mem, same⟩
    cases e with
    | cpu q =>
      cases same
      exact mem
    | gpu u => cases same
  · exact fun mem => ⟨.cpu p, mem, rfl⟩

@[simp] theorem mem_gpuParts : u ∈ gpuParts evs ↔ .gpu u ∈ evs := by
  unfold gpuParts
  rw [List.mem_filterMap]
  constructor
  · rintro ⟨e, mem, same⟩
    cases e with
    | cpu q => cases same
    | gpu v =>
      cases same
      exact mem
  · exact fun mem => ⟨.gpu u, mem, rfl⟩

theorem cpuParts_append (evs evs' : List Event) : cpuParts (evs ++ evs') = cpuParts evs ++ cpuParts evs' :=
  List.filterMap_append

theorem gpuParts_append (evs evs' : List Event) : gpuParts (evs ++ evs') = gpuParts evs ++ gpuParts evs' :=
  List.filterMap_append

theorem Once.left (once : Once (evs ++ evs')) : Once evs where
  cpu := by
    have both := once.cpu
    rw [cpuParts_append, List.map_append] at both
    exact both.of_append_left
  gpu := by
    have both := once.gpu
    rw [gpuParts_append, List.map_append] at both
    exact both.of_append_left

theorem Once.new_cpu (once : Once (evs ++ [Event.cpu p])) {q : Part} (mem : .cpu q ∈ evs) :
    q.sequence ≠ p.sequence := by
  have both := once.cpu
  rw [cpuParts_append, List.map_append, List.nodup_append] at both
  exact both.2.2 q.sequence (List.mem_map_of_mem (mem_cpuParts.mpr mem)) p.sequence
    (List.mem_singleton_self _)

theorem Once.new_gpu (once : Once (evs ++ [Event.gpu u])) (mem : .gpu v ∈ evs) : v.sequence ≠ u.sequence := by
  have both := once.gpu
  rw [gpuParts_append, List.map_append, List.nodup_append] at both
  exact both.2.2 v.sequence (List.mem_map_of_mem (mem_gpuParts.mpr mem)) u.sequence
    (List.mem_singleton_self _)

theorem Once.gpu_unique (once : Once evs) (first : .gpu u ∈ evs) (second : .gpu v ∈ evs)
    (same : u.sequence = v.sequence) : u = v :=
  List.inj_on_of_nodup_map once.gpu (mem_gpuParts.mpr first) (mem_gpuParts.mpr second) same

theorem find_sequence {parts : List Part} (mem : u ∈ parts)
    (single : ∀ v ∈ parts, v.sequence = u.sequence → v = u) :
    parts.find? (fun v => v.sequence = u.sequence) = some u := by
  cases found : parts.find? fun v => v.sequence = u.sequence with
  | none =>
    have other := List.find?_eq_none.mp found u mem
    exact absurd (decide_eq_true rfl) other
  | some v =>
    have same : v.sequence = u.sequence := by simpa using List.find?_some found
    rw [single v (List.mem_of_find?_eq_some found) same]

theorem follows_concat : Follows (evs ++ [e]) p u ↔ Follows evs p u ∨ (e = .gpu u ∧ .cpu p ∈ evs) := by
  constructor
  · rintro ⟨before, after, isWhole, mem⟩
    induction after using List.reverseRecOn with
    | nil =>
      obtain ⟨rfl, isLast⟩ := List.append_inj' isWhole rfl
      exact .inr ⟨List.singleton_inj.mp isLast, mem⟩
    | append_singleton after last _ =>
      rw [show before ++ Event.gpu u :: (after ++ [last]) = (before ++ Event.gpu u :: after) ++ [last] by simp] at isWhole
      obtain ⟨isFront, _⟩ := List.append_inj' isWhole rfl
      exact .inl ⟨before, after, isFront, mem⟩
  · rintro (⟨before, after, rfl, mem⟩ | ⟨rfl, mem⟩)
    · exact ⟨before, after ++ [e], by simp, mem⟩
    · exact ⟨evs, [], rfl, mem⟩

theorem Follows.mem (follows : Follows evs p u) : .cpu p ∈ evs ∧ .gpu u ∈ evs := by
  obtain ⟨before, after, rfl, mem⟩ := follows
  exact ⟨List.mem_append_left _ mem, by simp⟩

/-- What the book holds of the events that have been written down. -/
structure Written (start : Nat) (evs : List Event) (b : Book) : Prop where
  frames : b.frames.map Frame.cpu = (cpuParts evs).filter fun p => p.InWindow start
  results : ∀ f ∈ b.frames, ∀ u, f.gpu = some u ↔ Finds start evs f.cpu u
  strays : ∀ u, u ∈ b.strays ↔ .gpu u ∈ evs ∧ u.InTime start ∧ start ≤ u.atMs ∧
    ∀ p, .cpu p ∈ evs → p.InWindow start → p.sequence ≠ u.sequence

namespace Written

variable {b : Book} {f : Frame}

theorem frame_mem (w : Written start evs b) (mem : f ∈ b.frames) :
    .cpu f.cpu ∈ evs ∧ f.cpu.InWindow start := by
  have inside : f.cpu ∈ b.frames.map Frame.cpu := List.mem_map_of_mem mem
  rw [w.frames, List.mem_filter, mem_cpuParts] at inside
  exact ⟨inside.1, of_decide_eq_true inside.2⟩

theorem mem_frame (w : Written start evs b) (mem : .cpu p ∈ evs) (inside : p.InWindow start) :
    ∃ f ∈ b.frames, f.cpu = p := by
  have isFrame : p ∈ b.frames.map Frame.cpu := by
    rw [w.frames, List.mem_filter, mem_cpuParts]
    exact ⟨mem, decide_eq_true inside⟩
  exact List.mem_map.mp isFrame

theorem find_stray (w : Written start evs b) (once : Once evs) (stray : u ∈ b.strays)
    (same : u.sequence = p.sequence) : b.strays.find? (fun v => v.sequence = p.sequence) = some u := by
  rw [← same]
  apply find_sequence stray
  intro v isStray isSame
  exact once.gpu_unique ((w.strays v).mp isStray).1 ((w.strays u).mp stray).1 isSame

theorem write_cpu (w : Written start evs b) (once : Once (evs ++ [Event.cpu p])) :
    Written start (evs ++ [Event.cpu p]) (b.write start (.cpu p)) := by
  have finds : ∀ q u, Finds start (evs ++ [Event.cpu p]) q u ↔ Finds start evs q u := by
    unfold Finds
    simp [follows_concat]
  have counted : cpuParts (evs ++ [Event.cpu p]) = cpuParts evs ++ [p] := by
    rw [cpuParts_append]
    rfl
  unfold Book.write
  dsimp only
  split
  · rename_i inside
    refine ⟨?_, ?_, ?_⟩
    · rw [counted, List.map_append, List.filter_append, w.frames]
      simp [inside]
    · intro f mem u
      rw [finds]
      rcases List.mem_append.mp mem with old | last
      · exact w.results f old u
      · rw [List.mem_singleton.mp last]
        have fresh : ¬Follows evs p u := fun follows => once.new_cpu follows.mem.1 rfl
        have isStray : u ∈ b.strays ∧ u.sequence = p.sequence ↔ Finds start evs p u := by
          rw [w.strays]
          constructor
          · rintro ⟨⟨mem, inTime, after, _⟩, same⟩
            exact ⟨mem, ⟨same, inTime⟩, .inl after⟩
          · rintro ⟨mem, ⟨same, inTime⟩, after⟩
            refine ⟨⟨mem, inTime, after.resolve_right fresh, fun q isFrame _ => ?_⟩, same⟩
            rw [same]
            exact once.new_cpu isFrame
        rw [← isStray]
        constructor
        · intro found
          exact ⟨List.mem_of_find?_eq_some found, by simpa using List.find?_some found⟩
        · rintro ⟨stray, same⟩
          exact w.find_stray once.left stray same
    · intro u
      rw [List.mem_filter, w.strays]
      simp only [List.mem_append, List.mem_singleton, Event.cpu.injEq, reduceCtorEq, or_false,
        decide_eq_true_eq]
      constructor
      · rintro ⟨⟨mem, inTime, after, apart⟩, other⟩
        refine ⟨mem, inTime, after, fun q isFrame isIn => ?_⟩
        rcases isFrame with old | rfl
        · exact apart q old isIn
        · exact fun same => other same.symm
      · rintro ⟨mem, inTime, after, apart⟩
        exact ⟨⟨mem, inTime, after, fun q isFrame => apart q (.inl isFrame)⟩,
          fun same => apart p (.inr rfl) inside same.symm⟩
  · rename_i outside
    refine ⟨?_, ?_, ?_⟩
    · rw [counted, List.filter_append, w.frames]
      simp [outside]
    · intro f mem u
      rw [finds]
      exact w.results f mem u
    · intro u
      rw [w.strays]
      simp only [List.mem_append, List.mem_singleton, Event.cpu.injEq, reduceCtorEq, or_false]
      refine and_congr_right fun _ => and_congr_right fun _ => and_congr_right fun _ => ?_
      constructor
      · rintro apart q (old | rfl) isIn
        · exact apart q old isIn
        · exact absurd isIn outside
      · exact fun apart q isFrame => apart q (.inl isFrame)

theorem finds_other {q : Part} (apart : ¬Matches start q u) :
    Finds start (evs ++ [Event.gpu u]) q v ↔ Finds start evs q v := by
  unfold Finds
  simp only [List.mem_append, List.mem_singleton, Event.gpu.injEq, follows_concat]
  constructor
  · rintro ⟨old | rfl, isResult, after⟩
    · refine ⟨old, isResult, after.imp_right fun follows => ?_⟩
      rcases follows with before | ⟨rfl, _⟩
      · exact before
      · exact absurd isResult apart
    · exact absurd isResult apart
  · rintro ⟨old, isResult, after⟩
    exact ⟨.inl old, isResult, after.imp_right .inl⟩

theorem write_gpu (w : Written start evs b) (once : Once (evs ++ [Event.gpu u])) :
    Written start (evs ++ [Event.gpu u]) (b.write start (.gpu u)) := by
  have counted : cpuParts (evs ++ [Event.gpu u]) = cpuParts evs := by
    rw [cpuParts_append]
    exact List.append_nil _
  have cpuMem : ∀ p, .cpu p ∈ evs ++ [Event.gpu u] ↔ .cpu p ∈ evs := by simp
  have gpuMem : ∀ v, .gpu v ∈ evs ++ [Event.gpu u] ↔ .gpu v ∈ evs ∨ v = u := by simp
  unfold Book.write
  dsimp only
  split
  · rename_i late
    refine ⟨by rw [counted, w.frames], ?_, ?_⟩
    · intro f mem v
      rw [finds_other fun isResult => late isResult.2]
      exact w.results f mem v
    · intro v
      simp only [w.strays, cpuMem, gpuMem]
      refine ⟨fun ⟨mem, rest⟩ => ⟨.inl mem, rest⟩, fun ⟨mem, rest⟩ => ⟨mem.resolve_right ?_, rest⟩⟩
      rintro rfl
      exact late rest.1
  rename_i notLate
  have inTime := not_not.mp notLate
  split
  · rename_i isFrame
    refine ⟨?_, ?_, ?_⟩
    · have sameFrames : (b.frames.map (Frame.answer u)).map Frame.cpu = b.frames.map Frame.cpu := by
        rw [List.map_map]
        apply List.map_congr_left
        intro f _
        change (f.answer u).cpu = f.cpu
        unfold Frame.answer
        split <;> rfl
      rw [sameFrames, counted, w.frames]
    · intro f mem v
      obtain ⟨f, old, rfl⟩ := List.mem_map.mp mem
      unfold Frame.answer
      split
      · rename_i same
        obtain ⟨isOld, _⟩ := w.frame_mem old
        constructor
        · rintro ⟨rfl⟩
          exact ⟨(gpuMem u).mpr (.inr rfl), ⟨same.symm, inTime⟩, .inr (follows_concat.mpr (.inr ⟨rfl, isOld⟩))⟩
        · rintro ⟨mem, isResult, _⟩
          exact congrArg some (once.gpu_unique ((gpuMem u).mpr (.inr rfl)) mem (same.symm.trans isResult.1.symm))
      · rename_i other
        rw [finds_other fun isResult => other isResult.1.symm]
        exact w.results f old v
    · intro v
      simp only [w.strays, cpuMem, gpuMem]
      refine ⟨fun ⟨mem, rest⟩ => ⟨.inl mem, rest⟩, fun ⟨mem, rest⟩ => ⟨mem.resolve_right ?_, rest⟩⟩
      rintro rfl
      obtain ⟨f, old, same⟩ := isFrame
      obtain ⟨isOld, inside⟩ := w.frame_mem old
      exact rest.2.2 f.cpu isOld inside same
  rename_i noFrame
  have apart : ∀ f ∈ b.frames, ¬Matches start f.cpu u :=
    fun f mem isResult => noFrame ⟨f, mem, isResult.1.symm⟩
  have results : ∀ f ∈ b.frames, ∀ v, f.gpu = some v ↔ Finds start (evs ++ [Event.gpu u]) f.cpu v := by
    intro f mem v
    rw [finds_other (apart f mem)]
    exact w.results f mem v
  have unheld : ∀ p, .cpu p ∈ evs → p.InWindow start → p.sequence ≠ u.sequence := by
    intro p mem inside same
    obtain ⟨f, isFrame, rfl⟩ := w.mem_frame mem inside
    exact noFrame ⟨f, isFrame, same⟩
  split
  · rename_i after
    refine ⟨by rw [counted, w.frames], results, ?_⟩
    intro v
    rw [List.mem_append, List.mem_singleton, w.strays]
    simp only [cpuMem, gpuMem]
    constructor
    · rintro (⟨mem, rest⟩ | rfl)
      · exact ⟨.inl mem, rest⟩
      · exact ⟨.inr rfl, inTime, after, unheld⟩
    · rintro ⟨mem | rfl, rest⟩
      · exact .inl ⟨mem, rest⟩
      · exact .inr rfl
  · rename_i early
    refine ⟨by rw [counted, w.frames], results, ?_⟩
    intro v
    simp only [w.strays, cpuMem, gpuMem]
    refine ⟨fun ⟨mem, rest⟩ => ⟨.inl mem, rest⟩, fun ⟨mem, rest⟩ => ⟨mem.resolve_right ?_, rest⟩⟩
    rintro rfl
    exact early rest.2.1

end Written

theorem bookOf_concat (start : Nat) (evs : List Event) (e : Event) :
    bookOf start (evs ++ [e]) = (bookOf start evs).write start e := by
  unfold bookOf
  rw [List.foldl_append]
  rfl

theorem written_bookOf (start : Nat) (once : Once evs) : Written start evs (bookOf start evs) := by
  induction evs using List.reverseRecOn with
  | nil => exact ⟨rfl, nofun, fun u => ⟨nofun, fun ⟨mem, _⟩ => nomatch mem⟩⟩
  | append_singleton evs e ih =>
    rw [bookOf_concat]
    cases e with
    | cpu p => exact (ih once.left).write_cpu once
    | gpu u => exact (ih once.left).write_gpu once

theorem NoneEarly.finds_iff (late : NoneEarly start evs) (mem : .cpu p ∈ evs) (inside : p.InWindow start) :
    Finds start evs p u ↔ .gpu u ∈ evs ∧ Matches start p u := by
  refine ⟨fun ⟨isIn, isResult, _⟩ => ⟨isIn, isResult⟩, fun ⟨isIn, isResult⟩ => ⟨isIn, isResult, ?_⟩⟩
  rcases Nat.lt_or_ge u.atMs start with early | after
  · exact .inr (late p u mem inside isIn isResult early)
  · exact .inl after

structure SameParts (evs evs' : List Event) : Prop where
  cpu : (cpuParts evs).Perm (cpuParts evs')
  gpu : (gpuParts evs).Perm (gpuParts evs')

namespace SameParts

variable (same : SameParts evs evs')

include same

theorem symm : SameParts evs' evs := ⟨same.cpu.symm, same.gpu.symm⟩

theorem mem_cpu : .cpu p ∈ evs ↔ .cpu p ∈ evs' := by
  rw [← mem_cpuParts, same.cpu.mem_iff, mem_cpuParts]

theorem mem_gpu : .gpu u ∈ evs ↔ .gpu u ∈ evs' := by
  rw [← mem_gpuParts, same.gpu.mem_iff, mem_gpuParts]

end SameParts

section

variable {b b' : Book}

theorem Written.nodup_frames (w : Written start evs b) (once : Once evs) : (b.frames.map Frame.cpu).Nodup := by
  rw [w.frames]
  exact once.cpu.of_map.filter _

theorem Written.frames_subset (w : Written start evs b) (w' : Written start evs' b') (same : SameParts evs evs')
    (late : NoneEarly start evs) (late' : NoneEarly start evs') : b.frames ⊆ b'.frames := by
  intro f mem
  obtain ⟨isIn, inside⟩ := w.frame_mem mem
  obtain ⟨f', mem', frame⟩ := w'.mem_frame (same.mem_cpu.mp isIn) inside
  have results : f.gpu = f'.gpu := by
    apply Option.ext
    intro u
    rw [w.results f mem u, w'.results f' mem' u, frame, late.finds_iff isIn inside,
      late'.finds_iff (same.mem_cpu.mp isIn) inside, same.mem_gpu]
  have equal : f = f' := by
    cases f
    cases f'
    cases frame
    cases results
    rfl
  rw [equal]
  exact mem'

theorem Written.frames_perm (w : Written start evs b) (w' : Written start evs' b') (once : Once evs)
    (once' : Once evs') (same : SameParts evs evs') (late : NoneEarly start evs)
    (late' : NoneEarly start evs') : b.frames.Perm b'.frames :=
  (List.perm_ext_iff_of_nodup (w.nodup_frames once).of_map (w'.nodup_frames once').of_map).mpr fun _ =>
    ⟨fun mem => w.frames_subset w' same late late' mem,
      fun mem => w'.frames_subset w same.symm late' late mem⟩

def Book.unanswered (b : Book) : List Frame := b.frames.filter fun f => f.gpu.isNone

theorem Written.unanswered_lt (w : Written start evs b) (w' : Written start evs' b') (once : Once evs)
    (once' : Once evs') (same : SameParts evs evs') (late : NoneEarly start evs) (lost : ¬NoneEarly start evs') :
    b.unanswered.length < b'.unanswered.length := by
  unfold NoneEarly at lost
  push Not at lost
  obtain ⟨p, u, isFrame, inside, isIn, isResult, early, notFollows⟩ := lost
  have isFrame' := same.mem_cpu.mpr isFrame
  -- the frame has its result in the one order and none in the other
  have answered : p ∉ b.unanswered.map Frame.cpu := by
    intro mem
    obtain ⟨f, isLost, rfl⟩ := List.mem_map.mp mem
    obtain ⟨isThere, isNone⟩ := List.mem_filter.mp isLost
    have found := (w.results f isThere u).mpr
      ((late.finds_iff isFrame' inside).mpr ⟨same.mem_gpu.mpr isIn, isResult⟩)
    rw [found] at isNone
    cases isNone
  have without : p ∈ b'.unanswered.map Frame.cpu := by
    obtain ⟨f, mem, rfl⟩ := w'.mem_frame isFrame inside
    refine List.mem_map.mpr ⟨f, List.mem_filter.mpr ⟨mem, ?_⟩, rfl⟩
    cases found : f.gpu with
    | none => rfl
    | some v =>
      obtain ⟨isThere, matched, after⟩ := (w'.results f mem v).mp found
      have : v = u := once'.gpu_unique isThere isIn (matched.1.trans isResult.1.symm)
      subst this
      rcases after with after | follows
      · exact absurd early (Nat.not_lt.mpr after)
      · exact absurd follows notFollows
  have kept : b.unanswered.map Frame.cpu ⊆ b'.unanswered.map Frame.cpu := by
    intro q mem
    obtain ⟨f, isLost, rfl⟩ := List.mem_map.mp mem
    obtain ⟨isThere, isNone⟩ := List.mem_filter.mp isLost
    obtain ⟨isOld, isInside⟩ := w.frame_mem isThere
    obtain ⟨f', mem', frame⟩ := w'.mem_frame (same.mem_cpu.mp isOld) isInside
    refine List.mem_map.mpr ⟨f', List.mem_filter.mpr ⟨mem', ?_⟩, frame⟩
    cases found : f'.gpu with
    | none => rfl
    | some v =>
      obtain ⟨isResult', matched, _⟩ := (w'.results f' mem' v).mp found
      rw [frame] at matched
      have here := (w.results f isThere v).mpr
        ((late.finds_iff isOld isInside).mpr ⟨same.mem_gpu.mpr isResult', matched⟩)
      rw [here] at isNone
      cases isNone
  have nodup : (p :: b.unanswered.map Frame.cpu).Nodup :=
    List.nodup_cons.mpr ⟨answered, (w.nodup_frames once).sublist (List.filter_sublist.map _)⟩
  have subset : p :: b.unanswered.map Frame.cpu ⊆ b'.unanswered.map Frame.cpu :=
    List.cons_subset.mpr ⟨without, kept⟩
  have longer := (nodup.subperm subset).length_le
  rw [List.length_cons, List.length_map, List.length_map] at longer
  exact longer

end

end

end EdvrPatch.Benchmark
