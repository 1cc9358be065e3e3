import EdvrPatch.Gpu.FrameRules

/-! The completions of the controller over whole runs. What is in a slot, what was tried
and what is poisoned say together which sequences can still be completed, and what the
controller knows of the eyes of the open frame is on record. -/
namespace EdvrPatch.Gpu

open Lib

/-- The open frame: its slot, and the eyes that the controller takes for begun and for
ended. -/
structure OpenFrame (g : GpuSpanState) (v : FrameView) (sequence seen begun ended : Nat) (eye : Int) :
    Prop where
  slot : ∃ i, g.opened = some i ∧ (g.slots i).sequence = sequence
  within : sequence ∈ v.within
  seen : seen = sequence * 2 + 1
  taking : eye = -1 ∨ ∃ k : Nat, k < 2 ∧ eye = k ∧ (sequence, k) ∈ v.begun
  begun : ∀ k < 2, begun.testBit k = true → (sequence, k) ∈ v.begun
  ended : ∀ k < 2, ended.testBit k = true → (sequence, k) ∈ v.begun ∧ (sequence, k) ∈ v.ended

def FrameView.SameFrames (v v' : FrameView) : Prop := ∃ completed, v' = { v with completed := completed }

theorem FrameView.SameFrames.refl (v : FrameView) : v.SameFrames v := ⟨v.completed, rfl⟩

structure FrameView.Extends (v v' : FrameView) : Prop where
  within : v.within ⊆ v'.within
  tried : v.tried ⊆ v'.tried
  begun : v.begun ⊆ v'.begun
  ended : v.ended ⊆ v'.ended
  completed : v'.completed = v.completed

def FrameEvent.Adds : FrameEvent → Prop
  | .presented => False
  | .completed _ => False
  | _ => True

theorem FrameEvent.Adds.extends_view {e : FrameEvent} (adds : e.Adds) (v : FrameView) :
    v.Extends (frameProtocol.advance v e) ∧ frameProtocol.allows v e := by
  have same : v.Extends v := ⟨List.Subset.refl _, List.Subset.refl _, List.Subset.refl _, List.Subset.refl _, rfl⟩
  cases e with
  | presented => exact adds.elim
  | completed result => exact adds.elim
  | armed sequence => exact ⟨{ same with within := List.subset_cons_self .. }, trivial⟩
  | tried sequence => exact ⟨{ same with tried := List.subset_cons_self .. }, trivial⟩
  | begun sequence eye =>
    refine ⟨?_, trivial⟩
    dsimp only [frameProtocol]
    split
    · exact { same with begun := List.subset_cons_self .. }
    · exact same
  | ended sequence eye =>
    refine ⟨?_, trivial⟩
    dsimp only [frameProtocol]
    split
    · exact { same with ended := List.subset_cons_self .. }
    · exact same

theorem FrameView.Extends.paired {v v' : FrameView} (more : v.Extends v') {sequence : Nat}
    (paired : v.Paired sequence) : v'.Paired sequence :=
  fun eye lt => ⟨more.begun (paired eye lt).1, more.ended (paired eye lt).2⟩

namespace FrameController

structure Fits (c : FrameController) : Prop where
  lawful : frameProtocol.Admits {} c.log
  ring : c.ring.Fits c.view
  done : ∀ s ∈ c.view.completed, s ∈ c.view.tried ∨ s ≤ c.poisoned
  active : c.activeSequence ≠ 0 →
    OpenFrame c.ring c.view c.activeSequence c.seenToken c.begun c.ended c.activeEye
  idle : c.activeSequence = 0 → c.activeEye = -1

variable (answers : Nat → SpanAnswer) {c c' : FrameController} {g : GpuSpanState} {sequence now : Nat}

theorem view_record (c : FrameController) (e : FrameEvent) :
    (c.record e).view = frameProtocol.advance c.view e := by
  simp [view, record]

theorem lawful_record {e : FrameEvent} (lawful : frameProtocol.Admits {} c.log)
    (allowed : frameProtocol.allows c.view e) : frameProtocol.Admits {} (c.record e).log := by
  simp only [record, Monitor.admits_append, Monitor.admits_cons, Monitor.admits_nil, and_true]
  exact ⟨lawful, allowed⟩

theorem Fits.drops (h : c.Fits) (log : c'.log = c.log) (ring : c'.ring.Fits c.view)
    (poisoned : c.poisoned ≤ c'.poisoned) (idle : c'.activeSequence = 0) (eye : c'.activeEye = -1) :
    c'.Fits := by
  have same : c'.view = c.view := congrArg (frameProtocol.after {}) log
  refine ⟨by rw [log]; exact h.lawful, by rw [same]; exact ring, ?_, fun active => absurd idle active,
    fun _ => eye⟩
  rw [same]
  intro s mem
  exact (h.done s mem).imp id fun le => Nat.le_trans le poisoned

theorem Fits.invalidates (h : c.Fits) (ring : g.Fits c.view) :
    ({ c with ring := g }.invalidate answers now).Fits := by
  refine h.drops rfl ?_ (Nat.le_refl _) rfl rfl
  show (if c.activeSequence = 0 then g else (g.invalidateFrame answers now g.owner).2).Fits c.view
  split
  · exact ring
  · exact ring.givesUp (GpuSpanState.invalidateFrame_givesUp answers _)

theorem Fits.poison (h : c.Fits) (sequence : Nat) : (c.poison sequence).Fits :=
  ⟨h.lawful, h.ring, fun s mem => (h.done s mem).imp id fun le => Nat.le_trans le (Nat.le_max_left _ _),
    h.active, h.idle⟩

theorem Fits.rejects (h : c.Fits) (ring : g.Fits c.view) (sequence now : Nat) :
    ({ c with ring := g }.reject answers sequence now).Fits :=
  (h.invalidates answers ring).poison sequence

theorem Fits.reject (h : c.Fits) (sequence now : Nat) : (c.reject answers sequence now).Fits :=
  h.rejects answers h.ring sequence now

theorem OpenFrame.record {v v' : FrameView} {sequence seen begun ended : Nat} {eye : Int} {g : GpuSpanState}
    (h : OpenFrame g v sequence seen begun ended eye) (more : v.Extends v') :
    OpenFrame g v' sequence seen begun ended eye where
  slot := h.slot
  within := more.within h.within
  seen := h.seen
  taking := h.taking.imp id fun ⟨k, lt, isEye, mem⟩ => ⟨k, lt, isEye, more.begun mem⟩
  begun := fun k lt bit => more.begun (h.begun k lt bit)
  ended := fun k lt bit => ⟨more.begun (h.ended k lt bit).1, more.ended (h.ended k lt bit).2⟩

theorem Fits.records (h : c.Fits) {e : FrameEvent} (adds : e.Adds) : (c.record e).Fits := by
  obtain ⟨more, allowed⟩ := adds.extends_view c.view
  rw [← view_record] at more
  refine ⟨lawful_record h.lawful allowed, ?_, ?_, fun active => OpenFrame.record (h.active active) more,
    h.idle⟩
  · refine h.ring.view (fun s mem => more.tried mem) (fun s paired => more.paired paired) fun i used => ?_
    rw [more.completed]
    exact h.ring.waiting i used
  · intro s mem
    rw [more.completed] at mem
    exact (h.done s mem).imp (fun isTried => more.tried isTried) id

theorem OpenFrame.ring {v : FrameView} {sequence seen begun ended : Nat} {eye : Int} {g g' : GpuSpanState}
    (h : OpenFrame g v sequence seen begun ended eye) (opened : g'.opened = g.opened)
    (face : ∀ i, g.opened = some i → (g'.slots i).sequence = (g.slots i).sequence) :
    OpenFrame g' v sequence seen begun ended eye := by
  obtain ⟨i, isOpen, isSequence⟩ := h.slot
  exact { h with slot := ⟨i, opened.trans isOpen, (face i isOpen).trans isSequence⟩ }

theorem Fits.goes (h : c.Fits) (same : GpuSpanState.SameFaces c.ring g) : { c with ring := g }.Fits :=
  ⟨h.lawful, h.ring.same same, h.done,
    fun active => OpenFrame.ring (h.active active) same.opened fun i _ =>
      GpuSpanState.sequence_of_face (same.faces i), h.idle⟩

theorem clipped_sequence (poisoned : Nat) (result : GpuSpanResult) :
    (clipped poisoned result).sequence = result.sequence := by
  unfold clipped
  split
  · rfl
  · rfl

theorem clipped_valid {poisoned : Nat} {result : GpuSpanResult}
    (valid : (clipped poisoned result).reason = .valid) : result.reason = .valid := by
  unfold clipped at valid
  split at valid
  · cases valid
  · exact valid

theorem view_publish (c : FrameController) (result : GpuSpanResult) :
    (c.publish result).view = { c.view with completed := result.sequence :: c.view.completed } := by
  rw [publish, view_record, ← clipped_sequence c.poisoned result]
  rfl

theorem lawful_publish {result : GpuSpanResult} (lawful : frameProtocol.Admits {} c.log)
    (new : result.sequence ∉ c.view.completed)
    (paired : result.reason = .valid → c.view.Paired result.sequence) :
    frameProtocol.Admits {} (c.publish result).log := by
  refine lawful_record lawful ⟨?_, ?_⟩
  · rw [clipped_sequence]
    exact new
  · rw [clipped_sequence]
    exact fun valid => paired (clipped_valid valid)

theorem publishes_same (results : List GpuSpanResult) (c : FrameController) :
    ∃ log, results.foldl publish c = { c with log := log } := by
  induction results generalizing c with
  | nil => exact ⟨c.log, rfl⟩
  | cons result rest ih => exact ih (c.publish result)

theorem publishes_view (results : List GpuSpanResult) (c : FrameController) :
    (results.foldl publish c).view =
      { c.view with completed := (results.map (·.sequence)).reverse ++ c.view.completed } := by
  induction results generalizing c with
  | nil => rfl
  | cons result rest ih =>
    rw [List.foldl_cons, ih, view_publish]
    simp

theorem lawful_publishes (results : List GpuSpanResult) (c : FrameController)
    (lawful : frameProtocol.Admits {} c.log) (once : (results.map (·.sequence)).Nodup)
    (new : ∀ r ∈ results, r.sequence ∉ c.view.completed)
    (paired : ∀ r ∈ results, r.reason = .valid → c.view.Paired r.sequence) :
    frameProtocol.Admits {} (results.foldl publish c).log := by
  induction results generalizing c with
  | nil => exact lawful
  | cons result rest ih =>
    obtain ⟨apart, once⟩ := List.nodup_cons.mp once
    have first : result ∈ result :: rest := List.mem_cons_self
    refine ih _ (lawful_publish lawful (new result first) (paired result first)) once ?_ ?_
    · intro r mem
      rw [view_publish]
      refine List.not_mem_cons_of_ne_of_not_mem (fun same => ?_) (new r (List.mem_cons_of_mem _ mem))
      exact apart (List.mem_map.mpr ⟨r, mem, same⟩)
    · intro r mem valid
      rw [view_publish]
      exact paired r (List.mem_cons_of_mem _ mem) valid

theorem poll_eq (c : FrameController) (now : Nat) : ∃ log, c.poll answers now =
    { c with ring := (c.ring.poll answers now c.ring.owner).2, log := log } :=
  publishes_same _ { c with ring := (c.ring.poll answers now c.ring.owner).2 }

theorem poll_view (c : FrameController) (now : Nat) : (c.poll answers now).view = { c.view with
    completed := ((c.ring.poll answers now c.ring.owner).1.map (·.2.sequence)).reverse ++
      c.view.completed } := by
  refine (publishes_view _ { c with ring := (c.ring.poll answers now c.ring.owner).2 }).trans ?_
  rw [List.map_map]
  rfl

end FrameController

namespace GpuSpanState

variable {g g' : GpuSpanState} {v : FrameView} {results : List (Fin kSlots × GpuSpanResult)}

theorem Reports.used (reports : Reports g g' results) {p : Fin kSlots × GpuSpanResult}
    (mem : p ∈ results) : (g.slots p.1).state ≠ .free := by
  rcases (reports.reported p mem).1.past with pending | failed
  · rw [pending]
    decide
  · rw [failed]
    decide

theorem Reports.sequences_nodup (reports : Reports g g' results) (h : Fits g v) :
    (results.map (·.2.sequence)).Nodup := by
  have once := List.pairwise_map.mp reports.once
  refine List.pairwise_map.mpr (once.imp_of_mem ?_)
  intro p q pMem qMem apart same
  refine apart (h.distinct p.1 q.1 (reports.used pMem) (reports.used qMem) ?_)
  rw [← (reports.reported p pMem).1.sequence, ← (reports.reported q qMem).1.sequence]
  exact same

theorem Reports.still_waiting (reports : Reports g g' results) (h : Fits g v) {k : Fin kSlots}
    (used : (g'.slots k).state ≠ .free) : ∀ p ∈ results, p.2.sequence ≠ (g'.slots k).sequence := by
  have apart : ∀ p ∈ results, p.1 ≠ k := fun p mem same => used (same ▸ (reports.reported p mem).2)
  have same := reports.kept k apart
  intro p mem isSequence
  refine apart p mem (h.distinct p.1 k (reports.used mem) ?_ ?_)
  · rw [← state_of_face same]
    exact used
  · rw [← (reports.reported p mem).1.sequence, isSequence]
    exact sequence_of_face same

end GpuSpanState

namespace FrameController

variable (answers : Nat → SpanAnswer) {c c' : FrameController} {g : GpuSpanState} {sequence now : Nat}

theorem Fits.poll (h : c.Fits) (now : Nat) : (c.poll answers now).Fits := by
  have reports := GpuSpanState.poll_reports answers c.ring now c.ring.owner
  have view := poll_view answers c now
  obtain ⟨log, same⟩ := poll_eq answers c now
  have ring : (c.poll answers now).ring = (c.ring.poll answers now c.ring.owner).2 := by rw [same]
  refine ⟨?_, ?_, ?_, ?_, ?_⟩
  · refine lawful_publishes _ { c with ring := _ } h.lawful ?_ ?_ ?_
    · rw [List.map_map]
      exact reports.sequences_nodup h.ring
    · intro r mem
      obtain ⟨p, pMem, rfl⟩ := List.mem_map.mp mem
      rw [(reports.reported p pMem).1.sequence]
      exact h.ring.waiting p.1 (reports.used pMem)
    · intro r mem valid
      obtain ⟨p, pMem, rfl⟩ := List.mem_map.mp mem
      obtain ⟨pending, isValid⟩ := (reports.reported p pMem).1.valid valid
      rw [(reports.reported p pMem).1.sequence]
      exact h.ring.paired p.1 pending isValid
  · rw [ring, view]
    refine (h.ring.reports reports).view (fun s mem => mem) (fun s paired => paired) fun k used => ?_
    intro mem
    rcases List.mem_append.mp mem with new | old
    · obtain ⟨p, pMem, isSequence⟩ := List.mem_map.mp (List.mem_reverse.mp new)
      exact reports.still_waiting h.ring used p pMem isSequence
    · exact (h.ring.reports reports).waiting k used old
  · rw [view, same]
    intro s mem
    rcases List.mem_append.mp mem with new | old
    · obtain ⟨p, pMem, rfl⟩ := List.mem_map.mp (List.mem_reverse.mp new)
      rw [(reports.reported p pMem).1.sequence]
      exact .inl (h.ring.tried p.1 (reports.used pMem))
    · exact h.done s old
  · rw [view, same]
    intro active
    refine OpenFrame.ring { h.active active with } reports.opened fun i isOpen => ?_
    exact GpuSpanState.sequence_of_face (reports.opened_face h.ring isOpen)
  · rw [same]
    exact h.idle

theorem Fits.invalidate (h : c.Fits) (now : Nat) : (c.invalidate answers now).Fits :=
  h.invalidates answers h.ring

theorem Fits.sync (h : c.Fits) (now : Nat) : (c.sync answers now).Fits ∧
    c.view.SameFrames (c.sync answers now).view ∧ (c.sync answers now).token = c.token ∧
    ((c.sync answers now).activeSequence ≠ 0 → (c.sync answers now).seenToken = c.token) := by
  unfold FrameController.sync
  split
  · obtain ⟨log, same⟩ := poll_eq answers (c.invalidate answers now) now
    refine ⟨(h.invalidate answers now).poll answers now, ⟨_, poll_view answers _ now⟩, by rw [same]; rfl, ?_⟩
    rw [same]
    exact fun active => absurd rfl active
  · rename_i fine
    obtain ⟨log, same⟩ := poll_eq answers c now
    refine ⟨h.poll answers now, ⟨_, poll_view answers _ now⟩, by rw [same], fun _ => ?_⟩
    rw [same]
    by_contra other
    exact fine (.inl other)

theorem Fits.sync_active (h : c.Fits) (isToken : (c.sync answers now).token = sequence * 2 + 1)
    (active : (c.sync answers now).activeSequence ≠ 0) : (c.sync answers now).activeSequence = sequence := by
  obtain ⟨fits, _, token, seen⟩ := h.sync answers now
  have isSeen := (fits.active active).seen
  omega

theorem Fits.resume (h : c.Fits) (sequence now : Nat) : (c.resume answers sequence now).2.Fits ∧
    (c.resume answers sequence now).2.log = c.log ∧
    (c.resume answers sequence now).2.token = c.token ∧
    ((c.resume answers sequence now).1 = true →
      (c.resume answers sequence now).2.activeSequence = c.activeSequence ∧
        (c.resume answers sequence now).2.begun = c.begun) := by
  have works : GpuSpanState.Works c.ring (c.ring.resumeApplicationSegment answers now c.ring.owner) :=
    GpuSpanState.resumeApplicationSegment_works answers _
  unfold FrameController.resume
  dsimp only
  split
  · rename_i valid
    have goes := h.goes (works.1 valid)
    exact ⟨⟨goes.lawful, goes.ring, goes.done, goes.active, goes.idle⟩, rfl, rfl, fun _ => ⟨rfl, rfl⟩⟩
  · exact ⟨h.rejects answers (h.ring.givesUp works.2) sequence now, rfl, rfl, nofun⟩

structure Ready (c : FrameController) (sequence : Nat) : Prop where
  seen : c.seenToken = sequence * 2 + 1
  clean : c.poisoned < sequence
  idle : c.activeSequence ≠ 0 → c.activeSequence = sequence

theorem Fits.seen_again (h : c.Fits) (seen : c.activeSequence ≠ 0 → c.seenToken = c.token) :
    { c with seenToken := c.token }.Fits := by
  refine ⟨h.lawful, h.ring, h.done, fun active => ?_, h.idle⟩
  show OpenFrame c.ring c.view c.activeSequence c.token c.begun c.ended c.activeEye
  rw [← seen active]
  exact h.active active

theorem Fits.looks (h : c.Fits) (now n : Nat) (isToken : n = c.token / 2)
    {r : Option Nat × FrameController}
    (looks : r = (let sequence := n
      let c := c.sync answers now
      if c.seenToken = c.token ∧ ¬c.segmentAdmitted then (none, c)
      else if c.applicationSequence = sequence ∧ ¬c.segmentAdmitted then (none, c)
      else
        let c := { c with seenToken := c.token }
        if c.token % 2 = 0 ∨ sequence = 0 ∨ sequence ≤ c.poisoned then (none, c)
        else (some sequence, c))) :
    r.2.Fits ∧ c.view.SameFrames r.2.view ∧ ∀ sequence, r.1 = some sequence → Ready r.2 sequence := by
  obtain ⟨fits, same, token, seen⟩ := h.sync answers now
  have again := fits.seen_again fun active => (seen active).trans token.symm
  subst looks isToken
  dsimp only
  split
  · exact ⟨fits, same, nofun⟩
  split
  · exact ⟨fits, same, nofun⟩
  split
  · exact ⟨again, same, nofun⟩
  · rename_i fine
    refine ⟨again, same, fun sequence isSome => ?_⟩
    cases isSome
    have isToken : c.token = c.token / 2 * 2 + 1 := by
      omega
    have clean : ¬c.token / 2 ≤ (c.sync answers now).poisoned := fun le => fine (.inr (.inr le))
    refine ⟨token.trans isToken, Nat.lt_of_not_le clean, ?_⟩
    exact h.sync_active answers (token.trans isToken)

theorem Fits.prepares (h : c.Fits) (now : Nat) :
    (c.prepareCommand answers now).2.Fits ∧
    c.view.SameFrames (c.prepareCommand answers now).2.view ∧
    ∀ sequence, (c.prepareCommand answers now).1 = some sequence →
      Ready (c.prepareCommand answers now).2 sequence := by
  have resumes : ∀ p : Prop, [Decidable p] →
      ((if p then c.resume answers (c.token / 2) now else (true, c)).2.Fits ∧
        (if p then c.resume answers (c.token / 2) now else (true, c)).2.log = c.log ∧
        (if p then c.resume answers (c.token / 2) now else (true, c)).2.token = c.token) := by
    intro p _
    split
    · obtain ⟨fits, log, token, _⟩ := h.resume answers (c.token / 2) now
      exact ⟨fits, log, token⟩
    · exact ⟨h, rfl, rfl⟩
  unfold FrameController.prepareCommand
  dsimp only
  split
  · exact ⟨h, .refl _, nofun⟩
  split
  · rename_i b resumed
    have resumes := resumes (c.seenToken = c.token ∧ c.activeSequence ≠ 0 ∧ c.segmentAdmitted = true ∧
      ¬c.segmentOpen = true)
    rw [resumed] at resumes
    obtain ⟨fits, log, _⟩ := resumes
    exact ⟨fits, ⟨_, congrArg (frameProtocol.after {}) log⟩, nofun⟩
  · rename_i b resumed
    have resumes := resumes (c.seenToken = c.token ∧ c.activeSequence ≠ 0 ∧ c.segmentAdmitted = true ∧
      ¬c.segmentOpen = true)
    rw [resumed] at resumes
    obtain ⟨fits, log, token⟩ := resumes
    have same : b.view = c.view := congrArg (frameProtocol.after {}) log
    have isToken : c.token / 2 = b.token / 2 := by rw [show b.token = c.token from token]
    rw [← same]
    split
    · exact ⟨fits, .refl _, nofun⟩
    have counts : ∀ p : Prop, [Decidable p] → ∃ d : FrameController, d.Fits ∧ d.view = b.view ∧
        d.token = b.token ∧
        (if p then { b with commandBudget := (b.commandBudget + 1) % 2 ^ 32 } else b) = d := by
      intro p _
      refine ⟨_, ?_, ?_, ?_, rfl⟩
      · split
        · exact ⟨fits.lawful, fits.ring, fits.done, fits.active, fits.idle⟩
        · exact fits
      · split <;> rfl
      · split <;> rfl
    obtain ⟨d, counted, sameView, sameToken, isCounted⟩ :=
      counts (c.seenToken = c.token ∧ b.activeSequence ≠ 0)
    rw [isCounted, ← sameView]
    split
    · exact ⟨counted, .refl _, nofun⟩
    · exact counted.looks answers now _ (by rw [sameToken]; exact isToken) rfl

theorem Fits.fresh (h : c.Fits) (untried : sequence ∉ c.view.tried) (clean : c.poisoned < sequence) :
    sequence ∉ c.view.completed := by
  intro mem
  rcases h.done sequence mem with tried | poisoned
  · exact untried tried
  · omega

theorem Fits.completes (h : c.Fits) {result : GpuSpanResult} (invalid : result.reason ≠ .valid)
    (new : result.sequence ∉ c.view.completed)
    (apart : ∀ i, (c.ring.slots i).state ≠ .free → (c.ring.slots i).sequence ≠ result.sequence)
    (log : c'.log = (c.publish result).log) (ring : c'.ring = c.ring) (poisoned : c.poisoned ≤ c'.poisoned)
    (done : result.sequence ∈ c.view.tried ∨ result.sequence ≤ c'.poisoned)
    (idle : c'.activeSequence = 0) (eye : c'.activeEye = -1) : c'.Fits := by
  have view : c'.view = { c.view with completed := result.sequence :: c.view.completed } :=
    (congrArg (frameProtocol.after {}) log).trans (view_publish c result)
  refine ⟨?_, ?_, ?_, fun active => absurd idle active, fun _ => eye⟩
  · rw [log]
    exact lawful_publish h.lawful new fun valid => absurd valid invalid
  · rw [view, ring]
    refine h.ring.view (fun s mem => mem) (fun s paired => paired) fun i used => ?_
    exact List.not_mem_cons_of_ne_of_not_mem (apart i used) (h.ring.waiting i used)
  · rw [view]
    intro s mem
    rcases List.mem_cons.mp mem with rfl | old
    · exact done
    · exact (h.done s old).imp id fun le => Nat.le_trans le poisoned

theorem Fits.apart (h : c.Fits) (untried : sequence ∉ c.view.tried) (i : Fin kSlots)
    (used : (c.ring.slots i).state ≠ .free) : (c.ring.slots i).sequence ≠ sequence :=
  fun same => untried (same ▸ h.ring.tried i used)

theorem Fits.missed (h : c.Fits) (idle : c.activeSequence = 0) (untried : sequence ∉ c.view.tried)
    (clean : c.poisoned < sequence) (now : Nat) : (c.missed sequence now).Fits := by
  refine h.completes ?_ (h.fresh untried clean) (h.apart untried) rfl rfl (Nat.le_max_left _ _)
    (.inr (Nat.le_max_right _ _)) idle (h.idle idle)
  nofun

theorem Fits.begins (h : c.Fits) (ready : c.Ready sequence) (untried : sequence ∉ c.view.tried)
    (within : sequence ∈ c.view.within)
    (driver : ∀ e ∈ (c.beginSequence answers sequence now).ring.log, ¬GpuSpanState.Refused e) :
    (c.beginSequence answers sequence now).Fits := by
  have idle : c.activeSequence = 0 := by
    by_contra active
    obtain ⟨i, isOpen, isSequence⟩ := (h.active active).slot
    rw [ready.idle active] at isSequence
    refine untried (isSequence ▸ h.ring.tried i ?_)
    rw [h.ring.opened i isOpen]
    decide
  have fresh := h.fresh untried ready.clean
  have begins : GpuSpanState.Begins c.ring sequence (if c.applicationSequence = sequence then
      c.ring.beginApplicationFrame answers sequence c.sourceFrame now c.ring.owner
    else c.ring.beginFrame answers sequence c.sourceFrame now c.ring.owner) := by
    split
    · exact GpuSpanState.beginApplicationFrame_begins answers sequence _ _
    · exact GpuSpanState.beginFrame_begins answers sequence _ _
  have tried : (c.record (.tried sequence)).view = { c.view with tried := sequence :: c.view.tried } :=
    view_record c _
  have trying : (c.record (.tried sequence)).Fits := h.records trivial
  unfold beginSequence at driver ⊢
  dsimp only [record] at driver ⊢
  revert driver
  generalize (if c.applicationSequence = sequence then
      c.ring.beginApplicationFrame answers sequence c.sourceFrame now c.ring.owner
    else c.ring.beginFrame answers sequence c.sourceFrame now c.ring.owner) = r at begins ⊢
  obtain ⟨reason, ring⟩ := r
  split
  · rename_i valid
    intro _
    have fits := h.ring.begins begins valid untried fresh
    rw [← tried] at fits
    obtain ⟨_, i, _, _, isOpen, _, isSequence, _⟩ := begins.taken valid
    refine ⟨trying.lawful, fits, trying.done, fun _ => ⟨⟨i, isOpen, isSequence⟩, ?_, ready.seen,
      .inl (h.idle idle), ?_, ?_⟩, fun _ => h.idle idle⟩
    · show sequence ∈ (c.record (.tried sequence)).view.within
      rw [tried]
      exact within
    · intro k _ bit
      simp at bit
    · intro k _ bit
      simp at bit
  · rename_i invalid
    intro driver
    rcases begins.refused invalid with gives | ⟨e, mem, refused⟩
    · have kept := h.ring.givesUp gives
      have dropped : { c.record (.tried sequence) with ring := ring }.Fits := by
        refine trying.drops rfl ?_ (Nat.le_refl _) idle (h.idle idle)
        exact trying.ring.givesUp gives
      refine dropped.completes (fun valid => ?_) ?_ (fun i used => ?_) rfl rfl (Nat.le_refl _) ?_ idle
        (h.idle idle)
      · exact invalid valid
      · show sequence ∉ (c.record (.tried sequence)).view.completed
        rw [tried]
        exact fresh
      · show (ring.slots i).sequence ≠ sequence
        exact fun same => untried (same ▸ kept.tried i used)
      · refine .inl ?_
        show sequence ∈ (c.record (.tried sequence)).view.tried
        rw [tried]
        exact List.mem_cons_self
    · exact absurd refused (driver e mem)

theorem Fits.endSegment (h : c.Fits) (sequence now : Nat) (ends : Bool) :
    (c.endSegment answers sequence now ends).2.Fits := by
  have works : GpuSpanState.Works c.ring (c.ring.endApplicationSegment answers now c.ring.owner) :=
    GpuSpanState.endApplicationSegment_works answers _
  unfold FrameController.endSegment
  dsimp only
  split
  · exact h.rejects answers (h.ring.givesUp works.2) sequence now
  · rename_i valid
    have goes := h.goes (works.1 (not_not.mp valid))
    refine ⟨goes.lawful, goes.ring, goes.done, fun active => ?_, fun idle => ?_⟩
    · refine { goes.active active with taking := ?_ }
      split
      · exact .inl rfl
      · exact (goes.active active).taking
    · dsimp only
      split
      · rfl
      · exact goes.idle idle

theorem Fits.segmentResume (h : c.Fits) (sequence now : Nat) :
    (c.segmentResume answers sequence now).2.Fits := by
  unfold FrameController.segmentResume
  dsimp only
  split
  · exact h
  have fits := (h.sync answers now).1
  split
  · exact fits
  · refine ⟨fits.lawful, fits.ring, fits.done, fun active => ?_, fits.idle⟩
    show OpenFrame _ _ _ (if (c.sync answers now).activeSequence = 0 then (c.sync answers now).token
      else (c.sync answers now).seenToken) _ _ _
    rw [if_neg active]
    exact fits.active active

theorem Fits.segmentPause (h : c.Fits) (sequence now : Nat) :
    (c.segmentPause answers sequence now).2.Fits := by
  unfold FrameController.segmentPause
  dsimp only
  split
  · exact h
  have fits := (h.sync answers now).1
  split
  · exact fits
  split
  · exact ⟨fits.lawful, fits.ring, fits.done, fits.active, fits.idle⟩
  split
  · exact fits
  · exact fits.endSegment answers sequence now false

theorem Fits.segmentEnd (h : c.Fits) (sequence eye now : Nat) :
    (c.segmentEnd answers sequence eye now).2.Fits := by
  unfold FrameController.segmentEnd
  dsimp only
  split
  · exact h
  have fits := (h.sync answers now).1
  split
  · exact fits
  split
  · exact fits.reject answers sequence now
  · exact fits.endSegment answers sequence now true

variable {eye : Nat}

theorem castEye_small (small : eye < 32) : castEye eye = eye := by
  unfold castEye
  rw [BitVec.toInt_eq_toNat_of_lt]
  · rw [BitVec.toNat_ofNat, Nat.mod_eq_of_lt (by omega)]
  · rw [BitVec.toNat_ofNat, Nat.mod_eq_of_lt (by omega)]
    omega

theorem eyeBit_small (small : eye < 32) : eyeBit eye = 2 ^ eye := by
  unfold eyeBit
  rw [Nat.mod_eq_of_lt small]

theorem testBit_eye {bits k : Nat} (small : eye < 32)
    (set : (bits ||| eyeBit eye).testBit k = true) : bits.testBit k = true ∨ k = eye := by
  rw [eyeBit_small small, Nat.testBit_or, Nat.testBit_two_pow, Bool.or_eq_true, decide_eq_true_eq] at set
  exact set.imp id Eq.symm

theorem testBit_of_eye {bits : Nat} (small : eye < 32) (set : bits &&& eyeBit eye ≠ 0) :
    bits.testBit eye = true := by
  by_contra unset
  refine set (Nat.eq_of_testBit_eq fun k => ?_)
  rw [eyeBit_small small, Nat.testBit_and, Nat.testBit_two_pow, Nat.zero_testBit]
  by_cases same : eye = k
  · rw [← same, Bool.eq_false_of_not_eq_true unset, Bool.false_and]
  · rw [decide_eq_false same, Bool.and_false]

theorem view_begun (within : sequence ∈ c.view.within) :
    (sequence, eye) ∈ (c.record (.begun sequence eye)).view.begun := by
  rw [view_record]
  simp [frameProtocol, within]

theorem view_ended (within : sequence ∈ c.view.within) :
    (sequence, eye) ∈ (c.record (.ended sequence eye)).view.ended := by
  rw [view_record]
  simp [frameProtocol, within]

theorem Fits.takes (h : c.Fits) (isActive : c.activeSequence = sequence)
    (active : c.activeSequence ≠ 0) (isEye : eye < 2) (bits : Nat)
    (grown : ∀ k, bits.testBit k = true → c.begun.testBit k = true ∨ k = eye) :
    ({ c with activeEye := castEye eye, begun := bits }.record (.begun sequence eye)).Fits := by
  have recorded : (c.record (.begun sequence eye)).Fits := h.records trivial
  have mem : (sequence, eye) ∈ (c.record (.begun sequence eye)).view.begun :=
    view_begun (isActive ▸ (h.active active).within)
  have isOpen := recorded.active active
  refine ⟨recorded.lawful, recorded.ring, recorded.done, fun _ => ?_, fun idle => absurd idle active⟩
  refine { isOpen with taking := .inr ⟨eye, isEye, castEye_small (by omega), ?_⟩, begun := fun k lt bit => ?_ }
  · exact isActive ▸ mem
  · rcases grown k bit with old | rfl
    · exact isOpen.begun k lt old
    · exact isActive ▸ mem

theorem Fits.gives (h : c.Fits) (isActive : c.activeSequence = sequence)
    (active : c.activeSequence ≠ 0) (small : eye < 32)
    (begun : eye < 2 → (sequence, eye) ∈ c.view.begun) :
    ({ c with activeEye := -1, ended := c.ended ||| eyeBit eye }.record (.ended sequence eye)).Fits := by
  subst isActive
  have recorded : (c.record (.ended c.activeSequence eye)).Fits := h.records trivial
  have mem : (c.activeSequence, eye) ∈ (c.record (.ended c.activeSequence eye)).view.ended :=
    view_ended (h.active active).within
  have more := (FrameEvent.Adds.extends_view (e := .ended c.activeSequence eye) trivial c.view).1
  rw [← view_record] at more
  have isOpen := recorded.active active
  refine ⟨recorded.lawful, recorded.ring, recorded.done, fun _ => ?_, fun idle => absurd idle active⟩
  refine { isOpen with taking := .inl rfl, ended := fun k lt bit => ?_ }
  rcases testBit_eye small bit with old | rfl
  · exact isOpen.ended k lt old
  · exact ⟨more.begun (begun lt), mem⟩

theorem Fits.paired (h : c.Fits) (active : c.activeSequence ≠ 0) (both : c.ended = 3) (i : Fin kSlots)
    (isOpen : c.ring.opened = some i) : c.view.Paired (c.ring.slots i).sequence := by
  have frame := h.active active
  obtain ⟨k, isSlot, isSequence⟩ := frame.slot
  cases isSlot.symm.trans isOpen
  rw [isSequence]
  intro eye lt
  refine frame.ended eye lt ?_
  rw [both]
  match eye, lt with
  | 0, _ => rfl
  | 1, _ => rfl

theorem Fits.beginSubmitEye (h : c.Fits) (isActive : c.activeSequence = sequence)
    (active : c.activeSequence ≠ 0) (isEye : eye < 2) (now : Nat) :
    (c.beginSubmitEye answers sequence eye now).2.Fits := by
  have works : GpuSpanState.Works c.ring (c.ring.beginEye answers eye now c.ring.owner) :=
    GpuSpanState.beginEye_works answers eye _
  unfold FrameController.beginSubmitEye
  dsimp only
  split
  · exact h.rejects answers (h.ring.givesUp works.2) sequence now
  · rename_i valid
    have goes := h.goes (works.1 (not_not.mp valid))
    exact goes.takes isActive active isEye c.begun fun _ old => .inl old

theorem Fits.beginSubmitApplication (h : c.Fits) (isActive : c.activeSequence = sequence)
    (active : c.activeSequence ≠ 0) (isEye : eye < 2) (now : Nat) :
    (c.beginSubmitApplication answers sequence eye now).2.Fits := by
  have small : eye < 32 := by omega
  unfold FrameController.beginSubmitApplication
  split
  · exact h.reject answers sequence now
  have resumes := h.resume answers sequence now
  split
  · rename_i b resumed
    split at resumed
    · cases resumed
    · rw [resumed] at resumes
      exact resumes.1
  · rename_i b resumed
    split at resumed
    · cases resumed
      exact h.takes isActive active isEye _ fun k bit => testBit_eye small bit
    · rw [resumed] at resumes
      obtain ⟨fits, _, _, kept⟩ := resumes
      obtain ⟨sameSequence, _⟩ := kept rfl
      exact fits.takes (sameSequence.trans isActive) (by rw [sameSequence]; exact active) isEye _
        fun k bit => testBit_eye small bit

theorem Fits.submitBegin (h : c.Fits) (untried : c.Misses answers sequence now → sequence ∉ c.view.tried)
    (eye : Nat) (sameDevice : Bool) : (c.submitBegin answers sequence eye now sameDevice).2.Fits := by
  obtain ⟨fits, ⟨_, view⟩, token, _⟩ := h.sync answers now
  unfold FrameController.submitBegin
  dsimp only
  split
  · exact h
  rename_i enabled
  split
  · exact fits
  rename_i fine
  have isToken : (c.sync answers now).token = sequence * 2 + 1 := by
    by_contra other
    exact fine (.inl other)
  have clean : (c.sync answers now).poisoned < sequence := by
    by_contra poisoned
    exact fine (.inr (Nat.le_of_not_lt poisoned))
  split
  · rename_i idle
    refine fits.missed idle ?_ clean now
    rw [view]
    exact untried ⟨not_not.mp enabled, isToken, clean, idle⟩
  rename_i active
  have isActive := h.sync_active answers isToken active
  split
  · exact fits.reject answers sequence now
  rename_i known
  have isEye : eye < 2 := by
    by_contra other
    exact known (.inr (by omega))
  split
  · exact fits.beginSubmitApplication answers isActive active isEye now
  · exact fits.beginSubmitEye answers isActive active isEye now

theorem Fits.endSubmitEye (h : c.Fits) (clean : c.poisoned < sequence) (small : eye < 32)
    (flags now : Nat) : (c.endSubmitEye answers sequence eye flags now).2.Fits := by
  have works : GpuSpanState.Works c.ring (c.ring.endEye answers eye now c.ring.owner) :=
    GpuSpanState.endEye_works answers eye _
  unfold FrameController.endSubmitEye
  dsimp only
  split
  · exact h.reject answers sequence now
  rename_i fine
  have isActive : c.activeSequence = sequence := by
    by_contra other
    exact fine (.inl other)
  have isEye : c.activeEye = castEye eye := by
    by_contra other
    exact fine (.inr (.inl other))
  have active : c.activeSequence ≠ 0 := by omega
  split
  · exact h.rejects answers (h.ring.givesUp works.2) sequence now
  rename_i valid
  have goes := h.goes (works.1 (not_not.mp valid))
  have gives := goes.gives isActive active small fun lt => by
    rcases (goes.active active).taking with none | ⟨k, _, isK, mem⟩
    · rw [show c.activeEye = -1 from none, castEye_small small] at isEye
      omega
    · rw [show c.activeEye = k from isK, castEye_small small] at isEye
      rw [← isActive, show eye = k by omega]
      exact mem
  split
  · rename_i both
    refine gives.drops rfl ?_ (Nat.le_refl _) rfl rfl
    exact gives.ring.finishes (GpuSpanState.finishFrame_finishes answers _) (gives.paired active both)
  · exact gives

theorem Fits.endSubmitApplication (h : c.Fits) (clean : c.poisoned < sequence) (small : eye < 32)
    (flags now : Nat) : (c.endSubmitApplication answers sequence eye flags now).2.Fits := by
  have finishing := @GpuSpanState.finishApplicationFrame_finishes answers c.ring now c.ring.owner
  obtain ⟨finishes, fails⟩ := finishing
  unfold FrameController.endSubmitApplication
  dsimp only
  split
  · exact h.reject answers sequence now
  rename_i fine
  have isActive : c.activeSequence = sequence := by
    by_contra other
    exact fine (.inl other)
  have isEye : c.activeEye = -1 := by
    by_contra other
    exact fine (.inr (.inl other))
  have begun : c.begun &&& eyeBit eye ≠ 0 := fun other => fine (.inr (.inr (.inl other)))
  have active : c.activeSequence ≠ 0 := by omega
  have gives := h.gives isActive active small fun lt => by
    rw [← isActive]
    exact (h.active active).begun eye lt (testBit_of_eye small begun)
  rw [← isEye] at gives
  split
  · exact gives
  rename_i both
  split
  · exact h.reject answers sequence now
  split
  · rename_i invalid
    exact h.rejects answers (h.ring.givesUp (fails invalid)) sequence now
  · refine gives.drops rfl ?_ (Nat.le_refl _) rfl isEye
    exact gives.ring.finishes finishes (gives.paired active (not_not.mp both))

theorem Fits.submitEnd (h : c.Fits) (small : eye < 32) (sequence flags now : Nat) :
    (c.submitEnd answers sequence eye flags now).2.Fits := by
  have fits := (h.sync answers now).1
  unfold FrameController.submitEnd
  dsimp only
  split
  · exact h
  split
  · exact fits
  rename_i fine
  have clean : (c.sync answers now).poisoned < sequence := by
    by_contra poisoned
    exact fine (.inr (Nat.le_of_not_lt poisoned))
  split
  · exact fits.endSubmitApplication answers clean small flags now
  · exact fits.endSubmitEye answers clean small flags now

theorem Fits.present (h : c.Fits) (nextSourceFrame now : Nat) :
    (c.gpuFramePresent answers nextSourceFrame now).Fits := by
  have dropped := h.invalidate answers now
  have view : ((c.invalidate answers now).record .presented).view = { c.view with within := [] } :=
    view_record _ _
  have presented : { (c.invalidate answers now).record .presented with seenToken := c.token }.Fits := by
    refine ⟨lawful_record dropped.lawful trivial, ?_, ?_, fun active => absurd rfl active, fun _ => rfl⟩
    · show GpuSpanState.Fits _ ((c.invalidate answers now).record .presented).view
      rw [view]
      exact dropped.ring.view (fun s mem => mem) (fun s paired => paired) dropped.ring.waiting
    · intro s mem
      have old : s ∈ c.view.completed := by
        change s ∈ ((c.invalidate answers now).record .presented).view.completed at mem
        rw [view] at mem
        exact mem
      show s ∈ ((c.invalidate answers now).record .presented).view.tried ∨ s ≤ c.poisoned
      rw [view]
      exact h.done s old
  have polled := presented.poll answers now
  exact ⟨polled.lawful, polled.ring, polled.done, polled.active, polled.idle⟩

theorem Fits.configure (h : c.Fits) (enabled : Bool) (now : Nat) :
    (c.gpuFrameConfigure answers enabled now).Fits := by
  have dropped : ({ c with enabled := enabled }.invalidate answers now).Fits := by
    refine h.drops rfl ?_ (Nat.le_refl _) rfl rfl
    exact (h.invalidate answers now).ring
  unfold gpuFrameConfigure
  split
  · exact h
  · refine dropped.drops rfl ?_ (Nat.le_refl _) rfl rfl
    split
    · exact dropped.ring
    · exact GpuSpanState.Fits.fresh _ _ _

theorem Fits.command (h : c.Fits) (now : Nat)
    (driver : ∀ e ∈ (c.gpuFrameCommand answers now).ring.log, ¬GpuSpanState.Refused e)
    (untried : ∀ sequence, (c.prepareCommand answers now).1 = some sequence →
      sequence ∉ c.view.tried ∧ sequence ∈ c.view.within) : (c.gpuFrameCommand answers now).Fits := by
  obtain ⟨fits, ⟨_, view⟩, ready⟩ := h.prepares answers now
  unfold gpuFrameCommand at driver ⊢
  split at driver
  · rename_i b prepared
    rw [prepared] at fits
    exact fits
  · rename_i sequence b prepared
    rw [prepared] at fits view ready untried
    obtain ⟨new, within⟩ := untried sequence rfl
    refine fits.begins answers (ready sequence rfl) ?_ ?_ driver
    · rw [view]
      exact new
    · rw [view]
      exact within

theorem Fits.waitEnd (h : c.Fits) (sequence flags : Nat) : (c.waitEnd sequence flags).2.Fits := by
  unfold FrameController.waitEnd
  split
  · exact h.poison sequence
  · have ends : ∀ d : FrameController, d.Fits → (if d.token = sequence * 2 then
        (1, { d with token := sequence * 2 + 1 }.record (.armed sequence)) else (0, d)).2.Fits := by
      intro d fits
      split
      · have armed := fits.records (e := .armed sequence) trivial
        exact ⟨armed.lawful, armed.ring, armed.done, armed.active, armed.idle⟩
      · exact fits
    refine ends _ ?_
    split
    · exact ⟨h.lawful, h.ring, h.done, h.active, h.idle⟩
    · exact h

theorem Fits.waitBegin (h : c.Fits) : c.waitBegin.2.Fits := by
  unfold FrameController.waitBegin
  dsimp only
  split
  · exact ⟨h.lawful, h.ring, h.done, h.active, h.idle⟩
  · exact ⟨h.lawful, h.ring, h.done, h.active, h.idle⟩

theorem Fits.step (h : c.Fits) {call : FrameCall} (orderly : c.Orderly answers call) :
    (c.step answers call).Fits := by
  obtain ⟨driver, orderly⟩ := orderly
  match call with
  | .command now => exact h.command answers now driver orderly
  | .present nextSourceFrame now => exact h.present answers nextSourceFrame now
  | .configure enabled now => exact h.configure answers enabled now
  | .event event sequence eye flags now sameDevice =>
    show (c.gpuFrameEvent answers event sequence eye flags now sameDevice).2.Fits
    unfold gpuFrameEvent
    split
    · exact h.waitBegin
    split
    · exact h
    match event with
    | .waitBegin => exact h.waitBegin
    | .waitEnd => exact h.waitEnd sequence flags
    | .cancel => exact h.poison sequence
    | .segmentResume => exact h.segmentResume answers sequence now
    | .segmentPause => exact h.segmentPause answers sequence now
    | .segmentEnd => exact h.segmentEnd answers sequence eye now
    | .submitBegin => exact h.submitBegin answers orderly eye sameDevice
    | .submitEnd => exact h.submitEnd answers orderly sequence flags now

end FrameController

def OrderlyRun (answers : Nat → SpanAnswer) : FrameController → List FrameCall → Prop
  | _, [] => True
  | c, call :: rest => c.Orderly answers call ∧ OrderlyRun answers (c.step answers call) rest

theorem FrameController.Fits.run (answers : Nat → SpanAnswer) (calls : List FrameCall) {c : FrameController}
    (h : c.Fits) (orderly : OrderlyRun answers c calls) :
    (calls.foldl (FrameController.step answers) c).Fits := by
  induction calls generalizing c with
  | nil => exact h
  | cons call rest ih => exact ih (h.step answers orderly.1) orderly.2

/-- Whatever the driver answers, a run whose calls are orderly completes a sequence at
most once, and as valid only with both of its eyes. -/
theorem orderly_frames_complete_once (answers : Nat → SpanAnswer) (owner : GpuSpanOwner)
    (calls : List FrameCall) (orderly : OrderlyRun answers { ring := GpuSpanState.fresh owner } calls) :
    frameProtocol.Admits {} (framesAfter answers owner calls).log := by
  have fresh : FrameController.Fits { ring := GpuSpanState.fresh owner } :=
    ⟨trivial, GpuSpanState.Fits.fresh owner 0 _, nofun, fun active => absurd rfl active, fun _ => rfl⟩
  exact (fresh.run answers calls orderly).lawful

instance (e : Issued) : Decidable (GpuSpanState.Refused e) :=
  inferInstanceAs (Decidable (∃ i, e.call = .begins i false ∨ e.call = .timestamp i 0 false))

instance (answers : Nat → SpanAnswer) (c : FrameController) (sequence now : Nat) :
    Decidable (c.Misses answers sequence now) :=
  inferInstanceAs (Decidable (_ ∧ _))

instance (answers : Nat → SpanAnswer) (c : FrameController) (call : FrameCall) :
    Decidable (c.Orderly answers call) :=
  match call with
  | .command now => inferInstanceAs (Decidable (_ ∧
      ∀ sequence ∈ (c.prepareCommand answers now).1, sequence ∉ c.view.tried ∧ sequence ∈ c.view.within))
  | .event .submitBegin sequence _ _ now _ => inferInstanceAs (Decidable (_ ∧
      (c.Misses answers sequence now → sequence ∉ c.view.tried)))
  | .event .submitEnd _ eye _ _ _ => inferInstanceAs (Decidable (_ ∧ eye < 32))
  | .event .waitBegin .. | .event .waitEnd .. | .event .cancel .. | .event .segmentResume ..
  | .event .segmentPause .. | .event .segmentEnd .. | .present .. | .configure .. =>
    inferInstanceAs (Decidable (_ ∧ True))

instance decidableOrderlyRun (answers : Nat → SpanAnswer) :
    (c : FrameController) → (calls : List FrameCall) → Decidable (OrderlyRun answers c calls)
  | _, [] => inferInstanceAs (Decidable True)
  | c, call :: rest =>
    haveI := decidableOrderlyRun answers (c.step answers call) rest
    inferInstanceAs (Decidable (_ ∧ _))

def wholeFrame : List FrameCall :=
  [.configure true 0, .event .waitBegin 0 0 0 0 true, .event .waitEnd 1 0 1 0 true, .command 0,
    .event .submitBegin 1 0 0 0 true, .event .submitEnd 1 0 1 0 true, .event .submitBegin 1 1 0 0 true,
    .event .submitEnd 1 1 1 0 true, .present 2 0]

theorem orderly_frames_complete_whole :
    frameProtocol.Admits {} (framesAfter GpuSpanState.steady GpuSpanState.renderer wholeFrame).log ∧
    completions (framesAfter GpuSpanState.steady GpuSpanState.renderer wholeFrame).log = [(1, .valid)] :=
  ⟨orderly_frames_complete_once GpuSpanState.steady GpuSpanState.renderer wholeFrame (by decide +kernel),
    by decide +kernel⟩

def scopeless (n : Nat) : SpanAnswer := { GpuSpanState.steady n with ok := n != 1 }

/-- The begin that the driver refuses is completed at once, and its slot once more at the
Present. A submit that comes when its frame is over is completed besides it. -/
theorem completed_twice :
    ¬frameProtocol.Admits {} (framesAfter scopeless GpuSpanState.renderer [.configure true 0,
      .event .waitBegin 0 0 0 0 true, .event .waitEnd 1 0 1 0 true, .command 0, .present 2 0]).log ∧
    ¬frameProtocol.Admits {} (framesAfter GpuSpanState.steady GpuSpanState.renderer
      (wholeFrame ++ [FrameCall.event .submitBegin 1 0 0 0 true])).log := by
  constructor
  · exact fun admitted => absurd (completions_nodup admitted).1 (by decide +kernel)
  · exact fun admitted => absurd (completions_nodup admitted).1 (by decide +kernel)

end EdvrPatch.Gpu
