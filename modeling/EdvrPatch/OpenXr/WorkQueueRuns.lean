import EdvrPatch.OpenXr.WorkQueue

/-! What the queue promises over every interleaving. A request is in the queue, with the
pump, taken out of the queue to be given up, or done, and which of them it is decides
every race for it. -/
namespace EdvrPatch.OpenXr

open Lib

/-- Read off the record: who waits for a request, the requests the pump has claimed, the
last one first, those whose callback has begun, those whose callback has ended and how,
those whose `invoke` has returned, and whether a close has. -/
structure WorkView where
  accepted : Nat := 0
  invoker : Nat → Option Nat := fun _ => none
  claimed : List Nat := []
  begun : List Nat := []
  ended : List (Nat × Bool) := []
  past : List Nat := []
  closed : Bool := false

/-- Callbacks begin in the order of acceptance, each at most once and never after its
`invoke` has returned; `invoke` returns true for a callback that has ended well, and
false for every other; and a request is not claimed after a close has returned. -/
def workProtocol : Monitor WorkView WorkEvent where
  advance v
    | .accepted thread request =>
      { v with accepted := request + 1, invoker := Function.update v.invoker request (some thread) }
    | .refused _ => v
    | .claimed _ request => { v with claimed := request :: v.claimed }
    | .began request => { v with begun := request :: v.begun }
    | .ended request success => { v with ended := (request, success) :: v.ended }
    | .returned _ request _ => { v with past := request :: v.past }
    | .closeReturned _ => { v with closed := true }
  allows v
    | .accepted _ request => request = v.accepted
    | .refused _ => True
    | .claimed _ request => v.closed = false ∧ request < v.accepted ∧ (∀ r ∈ v.claimed, r < request) ∧
        request ∉ v.past
    | .began request => request ∈ v.claimed ∧ (∀ r ∈ v.begun, r < request) ∧ request ∉ v.past
    | .ended request _ => request ∈ v.begun ∧ ∀ success, (request, success) ∉ v.ended
    | .returned thread request result => v.invoker request = some thread ∧ request ∉ v.past ∧
        (result = true ↔ (request, true) ∈ v.ended)
    | .closeReturned _ => True

def WorkTask.Inside : WorkTask → Prop
  | .waiting _ | .releasing _ | .waitingOn _ => True
  | _ => False

namespace PresentWorkQueue

structure Linked (q : PresentWorkQueue) (v : WorkView) : Prop where
  accepted : v.accepted = q.accepted
  sorted : q.queue.Pairwise (· < ·)
  queued : ∀ r ∈ q.queue, r < q.accepted ∧ (∀ c ∈ v.claimed, c < r) ∧ (q.requests r).done = false
  short : q.queue.length ≤ kQueueCapacity
  claims : ∀ c ∈ v.claimed, c < q.accepted
  begun : ∀ b ∈ v.begun, b ∈ v.claimed
  ended : ∀ p ∈ v.ended, p.1 ∈ v.begun
  done : ∀ r, (q.requests r).done = true → ((q.requests r).success = true ↔ (r, true) ∈ v.ended)
  past : ∀ r ∈ v.past, r < q.accepted ∧ (q.requests r).done = true
  closed : v.closed = true → q.closed = true

structure Dropped (q : PresentWorkQueue) (v : WorkView) (r : Nat) : Prop where
  known : r < q.accepted
  gone : r ∉ q.queue
  unclaimed : r ∉ v.claimed

def Held (q : PresentWorkQueue) (v : WorkView) (thread : Nat) : WorkTask → Prop
  | .idle => True
  | .waiting r | .waitingOn r => r < q.accepted ∧ v.invoker r = some thread ∧ r ∉ v.past
  | .releasing r => v.invoker r = some thread ∧ r ∉ v.past ∧ q.Dropped v r
  | .claimed r => q.renderThread = some thread ∧ r ∈ v.claimed ∧ (q.requests r).done = false ∧
      ∀ b ∈ v.begun, b < r
  | .running r => q.renderThread = some thread ∧ r ∈ v.begun ∧ (q.requests r).done = false ∧
      ∀ success, (r, success) ∉ v.ended
  | .ran r success => q.renderThread = some thread ∧ r ∈ v.begun ∧ (q.requests r).done = false ∧
      ∀ b, (r, b) ∈ v.ended ↔ b = success
  | .closing => True
  | .retiring r => q.Dropped v r

structure Beside (thread : Nat) (q : PresentWorkQueue) (v : WorkView) (q' : PresentWorkQueue)
    (v' : WorkView) : Prop where
  accepted : q.accepted ≤ q'.accepted
  invoker : ∀ r < q.accepted, v'.invoker r = v.invoker r
  past : ∀ r ∈ v'.past, r ∈ v.past ∨ v.invoker r = some thread
  queue : ∀ r < q.accepted, r ∈ q'.queue → r ∈ q.queue
  claimed : ∀ r ∈ v'.claimed, r ∈ v.claimed ∨ r ∈ q.queue
  render : ∀ u ≠ thread, q.renderThread = some u → q'.renderThread = some u ∧ v'.claimed = v.claimed ∧
    v'.begun = v.begun ∧ v'.ended = v.ended ∧
    ∀ r ∈ v.claimed, (q'.requests r).done = (q.requests r).done

variable {q q' : PresentWorkQueue} {v v' : WorkView} {thread r : Nat}

theorem Dropped.beside (dropped : q.Dropped v r) (beside : Beside thread q v q' v') : q'.Dropped v' r where
  known := Nat.lt_of_lt_of_le dropped.known beside.accepted
  gone := fun mem => dropped.gone (beside.queue r dropped.known mem)
  unclaimed := fun mem => (beside.claimed r mem).elim dropped.unclaimed dropped.gone

variable {task : WorkTask}

theorem Held.beside (linked : q.Linked v) (beside : Beside thread q v q' v') {u : Nat}
    (apart : u ≠ thread) (held : q.Held v u task) : q'.Held v' u task := by
  have waits : ∀ r, r < q.accepted → v.invoker r = some u → r ∉ v.past →
      v'.invoker r = some u ∧ r ∉ v'.past := by
    intro r known isMine open_
    refine ⟨(beside.invoker r known).trans isMine, fun mem => ?_⟩
    rcases beside.past r mem with old | theirs
    · exact open_ old
    · exact apart (Option.some.inj (isMine.symm.trans theirs))
  cases task with
  | idle => trivial
  | closing => trivial
  | waiting r =>
    obtain ⟨known, isMine, isOpen⟩ := held
    exact ⟨Nat.lt_of_lt_of_le known beside.accepted, waits r known isMine isOpen⟩
  | waitingOn r =>
    obtain ⟨known, isMine, isOpen⟩ := held
    exact ⟨Nat.lt_of_lt_of_le known beside.accepted, waits r known isMine isOpen⟩
  | releasing r =>
    obtain ⟨isMine, isOpen, dropped⟩ := held
    obtain ⟨isMine, isOpen⟩ := waits r dropped.known isMine isOpen
    exact ⟨isMine, isOpen, dropped.beside beside⟩
  | retiring r => exact Dropped.beside held beside
  | claimed r =>
    obtain ⟨render, isClaimed, notDone, later⟩ := held
    obtain ⟨same, claimed, begun, _, done⟩ := beside.render u apart render
    exact ⟨same, claimed ▸ isClaimed, (done r isClaimed).trans notDone, begun ▸ later⟩
  | running r =>
    obtain ⟨render, isBegun, notDone, notEnded⟩ := held
    obtain ⟨same, _, begun, ended, done⟩ := beside.render u apart render
    exact ⟨same, begun ▸ isBegun, (done r (linked.begun r isBegun)).trans notDone, ended ▸ notEnded⟩
  | ran r success =>
    obtain ⟨render, isBegun, notDone, isEnded⟩ := held
    obtain ⟨same, _, begun, ended, done⟩ := beside.render u apart render
    exact ⟨same, begun ▸ isBegun, (done r (linked.begun r isBegun)).trans notDone, ended ▸ isEnded⟩

theorem Beside.refl (thread : Nat) (q : PresentWorkQueue) (v : WorkView) : Beside thread q v q v :=
  ⟨Nat.le_refl _, fun _ _ => rfl, fun _ mem => .inl mem, fun _ _ mem => mem, fun _ mem => .inl mem,
    fun _ _ render => ⟨render, rfl, rfl, rfl, fun _ _ => rfl⟩⟩

/-- The outcome of a step is lawful, what it leads to is known again, and the others are
not disturbed. -/
structure Good (q : PresentWorkQueue) (v : WorkView) (thread : Nat)
    (o : PresentWorkQueue × WorkTask × List WorkEvent) : Prop where
  lawful : workProtocol.Admits v o.2.2
  linked : o.1.Linked (workProtocol.after v o.2.2)
  held : o.1.Held (workProtocol.after v o.2.2) thread o.2.1
  beside : Beside thread q v o.1 (workProtocol.after v o.2.2)

theorem Linked.stays (linked : q.Linked v) (held : q.Held v thread task) :
    Good q v thread (q, task, []) :=
  ⟨trivial, linked, held, .refl thread q v⟩

theorem Linked.binds (linked : q.Linked v) : Good q v thread (q.bindCurrentThread thread, .idle, []) := by
  unfold bindCurrentThread
  split
  · exact linked.stays trivial
  · rename_i free
    refine ⟨trivial, { linked with }, trivial, { Beside.refl thread q v with render := fun u _ render => ?_ }⟩
    simp [render] at free

theorem requests_setRequest (q : PresentWorkQueue) (r : Nat) (w : WorkRequest) (k : Nat) :
    (q.setRequest r w).requests k = if k = r then w else q.requests k :=
  Function.update_apply ..

theorem Linked.admission (linked : q.Linked v) (allocated : Bool) :
    Good q v thread (q.admission thread allocated) := by
  unfold PresentWorkQueue.admission
  split
  · exact ⟨⟨trivial, trivial⟩, linked, trivial, .refl thread q v⟩
  rename_i fine
  have room : q.queue.length < kQueueCapacity := by
    by_contra full
    exact fine (.inr (.inr (.inr (.inr (Nat.le_of_not_lt full)))))
  have apart : ∀ r < q.accepted, r ≠ q.accepted := fun r lt => Nat.ne_of_lt lt
  have older : ∀ r < q.accepted, (q.setRequest q.accepted {}).requests r = q.requests r := fun r lt => by
    rw [requests_setRequest, if_neg (apart r lt)]
  refine ⟨⟨linked.accepted.symm, trivial⟩, ⟨rfl, ?_, ?_, ?_, ?_, linked.begun, linked.ended, ?_, ?_, linked.closed⟩,
    ⟨Nat.lt_succ_self _, ?_, ?_⟩, ⟨Nat.le_succ _, ?_, fun r mem => .inl mem, ?_, fun r mem => .inl mem, ?_⟩⟩
  · refine List.pairwise_append.mpr ⟨linked.sorted, List.pairwise_singleton _ _, fun a mem b last => ?_⟩
    rw [List.mem_singleton.mp last]
    exact (linked.queued a mem).1
  · intro r mem
    rcases List.mem_append.mp mem with old | new
    · obtain ⟨known, later, notDone⟩ := linked.queued r old
      refine ⟨Nat.lt_succ_of_lt known, later, ?_⟩
      rw [show (q.setRequest q.accepted {}).requests r = q.requests r from older r known]
      exact notDone
    · rw [List.mem_singleton.mp new]
      refine ⟨Nat.lt_succ_self _, linked.claims, ?_⟩
      simp [requests_setRequest]
  · rw [List.length_append]
    exact room
  · exact fun c mem => Nat.lt_succ_of_lt (linked.claims c mem)
  · intro r isDone
    have same : (q.setRequest q.accepted {}).requests r = q.requests r := by
      rw [requests_setRequest, if_neg]
      rintro rfl
      simp [setRequest] at isDone
    rw [same] at isDone ⊢
    exact linked.done r isDone
  · intro r mem
    obtain ⟨known, isDone⟩ := linked.past r mem
    refine ⟨Nat.lt_succ_of_lt known, ?_⟩
    rw [show (q.setRequest q.accepted {}).requests r = q.requests r from older r known]
    exact isDone
  · exact Function.update_self ..
  · exact fun mem => apart _ (linked.past _ mem).1 rfl
  · exact fun r lt => Function.update_of_ne (apart r lt) ..
  · intro r lt mem
    rcases List.mem_append.mp mem with old | new
    · exact old
    · exact absurd (List.mem_singleton.mp new) (apart r lt)
  · intro u _ render
    refine ⟨render, rfl, rfl, rfl, fun r mem => ?_⟩
    rw [show (q.setRequest q.accepted {}).requests r = q.requests r from older r (linked.claims r mem)]

theorem Linked.leave (linked : q.Linked v) (isMine : v.invoker r = some thread) (isOpen : r ∉ v.past)
    (known : r < q.accepted) (isDone : (q.requests r).done = true) {result : Bool}
    (isResult : result = (q.requests r).success) : Good q v thread (q.leave thread r result) := by
  refine ⟨⟨⟨isMine, isOpen, ?_⟩, trivial⟩, { linked with past := ?_ }, trivial,
    { Beside.refl thread q v with past := ?_ }⟩
  · rw [isResult]
    exact linked.done r isDone
  · intro k mem
    rcases List.mem_cons.mp mem with rfl | old
    · exact ⟨known, isDone⟩
    · exact linked.past k old
  · intro k mem
    rcases List.mem_cons.mp mem with rfl | old
    · exact .inr isMine
    · exact .inl old

theorem Linked.wake (linked : q.Linked v) (held : q.Held v thread task)
    (isMine : v.invoker r = some thread) (isOpen : r ∉ v.past) (known : r < q.accepted) :
    Good q v thread (q.wake thread r task) := by
  unfold PresentWorkQueue.wake
  split
  · rename_i isDone
    exact linked.leave isMine isOpen known isDone rfl
  · exact linked.stays held

theorem Linked.shrinks (linked : q.Linked v) {queue : List Nat} (sub : queue.Sublist q.queue)
    (r : Nat) (w : WorkRequest) (done : w.done = (q.requests r).done) (success : w.success = (q.requests r).success)
    {q' : PresentWorkQueue} (isRequests : q'.requests = (q.setRequest r w).requests) (isQueue : q'.queue = queue)
    (isAccepted : q'.accepted = q.accepted) (isClosed : q.closed = true → q'.closed = true) : q'.Linked v := by
  have dones : ∀ k, (q'.requests k).done = (q.requests k).done := by
    intro k
    rw [isRequests, requests_setRequest]
    split
    · rename_i same
      rw [same, done]
    · rfl
  have successes : ∀ k, (q'.requests k).success = (q.requests k).success := by
    intro k
    rw [isRequests, requests_setRequest]
    split
    · rename_i same
      rw [same, success]
    · rfl
  refine ⟨linked.accepted.trans isAccepted.symm, ?_, ?_, ?_, ?_, linked.begun, linked.ended, ?_, ?_,
    fun on => isClosed (linked.closed on)⟩
  · rw [isQueue]
    exact linked.sorted.sublist sub
  · intro k mem
    rw [isAccepted, dones]
    exact linked.queued k (sub.subset (isQueue ▸ mem))
  · rw [isQueue]
    exact Nat.le_trans sub.length_le linked.short
  · rw [isAccepted]
    exact linked.claims
  · intro k
    rw [dones, successes]
    exact linked.done k
  · intro k
    rw [isAccepted, dones]
    exact linked.past k

theorem Linked.timeout (linked : q.Linked v) (isMine : v.invoker r = some thread) (isOpen : r ∉ v.past)
    (known : r < q.accepted) : Good q v thread (q.timeout thread r) := by
  unfold PresentWorkQueue.timeout
  dsimp only
  split
  · rename_i isDone
    exact linked.leave isMine isOpen known isDone rfl
  split
  · rename_i queued
    have distinct : q.queue.Nodup := linked.sorted.imp fun lt => Nat.ne_of_lt lt
    refine ⟨trivial, linked.shrinks List.erase_sublist r { q.requests r with cancelled := true } rfl rfl rfl rfl
      rfl id, ⟨isMine, isOpen, known, ?_, ?_⟩, ?_⟩
    · exact fun mem => (distinct.mem_erase_iff.mp mem).1 rfl
    · exact fun mem => Nat.lt_irrefl r ((linked.queued r queued.2).2.1 r mem)
    · refine { Beside.refl thread q v with queue := fun k _ mem => List.mem_of_mem_erase mem, render := ?_ }
      intro u _ render
      refine ⟨render, rfl, rfl, rfl, fun k _ => ?_⟩
      show ((q.setRequest r _).requests k).done = _
      rw [requests_setRequest]
      split
      · rename_i same
        rw [same]
      · rfl
  · exact linked.stays ⟨known, isMine, isOpen⟩

theorem Dropped.unended (dropped : q.Dropped v r) (linked : q.Linked v) (success : Bool) :
    (r, success) ∉ v.ended :=
  fun mem => dropped.unclaimed (linked.begun r (linked.ended _ mem))

theorem Linked.retire (linked : q.Linked v) (dropped : q.Dropped v r) : (q.retire r).Linked v := by
  have others : ∀ k, k ≠ r → (q.retire r).requests k = q.requests k := fun k other => by
    rw [PresentWorkQueue.retire, requests_setRequest, if_neg other]
  have mine : ((q.retire r).requests r).done = true ∧ ((q.retire r).requests r).success = false := by
    rw [PresentWorkQueue.retire, requests_setRequest, if_pos rfl]
    exact ⟨rfl, rfl⟩
  refine { linked with queued := ?_, done := ?_, past := ?_ }
  · intro k mem
    have other : k ≠ r := by
      rintro rfl
      exact dropped.gone mem
    rw [others k other]
    exact linked.queued k mem
  · intro k isDone
    by_cases same : k = r
    · subst same
      rw [mine.2]
      exact ⟨nofun, fun mem => absurd mem (dropped.unended linked true)⟩
    · rw [others k same] at isDone ⊢
      exact linked.done k isDone
  · intro k mem
    refine ⟨(linked.past k mem).1, ?_⟩
    by_cases same : k = r
    · rw [same]
      exact mine.1
    · rw [others k same]
      exact (linked.past k mem).2

theorem Beside.retire (dropped : q.Dropped v r) (thread : Nat) : Beside thread q v (q.retire r) v := by
  refine { Beside.refl thread q v with render := fun u _ render => ⟨render, rfl, rfl, rfl, fun k mem => ?_⟩ }
  rw [PresentWorkQueue.retire, requests_setRequest, if_neg]
  rintro rfl
  exact dropped.unclaimed mem

theorem Linked.retires (linked : q.Linked v) (dropped : q.Dropped v r) :
    Good q v thread (q.retire r, .closing, []) :=
  ⟨trivial, linked.retire dropped, trivial, .retire dropped thread⟩

theorem Linked.releases (linked : q.Linked v) (isMine : v.invoker r = some thread) (isOpen : r ∉ v.past)
    (dropped : q.Dropped v r) : Good q v thread ((q.retire r).leave thread r false) := by
  have isDone : ((q.retire r).requests r).done = true := by
    rw [PresentWorkQueue.retire, requests_setRequest, if_pos rfl]
  have isFalse : false = ((q.retire r).requests r).success := by
    rw [PresentWorkQueue.retire, requests_setRequest, if_pos rfl]
  have left := (linked.retire dropped).leave isMine isOpen dropped.known isDone isFalse
  refine ⟨left.lawful, left.linked, left.held, { Beside.retire dropped thread with past := left.beside.past }⟩

theorem Linked.claim (linked : q.Linked v) : Good q v thread (q.claim thread) := by
  unfold PresentWorkQueue.claim
  split
  · exact linked.stays trivial
  rename_i fine
  have render : q.renderThread = some thread := by
    by_contra other
    exact fine (.inl other)
  have isOpen : v.closed = false := by
    by_contra closed
    exact fine (.inr (.inl (linked.closed (by simpa using closed))))
  split
  · exact linked.stays trivial
  · rename_i r rest isQueue
    have mem : r ∈ q.queue := by simp [isQueue]
    obtain ⟨known, later, notDone⟩ := linked.queued r mem
    have sorted := linked.sorted
    rw [isQueue] at sorted
    obtain ⟨before, _⟩ := List.pairwise_cons.mp sorted
    have shorter : rest.Sublist q.queue := by
      rw [isQueue]
      exact List.sublist_cons_self ..
    have shrunk : PresentWorkQueue.Linked { q.setRequest r { q.requests r with running := true } with
        queue := rest, active := true } v :=
      linked.shrinks shorter r { q.requests r with running := true } rfl rfl rfl rfl rfl id
    refine ⟨⟨⟨isOpen, by rw [linked.accepted]; exact known, later, fun mem => ?_⟩, trivial⟩,
      { shrunk with queued := ?_, claims := ?_, begun := ?_ }, ⟨render, List.mem_cons_self, ?_, ?_⟩, ?_⟩
    · rw [(linked.past r mem).2] at notDone
      cases notDone
    · intro k inRest
      obtain ⟨known, later, notDone⟩ := shrunk.queued k inRest
      refine ⟨known, fun c isClaimed => ?_, notDone⟩
      rcases List.mem_cons.mp isClaimed with rfl | old
      · exact before k inRest
      · exact later c old
    · intro c isClaimed
      rcases List.mem_cons.mp isClaimed with rfl | old
      · exact known
      · exact linked.claims c old
    · exact fun b isBegun => List.mem_cons_of_mem _ (linked.begun b isBegun)
    · show ((q.setRequest r _).requests r).done = false
      rw [requests_setRequest, if_pos rfl]
      exact notDone
    · exact fun b isBegun => later b (linked.begun b isBegun)
    · refine { Beside.refl thread q v with queue := ?_, claimed := ?_, render := ?_ }
      · intro k _ inRest
        rw [isQueue]
        exact List.mem_cons_of_mem _ inRest
      · intro k isClaimed
        rcases List.mem_cons.mp isClaimed with rfl | old
        · exact .inr mem
        · exact .inl old
      · intro u apart isRender
        exact absurd (Option.some.inj (isRender.symm.trans render)) apart

theorem Linked.notOver (linked : q.Linked v) (notDone : (q.requests r).done = false) : r ∉ v.past := by
  intro mem
  rw [(linked.past r mem).2] at notDone
  cases notDone

theorem Linked.begins (linked : q.Linked v) (held : q.Held v thread (.claimed r)) :
    Good q v thread (q, .running r, [.began r]) := by
  obtain ⟨render, isClaimed, notDone, later⟩ := held
  refine ⟨⟨⟨isClaimed, later, linked.notOver notDone⟩, trivial⟩, { linked with begun := ?_, ended := ?_ },
    ⟨render, List.mem_cons_self, notDone, ?_⟩, { Beside.refl thread q v with render := ?_ }⟩
  · intro b mem
    rcases List.mem_cons.mp mem with rfl | old
    · exact isClaimed
    · exact linked.begun b old
  · exact fun p mem => List.mem_cons_of_mem _ (linked.ended p mem)
  · exact fun success mem => Nat.lt_irrefl r (later r (linked.ended _ mem))
  · exact fun u apart other => absurd (Option.some.inj (other.symm.trans render)) apart

theorem Linked.ends (linked : q.Linked v) (held : q.Held v thread (.running r)) (success : Bool) :
    Good q v thread (q, .ran r success, [.ended r success]) := by
  obtain ⟨render, isBegun, notDone, notEnded⟩ := held
  refine ⟨⟨⟨isBegun, notEnded⟩, trivial⟩, { linked with ended := ?_, done := ?_ },
    ⟨render, isBegun, notDone, ?_⟩, { Beside.refl thread q v with render := ?_ }⟩
  · intro p mem
    rcases List.mem_cons.mp mem with rfl | old
    · exact isBegun
    · exact linked.ended p old
  · intro k isDone
    have other : (k, true) ≠ (r, success) := by
      intro same
      rw [(Prod.mk.inj same).1, notDone] at isDone
      cases isDone
    rw [linked.done k isDone]
    exact ⟨List.mem_cons_of_mem _, fun mem => (List.mem_cons.mp mem).resolve_left other⟩
  · intro b
    refine ⟨fun mem => ?_, fun same => same ▸ List.mem_cons_self⟩
    rcases List.mem_cons.mp mem with same | old
    · exact (Prod.mk.inj same).2
    · exact absurd old (notEnded b)
  · exact fun u apart other => absurd (Option.some.inj (other.symm.trans render)) apart

theorem Linked.finish (linked : q.Linked v) {success : Bool} (held : q.Held v thread (.ran r success)) :
    Good q v thread (q.finish r success, .idle, []) := by
  obtain ⟨render, isBegun, notDone, isEnded⟩ := held
  have others : ∀ k, k ≠ r → (q.finish r success).requests k = q.requests k := fun k other => by
    show (q.setRequest r _).requests k = _
    rw [requests_setRequest, if_neg other]
  have mine : ((q.finish r success).requests r).done = true ∧
      ((q.finish r success).requests r).success = success := by
    simp [PresentWorkQueue.finish, setRequest]
  refine ⟨trivial, { linked with queued := ?_, done := ?_, past := ?_ }, trivial,
    { Beside.refl thread q v with render := ?_ }⟩
  · intro k mem
    have other : k ≠ r := by
      rintro rfl
      exact Nat.lt_irrefl k ((linked.queued k mem).2.1 k (linked.begun k isBegun))
    rw [others k other]
    exact linked.queued k mem
  · intro k isDone
    by_cases same : k = r
    · subst same
      rw [mine.2]
      exact eq_comm.trans (isEnded true).symm
    · rw [others k same] at isDone ⊢
      exact linked.done k isDone
  · intro k mem
    have other : k ≠ r := by
      rintro rfl
      exact linked.notOver notDone mem
    rw [others k other]
    exact linked.past k mem
  · exact fun u apart other => absurd (Option.some.inj (other.symm.trans render)) apart

theorem Linked.closeNext (linked : q.Linked v) : Good q v thread (q.closeNext thread) := by
  unfold PresentWorkQueue.closeNext
  split
  · exact ⟨⟨trivial, trivial⟩, { linked with closed := fun _ => rfl }, trivial, { Beside.refl thread q v with }⟩
  · rename_i r rest isQueue
    have mem : r ∈ q.queue := by simp [isQueue]
    obtain ⟨known, later, _⟩ := linked.queued r mem
    have shorter : rest.Sublist q.queue := by
      rw [isQueue]
      exact List.sublist_cons_self ..
    have sorted := linked.sorted
    rw [isQueue] at sorted
    obtain ⟨before, _⟩ := List.pairwise_cons.mp sorted
    refine ⟨trivial, linked.shrinks shorter r { q.requests r with cancelled := true } rfl rfl rfl rfl rfl
      fun _ => rfl, ⟨known, fun inRest => Nat.lt_irrefl r (before r inRest),
        fun isClaimed => Nat.lt_irrefl r (later r isClaimed)⟩,
      { Beside.refl thread q v with queue := fun k _ inRest => shorter.subset inRest, render := ?_ }⟩
    intro u _ render
    refine ⟨render, rfl, rfl, rfl, fun k isClaimed => ?_⟩
    have other : k ≠ r := Nat.ne_of_lt (later k isClaimed)
    show ((q.setRequest r _).requests k).done = _
    rw [requests_setRequest, if_neg other]

theorem Linked.step (linked : q.Linked v) (held : q.Held v thread task) (move : WorkMove) :
    Good q v thread (q.step thread task move) := by
  unfold PresentWorkQueue.step
  split
  · exact linked.binds
  · exact linked.admission _
  · exact linked.claim
  · exact linked.closeNext
  · exact linked.wake held held.2.1 held.2.2 held.1
  · exact linked.timeout held.2.1 held.2.2 held.1
  · exact linked.wake held held.2.1 held.2.2 held.1
  · exact linked.releases held.1 held.2.1 held.2.2
  · exact linked.begins held
  · exact linked.ends held _
  · exact linked.finish held
  · exact linked.closeNext
  · exact linked.retires held
  · exact linked.stays held

/-- An invoker enters, leaves, or is where it was, and the count goes along. -/
def Counted (q : PresentWorkQueue) (task : WorkTask) (o : PresentWorkQueue × WorkTask × List WorkEvent) :
    Prop :=
  (o.2.1.Inside ↔ task.Inside) ∧ o.1.activeInvokers = q.activeInvokers ∨
  ¬task.Inside ∧ o.2.1.Inside ∧ o.1.activeInvokers = q.activeInvokers + 1 ∨
  task.Inside ∧ ¬o.2.1.Inside ∧ o.1.activeInvokers = q.activeInvokers - 1

end PresentWorkQueue

end EdvrPatch.OpenXr
