import EdvrPatch.Gpu.ClockInvariant

/-! Tokens of a clock. A record counts its generations and the leases of each, and
neither count is ever taken back while the clock is running, so a token that was
given up cannot come to life again. -/
namespace EdvrPatch.Gpu

open Lib

namespace Record

/-- All that a call can do to the leases of a record: start a generation, free the
record, or leave leases, end those that `may`, and add newer ones. A lease is known
by its place, the generation and its serial number. -/
def Later (may : Fin kLeases → Nat → Nat → Prop) (r r' : Record) : Prop :=
  (r.generation < r'.generation ∧ (r'.state = .idle ∨ ∀ j, (r'.leases j).occupied = true →
    (r'.leases j).ended = true → may j r'.generation (r'.leases j).serial)) ∨
  r'.generation = r.generation ∧ (r'.state = .idle ∨
    r.state ≠ .idle ∧ r.nextSerial ≤ r'.nextSerial ∧ ∀ j, (r'.leases j).occupied = true →
      ((r.leases j).occupied = true ∧ (r'.leases j).serial = (r.leases j).serial ∧
        ((r'.leases j).ended = true → (r.leases j).ended = true ∨
          may j r'.generation (r'.leases j).serial)) ∨
      r.nextSerial < (r'.leases j).serial ∧
        ((r'.leases j).ended = true → may j r'.generation (r'.leases j).serial))

variable {may : Fin kLeases → Nat → Nat → Prop} {r r' r'' : Record}

theorem Later.refl (may : Fin kLeases → Nat → Nat → Prop) (r : Record) : Later may r r := by
  refine .inr ⟨rfl, ?_⟩
  by_cases idle : r.state = .idle
  · exact .inl idle
  · exact .inr ⟨idle, le_rfl, fun j there => .inl ⟨there, rfl, .inl⟩⟩

theorem Later.generation_le (later : Later may r r') : r.generation ≤ r'.generation := by
  rcases later with ⟨newer, -⟩ | ⟨same, -⟩
  · exact newer.le
  · exact same.ge

theorem Later.trans (first : Later may r r') (second : Later may r' r'') : Later may r r'' := by
  rcases second with ⟨newer, ended⟩ | ⟨same, idle | ⟨live, more, leases⟩⟩
  · exact .inl ⟨first.generation_le.trans_lt newer, ended⟩
  · rcases first with ⟨newer, -⟩ | ⟨before, -⟩
    · exact .inl ⟨newer.trans_eq same.symm, .inl idle⟩
    · exact .inr ⟨same.trans before, .inl idle⟩
  · rcases first with ⟨newer, ended⟩ | ⟨before, idle | ⟨alive, fewer, older⟩⟩
    · refine .inl ⟨newer.trans_eq same.symm, .inr fun j there done => ?_⟩
      rcases leases j there with ⟨was, serial, kept⟩ | ⟨-, kept⟩
      · rw [serial, same] at kept ⊢
        exact (kept done).elim (ended.resolve_left live j was) id
      · exact kept done
    · exact absurd idle live
    · refine .inr ⟨same.trans before, .inr ⟨alive, fewer.trans more, fun j there => ?_⟩⟩
      rcases leases j there with ⟨was, serial, kept⟩ | ⟨newer, kept⟩
      · rw [serial, same] at kept ⊢
        rcases older j was with ⟨first, equal, ending⟩ | ⟨newer, ending⟩
        · exact .inl ⟨first, equal, fun done => (kept done).elim ending .inr⟩
        · exact .inr ⟨newer, fun done => (kept done).elim ending id⟩
      · exact .inr ⟨fewer.trans_lt newer, kept⟩

theorem later_of_leases (may : Fin kLeases → Nat → Nat → Prop) (generation : r'.generation = r.generation)
    (live : r.state ≠ .idle) (serial : r'.nextSerial = r.nextSerial)
    (leases : ∀ j, (r'.leases j).occupied = true → (r.leases j).occupied = true ∧
      (r'.leases j).serial = (r.leases j).serial ∧ (r'.leases j).ended = (r.leases j).ended) :
    Later may r r' := by
  refine .inr ⟨generation, .inr ⟨live, serial.ge, fun j there => .inl ?_⟩⟩
  obtain ⟨was, same, ended⟩ := leases j there
  exact ⟨was, same, fun done => .inl (ended ▸ done)⟩

theorem later_freed (r : Record) (may : Fin kLeases → Nat → Nat → Prop) (keep : Bool) :
    Later may r { created := keep, generation := r.generation } :=
  .inr ⟨rfl, .inl rfl⟩

variable {j : Fin kLeases}

theorem later_lend (kind : LeaseKind) (may : Fin kLeases → Nat → Nat → Prop)
    (live : r.state ≠ .idle) : Later may r (r.lend j kind) := by
  refine .inr ⟨rfl, .inr ⟨live, Nat.le_succ _, fun k there => ?_⟩⟩
  by_cases same : k = j
  · subst same
    right
    simp [lend, setLease]
  · left
    have old : (r.lend j kind).leases k = r.leases k := Function.update_of_ne same ..
    rw [old] at there ⊢
    exact ⟨there, rfl, .inl⟩

theorem later_closed (may : Fin kLeases → Nat → Nat → Prop) (live : r.state ≠ .idle) (ok : Bool) (now : Nat) :
    Later may r (r.closed ok now) := by
  refine later_of_leases may rfl live rfl fun j there => ?_
  obtain ⟨occupied, serial⟩ := closed_lease r ok now j
  refine ⟨occupied ▸ there, serial, ?_⟩
  unfold closed
  dsimp only
  split <;> rfl

theorem later_opening (kind : LeaseKind) (may : Fin kLeases → Nat → Nat → Prop)
    (empty : r.occupied = ∅) : Later may r (r.opened.lend j kind) := by
  refine .inl ⟨Nat.lt_succ_self _, .inr fun k there done => ?_⟩
  by_cases same : k = j
  · subst same
    simp [lend, setLease] at done
  · have old : (r.opened.lend j kind).leases k = r.leases k := Function.update_of_ne same ..
    rw [old] at there
    have member := mem_occupied.mpr there
    rw [empty] at member
    cases member

theorem later_ended (may : Fin kLeases → Nat → Nat → Prop)
    (allowed : may j r.generation (r.leases j).serial) (live : r.state ≠ .idle) :
    Later may r (r.setLease j { r.leases j with ended := true }) := by
  refine .inr ⟨rfl, .inr ⟨live, le_rfl, fun k there => .inl ?_⟩⟩
  by_cases same : k = j
  · subst same
    simp only [setLease, Function.update_self] at there ⊢
    exact ⟨there, trivial, fun _ => .inr allowed⟩
  · have old : (r.setLease j { r.leases j with ended := true }).leases k = r.leases k :=
      Function.update_of_ne same ..
    rw [old] at there ⊢
    exact ⟨there, rfl, .inl⟩

theorem later_dropped (j : Fin kLeases) (may : Fin kLeases → Nat → Nat → Prop) (live : r.state ≠ .idle)
    (refs : Nat) :
    Later may r { r.setLease j { r.leases j with occupied := false } with refs := refs } := by
  refine later_of_leases may rfl live rfl fun k there => ?_
  by_cases same : k = j
  · subst same
    simp [setLease] at there
  · have old : (r.setLease j { r.leases j with occupied := false }).leases k = r.leases k :=
      Function.update_of_ne same ..
    simpa [old] using there

/-- The token is not the one of the lease at its place, and will not be. -/
def Past (r : Record) (t : Lease) (j : Fin kLeases) : Prop :=
  t.generation < r.generation ∨ t.generation = r.generation ∧
    (r.state = .idle ∨ t.serial ≤ r.nextSerial ∧
      ¬((r.leases j).occupied = true ∧ (r.leases j).serial = t.serial))

theorem Past.later {t : Lease} (past : r.Past t j) (later : Later may r r') : r'.Past t j := by
  rcases later with ⟨newer, -⟩ | ⟨same, idle | ⟨live, more, leases⟩⟩
  · rcases past with older | ⟨equal, -⟩
    · exact .inl (older.trans newer)
    · exact .inl (equal.trans_lt newer)
  · rcases past with older | ⟨equal, -⟩
    · exact .inl (older.trans_eq same.symm)
    · exact .inr ⟨equal.trans same.symm, .inl idle⟩
  · rcases past with older | ⟨equal, idle | ⟨known, gone⟩⟩
    · exact .inl (older.trans_eq same.symm)
    · exact absurd idle live
    · refine .inr ⟨equal.trans same.symm, .inr ⟨known.trans more, fun there => ?_⟩⟩
      rcases leases j there.1 with ⟨was, serial, -⟩ | ⟨newer, -⟩
      · exact gone ⟨was, serial.symm.trans there.2⟩
      · rw [there.2] at newer
        exact absurd newer (not_lt.mpr known)

end Record

namespace DisjointClock

/-- What a call that does not shut the clock does to it; `may` are the leases it
may end. -/
structure Later (may : Fin kRecords → Fin kLeases → Nat → Nat → Prop) (c c' : DisjointClock) : Prop where
  id : c'.id = c.id
  records : ∀ i, (c.records i).Later (may i) (c'.records i)

variable {may : Fin kRecords → Fin kLeases → Nat → Nat → Prop} {c c' c'' : DisjointClock} {i : Fin kRecords}

theorem Later.refl (may : Fin kRecords → Fin kLeases → Nat → Nat → Prop) (c : DisjointClock) : Later may c c :=
  ⟨rfl, fun _ => .refl _ _⟩

theorem Later.trans (first : Later may c c') (second : Later may c' c'') : Later may c c'' :=
  ⟨second.id.trans first.id, fun i => (first.records i).trans (second.records i)⟩

theorem later_of_records (id : c'.id = c.id) (records : c'.records = c.records) :
    Later may c c' :=
  ⟨id, fun i => by rw [records]; exact .refl _ _⟩

theorem later_update {r : Record} (id : c'.id = c.id)
    (records : c'.records = Function.update c.records i r)
    (later : (c.records i).Later (may i) r) : Later may c c' := by
  refine ⟨id, fun k => ?_⟩
  rw [records]
  by_cases same : k = i
  · subst same
    rw [Function.update_self]
    exact later
  · rw [Function.update_of_ne same]
    exact .refl _ _

theorem later_retire (c : DisjointClock) (i : Fin kRecords) : Later may c (c.retire i) := by
  unfold DisjointClock.retire
  dsimp only
  split
  · exact .refl _ _
  · split <;> exact later_update rfl rfl (Record.later_freed _ _ _)

variable (answers : Nat → Answer)

theorem later_update_record (c : DisjointClock) (i : Fin kRecords) (now : Nat) :
    Later may c (c.update answers i now) := by
  unfold DisjointClock.update
  split
  · exact .refl _ _
  rename_i pending
  push Not at pending
  have records := outcome_records answers c i now
  have quiet := quiet_outcome answers c i now
  generalize c.outcome answers i now = answer at records quiet
  obtain ⟨result, c1⟩ := answer
  have live : (c1.records i).state ≠ .idle := by
    rw [records, pending]
    decide
  refine Later.trans ((later_of_records quiet.id records).trans ?_) (later_retire _ i)
  exact later_update rfl rfl
    (Record.later_of_leases _ rfl live rfl fun _ there => ⟨there, rfl, rfl⟩)

theorem later_tick (c : DisjointClock) : Later may c c.tick :=
  later_of_records rfl rfl

theorem later_collect (c : DisjointClock) (now : Nat) : Later may c (c.collect answers now).2 := by
  have all (l : List (Fin kRecords)) (d : DisjointClock) :
      Later may d (l.foldl (fun c i => c.update answers i now) d) := by
    induction l generalizing d with
    | nil => exact .refl _ _
    | cons i l ih => exact (later_update_record answers d i now).trans (ih _)
  unfold DisjointClock.collect ownerOk
  dsimp only
  split
  · exact later_of_records rfl rfl
  · dsimp only
    exact (later_tick c).trans (all _ c.tick)

theorem later_allocate {kind : LeaseKind} (live : (c.records i).state ≠ .idle) :
    Later may c (c.allocate i kind).2 := by
  unfold DisjointClock.allocate
  dsimp only
  split
  · exact .refl _ _
  · split
    · exact .refl _ _
    · exact later_update rfl rfl (Record.later_lend _ _ live)

theorem later_ensureCreated (idle : (c.records i).state = .idle) :
    Later may c (c.ensureCreated answers i).2 := by
  unfold DisjointClock.ensureCreated
  split
  · exact .refl _ _
  · unfold create
    cases (answers c.asked).ok with
    | false => exact later_of_records rfl rfl
    | true => exact later_update rfl rfl (.inr ⟨rfl, .inl idle⟩)

theorem later_opening (inv : Inv c) (idle : (c.records i).state = .idle) (kind : LeaseKind) :
    Later may c (((c.tick.record (.begins i true)).opened i).allocate i kind).2 := by
  obtain ⟨empty, zero⟩ := (inv.records i).idle idle
  obtain ⟨j, free⟩ := exists_freeLease empty
  have now : ((c.tick.record (.begins i true)).opened i).records i = (c.records i).opened :=
    Function.update_self ..
  have room : (c.records i).nextSerial ≠ uint64Max := by
    rw [zero]
    decide
  rw [allocate_eq (j := j) (by rw [now]; exact free) (by rw [now]; exact room), now]
  refine later_update (i := i) rfl ?_ (Record.later_opening (j := j) kind _ empty)
  simp [DisjointClock.setRecord, DisjointClock.opened, DisjointClock.record, DisjointClock.tick]

theorem later_openRecord (inv : Inv c) (running : c.shut = false) (kind : LeaseKind) :
    Later may c (c.openRecord answers kind).2 := by
  unfold DisjointClock.openRecord
  cases found : (List.finRange kRecords).find? _ with
  | none => exact .refl _ _
  | some i =>
    have idle : (c.records i).state = .idle := by
      have picked := List.find?_some found
      simp only [decide_eq_true_eq] at picked
      exact picked.1
    have made := inv.ensureCreated answers running idle
    have first : Later may c (c.ensureCreated answers i).2 := later_ensureCreated answers idle
    dsimp only
    cases created : c.ensureCreated answers i with
    | mk ok c1 =>
    rw [created] at made first
    cases ok with
    | false => exact first
    | true =>
    have idle : (c1.records i).state = .idle := by
      rw [(ensureCreated_records answers created).1]
      exact idle
    unfold beginQuery
    dsimp only
    cases (answers c1.asked).ok with
    | false => exact first.trans (later_update rfl rfl (.inr ⟨rfl, .inl idle⟩))
    | true => exact first.trans (later_opening made idle kind)

theorem later_close (live : (c.records i).state ≠ .idle) (now : Nat) :
    Later may c (c.close answers i now).2 :=
  later_update rfl rfl (Record.later_closed _ live _ now)

theorem later_dropLease (live : (c.records i).state ≠ .idle) (j : Fin kLeases) :
    Later may c (c.dropLease i j) := by
  refine Later.trans ?_ (later_retire _ i)
  exact later_update (i := i) rfl rfl (Record.later_dropped j _ live _)

def tokenOf (c : DisjointClock) (i : Fin kRecords) (j : Fin kLeases) : Lease where
  clock := c.id
  generation := (c.records i).generation
  serial := ((c.records i).leases j).serial
  record := i
  index := j

theorem eq_tokenOf {t : Lease} {j : Fin kLeases} (found : c.valid t = some (i, j)) :
    t = c.tokenOf i j := by
  obtain ⟨clock, record, index, -, generation, -, serial⟩ := valid_eq_some found
  unfold tokenOf
  rw [← clock, generation, serial, ← record, ← index]

end DisjointClock

def ClockCall.EndsLease (t : Lease) : ClockCall → Prop
  | .endInterval t' _ => t' = t
  | .finishFrame t' _ => t' = t
  | _ => False

namespace DisjointClock

variable {may : Fin kRecords → Fin kLeases → Nat → Nat → Prop} {c : DisjointClock}
  {i : Fin kRecords} (answers : Nat → Answer)

def mayEnd (c : DisjointClock) (call : ClockCall) (i : Fin kRecords) (j : Fin kLeases)
    (generation serial : Nat) : Prop :=
  call.EndsLease
    { clock := c.id, generation := generation, serial := serial, record := i, index := j }

theorem later_startFrame (inv : Inv c) (now : Nat) : Later may c (c.startFrame answers now).2 := by
  unfold DisjointClock.startFrame ownerOk
  dsimp only
  split
  · exact later_tick c
  · rename_i accepted
    simp only [Bool.or_eq_true, Bool.not_eq_true', not_or, Bool.not_eq_true] at accepted
    obtain ⟨kept, same⟩ := inv.tick.collect answers now
    exact ((later_tick c).trans (later_collect answers c.tick now)).trans
      (later_openRecord answers kept (same.shut.trans accepted.1.2) _)

theorem Inv.active_live (inv : Inv c) (active : c.active = some i) : (c.records i).state ≠ .idle := by
  rw [(inv.records i).opened.mpr active]
  decide

theorem later_acquireInterval (inv : Inv c) (now : Nat) :
    Later may c (c.acquireInterval answers now).2 := by
  unfold DisjointClock.acquireInterval ownerOk
  dsimp only
  split
  · exact later_tick c
  · rename_i accepted
    simp only [Bool.or_eq_true, Bool.not_eq_true', not_or, Bool.not_eq_true] at accepted
    cases active : c.tick.active with
    | some i => exact (later_tick c).trans (later_allocate (inv.tick.active_live active))
    | none =>
      obtain ⟨kept, same⟩ := inv.tick.collect answers now
      exact ((later_tick c).trans (later_collect answers c.tick now)).trans
        (later_openRecord answers kept (same.shut.trans accepted.2) _)

theorem later_acquireBorrowedFrame (inv : Inv c) :
    Later may c (c.acquireBorrowedFrame answers).2 := by
  unfold DisjointClock.acquireBorrowedFrame ownerOk
  dsimp only
  split
  · exact later_tick c
  · cases active : c.tick.active with
    | none => exact later_tick c
    | some i =>
      dsimp only
      split
      · exact (later_tick c).trans (later_allocate (inv.tick.active_live active))
      · exact later_tick c

variable {j : Fin kLeases}

theorem later_endLease
    (allowed : may i j (c.records i).generation ((c.records i).leases j).serial)
    (live : (c.records i).state ≠ .idle) : Later may c (c.endLease i j) :=
  later_update rfl rfl (Record.later_ended _ allowed live)

theorem later_endOwner
    (allowed : may i j (c.records i).generation ((c.records i).leases j).serial)
    (live : (c.records i).state ≠ .idle) (now : Nat) :
    Later may c ((c.endLease i j).close answers i now).2 := by
  refine (later_endLease allowed live).trans (later_close answers ?_ now)
  simpa [endLease, DisjointClock.setRecord, Record.setLease] using live

theorem later_endInterval (t : Lease) (now : Nat) :
    Later (c.mayEnd (.endInterval t now)) c (c.endInterval answers t now).2 := by
  unfold DisjointClock.endInterval ownerOk
  dsimp only
  refine token_elim (later_tick c) (later_tick c) fun i j _ found live _ => ?_
  split
  · exact later_tick c
  split
  · exact (later_tick c).trans
      (later_endOwner answers (eq_tokenOf found) live now)
  · exact (later_tick c).trans (later_endLease (eq_tokenOf found) live)

theorem later_finishFrame (t : Lease) (now : Nat) :
    Later (c.mayEnd (.finishFrame t now)) c (c.finishFrame answers t now).2 := by
  unfold DisjointClock.finishFrame ownerOk
  dsimp only
  refine token_elim (later_tick c) (later_tick c) fun i j _ found live _ => ?_
  split
  · exact later_tick c
  · exact (later_tick c).trans
      (later_endOwner answers (eq_tokenOf found) live now)

theorem later_poll (t : Lease) (now : Nat) : Later may c (c.poll answers t now).2 := by
  unfold DisjointClock.poll ownerOk
  dsimp only
  split
  · exact later_tick c
  split
  · exact later_tick c
  cases c.tick.valid t with
  | none => exact later_tick c
  | some place =>
    dsimp only
    split
    · exact later_tick c
    split
    · exact later_tick c
    · exact (later_tick c).trans (later_update_record answers c.tick _ now)

theorem later_release (t : Lease) (now : Nat) : Later may c (c.release answers t now).2 := by
  unfold DisjointClock.release ownerOk
  dsimp only
  refine token_elim (later_tick c) (later_tick c) fun i j _ found live _ => ?_
  dsimp only
  split
  · refine ((later_tick c).trans (later_close answers live now)).trans (later_dropLease ?_ j)
    rw [close_record]
    cases (answers c.tick.asked).ok <;> rintro ⟨⟩
  · exact (later_tick c).trans (later_dropLease live j)

theorem wipes_id (l : List (Fin kRecords)) (c : DisjointClock) :
    (l.foldl DisjointClock.wipe c).id = c.id := by
  induction l generalizing c with
  | nil => rfl
  | cons i l ih => exact (ih _).trans (quiet_wipe c i).id

theorem perform_later (inv : Inv c) (call : ClockCall) :
    Later (c.mayEnd call) c (c.perform answers call) ∨
      (c.perform answers call).shut = true ∧ (c.perform answers call).id = c.id := by
  cases call with
  | startFrame now => exact .inl (later_startFrame answers inv now)
  | acquireInterval now => exact .inl (later_acquireInterval answers inv now)
  | acquireBorrowedFrame => exact .inl (later_acquireBorrowedFrame answers inv)
  | endInterval t now => exact .inl (later_endInterval answers t now)
  | finishFrame t now => exact .inl (later_finishFrame answers t now)
  | poll t now => exact .inl (later_poll answers t now)
  | release t now => exact .inl (later_release answers t now)
  | collect now => exact .inl (later_collect answers c now)
  | shutdown now =>
    unfold perform DisjointClock.shutdown ownerOk
    dsimp only
    split
    · exact .inl (later_tick c)
    · have closed : (c.tick.closeActive answers now).id = c.tick.id := by
        unfold closeActive
        cases c.tick.active <;> rfl
      exact .inr ⟨rfl, (wipes_id _ _).trans closed⟩

theorem perform_shut (shut : c.shut = true) (call : ClockCall) :
    c.perform answers call = c.tick := by
  have closed : c.tick.shut = true := shut
  cases call with
  | startFrame now => simp [perform, DisjointClock.startFrame, ownerOk, closed]
  | acquireInterval now => simp [perform, DisjointClock.acquireInterval, ownerOk, closed]
  | acquireBorrowedFrame => simp [perform, DisjointClock.acquireBorrowedFrame, ownerOk, closed]
  | endInterval t now => simp [perform, DisjointClock.endInterval, ownerOk, closed]
  | finishFrame t now => simp [perform, DisjointClock.finishFrame, ownerOk, closed]
  | poll t now =>
    simp only [perform, DisjointClock.poll, ownerOk, closed, if_true]
    split <;> rfl
  | release t now => simp [perform, DisjointClock.release, ownerOk, closed]
  | collect now => simp [perform, DisjointClock.collect, ownerOk, closed]
  | shutdown now => simp [perform, DisjointClock.shutdown, ownerOk, closed]

theorem perform_id (inv : Inv c) (call : ClockCall) : (c.perform answers call).id = c.id := by
  rcases perform_later answers inv call with later | ⟨-, same⟩
  · exact later.id
  · exact same

def Gone (c : DisjointClock) (t : Lease) : Prop :=
  t.clock ≠ c.id ∨ c.shut = true ∨ ∀ i : Fin kRecords, ∀ j : Fin kLeases,
    t.record = i → t.index = j → (c.records i).Past t j

variable {t : Lease}

theorem Gone.perform (gone : Gone c t) (inv : Inv c) (call : ClockCall) :
    Gone (c.perform answers call) t := by
  rcases gone with other | shut | past
  · left
    rw [perform_id answers inv call]
    exact other
  · right; left
    rw [perform_shut answers shut call]
    exact shut
  · rcases perform_later answers inv call with later | ⟨shut, -⟩
    · exact .inr (.inr fun i j record index => (past i j record index).later (later.records i))
    · exact .inr (.inl shut)

theorem Gone.run (gone : Gone c t) (inv : Inv c) (calls : List ClockCall) :
    Gone (c.run answers calls) t := by
  induction calls generalizing c with
  | nil => exact gone
  | cons call _ ih => exact ih (gone.perform answers inv call) (inv.perform answers call)

theorem Gone.valid (gone : Gone c t) (inv : Inv c) : c.valid t = none := by
  cases found : c.valid t with
  | none => rfl
  | some place =>
    obtain ⟨i, j⟩ := place
    obtain ⟨clock, record, index, live, generation, occupied, serial⟩ := valid_eq_some found
    rcases gone with other | shut | past
    · exact absurd clock other
    · exact absurd (inv.shut shut i).1 live
    · rcases past i j record index with older | ⟨-, idle | ⟨-, apart⟩⟩
      · rw [generation] at older
        exact absurd older (lt_irrefl _)
      · exact absurd idle live
      · exact absurd ⟨occupied, serial⟩ apart

theorem gone_of_dropLease (record : t.record = i) (index : t.index = j)
    (generation : (c.records i).generation = t.generation)
    (known : t.serial ≤ (c.records i).nextSerial) : Gone (c.dropLease i j) t := by
  refine .inr (.inr fun i' j' record' index' => ?_)
  obtain rfl : i' = i := Fin.ext (record'.symm.trans record)
  obtain rfl : j' = j := Fin.ext (index'.symm.trans index)
  refine Record.Past.later ?_ ((later_retire (c.setRecord i' _) i' : Later (fun _ _ _ _ => True) _ _).records i')
  refine .inr ⟨?_, .inr ⟨?_, ?_⟩⟩
  · simp [DisjointClock.setRecord, Record.setLease, generation]
  · simpa [DisjointClock.setRecord, Record.setLease] using known
  · simp [DisjointClock.setRecord, Record.setLease]

theorem gone_of_release {now : Nat} (inv : Inv c) (released : (c.release answers t now).1 = true) :
    t.clock = c.id ∧ Gone (c.release answers t now).2 t := by
  unfold DisjointClock.release ownerOk at released ⊢
  dsimp only at released ⊢
  split at released
  · cases released
  rename_i accepted
  rw [if_neg accepted]
  cases found : c.tick.valid t with
  | none =>
    rw [found] at released
    cases released
  | some place =>
    obtain ⟨i, j⟩ := place
    obtain ⟨clock, record, index, -, generation, occupied, serial⟩ := valid_eq_some found
    have known := (inv.tick.records i).serial j occupied
    rw [serial] at known
    refine ⟨clock, ?_⟩
    dsimp only
    split
    · refine gone_of_dropLease record index ?_ ?_
      · rw [close_record]
        exact generation
      · rw [close_record]
        exact known
    · exact gone_of_dropLease record index generation known

/-! ### What a poll says -/

/-- The leases that are ended were ended by a call with their token. -/
def Accounted (calls : List ClockCall) (c : DisjointClock) : Prop :=
  ∀ i j, (c.records i).state ≠ .idle → ((c.records i).leases j).occupied = true →
    ((c.records i).leases j).ended = true → ∃ call ∈ calls, call.EndsLease (c.tokenOf i j)

theorem Accounted.perform {calls : List ClockCall} (known : Accounted calls c) (inv : Inv c)
    (call : ClockCall) : Accounted (calls ++ [call]) (c.perform answers call) := by
  intro i j live there done
  have next := inv.perform answers call
  rcases perform_later answers inv call with later | ⟨shut, -⟩
  · have now : c.mayEnd call i j ((c.perform answers call).records i).generation
        (((c.perform answers call).records i).leases j).serial →
        ∃ call' ∈ calls ++ [call], call'.EndsLease ((c.perform answers call).tokenOf i j) := by
      intro ends
      refine ⟨call, by simp, ?_⟩
      unfold tokenOf
      rw [later.id]
      exact ends
    rcases later.records i with ⟨-, idle | ended⟩ | ⟨same, idle | ⟨alive, -, leases⟩⟩
    · exact absurd idle live
    · exact now (ended j there done)
    · exact absurd idle live
    · rcases leases j there with ⟨was, serial, kept⟩ | ⟨-, kept⟩
      · rcases kept done with before | ends
        · obtain ⟨earlier, member, ends⟩ := known i j alive was before
          refine ⟨earlier, List.mem_append_left _ member, ?_⟩
          unfold tokenOf at ends ⊢
          rw [later.id, same, serial]
          exact ends
        · exact now ends
      · exact now (kept done)
  · exact absurd (next.shut shut i).1 live

theorem accounted_run (id : Nat) (owner : GpuSpanOwner) (calls : List ClockCall) :
    Accounted calls ((fresh id owner).run answers calls) := by
  have all (calls past : List ClockCall) (c : DisjointClock) (inv : Inv c)
      (known : Accounted past c) : Accounted (past ++ calls) (c.run answers calls) := by
    induction calls generalizing past c with
    | nil => simpa [DisjointClock.run] using known
    | cons call rest ih =>
      have next := ih (past ++ [call]) (c.perform answers call) (inv.perform answers call)
        (known.perform answers inv call)
      rw [List.append_assoc] at next
      exact next
  exact all calls [] _ (inv_fresh id owner) fun i j live => absurd rfl live

theorem poll_ready {now : Nat} (inv : Inv c) (ready : (c.poll answers t now).1.status = .ready) :
    ∃ i j, c.valid t = some (i, j) ∧ ((c.records i).leases j).ended = true ∧
      ((c.records i).leases j).invalid = false ∧ c.device.closed i = some true := by
  unfold DisjointClock.poll ownerOk at ready
  dsimp only at ready
  split at ready
  · cases ready
  split at ready
  · cases ready
  cases found : c.tick.valid t with
  | none =>
    rw [found] at ready
    cases ready
  | some place =>
    obtain ⟨i, j⟩ := place
    rw [found] at ready
    dsimp only at ready
    split at ready
    · cases ready
    rename_i sound
    split at ready
    · cases ready
    rename_i ended
    have ended : ((c.tick.records i).leases j).ended = true := by simpa using ended
    have sound : ((c.tick.records i).leases j).invalid = false := by simpa using sound
    refine ⟨i, j, found, ended, sound, ?_⟩
    obtain ⟨-, -, -, live, -⟩ := valid_eq_some found
    have known := inv.tick.sound i
    cases state : (c.tick.records i).state with
    | idle => exact absurd state live
    | pending => exact (known.pending state).2
    | opened =>
      rw [DisjointClock.update, if_pos (by rw [state]; decide), known.opened state] at ready
      cases ready
    | complete =>
      rw [DisjointClock.update, if_pos (by rw [state]; decide)] at ready
      exact known.complete state ready

end DisjointClock

/-! ### All clocks of a process -/

/-- What happens to the clocks of a process: one more is made, or one is called. -/
inductive ClockEvent where
  | construct (owner : GpuSpanOwner)
  | call (clock : Nat) (call : ClockCall)
  deriving DecidableEq, Repr

/-- `nextId`: the number of the clock, as the 64-bit counter has it. -/
def nextId (made : Nat) : Nat :=
  (made + 1) % 2 ^ 64

section

-- each clock has a backend of its own
variable (answers : Nat → Nat → Answer)

def clockStep (clocks : List DisjointClock) : ClockEvent → List DisjointClock
  | .construct owner => clocks ++ [.fresh (nextId clocks.length) owner]
  | .call k call => clocks.modify k (·.perform (answers k) call)

def clockRun (clocks : List DisjointClock) (events : List ClockEvent) : List DisjointClock :=
  events.foldl (clockStep answers) clocks

def callsTo (k : Nat) (events : List ClockEvent) : List ClockCall :=
  events.filterMap fun
    | .call k' call => if k' = k then some call else none
    | .construct _ => none

variable {k : Nat} {events : List ClockEvent}

theorem mem_of_mem_callsTo {call : ClockCall} (member : call ∈ callsTo k events) :
    .call k call ∈ events := by
  obtain ⟨event, inside, picked⟩ := List.mem_filterMap.mp member
  cases event with
  | construct owner => cases picked
  | call k' call' =>
    dsimp only at picked
    split at picked
    · rename_i same
      cases picked
      rw [← same]
      exact inside
    · cases picked

variable {c : DisjointClock}

theorem clockStep_later {clocks : List DisjointClock} (there : clocks[k]? = some c)
    (event : ClockEvent) :
    (clockStep answers clocks event)[k]? = some (c.run (answers k) (callsTo k [event])) := by
  cases event with
  | construct owner =>
    have inside : k < clocks.length := (List.getElem?_eq_some_iff.mp there).1
    simpa [clockStep, callsTo, DisjointClock.run, List.getElem?_append_left inside] using there
  | call k' call =>
    by_cases same : k' = k
    · subst same
      simp [clockStep, callsTo, DisjointClock.run, there]
    · simp [clockStep, callsTo, DisjointClock.run, there, same]

theorem run_append (answers : Nat → Answer) (c : DisjointClock) (first rest : List ClockCall) :
    c.run answers (first ++ rest) = (c.run answers first).run answers rest :=
  List.foldl_append ..

theorem clockRun_later {clocks : List DisjointClock} (there : clocks[k]? = some c)
    (events : List ClockEvent) :
    (clockRun answers clocks events)[k]? = some (c.run (answers k) (callsTo k events)) := by
  induction events generalizing clocks c with
  | nil => exact there
  | cons event rest ih =>
    have next := ih (clockStep_later answers there event)
    rw [← run_append] at next
    have split : callsTo k (event :: rest) = callsTo k [event] ++ callsTo k rest := by
      rw [← List.singleton_append]
      exact List.filterMap_append ..
    rw [split]
    exact next

theorem clockRun_append (clocks : List DisjointClock) (first rest : List ClockEvent) :
    clockRun answers clocks (first ++ rest) = clockRun answers (clockRun answers clocks first) rest :=
  List.foldl_append ..

theorem clockRun_origin (there : (clockRun answers [] events)[k]? = some c) :
    ∃ owner calls, c = (DisjointClock.fresh (nextId k) owner).run (answers k) calls ∧
      ∀ call ∈ calls, .call k call ∈ events := by
  induction events using List.reverseRecOn generalizing c with
  | nil => cases there
  | append_singleton events event ih =>
    rw [clockRun_append] at there
    change (clockStep answers (clockRun answers [] events) event)[k]? = some c at there
    by_cases old : k < (clockRun answers [] events).length
    · have was := List.getElem?_eq_getElem old
      obtain ⟨owner, calls, same, asked⟩ := ih was
      rw [clockStep_later answers was event] at there
      refine ⟨owner, calls ++ callsTo k [event], ?_, ?_⟩
      · rw [run_append, ← same]
        exact (Option.some.inj there).symm
      · intro call member
        rcases List.mem_append.mp member with member | member
        · exact List.mem_append_left _ (asked call member)
        · exact List.mem_append_right _ (mem_of_mem_callsTo member)
    · cases event with
      | construct owner =>
        simp only [clockStep] at there
        rw [List.getElem?_append_right (Nat.le_of_not_lt old)] at there
        obtain ⟨last, made⟩ := List.getElem?_eq_some_iff.mp there
        simp only [List.getElem_singleton] at made
        have here : k = (clockRun answers [] events).length := by
          simp only [List.length_singleton] at last
          omega
        exact ⟨owner, [], by rw [here]; exact made.symm, nofun⟩
      | call k' call =>
        have inside := (List.getElem?_eq_some_iff.mp there).1
        simp only [clockStep, List.length_modify] at inside
        exact absurd inside old

theorem clockRun_inv (there : (clockRun answers [] events)[k]? = some c) :
    c.Inv ∧ c.id = nextId k := by
  obtain ⟨owner, calls, rfl, -⟩ := clockRun_origin answers there
  have named (calls : List ClockCall) (c : DisjointClock) (inv : c.Inv) :
      (c.run (answers k) calls).id = c.id := by
    induction calls generalizing c with
    | nil => rfl
    | cons call rest ih =>
      exact (ih _ (inv.perform (answers k) call)).trans
        (DisjointClock.perform_id (answers k) inv call)
  have fresh := DisjointClock.inv_fresh (nextId k) owner
  exact ⟨fresh.run (answers k) calls, named calls _ fresh⟩

/-- A token whose lease was released by the last event, or whose clock is shut, or
accepted the shutdown that was the last event. -/
def Retired (before : List ClockEvent) (k : Nat) (t : Lease) : Prop :=
  (∃ earlier now c, before = earlier ++ [ClockEvent.call k (.release t now)] ∧
    (clockRun answers [] earlier)[k]? = some c ∧ (c.release (answers k) t now).1 = true) ∨
  (∃ c, (clockRun answers [] before)[k]? = some c ∧ c.shut = true ∧ t.clock = c.id) ∨
  ∃ earlier now c, before = earlier ++ [ClockEvent.call k (.shutdown now)] ∧
    (clockRun answers [] earlier)[k]? = some c ∧ (c.shutdown (answers k) now).1 = true ∧ t.clock = c.id

theorem Retired.gone {before : List ClockEvent} {t : Lease} (retired : Retired answers before k t) :
    ∃ c, (clockRun answers [] before)[k]? = some c ∧ c.Gone t ∧ t.clock = c.id := by
  rcases retired with ⟨earlier, now, c, rfl, there, released⟩ | ⟨c, there, shut, token⟩ |
    ⟨earlier, now, c, rfl, there, done, token⟩
  · have inv := (clockRun_inv answers there).1
    have next := clockRun_later answers there [.call k (.release t now)]
    have last : callsTo k [.call k (.release t now)] = [.release t now] := by simp [callsTo]
    rw [last] at next
    obtain ⟨token, gone⟩ := DisjointClock.gone_of_release (answers k) inv released
    refine ⟨(c.release (answers k) t now).2, ?_, gone, ?_⟩
    · rw [clockRun_append]
      exact next
    · exact token.trans (DisjointClock.perform_id (answers k) inv (.release t now)).symm
  · exact ⟨c, there, .inr (.inl shut), token⟩
  · have inv := (clockRun_inv answers there).1
    have next := clockRun_later answers there [.call k (.shutdown now)]
    have last : callsTo k [.call k (.shutdown now)] = [.shutdown now] := by simp [callsTo]
    rw [last] at next
    refine ⟨(c.shutdown (answers k) now).2, ?_, .inr (.inl (DisjointClock.shutdown_shut _ done)), ?_⟩
    · rw [clockRun_append]
      exact next
    · exact token.trans (DisjointClock.perform_id (answers k) inv (.shutdown now)).symm

theorem nextId_inj {k' : Nat} (short : k + 1 < 2 ^ 64) (short' : k' + 1 < 2 ^ 64)
    (same : nextId k = nextId k') : k = k' := by
  unfold nextId at same
  omega

/-- Once a lease was released or its clock was shut down, no clock accepts its token
again, whatever is acquired later; and a poll says ready only of a lease that was
ended with its token, was not invalidated, and whose scope ended well. -/
theorem lease_tokens_stay_dead (before later : List ClockEvent)
    (short : (clockRun answers [] (before ++ later)).length + 1 < 2 ^ 64) :
    (∀ k t, Retired answers before k t →
      ∀ c ∈ clockRun answers [] (before ++ later), c.valid t = none) ∧
    ∀ k c t now, (clockRun answers [] before)[k]? = some c →
      (c.poll (answers k) t now).1.status = .ready →
      ∃ i j, c.valid t = some (i, j) ∧ ((c.records i).leases j).ended = true ∧
        ((c.records i).leases j).invalid = false ∧ c.device.closed i = some true ∧
        ∃ call, .call k call ∈ before ∧ call.EndsLease t := by
  constructor
  · intro k t retired c member
    obtain ⟨k', inside, here⟩ := List.getElem_of_mem member
    have there : (clockRun answers [] (before ++ later))[k']? = some c :=
      List.getElem?_eq_some_iff.mpr ⟨inside, here⟩
    obtain ⟨inv, named⟩ := clockRun_inv answers there
    obtain ⟨d, first, gone, token⟩ := Retired.gone answers retired
    obtain ⟨dinv, dnamed⟩ := clockRun_inv answers first
    have next := clockRun_later answers first later
    rw [← clockRun_append] at next
    have bound := (List.getElem?_eq_some_iff.mp next).1
    by_cases same : k' = k
    · rw [same, next] at there
      rw [← Option.some.inj there]
      exact (gone.run (answers k) dinv _).valid (dinv.run (answers k) _)
    · refine DisjointClock.Gone.valid (.inl ?_) inv
      rw [token, named, dnamed]
      exact fun equal => same (nextId_inj (by omega) (by omega) equal).symm
  · intro k c t now there ready
    obtain ⟨inv, -⟩ := clockRun_inv answers there
    obtain ⟨i, j, found, ended, sound, closed⟩ := DisjointClock.poll_ready (answers k) inv ready
    refine ⟨i, j, found, ended, sound, closed, ?_⟩
    obtain ⟨owner, calls, rfl, asked⟩ := clockRun_origin answers there
    obtain ⟨-, -, -, live, -, occupied, -⟩ := DisjointClock.valid_eq_some found
    obtain ⟨call, member, ends⟩ :=
      DisjointClock.accounted_run (answers k) (nextId k) owner calls i j live occupied ended
    rw [← DisjointClock.eq_tokenOf found] at ends
    exact ⟨call, asked call member, ends⟩

end

/-- A backend that always works, and the first token of the first clock. -/
def goodAnswer : Answer where
  owner := { device := 1, context := 1, thread := 1 }
  result := { status := .ready, frequency := 1000 }

def firstToken : Lease where
  clock := 1
  generation := 1
  serial := 1

theorem lease_tokens_stay_dead_once :
    Retired (fun _ _ => goodAnswer)
      [.construct goodAnswer.owner, .call 0 (.acquireInterval 0), .call 0 (.release firstToken 1)] 0
      firstToken ∧
    ∀ c ∈ clockRun (fun _ _ => goodAnswer) []
      ([ClockEvent.construct goodAnswer.owner, .call 0 (.acquireInterval 0),
        .call 0 (.release firstToken 1)] ++ [ClockEvent.call 0 (.acquireInterval 2)]),
      c.valid firstToken = none := by
  have retired : Retired (fun _ _ => goodAnswer)
      [.construct goodAnswer.owner, .call 0 (.acquireInterval 0),
        .call 0 (.release firstToken 1)] 0 firstToken :=
    .inl ⟨[.construct goodAnswer.owner, .call 0 (.acquireInterval 0)], 1, _, rfl, rfl,
      by decide +kernel⟩
  refine ⟨retired, (lease_tokens_stay_dead _ _ _ ?_).1 0 firstToken retired⟩
  decide +kernel

end EdvrPatch.Gpu
