import EdvrPatch.Gpu.DisjointClock

/-! What holds of a clock between its calls. -/
namespace EdvrPatch.Gpu

open Lib

namespace Record

def occupied (r : Record) : Finset (Fin kLeases) :=
  Finset.univ.filter fun j => (r.leases j).occupied = true

variable {r : Record} {j : Fin kLeases}

@[simp] theorem mem_occupied : j ∈ r.occupied ↔ (r.leases j).occupied = true := by
  simp [occupied]

/-- The lease that holds the scope open; all others borrow it. -/
structure Owner (r : Record) (j : Fin kLeases) : Prop where
  occupied : (r.leases j).occupied = true
  kind : (r.leases j).kind ≠ .borrowed
  running : (r.leases j).ended = false
  sound : (r.leases j).invalid = false
  alone : ∀ k, (r.leases k).occupied = true → (r.leases k).kind ≠ .borrowed → k = j

structure Counted (r : Record) : Prop where
  made : r.state ≠ .idle → r.created = true
  refs : r.refs = r.occupied.card
  idle : r.state = .idle → r.occupied = ∅ ∧ r.nextSerial = 0
  serial : ∀ j, (r.leases j).occupied = true → (r.leases j).serial ≤ r.nextSerial

/-- A record between two calls; `active` says whether the clock names it. -/
structure Ok (r : Record) (active : Prop) : Prop extends Counted r where
  opened : r.state = .opened ↔ active
  owner : r.state = .opened → ∃ j, r.Owner j

/-- What a record knows of its scope, against the answer to the scope's end. -/
structure Sound (r : Record) (last : Option Bool) : Prop where
  opened : r.state = .opened → r.result.status = .pending
  pending : r.state = .pending → r.result.status = .pending ∧ last = some true
  complete : r.state = .complete → r.result.status = .ready → last = some true

theorem sound_idle (idle : r.state = .idle) (last : Option Bool) : r.Sound last where
  opened h := absurd (idle.symm.trans h) nofun
  pending h := absurd (idle.symm.trans h) nofun
  complete h := absurd (idle.symm.trans h) nofun

theorem Sound.congr {r' : Record} {last : Option Bool} (sound : r.Sound last)
    (state : r'.state = r.state) (result : r'.result = r.result) : r'.Sound last where
  opened h := by
    rw [result]
    exact sound.opened (state.symm.trans h)
  pending h := by
    rw [result]
    exact sound.pending (state.symm.trans h)
  complete h ready := by
    rw [result] at ready
    exact sound.complete (state.symm.trans h) ready

theorem sound_opened (r : Record) (last : Option Bool) : r.opened.Sound last where
  opened _ := rfl
  pending := nofun
  complete := nofun

theorem Sound.closed {last : Option Bool} (sound : r.Sound last) (opened : r.state = .opened)
    (ok : Bool) (now : Nat) : (r.closed ok now).Sound (some ok) := by
  have waiting := sound.opened opened
  cases ok with
  | true => exact ⟨nofun, fun _ => ⟨waiting, rfl⟩, nofun⟩
  | false => exact ⟨nofun, nofun, nofun⟩

theorem counted_freed (keep : Bool) (generation : Nat) :
    Counted { created := keep, generation := generation } where
  made h := absurd rfl h
  refs := by simp [occupied]
  idle _ := by simp [occupied]
  serial := nofun

theorem ok_freed (keep : Bool) (generation : Nat) :
    Ok { created := keep, generation := generation } False :=
  { counted_freed keep generation with
    opened := ⟨nofun, nofun⟩
    owner := nofun }

theorem occupied_setLease (r : Record) (j : Fin kLeases) (lease : LeaseState) :
    (r.setLease j lease).occupied =
      if lease.occupied then insert j r.occupied else r.occupied.erase j := by
  ext k
  by_cases same : k = j
  · subst same
    split <;> simp_all [setLease]
  · split <;> simp_all [setLease]

theorem Counted.lend (counted : r.Counted) (kind : LeaseKind)
    (free : (r.leases j).occupied = false) (live : r.state ≠ .idle) : (r.lend j kind).Counted where
  made _ := counted.made live
  refs := by
    have grown : (r.lend j kind).occupied = insert j r.occupied :=
      (occupied_setLease r j { serial := r.nextSerial + 1, kind := kind, occupied := true }).trans
        (if_pos rfl)
    rw [grown, Finset.card_insert_of_notMem (by simp [free]), ← counted.refs]
    rfl
  idle h := absurd h live
  serial k there := by
    by_cases same : k = j
    · simp [Record.lend, setLease, same]
    · have old : (r.lend j kind).leases k = r.leases k := Function.update_of_ne same ..
      rw [old] at there ⊢
      exact Nat.le_succ_of_le (counted.serial k there)

theorem Owner.beside {r' : Record} {k : Fin kLeases} (owner : r.Owner j) (apart : k ≠ j)
    (others : ∀ i, i ≠ k → r'.leases i = r.leases i) (borrowed : (r'.leases k).kind = .borrowed) :
    r'.Owner j := by
  have same : r'.leases j = r.leases j := others j (Ne.symm apart)
  refine ⟨?_, ?_, ?_, ?_, ?_⟩
  · rw [same]
    exact owner.occupied
  · rw [same]
    exact owner.kind
  · rw [same]
    exact owner.running
  · rw [same]
    exact owner.sound
  · intro i there kind
    by_cases moved : i = k
    · rw [moved] at kind
      exact absurd borrowed kind
    · rw [others i moved] at there kind
      exact owner.alone i there kind

theorem Ok.lend_borrowed {active : Prop} (ok : r.Ok active) (free : (r.leases j).occupied = false)
    (live : r.state ≠ .idle) : (r.lend j .borrowed).Ok active :=
  { ok.toCounted.lend .borrowed free live with
    opened := ok.opened
    owner := by
      intro opened
      obtain ⟨k, owner⟩ := ok.owner opened
      have apart : j ≠ k := by
        rintro rfl
        rw [owner.occupied] at free
        cases free
      exact ⟨k, owner.beside apart (fun i other => Function.update_of_ne other ..)
        (by simp [lend, setLease])⟩ }

theorem Ok.opening {active : Prop} (ok : r.Ok active) (idle : r.state = .idle)
    (made : r.created = true) (j : Fin kLeases) {kind : LeaseKind} (owns : kind ≠ .borrowed) :
    (r.opened.lend j kind).Ok True := by
  have empty (k : Fin kLeases) : (r.leases k).occupied = false := by
    have none := (ok.idle idle).1
    by_contra there
    have member : k ∈ r.occupied := mem_occupied.mpr (by simpa using there)
    rw [none] at member
    cases member
  have opened : r.opened.Counted :=
    ⟨fun _ => made, ok.refs, nofun, ok.serial⟩
  refine { opened.lend kind (empty j) nofun with
    opened := ⟨fun _ => trivial, fun _ => rfl⟩
    owner := fun _ => ⟨j, ?_, ?_, ?_, ?_, ?_⟩ }
  · simp [lend, setLease]
  · simpa [lend, setLease] using owns
  · simp [lend, setLease]
  · simp [lend, setLease]
  · intro k there _
    by_contra other
    have old : (r.opened.lend j kind).leases k = r.leases k := Function.update_of_ne other ..
    rw [old, empty k] at there
    cases there

theorem closed_lease (r : Record) (ok : Bool) (now : Nat) (j : Fin kLeases) :
    ((r.closed ok now).leases j).occupied = (r.leases j).occupied ∧
      ((r.closed ok now).leases j).serial = (r.leases j).serial := by
  unfold closed
  dsimp only
  split <;> exact ⟨rfl, rfl⟩

theorem closed_ne_opened (r : Record) (ok : Bool) (now : Nat) :
    (r.closed ok now).state ≠ .opened := by
  cases ok <;> exact nofun

theorem Counted.closed (counted : r.Counted) (live : r.state ≠ .idle) (ok : Bool) (now : Nat) :
    (r.closed ok now).Ok False where
  made _ := counted.made live
  refs := by
    have same : (r.closed ok now).occupied = r.occupied := by
      ext j
      rw [mem_occupied, mem_occupied, (closed_lease r ok now j).1]
    rw [same]
    exact counted.refs
  idle h := by
    cases ok <;> cases h
  serial j there := by
    obtain ⟨occupied, serial⟩ := closed_lease r ok now j
    rw [serial]
    exact counted.serial j (occupied ▸ there)
  opened := ⟨fun h => absurd h (closed_ne_opened r ok now), nofun⟩
  owner h := absurd h (closed_ne_opened r ok now)

theorem Counted.setLease (counted : r.Counted) {lease : LeaseState}
    (there : lease.occupied = true) (before : (r.leases j).occupied = true)
    (serial : lease.serial = (r.leases j).serial) : (r.setLease j lease).Counted where
  made := counted.made
  refs := by
    rw [occupied_setLease, if_pos there, Finset.insert_eq_of_mem (mem_occupied.mpr before)]
    exact counted.refs
  idle h := by
    have none := (counted.idle h).1
    have member : j ∈ r.occupied := mem_occupied.mpr before
    rw [none] at member
    cases member
  serial k occupied := by
    by_cases same : k = j
    · subst same
      simp only [Record.setLease, Function.update_self]
      rw [serial]
      exact counted.serial k before
    · have old : (r.setLease j lease).leases k = r.leases k := Function.update_of_ne same ..
      rw [old] at occupied ⊢
      exact counted.serial k occupied

theorem Counted.drop (counted : r.Counted) (before : (r.leases j).occupied = true) :
    Counted { r.setLease j { r.leases j with occupied := false } with refs := r.refs - 1 } where
  made := counted.made
  refs := by
    have fewer : (Record.occupied { r.setLease j { r.leases j with occupied := false } with
        refs := r.refs - 1 }) = r.occupied.erase j :=
      (occupied_setLease r j _).trans (if_neg nofun)
    rw [fewer, Finset.card_erase_of_mem (mem_occupied.mpr before), ← counted.refs]
  idle h := by
    have none := (counted.idle h).1
    have member : j ∈ r.occupied := mem_occupied.mpr before
    rw [none] at member
    cases member
  serial k occupied := by
    by_cases same : k = j
    · simp [Record.setLease, same] at occupied
    · have old : (r.setLease j { r.leases j with occupied := false }).leases k = r.leases k :=
        Function.update_of_ne same ..
      simp only [old] at occupied ⊢
      exact counted.serial k occupied

end Record

namespace DisjointClock

abbrev protocol : Monitor (Queries kRecords) (QueryCall kRecords) :=
  queryProtocol kRecords 0

def device (c : DisjointClock) : Queries kRecords :=
  protocol.after {} c.log

structure Inv (c : DisjointClock) : Prop where
  lawful : protocol.Admits {} c.log
  created : ∀ i, c.device.created i = (c.records i).created
  scope : c.device.scope = c.active
  uncertain : c.device.uncertain = c.stopped
  records : ∀ i, (c.records i).Ok (c.active = some i)
  sound : ∀ i, (c.records i).Sound (c.device.closed i)
  shut : c.shut = true → ∀ i, (c.records i).state = .idle ∧ (c.records i).created = false

theorem inv_fresh (id : Nat) (owner : GpuSpanOwner) : Inv (fresh id owner) where
  lawful := trivial
  created _ := rfl
  scope := rfl
  uncertain := rfl
  records _ :=
    { Record.ok_freed false 0 with
      opened := ⟨nofun, nofun⟩ }
  sound _ := Record.sound_idle rfl _
  shut := nofun

theorem Inv.tick {c : DisjointClock} (inv : Inv c) : Inv c.tick :=
  ⟨inv.lawful, inv.created, inv.scope, inv.uncertain, inv.records, inv.sound, inv.shut⟩

/-- All that a call can do at once: tell the device something about one record,
and change that record with it. -/
structure Changes (c : DisjointClock) (i : Fin kRecords) (calls : List (QueryCall kRecords))
    (c' : DisjointClock) : Prop where
  log : c'.log = c.log ++ calls
  others : ∀ k, k ≠ i → c'.records k = c.records k ∧ (c'.active = some k ↔ c.active = some k)
  lawful : protocol.Admits c.device calls
  created : ∀ k, (protocol.after c.device calls).created k =
    if k = i then (c'.records i).created else c.device.created k
  scope : (protocol.after c.device calls).scope = c'.active
  uncertain : (protocol.after c.device calls).uncertain = c'.stopped
  shut : c'.shut = false
  ok : (c'.records i).Ok (c'.active = some i)
  closed : ∀ k, k ≠ i → (protocol.after c.device calls).closed k = c.device.closed k
  sound : (c'.records i).Sound ((protocol.after c.device calls).closed i)

theorem Inv.change {c c' : DisjointClock} (inv : Inv c) (i : Fin kRecords)
    (calls : List (QueryCall kRecords)) (changes : Changes c i calls c') : Inv c' := by
  have device : c'.device = protocol.after c.device calls := by
    unfold DisjointClock.device
    rw [changes.log, Monitor.after_append]
  refine ⟨?_, ?_, ?_, ?_, ?_, ?_, ?_⟩
  · rw [changes.log, Monitor.admits_append]
    exact ⟨inv.lawful, changes.lawful⟩
  · intro k
    rw [device, changes.created]
    by_cases same : k = i
    · rw [if_pos same, same]
    · rw [if_neg same, (changes.others k same).1]
      exact inv.created k
  · rw [device, changes.scope]
  · rw [device, changes.uncertain]
  · intro k
    by_cases same : k = i
    · rw [same]
      exact changes.ok
    · rw [(changes.others k same).1]
      have ok := inv.records k
      exact { ok with opened := ok.opened.trans (changes.others k same).2.symm }
  · intro k
    rw [device]
    by_cases same : k = i
    · rw [same]
      exact changes.sound
    · rw [(changes.others k same).1, changes.closed k same]
      exact inv.sound k
  · rw [changes.shut]
    exact nofun

section

variable {c : DisjointClock} {i : Fin kRecords}

variable {r : Record}

theorem Inv.setRecord (inv : Inv c) (running : c.shut = false)
    (made : r.created = (c.records i).created) (ok : r.Ok (c.active = some i))
    (sound : r.Sound (c.device.closed i)) : Inv (c.setRecord i r) := by
  refine inv.change i [] ⟨by simp [DisjointClock.setRecord], ?_, trivial, ?_,
    inv.scope, inv.uncertain, running, by simpa [DisjointClock.setRecord] using ok, fun _ _ => rfl,
    by simpa [DisjointClock.setRecord] using sound⟩
  · intro k other
    exact ⟨Function.update_of_ne other .., Iff.rfl⟩
  · intro k
    split
    · rename_i same
      rw [same]
      simpa [DisjointClock.setRecord, made] using inv.created i
    · rfl

theorem Inv.told (inv : Inv c) {call : QueryCall kRecords} (allowed : protocol.allows c.device call)
    (same : protocol.advance c.device call = c.device) : Inv (c.tick.record call) := by
  have device : (c.tick.record call).device = c.device := by
    unfold DisjointClock.device at same ⊢
    simp only [DisjointClock.record, Monitor.after_append]
    exact same
  refine ⟨?_, ?_, ?_, ?_, inv.records, ?_, inv.shut⟩
  · simp only [DisjointClock.record, Monitor.admits_append]
    exact ⟨inv.lawful, allowed, trivial⟩
  · rw [device]
    exact inv.created
  · rw [device]
    exact inv.scope
  · rw [device]
    exact inv.uncertain
  · rw [device]
    exact inv.sound

variable {c' : DisjointClock}

theorem Inv.remake (inv : Inv c) (idle : (c.records i).state = .idle)
    (calls : List (QueryCall kRecords)) {made : Bool} (log : c'.log = c.log ++ calls)
    (records : c'.records = Function.update c.records i { c.records i with created := made })
    (active : c'.active = c.active) (stopped : c'.stopped = c.stopped) (running : c'.shut = false)
    (lawful : protocol.Admits c.device calls)
    (after : protocol.after c.device calls = { c.device with created := Function.update c.device.created i made }) :
    Inv c' := by
  have ok := inv.records i
  refine inv.change i calls ⟨log, ?_, lawful, ?_, ?_, ?_, running, ?_, ?_, ?_⟩
  · intro k other
    rw [records, active]
    exact ⟨Function.update_of_ne other .., Iff.rfl⟩
  · intro k
    rw [after, records]
    by_cases same : k = i
    · simp [same]
    · simp [same]
  · rw [after, active]
    exact inv.scope
  · rw [after, stopped]
    exact inv.uncertain
  · rw [records, active, Function.update_self]
    exact { refs := ok.refs, idle := ok.idle, serial := ok.serial, opened := ok.opened
            made := fun live => absurd idle live
            owner := fun opened => absurd (idle.symm.trans opened) nofun }
  · intro k _
    rw [after]
  · rw [records, Function.update_self]
    exact (Record.sound_idle idle _).congr rfl rfl

variable (answers : Nat → Answer)

theorem Inv.ensureCreated (inv : Inv c) (running : c.shut = false)
    (idle : (c.records i).state = .idle) : Inv (c.ensureCreated answers i).2 := by
  unfold DisjointClock.ensureCreated
  split
  · exact inv
  · rename_i missing
    have fresh : c.device.created i = false := by
      rw [inv.created i]
      simpa using missing
    unfold create
    cases answered : (answers c.asked).ok with
    | false => exact inv.told fresh rfl
    | true => exact inv.remake idle [.create i true] rfl rfl rfl rfl running ⟨fresh, trivial⟩ rfl

theorem ensureCreated_records (created : c.ensureCreated answers i = (true, c')) :
    c'.records i = { c.records i with created := true } ∧ c'.active = c.active ∧
      c'.stopped = c.stopped ∧ c'.shut = c.shut ∧ c'.id = c.id := by
  unfold DisjointClock.ensureCreated at created
  split at created
  · rename_i there
    cases created
    exact ⟨by rw [← there], rfl, rfl, rfl, rfl⟩
  · unfold create at created
    cases answered : (answers c.asked).ok with
    | false =>
      rw [answered] at created
      cases created
    | true =>
      rw [answered] at created
      cases created
      exact ⟨Function.update_self .., rfl, rfl, rfl, rfl⟩

variable {j : Fin kLeases}

theorem freeLease_spec (found : r.freeLease = some j) : (r.leases j).occupied = false := by
  simpa using List.find?_some found

theorem exists_freeLease (empty : r.occupied = ∅) : ∃ j, r.freeLease = some j := by
  cases found : r.freeLease with
  | some j => exact ⟨j, rfl⟩
  | none =>
    have first := List.find?_eq_none.mp found ⟨0, by decide⟩ (List.mem_finRange _)
    have member : (⟨0, by decide⟩ : Fin kLeases) ∈ r.occupied :=
      Record.mem_occupied.mpr (by simpa using first)
    rw [empty] at member
    cases member

variable {kind : LeaseKind}

theorem allocate_eq (free : (c.records i).freeLease = some j)
    (room : (c.records i).nextSerial ≠ uint64Max) :
    c.allocate i kind =
      ({ clock := c.id, generation := (c.records i).generation,
         serial := (c.records i).nextSerial + 1, record := i, index := j },
        c.setRecord i ((c.records i).lend j kind)) := by
  unfold DisjointClock.allocate
  dsimp only
  rw [free]
  exact if_neg room

theorem Inv.opening (inv : Inv c) (running : c.shut = false) (quiet : c.active = none)
    (sound : c.stopped = false) (idle : (c.records i).state = .idle)
    (made : (c.records i).created = true) (owns : kind ≠ .borrowed) :
    Inv (((c.tick.record (.begins i true)).opened i).allocate i kind).2 := by
  have ok := inv.records i
  obtain ⟨empty, zero⟩ := ok.idle idle
  obtain ⟨j, free⟩ := exists_freeLease empty
  have room : (c.records i).nextSerial ≠ uint64Max := by
    rw [zero]
    decide
  have now : ((c.tick.record (.begins i true)).opened i).records i = (c.records i).opened :=
    Function.update_self ..
  rw [allocate_eq (j := j) (by rw [now]; exact free) (by rw [now]; exact room), now]
  refine inv.change i [.begins i true] ⟨rfl, ?_, ⟨⟨?_, ?_, ?_⟩, trivial⟩, ?_, rfl,
    inv.uncertain, running, ?_, ?_, ?_⟩
  · intro k other
    refine ⟨?_, ?_⟩
    · simp [DisjointClock.setRecord, DisjointClock.opened, other, DisjointClock.record,
        DisjointClock.tick]
    · rw [quiet]
      exact ⟨fun same => absurd (Option.some.inj same).symm other, nofun⟩
  · rw [inv.created i]
    exact made
  · exact inv.scope.trans quiet
  · exact inv.uncertain.trans sound
  · intro k
    by_cases same : k = i
    · subst same
      simpa [DisjointClock.setRecord, queryProtocol, Record.lend, Record.setLease, Record.opened]
        using inv.created k
    · rw [if_neg same]
      rfl
  · simp only [DisjointClock.setRecord, Function.update_self]
    have opening := ok.opening idle made j owns
    exact { opening with opened := opening.opened.trans ⟨fun _ => rfl, fun _ => trivial⟩ }
  · intro k other
    exact Function.update_of_ne other ..
  · simp only [DisjointClock.setRecord, Function.update_self]
    exact (Record.sound_opened (c.records i) _).congr rfl rfl

theorem Inv.openRecord (inv : Inv c) (running : c.shut = false) (quiet : c.active = none)
    (sound : c.stopped = false) (owns : kind ≠ .borrowed) : Inv (c.openRecord answers kind).2 := by
  unfold DisjointClock.openRecord
  cases found : (List.finRange kRecords).find? _ with
  | none => exact inv
  | some i =>
    have idle : (c.records i).state = .idle := by
      have picked := List.find?_some found
      simp only [decide_eq_true_eq] at picked
      exact picked.1
    have made := inv.ensureCreated answers running idle
    dsimp only
    cases created : c.ensureCreated answers i with
    | mk ok c1 =>
    rw [created] at made
    cases ok with
    | false => exact made
    | true =>
    obtain ⟨record, active, stopped, shut, -⟩ := ensureCreated_records answers created
    have there : (c1.records i).created = true := by rw [record]
    have idle : (c1.records i).state = .idle := by rw [record]; exact idle
    have quiet : c1.active = none := active.trans quiet
    have sound : c1.stopped = false := stopped.trans sound
    have running : c1.shut = false := shut.trans running
    unfold beginQuery
    dsimp only
    cases answered : (answers c1.asked).ok with
    | true => exact made.opening running quiet sound idle there owns
    | false =>
      have held : c1.device.created i = true := (made.created i).trans there
      have scope : c1.device.scope = none := made.scope.trans quiet
      refine made.remake idle [.begins i false, .destroy i] ?_ rfl rfl rfl running
        ⟨⟨held, scope, made.uncertain.trans sound⟩, ⟨held, ?_⟩, trivial⟩ rfl
      · simp [destroy, DisjointClock.record, DisjointClock.setRecord, DisjointClock.tick]
      · change c1.device.scope ≠ some i
        rw [scope]
        exact nofun

theorem Inv.close (inv : Inv c) (running : c.shut = false) (now : Nat) (counted : r.Counted)
    (made : r.created = (c.records i).created) (state : r.state = (c.records i).state)
    (result : r.result = (c.records i).result) (active : c.active = some i) :
    Inv ((c.setRecord i r).close answers i now).2 := by
  have scope : c.device.scope = some i := inv.scope.trans active
  have opened : r.state = .opened := state.trans ((inv.records i).opened.mpr active)
  have live : r.state ≠ .idle := by
    rw [opened]
    decide
  unfold DisjointClock.close endQuery
  refine inv.change i [.ends i (answers c.asked).ok] ⟨rfl, ?_, ⟨scope, trivial⟩, ?_,
    rfl, ?_, running, ?_, ?_, ?_⟩
  · intro k other
    refine ⟨?_, ?_⟩
    · simp [DisjointClock.setRecord, other, DisjointClock.record, DisjointClock.tick]
    · rw [active]
      exact iff_of_false (Option.some_ne_none k).symm fun same => other (Option.some.inj same).symm
  · intro k
    by_cases same : k = i
    · subst same
      simpa [DisjointClock.setRecord, queryProtocol, Record.closed, DisjointClock.record,
        DisjointClock.tick, made] using inv.created k
    · rw [if_neg same]
      rfl
  · change (c.device.uncertain || !(answers c.asked).ok) = _
    rw [inv.uncertain]
    rfl
  · simp only [DisjointClock.setRecord, DisjointClock.record, DisjointClock.tick,
      Function.update_self]
    have ok := counted.closed live (answers c.asked).ok now
    have quiet : none ≠ some i := (Option.some_ne_none i).symm
    exact { ok with opened := ok.opened.trans (iff_of_false (by rintro ⟨⟩) quiet) }
  · intro k other
    exact Function.update_of_ne other ..
  · simp only [DisjointClock.setRecord, DisjointClock.record, DisjointClock.tick,
      Function.update_self, Monitor.after_cons, Monitor.after_nil, queryProtocol]
    exact ((inv.sound i).congr state result).closed opened _ now

theorem setRecord_self : c.setRecord i (c.records i) = c := by
  unfold DisjointClock.setRecord
  rw [Function.update_eq_self]

/-- A record whose query is destroyed starts again, from any generation. -/
theorem Inv.destroy (inv : Inv c) (running : c.shut = false) (made : (c.records i).created = true)
    (quiet : c.active ≠ some i) {n : Nat} (ok : Record.Ok { generation := n } (c.active = some i)) :
    Inv ((c.destroy i).setRecord i { generation := n }) := by
  have held : c.device.created i = true := (inv.created i).trans made
  refine inv.change i [.destroy i] ⟨rfl, ?_, ⟨⟨held, ?_⟩, trivial⟩, ?_, inv.scope,
    inv.uncertain, running, ?_, fun _ _ => rfl, ?_⟩
  · intro k other
    refine ⟨?_, Iff.rfl⟩
    simp [DisjointClock.setRecord, other, DisjointClock.destroy, DisjointClock.record,
      DisjointClock.tick]
  · rw [inv.scope]
    exact quiet
  · intro k
    by_cases same : k = i
    · subst same
      simp [DisjointClock.setRecord, queryProtocol]
    · simp [same, queryProtocol]
  · simp only [DisjointClock.setRecord, Function.update_self]
    exact ok
  · simp only [DisjointClock.setRecord, Function.update_self]
    exact Record.sound_idle rfl _

theorem Inv.retire (inv : Inv c) (running : c.shut = false) : Inv (c.retire i) := by
  unfold DisjointClock.retire
  dsimp only
  split
  · exact inv
  rename_i free
  push Not at free
  obtain ⟨unused, complete⟩ := free
  have ok := inv.records i
  have made : (c.records i).created = true := ok.made (by rw [complete]; decide)
  have quiet : c.active ≠ some i := fun active => by
    have opened := ok.opened.mpr active
    rw [complete] at opened
    cases opened
  have freed (keep : Bool) : Record.Ok { created := keep, generation := (c.records i).generation }
      (c.active = some i) := by
    have idle := Record.ok_freed keep (c.records i).generation
    exact { idle with opened := idle.opened.trans ⟨nofun, fun active => quiet active⟩ }
  rw [made]
  by_cases keep : (c.records i).result.status = .ready
  · simp only [keep, decide_true, Bool.and_true, Bool.not_true, Bool.and_false,
      Bool.false_eq_true, if_false]
    exact inv.setRecord running made.symm (freed true) (Record.sound_idle rfl _)
  · simp only [keep, decide_false, Bool.and_false, Bool.not_false, Bool.and_true, if_true]
    exact inv.destroy running made quiet (freed false)

/-- Nothing that decides which calls are accepted has changed. -/
structure Quiet (c c' : DisjointClock) : Prop where
  id : c'.id = c.id
  active : c'.active = c.active
  stopped : c'.stopped = c.stopped
  shut : c'.shut = c.shut

theorem Quiet.refl (c : DisjointClock) : Quiet c c :=
  ⟨rfl, rfl, rfl, rfl⟩

theorem Quiet.trans {c'' : DisjointClock} (first : Quiet c c') (second : Quiet c' c'') :
    Quiet c c'' :=
  ⟨second.id.trans first.id, second.active.trans first.active, second.stopped.trans first.stopped,
    second.shut.trans first.shut⟩

theorem quiet_setRecord (c : DisjointClock) (i : Fin kRecords) (r : Record) :
    Quiet c (c.setRecord i r) :=
  ⟨rfl, rfl, rfl, rfl⟩

theorem quiet_retire (c : DisjointClock) (i : Fin kRecords) : Quiet c (c.retire i) := by
  unfold DisjointClock.retire
  dsimp only
  split
  · exact .refl c
  · split <;> exact ⟨rfl, rfl, rfl, rfl⟩

theorem quiet_outcome (c : DisjointClock) (i : Fin kRecords) (now : Nat) :
    Quiet c (c.outcome answers i now).2 := by
  unfold DisjointClock.outcome
  dsimp only
  split
  · exact .refl c
  split
  · exact .refl c
  · exact ⟨rfl, rfl, rfl, rfl⟩

theorem outcome_records (c : DisjointClock) (i : Fin kRecords) (now : Nat) :
    (c.outcome answers i now).2.records = c.records := by
  unfold DisjointClock.outcome
  dsimp only
  split
  · rfl
  split <;> rfl

theorem quiet_update (c : DisjointClock) (i : Fin kRecords) (now : Nat) :
    Quiet c (c.update answers i now) := by
  unfold DisjointClock.update
  split
  · exact .refl c
  · have quiet := quiet_outcome answers c i now
    generalize c.outcome answers i now = answer at quiet
    obtain ⟨result, c1⟩ := answer
    exact (quiet.trans (quiet_setRecord c1 i _)).trans (quiet_retire (c1.setRecord i _) i)

theorem Inv.outcome (inv : Inv c) (pending : (c.records i).state = .pending) (now : Nat) :
    Inv (c.outcome answers i now).2 := by
  have ok := inv.records i
  have held : c.device.created i = true := by
    rw [inv.created i]
    exact ok.made (by rw [pending]; decide)
  have quiet : c.device.scope ≠ some i := by
    rw [inv.scope]
    intro active
    have opened := ok.opened.mpr active
    rw [pending] at opened
    cases opened
  unfold DisjointClock.outcome
  dsimp only
  split
  · exact inv
  split
  · exact inv
  · exact inv.told ⟨held, quiet⟩ rfl

theorem Inv.update (inv : Inv c) (running : c.shut = false) (now : Nat) :
    Inv (c.update answers i now) := by
  unfold DisjointClock.update
  split
  · exact inv
  rename_i pending
  push Not at pending
  have polled := inv.outcome answers pending now
  have records := outcome_records answers c i now
  have still : (c.outcome answers i now).2.shut = false :=
    (quiet_outcome answers c i now).shut.trans running
  generalize c.outcome answers i now = answer at polled records still
  obtain ⟨result, c1⟩ := answer
  have ok := polled.records i
  have pending : (c1.records i).state = .pending := by
    rw [records]
    exact pending
  have notOpened : ¬c1.active = some i := by
    intro active
    have opened := ok.opened.mpr active
    rw [pending] at opened
    cases opened
  have made := ok.made (by rw [pending]; decide)
  have last := ((polled.sound i).pending pending).2
  by_cases waiting : result.status = .pending
  · simp only [waiting, if_true]
    exact Inv.retire (polled.setRecord still rfl
      { made := fun _ => made, refs := ok.refs, idle := nofun, serial := ok.serial
        opened := ⟨nofun, fun active => absurd active notOpened⟩, owner := nofun }
      ⟨nofun, fun _ => ⟨waiting, last⟩, nofun⟩) still
  · simp only [waiting, if_false]
    exact Inv.retire (polled.setRecord still rfl
      { made := fun _ => made, refs := ok.refs, idle := nofun, serial := ok.serial
        opened := ⟨nofun, fun active => absurd active notOpened⟩, owner := nofun }
      ⟨nofun, nofun, fun _ _ => last⟩) still

theorem Inv.updates (inv : Inv c) (running : c.shut = false) (now : Nat)
    (l : List (Fin kRecords)) :
    Inv (l.foldl (fun c i => c.update answers i now) c) ∧
      Quiet c (l.foldl (fun c i => c.update answers i now) c) := by
  induction l generalizing c with
  | nil => exact ⟨inv, .refl c⟩
  | cons i l ih =>
    have quiet := quiet_update answers c i now
    obtain ⟨kept, later⟩ := ih (inv.update answers running now) (quiet.shut.trans running)
    exact ⟨kept, quiet.trans later⟩

theorem quiet_tick (c : DisjointClock) : Quiet c c.tick :=
  ⟨rfl, rfl, rfl, rfl⟩

theorem Inv.collect (inv : Inv c) (now : Nat) :
    Inv (c.collect answers now).2 ∧ Quiet c (c.collect answers now).2 := by
  unfold DisjointClock.collect ownerOk
  dsimp only
  split
  · exact ⟨inv.tick, quiet_tick c⟩
  · rename_i accepted
    simp only [Bool.or_eq_true, Bool.not_eq_true', not_or, Bool.not_eq_true] at accepted
    obtain ⟨kept, quiet⟩ := inv.tick.updates answers accepted.2 now (List.finRange kRecords)
    dsimp only
    exact ⟨kept, (quiet_tick c).trans quiet⟩

theorem Inv.startFrame (inv : Inv c) (now : Nat) : Inv (c.startFrame answers now).2 := by
  unfold DisjointClock.startFrame ownerOk
  dsimp only
  split
  · exact inv.tick
  · rename_i accepted
    simp only [Bool.or_eq_true, Bool.not_eq_true', not_or, Bool.not_eq_true] at accepted
    obtain ⟨⟨⟨-, sound⟩, running⟩, quiet⟩ := accepted
    obtain ⟨kept, same⟩ := inv.tick.collect answers now
    have idle : c.tick.active = none := by simpa using quiet
    exact kept.openRecord answers (same.shut.trans running) (same.active.trans idle)
      (same.stopped.trans sound) (by decide)

theorem Inv.allocate_borrowed (inv : Inv c) (running : c.shut = false) (active : c.active = some i) :
    Inv (c.allocate i .borrowed).2 := by
  have ok := inv.records i
  have live : (c.records i).state ≠ .idle := by
    rw [ok.opened.mpr active]
    decide
  cases free : (c.records i).freeLease with
  | none =>
    unfold DisjointClock.allocate
    dsimp only
    rw [free]
    exact inv
  | some j =>
    by_cases full : (c.records i).nextSerial = uint64Max
    · unfold DisjointClock.allocate
      dsimp only
      rw [free]
      dsimp only
      rw [if_pos full]
      exact inv
    · rw [allocate_eq free full]
      exact inv.setRecord running rfl (ok.lend_borrowed (freeLease_spec free) live)
        ((inv.sound i).congr rfl rfl)

theorem Inv.acquireInterval (inv : Inv c) (now : Nat) : Inv (c.acquireInterval answers now).2 := by
  unfold DisjointClock.acquireInterval ownerOk
  dsimp only
  split
  · exact inv.tick
  · rename_i accepted
    simp only [Bool.or_eq_true, Bool.not_eq_true', not_or, Bool.not_eq_true] at accepted
    obtain ⟨⟨-, sound⟩, running⟩ := accepted
    cases active : c.tick.active with
    | some i => exact inv.tick.allocate_borrowed running active
    | none =>
      obtain ⟨kept, same⟩ := inv.tick.collect answers now
      exact kept.openRecord answers (same.shut.trans running) (same.active.trans active)
        (same.stopped.trans sound) (by decide)

theorem Inv.acquireBorrowedFrame (inv : Inv c) : Inv (c.acquireBorrowedFrame answers).2 := by
  unfold DisjointClock.acquireBorrowedFrame ownerOk
  dsimp only
  split
  · exact inv.tick
  · rename_i accepted
    simp only [Bool.or_eq_true, Bool.not_eq_true', not_or, Bool.not_eq_true] at accepted
    cases active : c.tick.active with
    | none => exact inv.tick
    | some i =>
      dsimp only
      split
      · exact inv.tick.allocate_borrowed accepted.2 active
      · exact inv.tick

theorem valid_eq_some {t : Lease} (found : c.valid t = some (i, j)) :
    t.clock = c.id ∧ t.record = i ∧ t.index = j ∧ (c.records i).state ≠ .idle ∧
      (c.records i).generation = t.generation ∧ ((c.records i).leases j).occupied = true ∧
      ((c.records i).leases j).serial = t.serial := by
  unfold DisjointClock.valid at found
  split at found
  · cases found
  rename_i clock
  push Not at clock
  split at found
  · rename_i bound
    dsimp only at found
    split at found
    · rename_i live
      cases found
      exact ⟨clock, rfl, rfl, live⟩
    · cases found
  · cases found

theorem token_elim {P : DisjointClock → Prop} {β : Type} {ok : Bool} {t : Lease}
    {refused lost : β × DisjointClock} {body : Fin kRecords → Fin kLeases → β × DisjointClock}
    (isRefused : P refused.2) (isLost : P lost.2)
    (runs : ∀ i j, c.shut = false → c.valid t = some (i, j) → (c.records i).state ≠ .idle →
      ((c.records i).leases j).occupied = true → P (body i j).2) :
    P (if !ok || c.shut then refused
      else match c.valid t with
        | none => lost
        | some (i, j) => body i j).2 := by
  split
  · exact isRefused
  rename_i accepted
  simp only [Bool.or_eq_true, not_or, Bool.not_eq_true] at accepted
  cases found : c.valid t with
  | none => exact isLost
  | some place =>
    obtain ⟨-, -, -, live, -, occupied, -⟩ := valid_eq_some found
    exact runs _ _ accepted.2 found live occupied

theorem Inv.endBorrowed (inv : Inv c) (running : c.shut = false)
    (occupied : ((c.records i).leases j).occupied = true)
    (borrowed : ((c.records i).leases j).kind = .borrowed) : Inv (c.endLease i j) := by
  have ok := inv.records i
  have counted : ((c.records i).setLease j
      { (c.records i).leases j with ended := true }).Counted :=
    ok.toCounted.setLease occupied occupied rfl
  refine inv.setRecord running rfl { counted with opened := ok.opened, owner := ?_ }
    ((inv.sound i).congr rfl rfl)
  intro opened
  obtain ⟨k, owner⟩ := ok.owner opened
  have apart : j ≠ k := by
    rintro rfl
    exact owner.kind borrowed
  exact ⟨k, owner.beside apart (fun _ other => Function.update_of_ne other ..)
    (by simpa [Record.setLease] using borrowed)⟩

theorem Inv.endOwner (inv : Inv c) (running : c.shut = false)
    (occupied : ((c.records i).leases j).occupied = true) (opened : (c.records i).state = .opened)
    (now : Nat) : Inv ((c.endLease i j).close answers i now).2 := by
  have ok := inv.records i
  exact inv.close answers running now (ok.toCounted.setLease occupied occupied rfl) rfl rfl rfl
    (ok.opened.mp opened)

theorem Inv.endInterval (inv : Inv c) (t : Lease) (now : Nat) :
    Inv (c.endInterval answers t now).2 := by
  unfold DisjointClock.endInterval ownerOk
  dsimp only
  refine token_elim inv.tick inv.tick fun i j running _ _ occupied => ?_
  split
  · exact inv.tick
  rename_i lawful
  push Not at lawful
  obtain ⟨opened, notFrame, -⟩ := lawful
  split
  · exact inv.tick.endOwner answers running occupied opened now
  · rename_i notOwner
    refine inv.tick.endBorrowed running occupied ?_
    cases kind : ((c.tick.records i).leases j).kind with
    | borrowed => rfl
    | standalone => exact absurd kind notOwner
    | frame => exact absurd kind notFrame

theorem Inv.finishFrame (inv : Inv c) (t : Lease) (now : Nat) :
    Inv (c.finishFrame answers t now).2 := by
  unfold DisjointClock.finishFrame ownerOk
  dsimp only
  refine token_elim inv.tick inv.tick fun i j running _ _ occupied => ?_
  split
  · exact inv.tick
  · rename_i lawful
    push Not at lawful
    exact inv.tick.endOwner answers running occupied lawful.1 now

theorem Inv.poll (inv : Inv c) (t : Lease) (now : Nat) : Inv (c.poll answers t now).2 := by
  unfold DisjointClock.poll ownerOk
  dsimp only
  split
  · exact inv.tick
  split
  · exact inv.tick
  rename_i running
  cases c.tick.valid t with
  | none => exact inv.tick
  | some place =>
    obtain ⟨i, j⟩ := place
    dsimp only
    split
    · exact inv.tick
    split
    · exact inv.tick
    · exact inv.tick.update answers (by simpa using running) now

theorem Inv.dropLease (inv : Inv c) (running : c.shut = false)
    (occupied : ((c.records i).leases j).occupied = true)
    (borrowed : (c.records i).state = .opened → ((c.records i).leases j).kind = .borrowed) :
    Inv (c.dropLease i j) := by
  have ok := inv.records i
  have dropped := ok.toCounted.drop occupied
  refine Inv.retire (inv.setRecord running rfl { dropped with opened := ok.opened, owner := ?_ }
    ((inv.sound i).congr rfl rfl)) running
  intro opened
  obtain ⟨k, owner⟩ := ok.owner opened
  have lent := borrowed opened
  have apart : j ≠ k := by
    rintro rfl
    exact owner.kind lent
  exact ⟨k, owner.beside apart (fun _ other => Function.update_of_ne other ..)
    (by simpa [Record.setLease] using lent)⟩

theorem close_record (c : DisjointClock) (i : Fin kRecords) (now : Nat) :
    (c.close answers i now).2.records i = (c.records i).closed (answers c.asked).ok now :=
  Function.update_self ..

theorem Inv.close_self (inv : Inv c) (running : c.shut = false) (now : Nat)
    (active : c.active = some i) : Inv (c.close answers i now).2 := by
  have closed := inv.close answers running now (inv.records i).toCounted rfl rfl rfl active
  rwa [setRecord_self] at closed

theorem Inv.release (inv : Inv c) (t : Lease) (now : Nat) : Inv (c.release answers t now).2 := by
  unfold DisjointClock.release ownerOk
  dsimp only
  refine token_elim inv.tick inv.tick fun i j running _ _ occupied => ?_
  have ok := inv.tick.records i
  dsimp only
  split
  · rename_i owner
    have closed := inv.tick.close_self answers running now (ok.opened.mp owner.1)
    refine closed.dropLease running ?_ ?_
    · rw [close_record, (Record.closed_lease _ _ _ j).1]
      exact occupied
    · rw [close_record]
      intro opened
      exact absurd opened (Record.closed_ne_opened _ _ _)
  · rename_i lent
    refine inv.tick.dropLease running occupied fun opened => ?_
    by_contra owns
    exact lent ⟨opened, owns⟩

theorem Inv.wipe (inv : Inv c) (running : c.shut = false) (quiet : c.active = none) :
    Inv (c.wipe i) := by
  have freed : Record.Ok {} (c.active = some i) := by
    have idle := Record.ok_freed false 0
    rw [quiet]
    exact { idle with opened := idle.opened.trans ⟨nofun, nofun⟩ }
  unfold DisjointClock.wipe
  split
  · rename_i made
    exact inv.destroy running made (by simp [quiet]) freed
  · rename_i missing
    exact inv.setRecord running (by simpa using missing) freed (Record.sound_idle rfl _)

theorem quiet_wipe (c : DisjointClock) (i : Fin kRecords) : Quiet c (c.wipe i) := by
  unfold DisjointClock.wipe
  split <;> exact ⟨rfl, rfl, rfl, rfl⟩

theorem wipe_records (c : DisjointClock) (i : Fin kRecords) :
    (c.wipe i).records = Function.update c.records i {} := by
  unfold DisjointClock.wipe
  split <;> rfl

theorem Inv.wipes (inv : Inv c) (running : c.shut = false) (quiet : c.active = none)
    (l : List (Fin kRecords)) :
    Inv (l.foldl DisjointClock.wipe c) ∧ Quiet c (l.foldl DisjointClock.wipe c) ∧
      ∀ i, i ∈ l ∨ c.records i = {} → (l.foldl DisjointClock.wipe c).records i = {} := by
  induction l generalizing c with
  | nil => exact ⟨inv, .refl c, fun i known => known.resolve_left nofun⟩
  | cons i l ih =>
    have same := quiet_wipe c i
    obtain ⟨kept, later, wiped⟩ := ih (inv.wipe running quiet) (same.shut.trans running)
      (same.active.trans quiet)
    refine ⟨kept, same.trans later, fun k known => wiped k ?_⟩
    rw [wipe_records]
    by_cases here : k = i
    · right
      rw [here, Function.update_self]
    · rw [Function.update_of_ne here]
      exact known.imp_left fun member => (List.mem_cons.mp member).resolve_left here

theorem Inv.shutdown (inv : Inv c) (now : Nat) : Inv (c.shutdown answers now).2 := by
  unfold DisjointClock.shutdown ownerOk
  dsimp only
  split
  · exact inv.tick
  rename_i accepted
  simp only [Bool.or_eq_true, Bool.not_eq_true', not_or, Bool.not_eq_true] at accepted
  have closed : Inv (c.tick.closeActive answers now) ∧
      (c.tick.closeActive answers now).shut = false ∧
      (c.tick.closeActive answers now).active = none := by
    unfold closeActive
    cases active : c.tick.active with
    | some i => exact ⟨inv.tick.close_self answers accepted.2 now active, accepted.2, rfl⟩
    | none => exact ⟨inv.tick, accepted.2, active⟩
  obtain ⟨kept, running, quiet⟩ := closed
  obtain ⟨wiped, -, empty⟩ := kept.wipes running quiet (List.finRange kRecords)
  refine ⟨wiped.lawful, wiped.created, wiped.scope, wiped.uncertain, wiped.records, wiped.sound,
    fun _ i => ?_⟩
  rw [empty i (.inl (List.mem_finRange i))]
  exact ⟨rfl, rfl⟩

theorem Inv.perform (inv : Inv c) (call : ClockCall) : Inv (c.perform answers call) := by
  cases call with
  | startFrame now => exact inv.startFrame answers now
  | acquireInterval now => exact inv.acquireInterval answers now
  | acquireBorrowedFrame => exact inv.acquireBorrowedFrame answers
  | endInterval t now => exact inv.endInterval answers t now
  | finishFrame t now => exact inv.finishFrame answers t now
  | poll t now => exact inv.poll answers t now
  | release t now => exact inv.release answers t now
  | collect now => exact (inv.collect answers now).1
  | shutdown now => exact inv.shutdown answers now

theorem Inv.run (inv : Inv c) (calls : List ClockCall) : Inv (c.run answers calls) := by
  induction calls generalizing c with
  | nil => exact inv
  | cons call rest ih => exact ih (inv.perform answers call)

theorem Inv.balance (inv : Inv c) (i : Fin kRecords) :
    creations i c.log = destructions i c.log + (c.records i).created.toNat := by
  have counted := creations_eq i inv.lawful
  rw [← inv.created i]
  exact counted

theorem Inv.settled (inv : Inv c) (shut : c.shut = true) (i : Fin kRecords) :
    creations i c.log = destructions i c.log := by
  rw [inv.balance i, (inv.shut shut i).2]
  rfl

theorem shutdown_shut {now : Nat} (done : (c.shutdown answers now).1 = true) :
    (c.shutdown answers now).2.shut = true := by
  unfold DisjointClock.shutdown at done ⊢
  dsimp only [ownerOk] at done ⊢
  split_ifs at done ⊢
  rfl

/-- The counting of a clock is exact after every run, and what it asks of the
device is lawful: scopes do not nest, a scope ends once, nothing begins once an end
has failed, and the objects of a record are destroyed once each, all of them when the
clock has shut down, as after every shutdown that it accepts. -/
theorem clock_counts_exactly (id : Nat) (owner : GpuSpanOwner) (calls : List ClockCall) :
    let c := (fresh id owner).run answers calls
    (∀ i, (c.records i).refs = (c.records i).occupied.card) ∧
    (∀ i, c.active = some i ↔ (c.records i).state = .opened) ∧
    (∀ i, (c.records i).state = .opened → ∃ j, (c.records i).Owner j) ∧
    protocol.Admits {} c.log ∧
    (∀ i, creations i c.log = destructions i c.log + (c.records i).created.toNat) ∧
    (c.shut = true → ∀ i, creations i c.log = destructions i c.log) ∧
    ∀ now, (c.shutdown answers now).1 = true →
      ∀ i, creations i (c.shutdown answers now).2.log = destructions i (c.shutdown answers now).2.log := by
  intro c
  have inv : Inv c := (inv_fresh id owner).run answers calls
  exact ⟨fun i => (inv.records i).refs, fun i => (inv.records i).opened.symm,
    fun i => (inv.records i).owner, inv.lawful, inv.balance, inv.settled,
    fun now done => (inv.shutdown answers now).settled (shutdown_shut answers done)⟩

end

end DisjointClock

end EdvrPatch.Gpu
