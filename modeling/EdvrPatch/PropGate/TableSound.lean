import EdvrPatch.PropGate.Gate

/-! The table of the gate: one entry for an array, found by the probe, and counted. -/
namespace EdvrPatch.PropGate

open Lib

def Table.keys (t : Table) (s : Slot) : UInt64 :=
  (t s).key

structure TableSound (g : Gate) : Prop where
  tidy : Tidy g.table.keys 0 rowOf
  live : g.liveCount.toNat = used g.table.keys 0
  idle : g.active = false → ∀ s, (g.table s).key = 0

theorem Table.keys_update (t : Table) (s : Slot) (e : CollectionEntry) :
    Table.keys (Function.update t s e) = Function.update t.keys s e.key := by
  funext j
  unfold Table.keys
  by_cases here : j = s
  · rw [here, Function.update_self, Function.update_self]
  · rw [Function.update_of_ne here, Function.update_of_ne here]

theorem mem_rowOf (array : UInt64) (s : Slot) : s ∈ rowOf array := by
  have small := s.isLt
  have reached (start : Nat) :
      (start + (s.val + kCollectionCap - start % kCollectionCap) % kCollectionCap) %
        kCollectionCap = s.val := by
    unfold kCollectionCap at small ⊢
    omega
  refine List.mem_map.mpr ⟨_, List.mem_range.mpr (Nat.mod_lt _ (by decide)), Fin.ext (reached _)⟩

inductive Probed (t : Table) (array : UInt64) (row : List Slot) : Option Slot × Option Slot → Prop
  | here (s) : scan t.keys 0 array row = some s → Probed t array row (some s, none)
  | empty (s) : scan t.keys 0 array row = none → s ∈ passed t.keys 0 array row →
    (t s).key = 0 → Probed t array row (none, some s)
  | full : scan t.keys 0 array row = none → (∀ s ∈ row, (t s).key ≠ 0) →
    Probed t array row (none, none)

theorem probe_probed (t : Table) (array : UInt64) (row : List Slot) :
    Probed t array row (probe t array row) := by
  induction row with
  | nil => exact .full rfl nofun
  | cons s row ih =>
    unfold probe
    split
    · rename_i own
      refine .here s ?_
      unfold scan Table.keys
      rw [if_pos own]
    rename_i other
    have scan_next (solid : (t s).key ≠ 0) : scan t.keys 0 array (s :: row) = scan t.keys 0 array row := by
      conv_lhs => unfold scan Table.keys
      rw [if_neg other, if_neg solid]
      rfl
    split
    · rename_i hole
      refine .empty s ?_ ?_ hole
      · unfold scan Table.keys
        rw [if_neg other, if_pos hole]
      · unfold passed Table.keys
        rw [if_neg other, if_pos hole]
        exact List.mem_singleton.mpr rfl
    rename_i solid
    generalize probe t array row = found at ih
    cases ih with
    | here i found => exact .here i ((scan_next solid).trans found)
    | empty i missing inside hole =>
      have passed_next : passed t.keys 0 array (s :: row) = s :: passed t.keys 0 array row := by
        conv_lhs => unfold passed Table.keys
        rw [if_neg other, if_neg solid]
        rfl
      refine .empty i ((scan_next solid).trans missing) ?_ hole
      rw [passed_next]
      exact List.mem_cons_of_mem s inside
    | full missing solids =>
      refine .full ((scan_next solid).trans missing) fun i member => ?_
      rcases List.mem_cons.mp member with rfl | later
      · exact solid
      · exact solids i later

theorem length_of_mapM_some {α β : Type} {f : α → Option β} {l : List α} {r : List β}
    (mapped : l.mapM f = some r) : r.length = l.length := by
  induction l generalizing r with
  | nil =>
    cases mapped
    rfl
  | cons a l ih =>
    rw [List.mapM_cons] at mapped
    obtain ⟨b, -, mapped⟩ := Option.bind_eq_some_iff.mp mapped
    obtain ⟨rest, inside, same⟩ := Option.bind_eq_some_iff.mp mapped
    cases same
    rw [List.length_cons, List.length_cons, ih inside]

theorem readCollection_keyed {m : Memory} {p array : UInt64} {snap : List RecordSnap}
    (read : readCollection m p = some (array, snap)) :
    readArray m p = some array ∧ array ≠ 0 ∧ snap.length ≤ 16 := by
  obtain ⟨array', first, read⟩ := Option.bind_eq_some_iff.mp read
  obtain ⟨count, second, read⟩ := Option.bind_eq_some_iff.mp read
  dsimp only at read
  split at read
  · cases read
  split at read
  · cases read
  rename_i keyed
  split at read
  · cases read
  rename_i few
  obtain ⟨snap', truth, same⟩ := Option.bind_eq_some_iff.mp read
  cases same
  refine ⟨first, fun null => keyed (.inr null), ?_⟩
  rw [length_of_mapM_some truth, List.length_range]
  exact UInt64.le_iff_toNat_le.mp (UInt64.not_lt.mp few)

/-- What a turn of `decide` does: it stores the collection, or leaves all as it is. -/
inductive Decided (g : Gate) (array : UInt64) (snap : List RecordSnap) : Gate × Verdict → Prop
  | put (s : Slot) (live : UInt32) : scan g.table.keys 0 array (rowOf array) = none →
    s ∈ passed g.table.keys 0 array (rowOf array) →
    ((g.table s).key = 0 ∧ live = g.liveCount + 1 ∨ (g.table s).key ≠ 0 ∧ live = g.liveCount) →
    Decided g array snap ({ g with
      table := Function.update g.table s (refresh g array snap (g.table s)), liveCount := live }, .run)
  | stored (s : Slot) : (g.table s).key = array →
    Decided g array snap ({ g with
      table := Function.update g.table s (refresh g array snap (g.table s)) }, .run)
  | skipped (s : Slot) : (g.table s).key = array → (g.table s).epoch = g.epoch →
    (g.table s).count = .ofNat snap.length → (g.table s).records.take snap.length = snap →
    g.frame - (g.table s).lastRunFrame < kForcedRefreshFrames → Decided g array snap (g, .skip)

theorem decideLocked_decided (g : Gate) (array : UInt64) (snap : List RecordSnap) :
    Decided g array snap (g.decideLocked array snap) := by
  unfold Gate.decideLocked
  have probed := probe_probed g.table array (rowOf array)
  generalize probe g.table array (rowOf array) = found at probed
  cases probed with
  | empty s missing inside hole => exact .put s _ missing inside (.inl ⟨hole, rfl⟩)
  | full missing solids =>
    have inside : oldest g.table ∈ passed g.table.keys 0 array (rowOf array) := by
      rw [passed_of_full missing solids]
      exact mem_rowOf array _
    refine .put (oldest g.table) _ missing inside (.inr ⟨solids _ (mem_rowOf array _), ?_⟩)
    exact UInt32.sub_add_cancel _ _
  | here s found =>
    have own : g.table.keys s = array := key_of_scan found
    dsimp only
    split
    · exact .stored s own
    rename_i current
    split
    · exact .stored s own
    rename_i same
    push Not at current
    obtain ⟨truth, fresh⟩ := not_or.mp same
    exact .skipped s own current.1 current.2 (not_not.mp truth) (UInt32.not_le.mp fresh)

section

variable {g : Gate} (sound : TableSound g)

include sound

theorem TableSound.put {array : UInt64} {s : Slot} {live : UInt32} {e : CollectionEntry}
    (active : g.active = true) (solid : array ≠ 0) (key : e.key = array)
    (missing : scan g.table.keys 0 array (rowOf array) = none)
    (inside : s ∈ passed g.table.keys 0 array (rowOf array))
    (counted : (g.table s).key = 0 ∧ live = g.liveCount + 1 ∨
      (g.table s).key ≠ 0 ∧ live = g.liveCount) :
    TableSound { g with table := Function.update g.table s e, liveCount := live } := by
  refine ⟨?_, ?_, fun idle => absurd (active.symm.trans idle) nofun⟩
  · dsimp only
    rw [Table.keys_update, key]
    exact sound.tidy.insert solid missing inside
  · dsimp only
    rw [Table.keys_update, key]
    obtain ⟨hole, rfl⟩ | ⟨held, rfl⟩ := counted
    · have few : g.liveCount.toNat ≤ 4096 := by
        rw [sound.live]
        exact (used_le g.table.keys 0).trans (Fintype.card_fin kCollectionCap).le
      rw [used_update_hole (show g.table.keys s = 0 from hole) solid, ← sound.live,
        UInt32.toNat_add]
      exact Nat.mod_eq_of_lt (show g.liveCount.toNat + 1 < 2 ^ 32 by omega)
    · rw [used_update_solid (show g.table.keys s ≠ 0 from held) solid]
      exact sound.live

theorem TableSound.store {array : UInt64} {s : Slot} {e : CollectionEntry}
    (active : g.active = true) (own : (g.table s).key = array) (key : e.key = array) :
    TableSound { g with table := Function.update g.table s e } := by
  have keys : Table.keys (Function.update g.table s e) = g.table.keys := by
    rw [Table.keys_update, key, ← own]
    exact Function.update_eq_self s g.table.keys
  refine ⟨?_, ?_, fun idle => absurd (active.symm.trans idle) nofun⟩
  · dsimp only
    rw [keys]
    exact sound.tidy
  · dsimp only
    rw [keys]
    exact sound.live

theorem TableSound.decide (m : Memory) (p : UInt64) : TableSound (g.decide m p).1 := by
  unfold Gate.decide
  split
  · exact sound
  rename_i active
  split
  · exact sound
  rename_i array snap read
  have solid := (readCollection_keyed read).2.1
  rw [Bool.not_eq_true', Bool.not_eq_false] at active
  have decided := decideLocked_decided g array snap
  generalize g.decideLocked array snap = answer at decided
  cases decided with
  | put s live missing inside counted => exact sound.put active solid rfl missing inside counted
  | stored s own => exact sound.store active own rfl
  | skipped s => exact sound

end

theorem tableSound_cleared {g : Gate} (empty : g.table = fun _ => {}) (none_ : g.liveCount = 0) :
    TableSound g := by
  have keys : g.table.keys = fun _ => 0 := by
    funext s
    unfold Table.keys
    rw [empty]
  refine ⟨?_, ?_, fun _ s => by rw [empty]⟩
  · rw [keys]
    exact fun _ solid => absurd rfl solid
  · rw [keys, none_]
    simp [used]

theorem TableSound.same {g g' : Gate} (sound : TableSound g) (table : g'.table = g.table)
    (live : g'.liveCount = g.liveCount) (active : g'.active = g.active) : TableSound g' := by
  refine ⟨?_, ?_, ?_⟩
  · rw [table]
    exact sound.tidy
  · rw [table, live]
    exact sound.live
  · rw [table, active]
    exact sound.idle

theorem notePresentFrame_table (g : Gate) (presentFrame : UInt32) (j : Journal) :
    (g.notePresentFrame presentFrame j).table = g.table ∧
      (g.notePresentFrame presentFrame j).liveCount = g.liveCount ∧
      (g.notePresentFrame presentFrame j).active = g.active := by
  unfold Gate.notePresentFrame Gate.invalidateLocked
  grind

theorem TableSound.step {g : Gate} (sound : TableSound g) (e : Event) : TableSound (g.step e) := by
  cases e with
  | enable sched eval =>
    unfold Gate.step Gate.enable
    dsimp only
    split
    · exact sound
    split
    · exact sound.same rfl rfl rfl
    split
    · exact sound.same rfl rfl rfl
    · exact tableSound_cleared rfl rfl
  | disable =>
    unfold Gate.step Gate.disable
    dsimp only
    split
    · exact sound
    · exact tableSound_cleared rfl rfl
  | decide m p => exact sound.decide m p
  | noteReset =>
    unfold Gate.step Gate.noteReset
    dsimp only
    split
    · exact sound
    · exact sound.same rfl rfl rfl
  | notePresentFrame presentFrame j =>
    obtain ⟨table, live, active⟩ := notePresentFrame_table g presentFrame j
    exact sound.same table live active

theorem tableSound_run (events : List Event) : TableSound (runAll events) := by
  induction events using List.reverseRecOn with
  | nil => exact tableSound_cleared rfl rfl
  | append_singleton events e ih =>
    unfold runAll
    rw [List.foldl_append]
    exact ih.step e

end EdvrPatch.PropGate
