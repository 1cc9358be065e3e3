import EdvrPatch.Installer.Apply

/-! Why a run that reports a rollback has left no trace. Each step comes with
the undo entries it pushes, and replaying them takes any disk that agrees with
the one after the step to one that agrees with the one before it. -/
namespace EdvrPatch.Installer

open Lib

/-- The disk `b` has every file of `a`, byte for byte, and no others but at
paths of `extra`. -/
def Agrees (extra : Text → Prop) (a b : FileSystem) : Prop :=
  ∀ path, (∀ content, a.read path = some content → b.read path = some content) ∧
    (a.read path = none → b.read path = none ∨ extra path)

def SameFiles (a b : FileSystem) : Prop :=
  ∀ path, a.read path = b.read path

theorem Agrees.refl (extra : Text → Prop) (fs : FileSystem) : Agrees extra fs fs :=
  fun _ => ⟨fun _ h => h, .inl⟩

theorem SameFiles.agrees {extra : Text → Prop} {a b c : FileSystem} (same : SameFiles a b)
    (agrees : Agrees extra b c) : Agrees extra a c := by
  intro path
  rw [same path]
  exact agrees path

theorem read_congr {fs : FileSystem} {p q : Text} (same : FileSystem.SameFile p q) :
    fs.read p = fs.read q := by
  unfold FileSystem.read
  rw [show lower p = lower q from same]

theorem not_sameFile {fs : FileSystem} {p q content : Text} (there : fs.read p = some content)
    (absent : fs.read q = none) : ¬FileSystem.SameFile p q := by
  intro same
  rw [read_congr same, absent] at there
  cases there

section

variable {host : Host} {faults : Faults} {extra : Text → Prop}

theorem Faults.Single.later {faults : Faults} (single : faults.Single) {n m : Nat} {fault : Fault}
    (failed : faults n = some fault) (later : n < m) : faults m = none := by
  by_contra h
  have := single n m (by simp [failed]) (Option.isSome_iff_ne_none.mpr h)
  omega

theorem rollback_of_walkBack {undo : List Undo} {fs : FileSystem} {ok : Bool}
    (complete : (walkBack host undo fs [] ok).2 = true) :
    rollback (undoOne host) undo fs = some (walkBack host undo fs [] ok).1 := by
  have stuck (undo : List Undo) : ∀ fs retained,
      (walkBack host undo fs retained false).2 = false := by
    induction undo with
    | nil => exact fun _ _ => rfl
    | cons entry older ih =>
      intro fs retained
      cases entry <;> simp only [walkBack] <;> (repeat' split) <;> exact ih _ _
  induction undo generalizing fs with
  | nil => rfl
  | cons entry older ih =>
    cases entry with
    | removeDir path => exact ih complete
    | deleteFile path => exact ih complete
    | moveBack movedTo cameFrom sha =>
      simp only [walkBack] at complete ⊢
      split at complete
      · rename_i restored undone
        rw [rollback, undone]
        exact ih complete
      · rw [stuck] at complete
        cases complete
    | restoreFile snapshot target sha =>
      simp only [walkBack, List.contains_nil, Bool.false_eq_true, if_false] at complete ⊢
      split at complete
      · rename_i restored undone
        rw [rollback, undone]
        exact ih complete
      · rw [stuck] at complete
        cases complete

/-! ### The undo entries -/

variable {before after : FileSystem}

theorem undoes_nothing (same : SameFiles before after) :
    Undoes (undoOne host) (Agrees extra) [] before after :=
  .nil fun _ agrees => same.agrees agrees

theorem undoes_extra {target : Text} (kept : extra target)
    (extra_congr : ∀ p q, FileSystem.SameFile p q → extra q → extra p)
    (absent : before.read target = none)
    (others : ∀ path, ¬FileSystem.SameFile path target → after.read path = before.read path) :
    Undoes (undoOne host) (Agrees extra) [] before after := by
  refine .nil fun a agrees path => ?_
  by_cases here : FileSystem.SameFile path target
  · rw [read_congr here, absent]
    exact ⟨nofun, fun _ => .inr (extra_congr path target here kept)⟩
  · rw [← others path here]
    exact agrees path

theorem undoes_removeDirs (same : SameFiles before after) {dirs : List Undo}
    (all : ∀ entry ∈ dirs, ∃ path, entry = .removeDir path) :
    Undoes (undoOne host) (Agrees extra) dirs before after := by
  induction dirs generalizing after with
  | nil => exact undoes_nothing same
  | cons entry rest ih =>
    obtain ⟨path, rfl⟩ := all entry List.mem_cons_self
    intro a b agrees replayed
    have agrees' : Agrees extra after (a.removeDir path) := by
      intro q
      rw [FileSystem.read_removeDir]
      exact agrees q
    exact ih same (fun e member => all e (List.mem_cons_of_mem _ member)) _ b agrees' replayed

theorem undoes_deleteFile {target : Text} (absent : before.read target = none)
    (others : ∀ path, ¬FileSystem.SameFile path target → after.read path = before.read path) :
    Undoes (undoOne host) (Agrees extra) [.deleteFile target] before after := by
  intro a b agrees replayed
  obtain rfl : a.remove target = b := by simpa [rollback, undoOne] using replayed
  intro path
  rw [FileSystem.read_remove]
  by_cases here : FileSystem.SameFile path target
  · rw [if_pos here, read_congr here, absent]
    exact ⟨fun _ same => same, .inl⟩
  · rw [if_neg here, ← others path here]
    exact agrees path

variable {snapshot sha : Text}

theorem undoes_restoreFile {target content : Text} (there : before.read target = some content)
    (free : before.read snapshot = none) (saved : after.read snapshot = some content)
    (others : ∀ path, ¬FileSystem.SameFile path target → ¬FileSystem.SameFile path snapshot → after.read path = before.read path) :
    Undoes (undoOne host) (Agrees extra) [.restoreFile snapshot target sha] before after := by
  intro a b agrees replayed
  have copied : a.read snapshot = some content := (agrees snapshot).1 content saved
  simp only [rollback, undoOne, copied] at replayed
  split at replayed
  · cases replayed
  · obtain rfl : (a.write target content).remove snapshot = b := by simpa using replayed
    intro path
    rw [FileSystem.read_remove, FileSystem.read_write]
    by_cases gone : FileSystem.SameFile path snapshot
    · rw [if_pos gone, read_congr gone, free]
      exact ⟨fun _ same => same, .inl⟩
    · rw [if_neg gone]
      by_cases here : FileSystem.SameFile path target
      · rw [if_pos here, read_congr here, there]
        exact ⟨fun _ same => same, .inl⟩
      · rw [if_neg here, ← others path here gone]
        exact agrees path

/-- A move is taken back onto the path it came from; what it replaced is then
absent until its own snapshot is replayed. -/
theorem undoes_moveBack {source target content : Text} (there : before.read source = some content)
    (absent : before.read target = none ∨ FileSystem.SameFile source target)
    (moved : after.read target = some content)
    (others : ∀ path, ¬FileSystem.SameFile path target → ¬FileSystem.SameFile path source → after.read path = before.read path) :
    Undoes (undoOne host) (Agrees extra) [.moveBack target source sha] before after := by
  intro a b agrees replayed
  have found : a.read target = some content := (agrees target).1 content moved
  simp only [rollback, undoOne, found] at replayed
  split at replayed
  · cases replayed
  · obtain rfl : (a.remove target).write source content = b := by simpa using replayed
    intro path
    rw [FileSystem.read_write, FileSystem.read_remove]
    by_cases back : FileSystem.SameFile path source
    · rw [if_pos back, read_congr back, there]
      exact ⟨fun _ same => same, .inl⟩
    · rw [if_neg back]
      by_cases here : FileSystem.SameFile path target
      · rw [if_pos here]
        rcases absent with absent | same
        · rw [read_congr here, absent]
          exact ⟨fun _ same => same, .inl⟩
        · exact absurd (show FileSystem.SameFile path source from here.trans same.symm) back
      · rw [if_neg here, ← others path here back]
        exact agrees path

/-! ### The calls -/

theorem sameFiles_deleteFile {d : Disk} {path : Text} (works : faults d.clock = none)
    (free : before.read path = none)
    (others : ∀ q, ¬FileSystem.SameFile q path → d.fs.read q = before.read q) :
    SameFiles before (d.deleteFile faults path).2.fs := by
  intro q
  simp only [Disk.deleteFile, works]
  cases there : d.fs.read path with
  | none =>
    by_cases here : FileSystem.SameFile q path
    · exact (read_congr here).trans (free.trans (there.symm.trans (read_congr here).symm))
    · exact (others q here).symm
  | some content =>
    rw [FileSystem.read_remove]
    by_cases here : FileSystem.SameFile q path
    · rw [if_pos here, read_congr here, free]
    · rw [if_neg here, others q here]

theorem sha256File_faulted {d : Disk} {fault : Fault} (failed : faults d.clock = some fault)
    (path : Text) : d.sha256File host faults path = ([], d.tick) := by
  simp [Disk.sha256File, failed]

theorem sha256File_unfaulted {d : Disk} {path content : Text} (works : faults d.clock = none)
    (there : d.fs.read path = some content) :
    d.sha256File host faults path = (host.sha256 content, d.tick) := by
  simp [Disk.sha256File, works, there]

/-- Making directories touches no file, and the log gains only directories. -/
structure OnlyDirs (d : Disk) (undo : List Undo) (made : Option Nat × Disk × List Undo) :
    Prop where
  logged : ∃ dirs, made.2.2 = dirs ++ undo ∧ ∀ entry ∈ dirs, ∃ path, entry = .removeDir path
  same : SameFiles d.fs made.2.1.fs

theorem OnlyDirs.none (d : Disk) (undo : List Undo) : OnlyDirs d undo (none, d, undo) :=
  ⟨⟨[], rfl, nofun⟩, fun _ => rfl⟩

theorem OnlyDirs.makeLastDir {d : Disk} {undo : List Undo} {above : Option Nat × Disk × List Undo}
    (only : OnlyDirs d undo above) (path : Text) :
    OnlyDirs d undo (makeLastDir faults path above) := by
  obtain ⟨code, d', undo'⟩ := above
  obtain ⟨⟨dirs, logged, all⟩, same⟩ := only
  cases code with
  | some code => exact ⟨⟨dirs, logged, all⟩, same⟩
  | none =>
    simp only [Installer.makeLastDir, Disk.createDirectory]
    cases faults d'.clock with
    | some fault => exact ⟨⟨dirs, logged, all⟩, same⟩
    | none =>
      dsimp only
      split
      · rename_i made
        split at made
        · obtain ⟨-, rfl⟩ := Prod.mk.inj made
          exact ⟨⟨dirs, logged, all⟩, same⟩
        · cases made
      · rename_i made
        split at made
        · cases made
        · obtain ⟨-, rfl⟩ := Prod.mk.inj made
          refine ⟨⟨.removeDir path :: dirs, ?_, ?_⟩, same⟩
          · exact congrArg (Undo.removeDir path :: ·) logged
          · intro entry member
            rcases List.mem_cons.mp member with rfl | member
            · exact ⟨path, rfl⟩
            · exact all entry member

theorem ensureDirTree_onlyDirs (fuel : Nat) (path : Text) (d : Disk) (undo : List Undo) :
    OnlyDirs d undo (ensureDirTree faults fuel path d undo) := by
  induction fuel generalizing path with
  | zero => exact .none d undo
  | succ fuel ih =>
    unfold ensureDirTree
    split
    · exact .none d undo
    split
    · exact (OnlyDirs.none d undo).makeLastDir path
    split
    · exact (ih _).makeLastDir path
    · exact (OnlyDirs.none d undo).makeLastDir path

theorem writeWholeFile_spec (single : faults.Single) {d : Disk} {path : Text} (data : Text)
    (free : faults d.clock = none → d.fs.read (path ++ tempSuffix) = none) :
    ((writeWholeFile faults d path data).1.isSome →
      SameFiles d.fs (writeWholeFile faults d path data).2.fs) ∧
    ((writeWholeFile faults d path data).1 = none →
      ∀ q, (writeWholeFile faults d path data).2.fs.read q =
        if FileSystem.SameFile q path then some data else d.fs.read q) := by
  unfold writeWholeFile
  dsimp only [Disk.createFile]
  cases created : faults d.clock with
  | some fault => exact ⟨fun _ _ => rfl, nofun⟩
  | none =>
    have free := free created
    dsimp only [Disk.writeFile, Disk.tick]
    cases written : faults (d.clock + 1) with
    | some fault =>
      refine ⟨fun _ => ?_, nofun⟩
      apply sameFiles_deleteFile (single.later written (Nat.lt_succ_self _)) free
      intro q here
      rw [FileSystem.read_leave, if_neg here, FileSystem.read_write, if_neg here]
    | none =>
      dsimp only [Disk.moveFile, Disk.tick]
      cases moved : faults (d.clock + 1 + 1) with
      | some fault =>
        refine ⟨fun _ => ?_, nofun⟩
        apply sameFiles_deleteFile (single.later moved (Nat.lt_succ_self _)) free
        intro q here
        rw [FileSystem.read_write, if_neg here, FileSystem.read_write, if_neg here]
      | none =>
        have there : ((d.fs.write (path ++ tempSuffix) []).write (path ++ tempSuffix) data).read
            (path ++ tempSuffix) = some data :=
          FileSystem.read_write_self ..
        simp only [there]
        refine ⟨nofun, fun _ q => ?_⟩
        rw [FileSystem.read_write, FileSystem.read_remove, FileSystem.read_write,
          FileSystem.read_write]
        by_cases here : FileSystem.SameFile q path
        · rw [if_pos here, if_pos here]
        · rw [if_neg here, if_neg here]
          by_cases temp : FileSystem.SameFile q (path ++ tempSuffix)
          · rw [if_pos temp, read_congr temp, free]
          · rw [if_neg temp, if_neg temp, if_neg temp]

theorem snapshotFile_spec (single : faults.Single) {d : Disk} {source backupDir content : Text}
    (there : d.fs.read source = some content) :
    (∀ code d', snapshotFile host faults d source backupDir = (.error code, d') →
      SameFiles d.fs d'.fs) ∧
    (∀ snapshot d', snapshotFile host faults d source backupDir = (.ok snapshot, d') →
      d.fs.read snapshot = none ∧
        ∀ q, d'.fs.read q =
          if FileSystem.SameFile q snapshot then some content else d.fs.read q) := by
  unfold snapshotFile
  dsimp only
  generalize (if backupDir = [] then (parentOf source).getD ['.'] else backupDir) = dir
  have dirs := @ensureDirTree_onlyDirs faults dir.length dir d []
  generalize ensureDirTree faults dir.length dir d [] = tree at dirs
  obtain ⟨made, d₁, undo₁⟩ := tree
  have same : SameFiles d.fs d₁.fs := dirs.same
  cases made with
  | some code =>
    refine ⟨?_, nofun⟩
    rintro _ _ ⟨⟩
    exact same
  | none =>
    dsimp only [Disk.tempFile]
    cases named : faults d₁.clock with
    | some fault =>
      refine ⟨?_, nofun⟩
      rintro _ _ ⟨⟩
      exact same
    | none =>
      dsimp only
      have free : d₁.fs.read (host.tempName d₁.fs dir) = none := host.tempName_free ..
      generalize host.tempName d₁.fs dir = snapshot at free
      have apart : ¬FileSystem.SameFile source snapshot :=
        not_sameFile ((same source).symm.trans there) free
      dsimp only [Disk.copyFile, Disk.tick]
      cases copied : faults (d₁.clock + 1) with
      | some fault =>
        refine ⟨?_, nofun⟩
        rintro _ _ ⟨⟩
        apply sameFiles_deleteFile (single.later copied (Nat.lt_succ_self _))
        · rw [same, free]
        · intro q here
          rw [FileSystem.read_leave, if_neg here, FileSystem.read_write, if_neg here, same]
      | none =>
        have read : (d₁.fs.write snapshot []).read source = some content := by
          rw [FileSystem.read_write, if_neg apart, ← same, there]
        simp only [read, if_neg apart]
        have reads (q : Text) : ((d₁.fs.write snapshot []).write snapshot content).read q =
            if FileSystem.SameFile q snapshot then some content else d.fs.read q := by
          rw [FileSystem.read_write, FileSystem.read_write, same]
          split <;> rfl
        have hashed : ((d₁.fs.write snapshot []).write snapshot content).read source =
            some content := by
          rw [reads, if_neg apart, there]
        have saved : ((d₁.fs.write snapshot []).write snapshot content).read snapshot =
            some content := FileSystem.read_write_self ..
        generalize (d₁.fs.write snapshot []).write snapshot content = fs₂ at reads hashed saved
        have undone (clock : Nat) (works : faults clock = none) :
            SameFiles d.fs (({ fs := fs₂, clock := clock } : Disk).deleteFile faults snapshot).2.fs := by
          apply sameFiles_deleteFile works
          · rw [same, free]
          · intro q here
            rw [reads, if_neg here]
        cases expected : faults (d₁.clock + 1 + 1) with
        | some fault =>
          rw [sha256File_faulted expected]
          refine ⟨?_, nofun⟩
          rintro _ _ ⟨⟩
          exact undone _ (single.later expected (Nat.lt_succ_self _))
        | none =>
          rw [sha256File_unfaulted expected hashed]
          dsimp only [Disk.tick]
          rw [if_neg (host.sha256_ne_nil content)]
          cases found : faults (d₁.clock + 1 + 1 + 1) with
          | some fault =>
            have unread := @sha256File_faulted host faults
              { fs := fs₂, clock := d₁.clock + 1 + 1 + 1 } fault found snapshot
            simp only [unread, if_pos (host.sha256_ne_nil content).symm]
            refine ⟨?_, nofun⟩
            rintro _ _ ⟨⟩
            exact undone _ (single.later found (Nat.lt_succ_self _))
          | none =>
            have verified := @sha256File_unfaulted host faults
              { fs := fs₂, clock := d₁.clock + 1 + 1 + 1 } snapshot content found saved
            simp only [verified, ne_eq, not_true_eq_false, if_false]
            refine ⟨nofun, ?_⟩
            rintro _ _ ⟨⟩
            exact ⟨(same _).trans free, reads⟩

theorem sha256File_fs (d : Disk) (path : Text) :
    (d.sha256File host faults path).2.fs = d.fs := by
  unfold Disk.sha256File
  split <;> rfl

/-! ### The steps -/

/-- What `protectTarget` can have done: nothing for a file that is not there, a
clean failure, or a snapshot with its entry on the log. -/
inductive Protected (p : Progress) (target : Text) : Option Nat × Progress → Prop where
  | absent : p.disk.fs.read target = none → Protected p target (none, p)
  | failed (code : Nat) (d : Disk) : SameFiles p.disk.fs d.fs →
      Protected p target (some code, { p with disk := d })
  | saved (content snapshot sha : Text) (d : Disk) : p.disk.fs.read target = some content →
      p.disk.fs.read snapshot = none →
      (∀ q, d.fs.read q =
        if FileSystem.SameFile q snapshot then some content else p.disk.fs.read q) →
      Protected p target (none, { p with disk := d, undo := .restoreFile snapshot target sha :: p.undo })

theorem protectTarget_spec (single : faults.Single) (backupDir : Text) (p : Progress)
    (target : Text) : Protected p target (protectTarget host faults backupDir p target) := by
  unfold protectTarget
  split
  · rename_i absent
    exact .absent (FileSystem.read_eq_none (by simpa using absent))
  · rename_i there
    obtain ⟨content, there⟩ := FileSystem.fileExists_iff.mp (not_not.mp there)
    obtain ⟨failed, saved⟩ := @snapshotFile_spec host faults single p.disk target backupDir content
      there
    split
    · rename_i code d result
      exact .failed code d (failed code d result)
    · rename_i snapshot d result
      obtain ⟨free, reads⟩ := saved snapshot d result
      refine .saved content snapshot _ _ there free fun q => ?_
      exact (congrArg (FileSystem.read · q) (sha256File_fs d snapshot)).trans (reads q)

/-- The undo entries a step has pushed take the disk back over the step. -/
def StepUndoes (host : Host) (extra : Text → Prop) (before after : Progress) : Prop :=
  ∃ entries, after.undo = entries ++ before.undo ∧
    Undoes (undoOne host) (Agrees extra) entries before.disk.fs after.disk.fs

theorem StepUndoes.refl (p : Progress) : StepUndoes host extra p p :=
  ⟨[], rfl, undoes_nothing fun _ => rfl⟩

theorem StepUndoes.sameFiles {before after : Progress} (undo : after.undo = before.undo)
    (same : SameFiles before.disk.fs after.disk.fs) : StepUndoes host extra before after :=
  ⟨[], undo, undoes_nothing same⟩

theorem StepUndoes.trans {before middle after : Progress}
    (first : StepUndoes host extra before middle) (second : StepUndoes host extra middle after) :
    StepUndoes host extra before after := by
  obtain ⟨older, logged, undoes⟩ := first
  obtain ⟨newer, logged', undoes'⟩ := second
  exact ⟨newer ++ older, by rw [logged', logged, List.append_assoc], undoes'.append undoes⟩

theorem StepUndoes.onlyDirs {p q : Progress} {made : Option Nat × Disk × List Undo}
    (only : OnlyDirs p.disk p.undo made) (disk : q.disk = made.2.1) (undo : q.undo = made.2.2) :
    StepUndoes host extra p q := by
  obtain ⟨⟨dirs, logged, all⟩, same⟩ := only
  refine ⟨dirs, undo.trans logged, ?_⟩
  rw [disk]
  exact undoes_removeDirs same all

/-- A protected file may be treated in any way: only its own path and the
snapshot's have to be left out of account. -/
theorem StepUndoes.saved {p q : Progress} {target content : Text} {d : Disk}
    (there : p.disk.fs.read target = some content) (free : p.disk.fs.read snapshot = none)
    (reads : ∀ path, d.fs.read path = if FileSystem.SameFile path snapshot then some content else p.disk.fs.read path)
    (undo : q.undo = .restoreFile snapshot target sha :: p.undo)
    (others : ∀ path, ¬FileSystem.SameFile path target → q.disk.fs.read path = d.fs.read path) :
    StepUndoes host extra p q := by
  have apart := not_sameFile there free
  refine ⟨[.restoreFile snapshot target sha], undo, ?_⟩
  apply undoes_restoreFile there free
  · rw [others snapshot fun same => apart same.symm, reads, if_pos (FileSystem.SameFile.refl _)]
  · intro path here gone
    rw [others path here, reads, if_neg gone]

theorem makeDirStep_undoes (p : Progress) (step : Step) :
    StepUndoes host extra p (makeDirStep faults p step) := by
  have only := @ensureDirTree_onlyDirs faults step.target.length step.target p.disk p.undo
  unfold makeDirStep
  split
  · rename_i result
    rw [result] at only
    exact .onlyDirs only rfl rfl
  · rename_i result
    rw [result] at only
    exact .onlyDirs only rfl rfl

/-- Nothing stands at the temporary name when a write creates its file there:
the target is protected, and the call that creates the file works. -/
def TempFree (host : Host) (faults : Faults) (backupDir : Text) (p : Progress) (target : Text) :
    Prop :=
  ∀ q, protectTarget host faults backupDir p target = (none, q) → faults q.disk.clock = none →
    q.disk.fs.read (target ++ tempSuffix) = none

theorem writeStep_undoes (single : faults.Single) (backupDir : Text) (p : Progress)
    (target data : Text) (free : TempFree host faults backupDir p target) :
    StepUndoes host extra p (writeStep host faults backupDir p target data) := by
  have protection := @protectTarget_spec host faults single backupDir p target
  unfold TempFree at free
  unfold writeStep
  generalize protectTarget host faults backupDir p target = result at protection free
  cases protection with
  | failed code d same => exact .sameFiles rfl same
  | absent absent =>
    obtain ⟨failed, written⟩ := writeWholeFile_spec single data (free _ rfl)
    dsimp only
    split
    · rename_i code d result
      rw [result] at failed
      exact .sameFiles rfl (failed rfl)
    · rename_i d result
      rw [result] at written
      have missing : p.disk.fs.fileExists target = false := by
        simp [FileSystem.fileExists, absent]
      rw [missing]
      refine ⟨[.deleteFile target], rfl, undoes_deleteFile absent ?_⟩
      intro path here
      exact (written rfl path).trans (if_neg here)
  | saved content snapshot sha d there unused reads =>
    obtain ⟨failed, written⟩ := writeWholeFile_spec single data (free _ rfl)
    dsimp only
    split
    · rename_i code d' result
      rw [result] at failed
      exact .saved there unused reads rfl fun path _ => (failed rfl path).symm
    · rename_i d' result
      rw [result] at written
      have present : p.disk.fs.fileExists target = true := by
        simp [FileSystem.fileExists, there]
      rw [present]
      refine .saved there unused reads rfl ?_
      intro path here
      exact (written rfl path).trans (if_neg here)

theorem copyFile_others (d : Disk) (source target : Text) {path : Text}
    (here : ¬FileSystem.SameFile path target) :
    (d.copyFile faults source target).2.fs.read path = d.fs.read path := by
  unfold Disk.copyFile
  split
  · exact (FileSystem.read_leave ..).trans (if_neg here)
  · split
    · rfl
    · split
      · rfl
      · exact (FileSystem.read_write ..).trans (if_neg here)

theorem makeParentDirs_undoes (p : Progress) (target : Text) :
    StepUndoes host extra p (makeParentDirs faults p target) := by
  unfold makeParentDirs
  split
  · exact .refl p
  · exact .onlyDirs (ensureDirTree_onlyDirs ..) rfl rfl

theorem copyProtected_undoes (single : faults.Single) (backupDir : Text) (p : Progress)
    (source target : Text) (kept : extra target)
    (extra_congr : ∀ p q, FileSystem.SameFile p q → extra q → extra p) :
    StepUndoes host extra p (copyProtected host faults backupDir p source target) := by
  have protection := @protectTarget_spec host faults single backupDir p target
  unfold copyProtected
  generalize protectTarget host faults backupDir p target = result at protection
  cases protection with
  | failed code d same => exact .sameFiles rfl same
  | absent absent =>
    have others (path : Text) := @copyFile_others faults p.disk source target path
    dsimp only
    generalize p.disk.copyFile faults source target = copy at others
    obtain ⟨code, d⟩ := copy
    cases code <;> exact ⟨[], rfl, undoes_extra kept extra_congr absent others⟩
  | saved content snapshot sha d there unused reads =>
    have others (path : Text) := @copyFile_others faults d source target path
    dsimp only
    generalize d.copyFile faults source target = copy at others
    obtain ⟨code, d'⟩ := copy
    cases code <;> exact .saved there unused reads rfl others

theorem backupStep_undoes (single : faults.Single) (backupDir : Text) (p : Progress)
    (step : Step) (kept : extra step.target)
    (extra_congr : ∀ p q, FileSystem.SameFile p q → extra q → extra p) :
    StepUndoes host extra p (backupStep host faults backupDir p step) := by
  have dirs := @makeParentDirs_undoes host faults extra p step.target
  unfold backupStep
  dsimp only
  generalize makeParentDirs faults p step.target = made at dirs
  refine dirs.trans ?_
  split
  · split
    · exact .sameFiles rfl fun _ => rfl
    · exact .refl made
  · exact copyProtected_undoes single backupDir made _ _ kept extra_congr

theorem deleteFile_others (d : Disk) (target : Text) {path : Text}
    (here : ¬FileSystem.SameFile path target) :
    (d.deleteFile faults target).2.fs.read path = d.fs.read path := by
  unfold Disk.deleteFile
  split
  · rfl
  · split
    · rfl
    · exact (FileSystem.read_remove ..).trans (if_neg here)

theorem deleteStep_undoes (single : faults.Single) (backupDir : Text) (p : Progress)
    (step : Step) : StepUndoes host extra p (deleteStep host faults backupDir p step) := by
  unfold deleteStep
  split
  · exact .refl p
  · rename_i there
    obtain ⟨content, there⟩ := FileSystem.fileExists_iff.mp (not_not.mp there)
    have protection := @protectTarget_spec host faults single backupDir p step.source
    generalize protectTarget host faults backupDir p step.source = result at protection
    cases protection with
    | failed code d same => exact .sameFiles rfl same
    | absent absent =>
      rw [there] at absent
      cases absent
    | saved content snapshot sha d there unused reads =>
      have others (path : Text) := @deleteFile_others faults d step.source path
      dsimp only
      generalize d.deleteFile faults step.source = deletion at others
      obtain ⟨code, d'⟩ := deletion
      cases code <;> exact .saved there unused reads rfl others

theorem moveFile_spec {d : Disk} {source target content : Text}
    (there : d.fs.read source = some content) :
    (∃ code, d.moveFile faults source target = (some code, d.tick)) ∨
      d.moveFile faults source target =
        (none, { d.tick with fs := (d.fs.remove source).write target content }) := by
  unfold Disk.moveFile
  split
  · exact .inl ⟨_, rfl⟩
  · rw [there]
    exact .inr rfl

/-- The move over a protected file is taken back in two entries: the move
leaves its target free, and the snapshot fills it again. -/
theorem undoes_rename {saved : FileSystem} {source target content old sha' : Text}
    (there : before.read source = some content) (replaced : before.read target = some old)
    (free : before.read snapshot = none)
    (reads : ∀ path, saved.read path = if FileSystem.SameFile path snapshot then some old else before.read path)
    (moved : after.read target = some content)
    (others : ∀ path, ¬FileSystem.SameFile path target → ¬FileSystem.SameFile path source → after.read path = saved.read path) :
    Undoes (undoOne host) (Agrees extra)
      ([Undo.moveBack target source sha] ++ [Undo.restoreFile snapshot target sha']) before after := by
  have sourceApart := not_sameFile there free
  have targetApart := not_sameFile replaced free
  have kept : saved.read source = some content := by
    rw [reads, if_neg sourceApart, there]
  have snapped : saved.read snapshot = some old := by
    rw [reads, if_pos (FileSystem.SameFile.refl _)]
  by_cases same : FileSystem.SameFile source target
  · refine Undoes.append (undoes_moveBack kept (.inr same) moved others) ?_
    refine undoes_restoreFile replaced free snapped fun path _ gone => ?_
    rw [reads, if_neg gone]
  · have removed (path : Text) : (saved.remove target).read path =
        if FileSystem.SameFile path target then none else saved.read path :=
      FileSystem.read_remove ..
    refine @Undoes.append _ _ _ _ _ _ _ (saved.remove target) _ ?_ ?_
    · apply undoes_moveBack _ _ moved
      · intro path here back
        rw [removed, if_neg here]
        exact others path here back
      · rw [removed, if_neg same, kept]
      · rw [removed, if_pos (FileSystem.SameFile.refl _)]
        exact .inl rfl
    · apply undoes_restoreFile replaced free
      · rw [removed, if_neg fun same => targetApart same.symm, snapped]
      · intro path here gone
        rw [removed, if_neg here, reads, if_neg gone]

theorem renameStep_undoes (single : faults.Single) (backupDir : Text) (p : Progress)
    (step : Step) : StepUndoes host extra p (renameStep host faults backupDir p step) := by
  unfold renameStep
  split
  · split
    · exact .sameFiles rfl fun _ => rfl
    · exact .refl p
  rename_i there
  obtain ⟨content, there⟩ := FileSystem.fileExists_iff.mp (not_not.mp there)
  have protection := @protectTarget_spec host faults single backupDir p step.target
  generalize protectTarget host faults backupDir p step.target = result at protection
  have moved (fs : FileSystem) (path : Text) :
      ((fs.remove step.source).write step.target content).read path =
        if FileSystem.SameFile path step.target then some content
        else if FileSystem.SameFile path step.source then none else fs.read path := by
    rw [FileSystem.read_write, FileSystem.read_remove]
  cases protection with
  | failed code d same => exact .sameFiles rfl same
  | absent absent =>
    have unchanged := @sha256File_fs host faults p.disk step.source
    dsimp only
    generalize p.disk.sha256File host faults step.source = hashed at unchanged
    obtain ⟨sha, d⟩ := hashed
    split
    · exact .sameFiles rfl fun path => by rw [← unchanged]; rfl
    · have there' : d.fs.read step.source = some content := by rw [unchanged, there]
      obtain ⟨code, result⟩ | result := @moveFile_spec faults d step.source step.target content there'
      · rw [result]
        exact .sameFiles rfl fun path => by rw [← unchanged]; rfl
      · rw [result]
        refine ⟨[.moveBack step.target step.source sha], rfl, ?_⟩
        apply undoes_moveBack there (.inl absent)
        · exact FileSystem.read_write_self ..
        · intro path here back
          exact (moved d.fs path).trans (by rw [if_neg here, if_neg back, unchanged])
  | saved old snapshot sha d replaced unused reads =>
    have unchanged := @sha256File_fs host faults d step.source
    dsimp only
    generalize d.sha256File host faults step.source = hashed at unchanged
    obtain ⟨before, d'⟩ := hashed
    split
    · refine .saved replaced unused reads rfl fun path _ => ?_
      rw [← unchanged]
      rfl
    · have there' : d'.fs.read step.source = some content := by
        rw [unchanged, reads, if_neg (not_sameFile there unused), there]
      obtain ⟨code, result⟩ | result := @moveFile_spec faults d' step.source step.target content there'
      · rw [result]
        refine .saved replaced unused reads rfl fun path _ => ?_
        rw [← unchanged]
        rfl
      · rw [result]
        refine ⟨[Undo.moveBack step.target step.source before] ++
          [Undo.restoreFile snapshot step.target sha], rfl, ?_⟩
        apply undoes_rename there replaced unused reads
        · exact FileSystem.read_write_self ..
        · intro path here back
          exact (moved d'.fs path).trans (by rw [if_neg here, if_neg back, unchanged])

/-! ### Whole runs -/

def Step.writes (payload : PayloadProvider) (step : Step) : Option Text :=
  match step.action with
  | .writePayload => (payload step.item).filter (· ≠ [])
  | .writeText => some step.text
  | _ => none

/-- Every write that the run comes to finds its temporary name free. -/
def TempsFree (host : Host) (faults : Faults) (payload : PayloadProvider) (backupDir : Text) :
    Progress → List Step → Prop
  | _, [] => True
  | p, step :: rest =>
    ((step.writes payload).isSome → TempFree host faults backupDir p step.target) ∧
      ((applyStep host faults payload backupDir p step).failure = none →
        TempsFree host faults payload backupDir (applyStep host faults payload backupDir p step)
          rest)

def BackupDestination (steps : List Step) (path : Text) : Prop :=
  ∃ step ∈ steps, step.action = .backup ∧ FileSystem.SameFile path step.target

theorem applyStep_undoes (single : faults.Single) {payload : PayloadProvider} (backupDir : Text)
    (p : Progress) (step : Step) (kept : step.action = .backup → extra step.target)
    (extra_congr : ∀ p q, FileSystem.SameFile p q → extra q → extra p)
    (free : (step.writes payload).isSome → TempFree host faults backupDir p step.target) :
    StepUndoes host extra p (applyStep host faults payload backupDir p step) := by
  unfold applyStep
  unfold Step.writes at free
  split <;> rename_i action
  · exact makeDirStep_undoes p step
  · exact backupStep_undoes single backupDir p step (kept action) extra_congr
  · exact renameStep_undoes single backupDir p step
  · rw [action] at free
    split
    · exact .sameFiles rfl fun _ => rfl
    · rename_i data found
      split
      · exact .sameFiles rfl fun _ => rfl
      · rename_i nonempty
        apply writeStep_undoes single
        apply free
        simp [found, nonempty]
  · rw [action] at free
    exact writeStep_undoes single backupDir p step.target step.text (free rfl)
  · exact deleteStep_undoes single backupDir p step

theorem applySteps_undoes (single : faults.Single) {payload : PayloadProvider} (backupDir : Text)
    (steps : List Step) (p : Progress)
    (kept : ∀ step ∈ steps, step.action = .backup → extra step.target)
    (extra_congr : ∀ p q, FileSystem.SameFile p q → extra q → extra p)
    (free : TempsFree host faults payload backupDir p steps) :
    StepUndoes host extra p (applySteps host faults payload backupDir p steps) := by
  induction steps generalizing p with
  | nil => exact .refl p
  | cons step rest ih =>
    obtain ⟨here, later⟩ := free
    have first := applyStep_undoes single backupDir p step (kept step List.mem_cons_self)
      extra_congr here
    unfold applySteps
    dsimp only
    split
    · exact first
    · rename_i going
      have going : (applyStep host faults payload backupDir p step).failure = none := by
        simpa using going
      refine first.trans (ih _ (fun s member => kept s (List.mem_cons_of_mem _ member)) ?_)
      exact later going

theorem staleError_fs (steps : List Step) (d : Disk) :
    (staleError host faults d steps).2.fs = d.fs := by
  have one (step : Step) (d : Disk) : (staleStep host faults d step).2.fs = d.fs := by
    unfold staleStep
    split
    · rfl
    · split
      · split <;> rfl
      · split
        · rfl
        · dsimp only
          split <;> exact sha256File_fs ..
  induction steps generalizing d with
  | nil => rfl
  | cons step rest ih =>
    have first := one step d
    unfold staleError
    generalize staleStep host faults d step = result at first
    obtain ⟨error, d'⟩ := result
    cases error with
    | some error => exact first
    | none => exact (ih d').trans first

end

namespace Example

def gameFiles : FileSystem :=
  { files := [("g\\a.ini".toList, "old".toList), ("g\\b.ini.edvrnew".toList, "mine".toList)] }

def twoWrites (first second : Text) : Work :=
  { steps := [{ action := .backup, source := "g\\a.ini".toList, target := "g\\bak\\a.ini".toList },
      { action := .writeText, target := first, text := "new".toList },
      { action := .writeText, target := second, text := "new".toList }]
    backupDir := "g\\bak".toList }

def failsAt (n : Nat) : Faults := fun clock => if clock = n then some ⟨5, none⟩ else none

theorem failsAt_single (n : Nat) : (failsAt n).Single := by
  intro i j hi hj
  unfold failsAt at hi hj
  split at hi
  · split at hj
    · omega
    · cases hj
  · cases hi

end Example

/-- A plan that is refused as stale, or that fails and reports a rollback, has
left every file as it was and no new one but the backups it had taken, provided
that no write of a run that began found its temporary name taken. -/
theorem applyPlan_all_or_nothing (host : Host) (faults : Faults) (payload : PayloadProvider)
    (work : Work) (fs : FileSystem) (single : faults.Single)
    (free : work.blocked = false → (staleError host faults { fs := fs } work.steps).1 = none →
      TempsFree host faults payload work.backupDir
        { disk := (staleError host faults { fs := fs } work.steps).2 } work.steps)
    (stopped : (staleError host faults { fs := fs } work.steps).1.isSome = true ∨
      (applyPlan host faults payload work fs).1.rolledBack = true) :
    Agrees (BackupDestination work.steps) fs (applyPlan host faults payload work fs).2 := by
  have unchanged := @staleError_fs host faults work.steps { fs := fs }
  unfold applyPlan at stopped ⊢
  split
  · exact .refl _ _
  generalize staleError host faults { fs := fs } work.steps = refusal at *
  obtain ⟨error, d⟩ := refusal
  obtain rfl : d.fs = fs := unchanged
  cases error with
  | some error => exact .refl _ _
  | none =>
    rename_i unblocked
    have undoes := @applySteps_undoes host faults (BackupDestination work.steps) single payload
      work.backupDir work.steps { disk := d }
      (fun step member backup => ⟨step, member, backup, .refl _⟩)
      (fun p q same => fun ⟨step, member, backup, here⟩ => ⟨step, member, backup, same.trans here⟩)
      (free (Bool.not_eq_true _ ▸ unblocked) rfl)
    simp only [if_neg unblocked, Option.isSome_none, Bool.false_eq_true, false_or] at stopped
    dsimp only
    generalize applySteps host faults payload work.backupDir { disk := d } work.steps = p at *
    cases failed : p.failure with
    | none =>
      rw [failed] at stopped
      cases stopped
    | some failure =>
      rw [failed] at stopped
      obtain ⟨entries, logged, undoes⟩ := undoes
      rw [List.append_nil] at logged
      rw [← logged] at undoes
      exact undoes _ _ (.refl _ _) (rollback_of_walkBack stopped)

theorem applyPlan_all_or_nothing_third_write :
    (applyPlan .plain (Example.failsAt 10) (fun _ => none)
        (Example.twoWrites "g\\a.ini".toList "g\\c.ini".toList) Example.gameFiles).1.rolledBack = true ∧
      Agrees (BackupDestination (Example.twoWrites "g\\a.ini".toList "g\\c.ini".toList).steps)
        Example.gameFiles
        (applyPlan .plain (Example.failsAt 10) (fun _ => none)
          (Example.twoWrites "g\\a.ini".toList "g\\c.ini".toList) Example.gameFiles).2 := by
  have reported : (applyPlan .plain (Example.failsAt 10) (fun _ => none)
      (Example.twoWrites "g\\a.ini".toList "g\\c.ini".toList)
      Example.gameFiles).1.rolledBack = true := by
    decide +kernel
  refine ⟨reported, applyPlan_all_or_nothing _ _ _ _ _ (Example.failsAt_single 10) ?_ (.inr reported)⟩
  refine fun _ _ => ⟨by rintro ⟨⟩, fun _ => ⟨fun _ q protected_ _ => ?_, fun _ => ⟨fun _ q protected_ _ => ?_,
    fun _ => trivial⟩⟩⟩
  · obtain rfl := congrArg Prod.snd protected_
    decide +kernel
  · obtain rfl := congrArg Prod.snd protected_
    decide +kernel

/-- `writeWholeFile` creates its temporary file over whatever has that name, and
no undo entry brings it back. -/
theorem write_loses_taken_temp :
    (Example.failsAt 5).Single ∧
      (applyPlan .plain (Example.failsAt 5) (fun _ => none)
        (Example.twoWrites "g\\b.ini".toList "g\\c.ini".toList) Example.gameFiles).1.rolledBack = true ∧
      ¬Agrees (BackupDestination (Example.twoWrites "g\\b.ini".toList "g\\c.ini".toList).steps)
        Example.gameFiles
        (applyPlan .plain (Example.failsAt 5) (fun _ => none)
          (Example.twoWrites "g\\b.ini".toList "g\\c.ini".toList) Example.gameFiles).2 := by
  refine ⟨Example.failsAt_single 5, by decide +kernel, fun agrees => ?_⟩
  have kept := (agrees "g\\b.ini.edvrnew".toList).1 "mine".toList (by decide +kernel)
  revert kept
  decide +kernel

end EdvrPatch.Installer
