import EdvrPatch.Installer.PlanSteps
import EdvrPatch.Installer.Survey
import EdvrPatch.Lib.Justified

/-! Nothing is destroyed without a copy of it. -/
namespace EdvrPatch.Installer

open Lib Ini
open FileSystem (SameFile)

def Survey.named (s : Survey) : List (Text × DllInfo) :=
  [(kD3d11, s.d3d11), (kNgx, s.ngx), (kLoader, s.openxrLoader), (kLicense, s.openxrLicense),
    (kNativeConfig, s.nativeConfig), (kOpenvr, s.openvrCurrent), (kOpenvrOrig, s.openvrOrig)]

def Survey.found (s : Survey) : List Text :=
  ((s.named.map Prod.snd ++ s.otherD3d11).filter (·.kind ≠ .absent)).map (·.path) ++
    (if s.iniPresent then [iniPath s] else []) ++
    (if s.haveRecord then [statePath s.game.dir] else []) ++
    (if s.haveBaseIni then [baseIniPath s.game.dir] else []) ++ s.openvrOrigInBackups

def Survey.Found (s : Survey) (path : Text) : Prop :=
  ∃ there ∈ s.found, SameFile path there

def Survey.owned (s : Survey) : List (DllInfo × Text) :=
  [(s.ngx, s.state.ngxSha), (s.openxrLoader, s.state.openxrLoaderSha),
    (s.openxrLicense, s.state.openxrLicenseSha), (s.nativeConfig, s.state.nativeConfigSha)]

def Survey.Owned (s : Survey) (path : Text) : Prop :=
  ∃ file ∈ s.owned, SameFile path file.1.path ∧ file.2 ≠ [] ∧ file.1.sha256 = file.2

def Survey.OfRecord (s : Survey) (path : Text) : Prop :=
  SameFile path (statePath s.game.dir) ∨ SameFile path (baseIniPath s.game.dir)

def Step.affects (step : Step) : List Text :=
  match step.action with
  | .rename => [step.source, step.target]
  | .writePayload => [step.target]
  | .writeText => [step.target]
  | .delete => [step.source]
  | .makeDir => []
  | .backup => []

def BackedUp (backupDir : Text) (before : List Step) (path : Text) : Prop :=
  ∃ step ∈ before, step.action = .backup ∧ SameFile step.source path ∧
    step.target = joinPath backupDir (leafOf step.source)

def Survey.Free (s : Survey) (backupDir : Text) (before : List Step) (path : Text) : Prop :=
  s.Found path → s.OfRecord path ∨ s.Owned path ∨ BackedUp backupDir before path

/-- A step that destroys nothing the steps before it have not copied. -/
def Guarded (s : Survey) (backupDir : Text) (before : List Step) (step : Step) : Prop :=
  ∀ path ∈ step.affects, s.Free backupDir before path

/-- A rename that gives a file an install moved aside its own name back. -/
def Survey.PutsBack (s : Survey) (step : Step) : Prop :=
  step.action = .rename ∧
    ((∃ info, chainFile s = some info ∧ step.source = info.path ∧ step.target = d3d11Path s) ∨
      step.source = vrOriginalPath s ∧ step.target = vrPath s)

def GuardedBack (s : Survey) (backupDir : Text) (before : List Step) (step : Step) : Prop :=
  ∀ path ∈ step.affects, s.Free backupDir before path ∨ s.PutsBack step ∧ path = step.source

def copyTargets (steps : List Step) : List Text :=
  (steps.filter (·.action = .backup)).map (·.target)

section

variable {s : Survey}

variable {entry : Text × DllInfo}

theorem Survey.named_fileName (member : entry ∈ s.named) : FileName entry.1 := by
  revert entry
  simp only [Survey.named, List.forall_mem_cons]
  decide

theorem Survey.named_apart (member : entry ∈ s.named) :
    ¬"d3d11_".toList <+: lower entry.1 ∧ lower entry.1 ≠ lower kIni ∧
      lower entry.1 ≠ "state.ini".toList ∧ lower entry.1 ≠ "edvr.ini.base".toList := by
  revert entry
  simp only [Survey.named, List.forall_mem_cons]
  decide

theorem Survey.named_inj {other : Text × DllInfo} (member : entry ∈ s.named)
    (member' : other ∈ s.named) (same : lower entry.1 = lower other.1) : entry = other := by
  have nodup : (s.named.map fun entry => lower entry.1).Nodup := by
    simp only [Survey.named, List.map_cons, List.map_nil]
    decide
  exact List.inj_on_of_nodup_map nodup member member' same

variable {path : Text}

theorem Survey.OfRecord.leaf (ofRecord : s.OfRecord path) :
    lower (leafOf path) = "state.ini".toList ∨ lower (leafOf path) = "edvr.ini.base".toList := by
  rcases ofRecord with same | same
  · left
    rw [same.leaf, statePath, leafOf_joinPath _ (by decide)]
    decide
  · right
    rw [same.leaf, baseIniPath, leafOf_joinPath _ (by decide)]
    decide

theorem iniPath_leaf (s : Survey) : leafOf (iniPath s) = kIni :=
  leafOf_joinPath _ (by decide)

def chainNames : List Text :=
  ["d3d11_reshade.dll".toList, "d3d11_edhm.dll".toList, "d3d11_dxvk.dll".toList,
    "d3d11_specialk.dll".toList, "d3d11_other.dll".toList]

theorem chainNameFor_mem (info : DllInfo) : chainNameFor info ∈ chainNames := by
  unfold chainNameFor
  dsimp only
  split
  · decide
  split
  · decide
  split
  · decide
  split <;> decide

variable (located : s.Located)

include located

theorem Survey.Located.named_leaf (member : entry ∈ s.named) : leafOf entry.2.path = entry.1 := by
  have isName := Survey.named_fileName member
  simp only [Survey.named, List.mem_cons, List.not_mem_nil, or_false] at member
  rcases member with rfl | rfl | rfl | rfl | rfl | rfl | rfl
  · exact located.d3d11 ▸ leafOf_joinPath _ isName
  · exact located.ngx ▸ leafOf_joinPath _ isName
  · exact located.openxrLoader ▸ leafOf_joinPath _ isName
  · exact located.openxrLicense ▸ leafOf_joinPath _ isName
  · exact located.nativeConfig ▸ leafOf_joinPath _ isName
  · exact located.openvrCurrent ▸ leafOf_joinPath _ isName
  · exact located.openvrOrig ▸ leafOf_joinPath _ isName

theorem Survey.Located.found_cases (found : s.Found path) :
    (∃ entry ∈ s.named, entry.2.kind ≠ .absent ∧ lower (leafOf path) = lower entry.1) ∨
    (∃ info ∈ s.otherD3d11, SameFile path info.path) ∨
    (s.iniPresent ∧ SameFile path (iniPath s)) ∨ s.OfRecord path ∨
    ∃ copy ∈ s.openvrOrigInBackups, SameFile path copy := by
  obtain ⟨there, member, same⟩ := found
  simp only [Survey.found, List.mem_append] at member
  rcases member with (((member | member) | member) | member) | member
  · obtain ⟨info, listed, rfl⟩ := List.mem_map.mp member
    obtain ⟨listed, present⟩ := List.mem_filter.mp listed
    rcases List.mem_append.mp listed with listed | listed
    · obtain ⟨entry, inside, rfl⟩ := List.mem_map.mp listed
      refine .inl ⟨entry, inside, by simpa using present, ?_⟩
      rw [same.leaf, located.named_leaf inside]
    · exact .inr (.inl ⟨info, listed, same⟩)
  · split at member
    · rw [List.mem_singleton] at member
      exact .inr (.inr (.inl ⟨‹_›, member ▸ same⟩))
    · cases member
  · split at member
    · rw [List.mem_singleton] at member
      exact .inr (.inr (.inr (.inl (.inl (member ▸ same)))))
    · cases member
  · split at member
    · rw [List.mem_singleton] at member
      exact .inr (.inr (.inr (.inl (.inr (member ▸ same)))))
    · cases member
  · exact .inr (.inr (.inr (.inr ⟨there, member, same⟩)))

variable {info : DllInfo}

theorem Survey.Located.sibling_leaf (member : info ∈ s.otherD3d11) :
    "d3d11_".toList <+: lower (leafOf info.path) := by
  obtain ⟨-, name, isName, like, path⟩ := located.siblings info member
  rw [path, leafOf_joinPath _ isName]
  exact like

variable {copy : Text}

theorem Survey.Located.copy_eq (member : copy ∈ s.openvrOrigInBackups) :
    ∃ rest, copy = dirPrefix s.game.dir ++ "edvr_backup".toList ++ rest := by
  obtain ⟨stamp, isName, path⟩ := located.backups copy member
  have root : FileName "edvr_backup".toList := by decide
  refine ⟨'\\' :: stamp ++ '\\' :: kOpenvr, ?_⟩
  rw [path, joinPath_eq _ (by decide), dirPrefix_joinPath _ isName, backupRootPath,
    dirPrefix_joinPath _ root]
  simp

theorem Survey.Located.openvr_eq :
    ∃ rest, lower (vrPath s) = lower (dirPrefix s.game.dir) ++ 'o' :: rest := by
  have folder := located.folder
  simp only [openvrFolders, List.mem_cons, List.not_mem_nil, or_false] at folder
  unfold vrPath
  rw [joinPath_eq _ (show kOpenvr ≠ [] by decide), lower_append]
  rcases folder with folder | folder | folder
  · rw [folder, dirPrefix_joinPath_of_solid _ (show kOpenvrFolder = "Openvr\\win6".toList ++ ['4'] by
      decide) (by decide), lower_append, lower_append, List.append_assoc, List.append_assoc]
    exact ⟨_, rfl⟩
  · rw [folder, dirPrefix_joinPath _ (by decide), lower_append, lower_append, List.append_assoc,
      List.append_assoc]
    exact ⟨_, rfl⟩
  · rw [folder]
    exact ⟨_, rfl⟩

theorem Survey.Located.openvr_not_below (rest : Text) :
    ¬SameFile (vrPath s) (dirPrefix s.game.dir ++ "edvr_backup".toList ++ rest) := by
  intro same
  obtain ⟨tail, library⟩ := located.openvr_eq
  have clash : lower (dirPrefix s.game.dir) ++ 'o' :: tail =
      lower (dirPrefix s.game.dir) ++ ("edvr_backup".toList ++ lower rest) := by
    rw [← library, show lower (vrPath s) = _ from same]
    simp
  cases List.append_cancel_left clash

theorem Survey.Located.openvr_ne_copy (member : copy ∈ s.openvrOrigInBackups) :
    ¬SameFile (vrPath s) copy := by
  obtain ⟨rest, below⟩ := located.copy_eq member
  rw [below]
  exact located.openvr_not_below rest

theorem Survey.Located.present (member : entry ∈ s.named) (leaf : leafOf path = entry.1)
    (apart : ∀ copy ∈ s.openvrOrigInBackups, ¬SameFile path copy) (found : s.Found path) :
    entry.2.kind ≠ .absent := by
  obtain ⟨unlike, notIni, notState, notBase⟩ := Survey.named_apart member
  rcases located.found_cases found with ⟨other, inside, there, same⟩ | ⟨info, inside, same⟩ |
    ⟨-, same⟩ | ofRecord | ⟨copy, inside, same⟩
  · rw [leaf] at same
    rw [Survey.named_inj member inside same]
    exact there
  · have like := located.sibling_leaf inside
    rw [← same.leaf, leaf] at like
    exact absurd like unlike
  · have ini := same.leaf
    rw [leaf, iniPath_leaf] at ini
    exact absurd ini notIni
  · have record := ofRecord.leaf
    rw [leaf] at record
    exact absurd record (not_or.mpr ⟨notState, notBase⟩)
  · exact absurd same (apart copy inside)

theorem Survey.Located.copy_leaf (member : copy ∈ s.openvrOrigInBackups) :
    leafOf copy = kOpenvr := by
  obtain ⟨stamp, -, path⟩ := located.backups copy member
  rw [path]
  exact leafOf_joinPath _ (by decide)

theorem Survey.Located.present_of_name {folder name : Text} (member : (name, info) ∈ s.named)
    (other : lower name ≠ kOpenvr) (found : s.Found (joinPath folder name)) :
    info.kind ≠ .absent := by
  have leaf := leafOf_joinPath folder (Survey.named_fileName member)
  refine located.present member leaf ?_ found
  intro copy inside same
  have names := same.leaf
  rw [leaf, located.copy_leaf inside] at names
  exact other names

theorem Survey.Located.openvr_present (found : s.Found (vrPath s)) :
    s.openvrCurrent.kind ≠ .absent :=
  have member : (kOpenvr, s.openvrCurrent) ∈ s.named := by simp [Survey.named]
  located.present member (leafOf_joinPath _ (Survey.named_fileName member))
    (fun _ => located.openvr_ne_copy) found

theorem Survey.Located.ini_present (found : s.Found (iniPath s)) : s.iniPresent = true := by
  rcases located.found_cases found with ⟨other, inside, -, same⟩ | ⟨info, inside, same⟩ |
    ⟨there, -⟩ | ofRecord | ⟨copy, inside, same⟩
  · rw [iniPath_leaf] at same
    exact absurd same.symm (Survey.named_apart inside).2.1
  · have like := located.sibling_leaf inside
    rw [← same.leaf, iniPath_leaf] at like
    exact absurd like (by decide)
  · exact there
  · have record := ofRecord.leaf
    rw [iniPath_leaf] at record
    exact absurd record (by decide)
  · have names := same.leaf
    rw [iniPath_leaf, located.copy_leaf inside] at names
    exact absurd names (by decide)

theorem Survey.Located.parked {leaf : Text} (member : info ∈ s.otherD3d11)
    (same : sameKey (leafOf info.path) leaf) : (parkedAs s leaf).isSome = true := by
  unfold parkedAs siblingNamed
  cases found : s.otherD3d11.find? fun info => sameKey (leafOf info.path) leaf with
  | none => exact absurd (decide_eq_true same) (List.find?_eq_none.mp found info member)
  | some first =>
    have there := (located.siblings first (List.mem_of_find?_eq_some found)).1
    simp [Option.filter, there]

theorem Survey.Located.chain_parked (found : s.Found (chainPath s)) :
    (parkedAs s (chainNameFor s.d3d11)).isSome = true := by
  have known : ∀ name ∈ chainNames, FileName name ∧ "d3d11_".toList <+: lower name ∧
      lower name ≠ lower kIni ∧ lower name ≠ "state.ini".toList ∧
      lower name ≠ "edvr.ini.base".toList ∧ lower name ≠ lower kOpenvr := by
    decide
  obtain ⟨isName, like, notIni, notState, notBase, notOpenvr⟩ := known _ (chainNameFor_mem s.d3d11)
  have leaf : leafOf (chainPath s) = chainNameFor s.d3d11 := leafOf_joinPath _ isName
  rcases located.found_cases found with ⟨other, inside, -, same⟩ | ⟨info, inside, same⟩ |
    ⟨-, same⟩ | ofRecord | ⟨copy, inside, same⟩
  · rw [leaf] at same
    rw [same] at like
    exact absurd like (Survey.named_apart inside).1
  · refine located.parked inside ?_
    have names := same.leaf
    rw [leaf] at names
    exact names.symm
  · have ini := same.leaf
    rw [leaf, iniPath_leaf] at ini
    exact absurd ini notIni
  · have record := ofRecord.leaf
    rw [leaf] at record
    exact absurd record (not_or.mpr ⟨notState, notBase⟩)
  · have names := same.leaf
    rw [leaf, located.copy_leaf inside] at names
    exact absurd names notOpenvr

/-! ### The arms of an install -/

variable {before : List Step}

omit located in
theorem BackedUp.append {backupDir : Text} {more : List Step}
    (backed : BackedUp backupDir more path) : BackedUp backupDir (before ++ more) path := by
  obtain ⟨step, member, copies⟩ := backed
  exact ⟨step, List.mem_append_right _ member, copies⟩

omit located in
theorem guarded_mono (backupDir : Text) (before more : List Step) (step : Step)
    (guarded : Guarded s backupDir more step) : Guarded s backupDir (before ++ more) step := by
  intro path member found
  exact (guarded path member found).imp_right fun h => h.imp_right BackedUp.append

omit located in
theorem guarded_iff {backupDir : Text} {step : Step} :
    Guarded s backupDir before step ↔ ∀ path ∈ step.affects, s.Free backupDir before path :=
  Iff.rfl

omit located in
@[simp] theorem guarded_copy (backupDir dir path : Text) (before : List Step) :
    Guarded s backupDir before (.copy dir path) := by
  simp [guarded_iff, Step.copy, Step.affects]

omit located in
@[simp] theorem guarded_copyOf (backupDir dir path sha : Text) (before : List Step) :
    Guarded s backupDir before (.copyOf dir path sha) := by
  simp [guarded_iff, Step.copyOf, Step.affects]

omit located in
@[simp] theorem guarded_move (backupDir source target sha : Text) (before : List Step) :
    Guarded s backupDir before (.move source target sha) ↔
      s.Free backupDir before source ∧ s.Free backupDir before target := by
  simp [guarded_iff, Step.move, Step.affects]

omit located in
@[simp] theorem guarded_put (backupDir item target : Text) (before : List Step) :
    Guarded s backupDir before (.put item target) ↔ s.Free backupDir before target := by
  simp [guarded_iff, Step.put, Step.affects]

omit located in
@[simp] theorem guarded_putText (backupDir text target : Text) (before : List Step) :
    Guarded s backupDir before (.putText text target) ↔ s.Free backupDir before target := by
  simp [guarded_iff, Step.putText, Step.affects]

omit located in
theorem free_of_copy {backupDir : Text} (copied : Step.copy backupDir path ∈ before) :
    s.Free backupDir before path :=
  fun _ => .inr (.inr ⟨_, copied, rfl, SameFile.refl path, rfl⟩)

omit located in
theorem free_of_copyOf {backupDir sha : Text} (copied : Step.copyOf backupDir path sha ∈ before) :
    s.Free backupDir before path :=
  fun _ => .inr (.inr ⟨_, copied, rfl, SameFile.refl path, rfl⟩)

variable (o : Options) (p : PayloadInfo) (backupDir : Text)

theorem chainSteps_guarded : Justified (Guarded s backupDir) (chainSteps s backupDir) := by
  unfold chainSteps
  by_cases parked : (parkedAs s (chainNameFor s.d3d11)).isSome = true
  · rw [if_pos parked]
    simp only [List.cons_append, List.nil_append, Justified.cons_iff, Justified.nil, guarded_copy,
      guarded_move, guarded_put, true_and, and_true]
    exact ⟨⟨free_of_copy (by simp), free_of_copy (by simp)⟩, free_of_copy (by simp)⟩
  · rw [if_neg parked]
    simp only [List.nil_append, Justified.cons_iff, Justified.nil, guarded_copy,
      guarded_move, guarded_put, true_and, and_true]
    exact ⟨⟨free_of_copy (by simp), fun found => absurd (located.chain_parked found) parked⟩,
      free_of_copy (by simp)⟩

theorem d3d11Steps_guarded : Justified (Guarded s backupDir) (d3d11Steps s o p backupDir) := by
  unfold d3d11Steps
  split
  · exact .nil _
  cases kind : s.d3d11.kind with
  | unreadable => exact .nil _
  | openVrRuntime => exact chainSteps_guarded located backupDir
  | d3d11Provider => exact chainSteps_guarded located backupDir
  | foreign => exact chainSteps_guarded located backupDir
  | absent =>
    simp only [Justified.cons_iff, Justified.nil, guarded_put, and_true]
    intro found
    exact absurd kind (located.present_of_name
      (show (kD3d11, s.d3d11) ∈ s.named by simp [Survey.named]) (by decide) found)
  | edvr =>
    dsimp only
    split
    · exact .nil _
    · simp only [Justified.cons_iff, Justified.nil, guarded_copy, guarded_put, true_and, and_true]
      exact free_of_copy (by simp)

theorem ngxSteps_guarded : Justified (Guarded s backupDir) (ngxSteps s o p backupDir) := by
  unfold ngxSteps
  dsimp only
  split
  · split
    · exact .nil _
    rename_i readable
    split
    · exact .nil _
    split
    · exact .nil _
    split
    · exact .nil _
    by_cases present : s.ngx.kind ≠ .absent ∧ s.ngx.kind ≠ .unreadable
    · rw [if_pos present]
      simp only [List.cons_append, List.nil_append, Justified.cons_iff, Justified.nil, guarded_copy,
        guarded_put, true_and, and_true]
      exact free_of_copy (by simp)
    · rw [if_neg present]
      simp only [List.nil_append, Justified.cons_iff, Justified.nil, guarded_put, and_true]
      intro found
      have there := located.present_of_name (show (kNgx, s.ngx) ∈ s.named by simp [Survey.named])
        (by decide) found
      exact absurd ⟨there, readable⟩ present
  · exact .nil _

theorem Survey.Located.nativeDir : nativeDirOf s = s.game.openvrDir :=
  if_neg located.ne_nil

theorem Survey.Located.originalName : originalName s = kOpenvrOrig := by
  unfold Installer.originalName
  rw [located.openvrOrigName]
  decide

theorem keepSteps_guarded (sha : Text) :
    Justified (fun before => Guarded s backupDir (.copyOf backupDir (openvrPath s) sha :: before))
      (keepSteps s backupDir) := by
  unfold keepSteps
  split
  · rename_i keeps
    by_cases runtime : s.openvrOrig.kind = .openVrRuntime
    · rw [if_pos runtime]
      simp only [List.cons_append, List.nil_append, Justified.cons_iff, Justified.nil,
        guarded_copyOf, guarded_move, true_and, and_true]
      exact ⟨free_of_copyOf List.mem_cons_self,
        free_of_copyOf (List.mem_cons_of_mem _ List.mem_cons_self)⟩
    · rw [if_neg runtime]
      simp only [List.nil_append, Justified.cons_iff, Justified.nil, guarded_move, and_true]
      refine ⟨free_of_copyOf List.mem_cons_self, fun found => ?_⟩
      have absent : s.openvrOrig.kind = .absent :=
        keeps.2.resolve_right fun other => runtime other.1
      unfold originalPath at found
      rw [located.originalName] at found
      exact absurd absent (located.present_of_name
        (show (kOpenvrOrig, s.openvrOrig) ∈ s.named by simp [Survey.named]) (by decide) found)
  · exact .nil _

theorem openvrSteps_guarded : Justified (Guarded s backupDir) (openvrSteps s o p backupDir) := by
  unfold openvrSteps
  split
  · exact .nil _
  by_cases absent : s.openvrCurrent.kind = .absent
  · rw [if_pos absent, List.nil_append]
    simp only [Justified.cons_iff, Justified.nil, guarded_put, and_true]
    intro found
    unfold openvrPath at found
    rw [located.nativeDir] at found
    exact absurd absent (located.openvr_present found)
  · rw [if_neg absent, List.cons_append, Justified.cons_iff, Justified.append_iff]
    refine ⟨guarded_copyOf _ _ _ _ _, keepSteps_guarded located backupDir _, ?_⟩
    simp only [Justified.cons_iff, Justified.nil, guarded_put, and_true]
    exact free_of_copyOf List.mem_cons_self

omit located in
theorem replaceSteps_guarded {current : DllInfo} {write : Step} (only : write.affects = [path])
    (present : s.Found path → current.kind ≠ .absent) :
    Justified (Guarded s backupDir) (replaceSteps backupDir current path write) := by
  have writes (before : List Step) (free : s.Free backupDir before path) :
      Guarded s backupDir before write := by
    rw [guarded_iff, only]
    simpa using free
  unfold replaceSteps
  split
  · rename_i absent
    simp only [Justified.cons_iff, Justified.nil, and_true]
    exact writes _ fun found => absurd absent (present found)
  · simp only [Justified.cons_iff, Justified.nil, guarded_copyOf, true_and, and_true]
    exact writes _ (free_of_copyOf List.mem_cons_self)

omit located in
theorem assetSteps_guarded {current : DllInfo} (item wanted : Text)
    (present : s.Found path → current.kind ≠ .absent) :
    Justified (Guarded s backupDir) (assetSteps o backupDir current path item wanted) := by
  unfold assetSteps
  split
  · exact .nil _
  · exact replaceSteps_guarded backupDir rfl present

theorem configSteps_guarded (host : Host) :
    Justified (Guarded s backupDir) (configSteps host s o backupDir) := by
  unfold configSteps
  dsimp only
  split
  · exact replaceSteps_guarded backupDir rfl (located.present_of_name
      (show (kNativeConfig, s.nativeConfig) ∈ s.named by simp [Survey.named]) (by decide))
  · exact .nil _

theorem iniSteps_guarded (forced : List (Text × Text)) :
    Justified (Guarded s backupDir) (iniSteps s o p backupDir forced) := by
  unfold iniSteps
  dsimp only
  split
  · exact .nil _
  by_cases same : mergedIni s o p forced = s.iniText
  · rw [if_pos same, List.append_nil]
    split
    · simp [Justified.cons_iff]
    · exact .nil _
  · rw [if_neg same]
    by_cases there : s.iniPresent = true
    · rw [if_pos ⟨there, .inr same⟩]
      simp only [List.cons_append, List.nil_append, Justified.cons_iff, Justified.nil, guarded_copy,
        guarded_putText, true_and, and_true]
      exact free_of_copy List.mem_cons_self
    · rw [if_neg fun both => there both.1]
      simp only [List.nil_append, Justified.cons_iff, Justified.nil, guarded_putText, and_true]
      exact fun found => absurd (located.ini_present found) there

theorem installBody_guarded (host : Host) (forced : List (Text × Text)) :
    Justified (Guarded s backupDir) (installBody host s o p backupDir forced) := by
  have mono := @guarded_mono s backupDir
  have loader := assetSteps_guarded o backupDir "openxr_loader".toList p.openxrLoaderSha
    (located.present_of_name (show (kLoader, s.openxrLoader) ∈ s.named by simp [Survey.named])
      (by decide) : s.Found (loaderPath s) → _)
  have license := assetSteps_guarded o backupDir "openxr_license".toList p.openxrLicenseSha
    (located.present_of_name (show (kLicense, s.openxrLicense) ∈ s.named by simp [Survey.named])
      (by decide) : s.Found (licensePath s) → _)
  have first := (d3d11Steps_guarded located o p backupDir).append mono
    (ngxSteps_guarded located o p backupDir)
  have second := (first.append mono (openvrSteps_guarded located o p backupDir)).append mono loader
  exact ((second.append mono license).append mono (configSteps_guarded located o backupDir host)).append
    mono (iniSteps_guarded located o p backupDir forced)

/-! ### The arms of an uninstall -/

omit located in
theorem guardedBack_mono (backupDir : Text) (before more : List Step) (step : Step)
    (guarded : GuardedBack s backupDir more step) :
    GuardedBack s backupDir (before ++ more) step := by
  intro path member
  refine (guarded path member).imp_left fun free found => ?_
  exact (free found).imp_right fun h => h.imp_right BackedUp.append

omit located in
theorem guardedBack_iff {backupDir : Text} {step : Step} :
    GuardedBack s backupDir before step ↔ ∀ path ∈ step.affects,
      s.Free backupDir before path ∨ s.PutsBack step ∧ path = step.source :=
  Iff.rfl

omit located in
@[simp] theorem guardedBack_copy (backupDir dir path : Text) (before : List Step) :
    GuardedBack s backupDir before (.copy dir path) := by
  simp [guardedBack_iff, Step.copy, Step.affects]

omit located in
@[simp] theorem guardedBack_copyBack (backupDir source target : Text) (before : List Step) :
    GuardedBack s backupDir before (.copyBack source target) := by
  simp [guardedBack_iff, Step.copyBack, Step.affects]

omit located in
@[simp] theorem guardedBack_drop (backupDir path sha : Text) (before : List Step) :
    GuardedBack s backupDir before (.drop path sha) ↔ s.Free backupDir before path := by
  simp [guardedBack_iff, Step.drop, Step.affects, Survey.PutsBack]

omit located in
theorem guardedBack_move {backupDir source target sha : Text}
    (back : s.PutsBack (.move source target sha)) (free : s.Free backupDir before target) :
    GuardedBack s backupDir before (.move source target sha) := by
  intro path member
  rcases List.mem_cons.mp member with rfl | member
  · exact .inr ⟨back, rfl⟩
  · rw [List.mem_singleton.mp member]
    exact .inl free

omit located in
theorem removeD3d11Steps_guarded :
    Justified (GuardedBack s backupDir) (removeD3d11Steps s backupDir) := by
  unfold removeD3d11Steps chainBackSteps
  split
  · rw [Justified.append_iff]
    simp only [Justified.cons_iff, Justified.nil, guardedBack_copy, guardedBack_drop, true_and,
      and_true]
    refine ⟨free_of_copy List.mem_cons_self, ?_⟩
    split
    · rename_i info chained
      simp only [Justified.cons_iff, Justified.nil, and_true]
      exact guardedBack_move ⟨rfl, .inl ⟨info, chained, rfl, rfl⟩⟩ (free_of_copy List.mem_cons_self)
    · exact .nil _
  · exact .nil _

omit located in
theorem removeOpenvrSteps_guarded :
    Justified (GuardedBack s backupDir) (removeOpenvrSteps s backupDir) := by
  unfold removeOpenvrSteps
  split
  · exact .nil _
  split
  · split
    · simp only [Justified.cons_iff, Justified.nil, guardedBack_copy, guardedBack_drop, true_and,
        and_true]
      exact ⟨free_of_copy List.mem_cons_self,
        guardedBack_move ⟨rfl, .inr ⟨rfl, rfl⟩⟩ (free_of_copy List.mem_cons_self)⟩
    · cases s.openvrOrigInBackups with
      | nil => exact .nil _
      | cons copy older => simp [Justified.cons_iff]
  · exact .nil _

omit located in
theorem retireSteps_guarded (info : DllInfo) (owned : Text) :
    Justified (GuardedBack s backupDir) (retireSteps backupDir info owned) := by
  unfold retireSteps
  split
  · exact .nil _
  split
  · exact .nil _
  · simp only [Justified.cons_iff, Justified.nil, guardedBack_copy, guardedBack_drop, true_and,
      and_true]
    exact free_of_copy List.mem_cons_self

theorem removeNgxSteps_guarded : Justified (GuardedBack s backupDir) (removeNgxSteps s) := by
  unfold removeNgxSteps
  split
  · rename_i ours
    simp only [Justified.cons_iff, Justified.nil, guardedBack_drop, and_true]
    intro _
    refine .inr (.inl ⟨(s.ngx, s.state.ngxSha), List.mem_cons_self, ?_, ours.2.1, ours.2.2.2.2⟩)
    rw [located.ngx]
    exact SameFile.refl _
  · exact .nil _

omit located in
theorem removeIniSteps_guarded :
    Justified (GuardedBack s backupDir) (removeIniSteps s o backupDir) := by
  unfold removeIniSteps
  split
  · exact .nil _
  split
  · simp only [Justified.cons_iff, Justified.nil, guardedBack_copy, guardedBack_drop, true_and,
      and_true]
    exact free_of_copy List.mem_cons_self
  · exact .nil _

omit located in
theorem removeRecordSteps_guarded : Justified (GuardedBack s backupDir) (removeRecordSteps s) := by
  refine Justified.append (guardedBack_mono backupDir) ?_ ?_
  · split
    · simp only [Justified.cons_iff, Justified.nil, guardedBack_drop, and_true]
      exact fun _ => .inl (.inl (SameFile.refl _))
    · exact .nil _
  · split
    · simp only [Justified.cons_iff, Justified.nil, guardedBack_drop, and_true]
      exact fun _ => .inl (.inr (SameFile.refl _))
    · exact .nil _

theorem uninstallBody_guarded :
    Justified (GuardedBack s backupDir) (uninstallBody s o backupDir) := by
  have mono := @guardedBack_mono s backupDir
  have native : Justified (GuardedBack s backupDir) (removeNativeSteps s backupDir) := by
    unfold removeNativeSteps
    split
    · exact ((retireSteps_guarded backupDir _ _).append mono (retireSteps_guarded backupDir _ _)).append
        mono (retireSteps_guarded backupDir _ _)
    · exact .nil _
  have libraries := ((removeD3d11Steps_guarded backupDir).append mono
    (removeOpenvrSteps_guarded backupDir)).append mono native
  exact ((libraries.append mono (removeNgxSteps_guarded located backupDir)).append mono
    (removeIniSteps_guarded o backupDir)).append mono (removeRecordSteps_guarded backupDir)

end

end EdvrPatch.Installer
