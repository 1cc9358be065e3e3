import EdvrPatch.Installer.PlanSafety

/-! Where the copies of a plan go, what an uninstall deletes, and both plans as a
whole. -/
namespace EdvrPatch.Installer

open Lib Ini
open FileSystem (SameFile)

section

variable (l l' : List Step) (dir path sha source target item text : Text)

@[simp] theorem copyTargets_nil : copyTargets [] = [] := rfl

@[simp] theorem copyTargets_append : copyTargets (l ++ l') = copyTargets l ++ copyTargets l' := by
  simp [copyTargets]

@[simp] theorem copyTargets_copy :
    copyTargets (.copy dir path :: l) = joinPath dir (leafOf path) :: copyTargets l := by
  simp [copyTargets, Step.copy]

@[simp] theorem copyTargets_copyOf :
    copyTargets (.copyOf dir path sha :: l) = joinPath dir (leafOf path) :: copyTargets l := by
  simp [copyTargets, Step.copyOf]

@[simp] theorem copyTargets_copyBack :
    copyTargets (.copyBack source target :: l) = target :: copyTargets l := by
  simp [copyTargets, Step.copyBack]

@[simp] theorem copyTargets_move : copyTargets (.move source target sha :: l) = copyTargets l := by
  simp [copyTargets, Step.move]

@[simp] theorem copyTargets_put : copyTargets (.put item target :: l) = copyTargets l := by
  simp [copyTargets, Step.put]

@[simp] theorem copyTargets_putText : copyTargets (.putText text target :: l) = copyTargets l := by
  simp [copyTargets, Step.putText]

@[simp] theorem copyTargets_drop : copyTargets (.drop path sha :: l) = copyTargets l := by
  simp [copyTargets, Step.drop]

@[simp] theorem copyTargets_folder : copyTargets (.folder path :: l) = copyTargets l := by
  simp [copyTargets, Step.folder]

end

theorem copyTargets_plain (steps : List Step) :
    copyTargets (steps.map Step.plain) = copyTargets steps := by
  induction steps with
  | nil => rfl
  | cons step steps ih =>
    unfold copyTargets at ih ⊢
    by_cases backup : step.action = .backup
    · simp [Step.plain, backup, ih]
    · simp [Step.plain, backup, ih]

theorem copyTargets_makeDirs {steps : List Step} (made : ∀ step ∈ steps, step.action = .makeDir) :
    copyTargets steps = [] := by
  unfold copyTargets
  rw [List.map_eq_nil_iff, List.filter_eq_nil_iff]
  intro step member
  simp [made step member]

theorem pairwise_of_names {names : List Text} (areNames : ∀ name ∈ names, FileName name)
    (distinct : (names.map lower).Nodup) (dir : Text) :
    (names.map (joinPath dir)).Pairwise fun a b => ¬SameFile a b := by
  rw [List.pairwise_map]
  have apart := List.pairwise_map.mp distinct
  exact apart.imp_of_mem fun first second ne =>
    not_sameFile_of_name (areNames _ first) (areNames _ second) ne

section

variable {s : Survey} (located : s.Located) (o : Options) (p : PayloadInfo) (backupDir : Text)

/-- The names of the files an install may copy, in the order of its arms. -/
def installNames (s : Survey) : List Text :=
  [chainNameFor s.d3d11, kD3d11] ++ [kNgx] ++ [kOpenvr, kOpenvrOrig] ++ [kLoader] ++ [kLicense] ++
    [kNativeConfig] ++ [kIni]

theorem installNames_ok (s : Survey) :
    (∀ name ∈ installNames s, FileName name) ∧ ((installNames s).map lower).Nodup := by
  have each : ∀ chain ∈ chainNames, (∀ name ∈ chain :: kD3d11 :: [kNgx, kOpenvr, kOpenvrOrig,
      kLoader, kLicense, kNativeConfig, kIni], FileName name) ∧
      ((chain :: kD3d11 :: [kNgx, kOpenvr, kOpenvrOrig, kLoader, kLicense, kNativeConfig,
        kIni]).map lower).Nodup := by
    decide
  exact each _ (chainNameFor_mem s.d3d11)

theorem d3d11Steps_copies :
    (copyTargets (d3d11Steps s o p backupDir)).Sublist
      ([chainNameFor s.d3d11, kD3d11].map (joinPath backupDir)) := by
  have d3d11 : leafOf (d3d11Path s) = kD3d11 := leafOf_joinPath _ (by decide)
  have chain : leafOf (chainPath s) = chainNameFor s.d3d11 :=
    leafOf_joinPath _ ((installNames_ok s).1 _ List.mem_cons_self)
  have foreign : (copyTargets (chainSteps s backupDir)).Sublist
      ([chainNameFor s.d3d11, kD3d11].map (joinPath backupDir)) := by
    unfold chainSteps
    split <;> simp [d3d11, chain]
  unfold d3d11Steps
  split
  · exact List.nil_sublist _
  · cases s.d3d11.kind with
    | unreadable => exact List.nil_sublist _
    | absent => simp
    | openVrRuntime => exact foreign
    | d3d11Provider => exact foreign
    | foreign => exact foreign
    | edvr =>
      dsimp only
      split
      · exact List.nil_sublist _
      · simp [d3d11]

theorem ngxSteps_copies :
    (copyTargets (ngxSteps s o p backupDir)).Sublist ([kNgx].map (joinPath backupDir)) := by
  have ngx : leafOf (ngxPath s) = kNgx := leafOf_joinPath _ (by decide)
  unfold ngxSteps
  dsimp only
  split
  · split
    · exact List.nil_sublist _
    split
    · exact List.nil_sublist _
    split
    · exact List.nil_sublist _
    split
    · exact List.nil_sublist _
    split <;> simp [ngx]
  · exact List.nil_sublist _

include located in
theorem openvrSteps_copies : (copyTargets (openvrSteps s o p backupDir)).Sublist
    ([kOpenvr, kOpenvrOrig].map (joinPath backupDir)) := by
  have openvr : leafOf (openvrPath s) = kOpenvr := leafOf_joinPath _ (by decide)
  have original : leafOf (originalPath s) = kOpenvrOrig := by
    unfold originalPath
    rw [located.originalName]
    exact leafOf_joinPath _ (by decide)
  have kept : (copyTargets (keepSteps s backupDir)).Sublist [joinPath backupDir kOpenvrOrig] := by
    unfold keepSteps
    split
    · split <;> simp [original]
    · exact List.nil_sublist _
  unfold openvrSteps
  split
  · exact List.nil_sublist _
  split
  · simp
  · simpa [openvr] using kept

variable {path name : Text}

theorem replaceSteps_copies {current : DllInfo} {write : Step} (leaf : leafOf path = name)
    (other : copyTargets [write] = []) :
    (copyTargets (replaceSteps backupDir current path write)).Sublist
      ([name].map (joinPath backupDir)) := by
  unfold replaceSteps
  split
  · rw [other]
    exact List.nil_sublist _
  · rw [copyTargets_copyOf, other, leaf]
    exact List.Sublist.refl _

theorem assetSteps_copies {current : DllInfo} (item wanted : Text) (leaf : leafOf path = name) :
    (copyTargets (assetSteps o backupDir current path item wanted)).Sublist
      ([name].map (joinPath backupDir)) := by
  unfold assetSteps
  split
  · exact List.nil_sublist _
  · exact replaceSteps_copies backupDir leaf (copyTargets_put ..)

theorem configSteps_copies (host : Host) :
    (copyTargets (configSteps host s o backupDir)).Sublist
      ([kNativeConfig].map (joinPath backupDir)) := by
  unfold configSteps
  dsimp only
  split
  · exact replaceSteps_copies backupDir (leafOf_joinPath _ (by decide)) (copyTargets_putText ..)
  · exact List.nil_sublist _

theorem iniSteps_copies (forced : List (Text × Text)) :
    (copyTargets (iniSteps s o p backupDir forced)).Sublist ([kIni].map (joinPath backupDir)) := by
  have written : copyTargets (if mergedIni s o p forced = s.iniText then []
      else [.putText (mergedIni s o p forced) (iniPath s)]) = [] := by
    split <;> simp
  unfold iniSteps
  split
  · exact List.nil_sublist _
  · rw [copyTargets_append, written, List.append_nil]
    split
    · rw [copyTargets_copy, iniPath_leaf]
      exact List.Sublist.refl _
    · exact List.nil_sublist _

include located in
theorem installBody_copies (host : Host) (forced : List (Text × Text)) :
    (copyTargets (installBody host s o p backupDir forced)).Pairwise fun a b => ¬SameFile a b := by
  obtain ⟨areNames, distinct⟩ := installNames_ok s
  refine List.Pairwise.sublist ?_ (pairwise_of_names areNames distinct backupDir)
  unfold installBody installNames
  simp only [copyTargets_append, List.map_append]
  exact ((((((d3d11Steps_copies o p backupDir).append (ngxSteps_copies o p backupDir)).append
    (openvrSteps_copies located o p backupDir)).append
    (assetSteps_copies o backupDir _ _ (leafOf_joinPath _ (by decide)))).append
    (assetSteps_copies o backupDir _ _ (leafOf_joinPath _ (by decide)))).append
    (configSteps_copies o backupDir host)).append (iniSteps_copies o p backupDir forced)

/-- The names of the files an uninstall may copy into its backup folder. -/
def leaveNames : List Text :=
  [kD3d11] ++ [kOpenvr] ++ ([kLoader] ++ [kLicense] ++ [kNativeConfig]) ++ [kIni]

theorem backupDirOf_below (s : Survey) (o : Options) (ne : name ≠ []) :
    ∃ rest, joinPath (backupDirOf s o) name =
      dirPrefix s.game.dir ++ "edvr_backup".toList ++ rest := by
  have stamped : (if o.backupStamp = [] then "backup".toList else o.backupStamp) ≠ [] := by
    split
    · decide
    · assumption
  have extends_ : ∃ tail, dirPrefix (backupDirOf s o) = backupDirOf s o ++ tail := by
    unfold dirPrefix
    split
    · rename_i empty
      exact ⟨[], by rw [empty]; rfl⟩
    split
    · exact ⟨[], (List.append_nil _).symm⟩
    · exact ⟨_, rfl⟩
  obtain ⟨tail, dir_eq⟩ := extends_
  rw [joinPath_eq _ ne, dir_eq, backupDirOf, joinPath_eq _ stamped, backupRootPath,
    dirPrefix_joinPath _ (show FileName "edvr_backup".toList by decide)]
  exact ⟨_, by simp only [List.append_assoc]; rfl⟩

include located in
theorem openvr_ne_copied (ne : name ≠ []) :
    ¬SameFile (vrPath s) (joinPath (backupDirOf s o) name) := by
  intro same
  obtain ⟨rest, below⟩ := backupDirOf_below s o ne
  exact located.openvr_not_below rest (below ▸ same)

theorem removeD3d11Steps_copies :
    (copyTargets (removeD3d11Steps s backupDir)).Sublist [joinPath backupDir kD3d11] := by
  have d3d11 : leafOf (d3d11Path s) = kD3d11 := leafOf_joinPath _ (by decide)
  have back : copyTargets (chainBackSteps s) = [] := by
    unfold chainBackSteps
    split <;> simp
  unfold removeD3d11Steps
  split
  · simp [d3d11, back]
  · exact List.nil_sublist _

theorem removeOpenvrSteps_copies :
    (copyTargets (removeOpenvrSteps s backupDir)).Sublist
      [joinPath backupDir kOpenvr, vrPath s] := by
  have openvr : leafOf (vrPath s) = kOpenvr := leafOf_joinPath _ (by decide)
  unfold removeOpenvrSteps
  split
  · exact List.nil_sublist _
  split
  · split
    · simp [openvr]
    · split <;> simp [openvr]
  · exact List.nil_sublist _

theorem retireSteps_copies (info : DllInfo) (owned : Text) :
    (copyTargets (retireSteps backupDir info owned)).Sublist
      [joinPath backupDir (leafOf info.path)] := by
  unfold retireSteps
  split
  · exact List.nil_sublist _
  split <;> simp

include located in
theorem removeNativeSteps_copies :
    (copyTargets (removeNativeSteps s backupDir)).Sublist
      ([kLoader, kLicense, kNativeConfig].map (joinPath backupDir)) := by
  have loader := retireSteps_copies backupDir s.openxrLoader s.state.openxrLoaderSha
  have license := retireSteps_copies backupDir s.openxrLicense s.state.openxrLicenseSha
  have config := retireSteps_copies backupDir s.nativeConfig s.state.nativeConfigSha
  rw [located.openxrLoader, leafOf_joinPath _ (by decide)] at loader
  rw [located.openxrLicense, leafOf_joinPath _ (by decide)] at license
  rw [located.nativeConfig, leafOf_joinPath _ (by decide)] at config
  unfold removeNativeSteps
  split
  · simp only [copyTargets_append]
    exact (loader.append license).append config
  · exact List.nil_sublist _

theorem removeNgxSteps_copies : copyTargets (removeNgxSteps s) = [] := by
  unfold removeNgxSteps
  split <;> simp

theorem removeIniSteps_copies :
    (copyTargets (removeIniSteps s o backupDir)).Sublist [joinPath backupDir kIni] := by
  unfold removeIniSteps
  split
  · exact List.nil_sublist _
  split <;> simp [iniPath_leaf]

theorem removeRecordSteps_copies : copyTargets (removeRecordSteps s) = [] := by
  unfold removeRecordSteps
  split <;> split <;> simp

include located in
theorem uninstallBody_copies :
    (copyTargets (uninstallBody s o (backupDirOf s o))).Pairwise fun a b => ¬SameFile a b := by
  have copied := pairwise_of_names (show ∀ name ∈ leaveNames, FileName name by decide)
    (by decide) (backupDirOf s o)
  have all : (vrPath s :: leaveNames.map (joinPath (backupDirOf s o))).Pairwise
      fun a b => ¬SameFile a b := by
    refine List.pairwise_cons.mpr ⟨?_, copied⟩
    intro target member
    obtain ⟨name, listed, rfl⟩ := List.mem_map.mp member
    exact openvr_ne_copied located o ((show ∀ name ∈ leaveNames, name ≠ [] by decide) name listed)
  refine List.Pairwise.sublist ?_ ((List.perm_middle.pairwise_iff fun ne same => ne same.symm).mpr
    (show (vrPath s :: ([kD3d11, kOpenvr].map (joinPath (backupDirOf s o)) ++
      [kLoader, kLicense, kNativeConfig, kIni].map (joinPath (backupDirOf s o)))).Pairwise _ from all))
  unfold uninstallBody
  simp only [copyTargets_append, removeNgxSteps_copies, removeRecordSteps_copies, List.append_nil]
  exact (((removeD3d11Steps_copies _).append (removeOpenvrSteps_copies _)).append
    (removeNativeSteps_copies located _)).append (removeIniSteps_copies o _)

/-! ### What an uninstall deletes -/

/-- What an uninstall may delete: a DLL that is ours, a file the record owns, the
settings when they are to go, the record itself. -/
def Survey.Deletable (s : Survey) (o : Options) (path : Text) : Prop :=
  (∃ info ∈ [s.d3d11, s.openvrCurrent], info.kind = .edvr ∧ path = info.path) ∨
  (∃ file ∈ s.owned, path = file.1.path ∧ file.2 ≠ [] ∧ file.1.sha256 = file.2) ∨
  (o.removeSettings = true ∧ path = iniPath s) ∨
  path = statePath s.game.dir ∨ path = baseIniPath s.game.dir

def DeletesOurs (s : Survey) (o : Options) (step : Step) : Prop :=
  step.action = .delete → s.Deletable o step.source

@[simp] theorem deletesOurs_copy (dir path : Text) : DeletesOurs s o (.copy dir path) := nofun

@[simp] theorem deletesOurs_copyBack (source target : Text) :
    DeletesOurs s o (.copyBack source target) := nofun

@[simp] theorem deletesOurs_move (source target sha : Text) :
    DeletesOurs s o (.move source target sha) := nofun

@[simp] theorem deletesOurs_drop (path sha : Text) :
    DeletesOurs s o (.drop path sha) ↔ s.Deletable o path := by
  simp [DeletesOurs, Step.drop]

theorem retireSteps_deletes (info : DllInfo) (owned : Text) (listed : (info, owned) ∈ s.owned) :
    ∀ step ∈ retireSteps backupDir info owned, DeletesOurs s o step := by
  unfold retireSteps
  split
  · exact List.forall_mem_nil _
  split
  · exact List.forall_mem_nil _
  · rename_i owns
    push Not at owns
    simp only [List.forall_mem_cons, deletesOurs_copy, deletesOurs_drop, true_and]
    exact ⟨.inr (.inl ⟨_, listed, rfl, owns⟩), List.forall_mem_nil _⟩

include located in
theorem uninstallBody_deletes :
    ∀ step ∈ uninstallBody s o backupDir, DeletesOurs s o step := by
  unfold uninstallBody
  simp only [List.forall_mem_append]
  refine ⟨⟨⟨⟨⟨?_, ?_⟩, ?_⟩, ?_⟩, ?_⟩, ?_⟩
  · unfold removeD3d11Steps chainBackSteps
    split
    · rename_i ours
      simp only [List.forall_mem_append, List.forall_mem_cons, deletesOurs_copy, deletesOurs_drop,
        true_and]
      refine ⟨⟨.inl ⟨s.d3d11, by simp, ours, located.d3d11.symm⟩, List.forall_mem_nil _⟩, ?_⟩
      split
      · simp
      · exact List.forall_mem_nil _
    · exact List.forall_mem_nil _
  · unfold removeOpenvrSteps
    split
    · exact List.forall_mem_nil _
    split
    · rename_i ours
      split
      · simp only [List.forall_mem_cons, deletesOurs_copy, deletesOurs_drop, deletesOurs_move,
          true_and]
        exact ⟨.inl ⟨s.openvrCurrent, by simp, ours, located.openvrCurrent.symm⟩,
          List.forall_mem_nil _⟩
      · split
        · simp
        · exact List.forall_mem_nil _
    · exact List.forall_mem_nil _
  · unfold removeNativeSteps
    split
    · simp only [List.forall_mem_append]
      exact ⟨⟨retireSteps_deletes o backupDir _ _ (by simp [Survey.owned]),
        retireSteps_deletes o backupDir _ _ (by simp [Survey.owned])⟩,
        retireSteps_deletes o backupDir _ _ (by simp [Survey.owned])⟩
    · exact List.forall_mem_nil _
  · unfold removeNgxSteps
    split
    · rename_i ours
      simp only [List.forall_mem_cons, deletesOurs_drop]
      exact ⟨.inr (.inl ⟨(s.ngx, s.state.ngxSha), by simp [Survey.owned], located.ngx.symm, ours.2.1,
        ours.2.2.2.2⟩), List.forall_mem_nil _⟩
    · exact List.forall_mem_nil _
  · unfold removeIniSteps
    split
    · exact List.forall_mem_nil _
    split
    · rename_i settings
      simp only [List.forall_mem_cons, deletesOurs_copy, deletesOurs_drop, true_and]
      exact ⟨.inr (.inr (.inl ⟨settings, rfl⟩)), List.forall_mem_nil _⟩
    · exact List.forall_mem_nil _
  · unfold removeRecordSteps
    rw [List.forall_mem_append]
    constructor
    · split
      · simp only [List.forall_mem_cons, deletesOurs_drop]
        exact ⟨.inr (.inr (.inr (.inl rfl))), List.forall_mem_nil _⟩
      · exact List.forall_mem_nil _
    · split
      · simp only [List.forall_mem_cons, deletesOurs_drop]
        exact ⟨.inr (.inr (.inr (.inr rfl))), List.forall_mem_nil _⟩
      · exact List.forall_mem_nil _

/-! ### The plans -/

theorem backedUp_plain {before : List Step}
    (backed : BackedUp backupDir (before.map Step.plain) path) :
    BackedUp backupDir before path := by
  obtain ⟨step, member, copies⟩ := backed
  obtain ⟨original, inside, rfl⟩ := List.mem_map.mp member
  exact ⟨original, inside, copies⟩

theorem free_plain {before : List Step} (free : s.Free backupDir (before.map Step.plain) path) :
    s.Free backupDir before path :=
  fun found => (free found).imp_right fun h => h.imp_right (backedUp_plain backupDir)

theorem affects_makeDir {step : Step} (made : step.action = .makeDir) : step.affects = [] := by
  unfold Step.affects
  rw [made]

include located in
theorem planInstall_guarded (host : Host) :
    Justified (Guarded s (planInstall host s o p).backupDir) (planInstall host s o p).steps := by
  rcases planInstall_steps host s o p with none | ⟨forced, state, made, steps, dir, folders⟩
  · rw [none]
    exact .nil _
  rw [dir]
  have mono := @guarded_mono s (backupDirOf s o)
  have all : Justified (Guarded s (backupDirOf s o))
      ((planInstall host s o p).steps.map Step.plain) := by
    rw [steps]
    refine ((Justified.of_forall ?_).append mono
      (installBody_guarded located o p (backupDirOf s o) host forced)).append mono ?_
    · intro step member before path affected
      rw [affects_makeDir (folders step member)] at affected
      cases affected
    · simp only [Justified.cons_iff, Justified.nil, guarded_putText, and_true]
      exact ⟨by rintro _ ⟨⟩, fun _ => .inl (.inr (SameFile.refl _)),
        fun _ => .inl (.inl (SameFile.refl _))⟩
  exact all.of_map fun before step guarded path affected => free_plain _ (guarded path affected)

include located in
theorem planUninstall_guarded :
    Justified (GuardedBack s (planUninstall s o).backupDir) (planUninstall s o).steps := by
  rcases planUninstall_steps s o with none | ⟨made, steps, dir, folders⟩
  · rw [none]
    exact .nil _
  rw [dir]
  have all : Justified (GuardedBack s (backupDirOf s o))
      ((planUninstall s o).steps.map Step.plain) := by
    rw [steps]
    refine (Justified.of_forall ?_).append (guardedBack_mono _)
      (uninstallBody_guarded located o (backupDirOf s o))
    intro step member before path affected
    rw [affects_makeDir (folders step member)] at affected
    cases affected
  exact all.of_map fun before step guarded path affected =>
    (guarded path affected).imp_left (free_plain _)

include located in
/-- Nothing is destroyed without a copy of it, no copy overwrites another, and an
uninstall deletes what is ours only. -/
theorem plans_destroy_nothing (host : Host) :
    (Justified (Guarded s (planInstall host s o p).backupDir) (planInstall host s o p).steps ∧
      (copyTargets (planInstall host s o p).steps).Pairwise fun a b => ¬SameFile a b) ∧
    Justified (GuardedBack s (planUninstall s o).backupDir) (planUninstall s o).steps ∧
      (copyTargets (planUninstall s o).steps).Pairwise (fun a b => ¬SameFile a b) ∧
      ∀ step ∈ (planUninstall s o).steps, step.action = .delete → s.Deletable o step.source := by
  refine ⟨⟨planInstall_guarded located o p host, ?_⟩, planUninstall_guarded located o, ?_, ?_⟩
  · rcases planInstall_steps host s o p with none | ⟨forced, state, made, steps, -, folders⟩
    · rw [none]
      exact List.Pairwise.nil
    · rw [← copyTargets_plain, steps]
      simpa [copyTargets_makeDirs folders] using installBody_copies located o p _ host forced
  · rcases planUninstall_steps s o with none | ⟨made, steps, -, folders⟩
    · rw [none]
      exact List.Pairwise.nil
    · rw [← copyTargets_plain, steps]
      simpa [copyTargets_makeDirs folders] using uninstallBody_copies located o
  · intro step member deletes
    rcases planUninstall_steps s o with none | ⟨made, steps, -, folders⟩
    · rw [none] at member
      cases member
    · have plain : step.plain ∈ made ++ uninstallBody s o (backupDirOf s o) := by
        rw [← steps]
        exact List.mem_map_of_mem member
      rcases List.mem_append.mp plain with inside | inside
      · exact absurd ((folders _ inside).symm.trans deletes) (by decide)
      · exact uninstallBody_deletes located o _ step.plain inside deletes

end

def chainedSurvey : Survey where
  game := { dir := "g".toList, openvrDir := "g".toList }
  d3d11 := { kind := .edvr, path := "g\\d3d11.dll".toList, sha256 := "ours".toList }
  otherD3d11 :=
    [{ kind := .foreign, path := "g\\d3d11_edhm.dll".toList, sha256 := "theirs".toList }]
  ngx := { path := "g\\nvngx_dlss.dll".toList }
  openxrLoader := { path := "g\\openxr_loader.dll".toList }
  openxrLicense := { path := "g\\OPENXR-LOADER-LICENSE.txt".toList }
  nativeConfig := { path := "g\\edvr_openxr.ini".toList }
  openvrCurrent := { path := "g\\openvr_api.dll".toList }
  openvrOrig := { path := "g\\openvr_api_orig.dll".toList }
  openvrOrigName := kOpenvrOrig
  haveOpenvrDir := true
  state := { present := true, chainTarget := "d3d11_edhm.dll".toList }

theorem chainedSurvey_located : chainedSurvey.Located where
  ne_nil := by decide
  folder := by decide
  d3d11 := by decide
  ngx := by decide
  openxrLoader := by decide
  openxrLicense := by decide
  nativeConfig := by decide
  openvrCurrent := by decide
  openvrOrig := by decide
  openvrOrigName := by decide
  siblings := by
    intro info member
    rw [List.mem_singleton.mp member]
    exact ⟨by decide, "d3d11_edhm.dll".toList, by decide, by decide, by decide⟩
  backups := nofun

theorem plans_destroy_nothing_chained :
    chainedSurvey.Located ∧ (planUninstall chainedSurvey {}).steps ≠ [] ∧
      Justified (GuardedBack chainedSurvey (planUninstall chainedSurvey {}).backupDir)
        (planUninstall chainedSurvey {}).steps :=
  ⟨chainedSurvey_located, by decide +kernel,
    (plans_destroy_nothing chainedSurvey_located {} {} Host.plain).2.1⟩

/-- The mod is moved back under its own name, and there is no copy of it. -/
theorem planUninstall_moves_uncopied :
    chainedSurvey.Located ∧ chainedSurvey.Found "g\\d3d11_edhm.dll".toList ∧
      ¬Justified (Guarded chainedSurvey (planUninstall chainedSurvey {}).backupDir)
        (planUninstall chainedSurvey {}).steps := by
  have found : chainedSurvey.Found "g\\d3d11_edhm.dll".toList :=
    ⟨_, by decide +kernel, SameFile.refl _⟩
  refine ⟨chainedSurvey_located, found, fun guarded => ?_⟩
  have free := guarded ((planUninstall chainedSurvey {}).steps.take 3)
    ((planUninstall chainedSurvey {}).steps.getD 3 {}) [] (by decide +kernel)
    "g\\d3d11_edhm.dll".toList (by decide +kernel) found
  rcases free with (same | same) | ⟨file, member, -, ne, -⟩ | ⟨step, member, -, same, -⟩
  · exact absurd same (by decide +kernel)
  · exact absurd same (by decide +kernel)
  · revert file
    decide +kernel
  · revert step
    decide +kernel

end EdvrPatch.Installer
