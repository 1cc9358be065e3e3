import EdvrPatch.Installer.PlanCopies

/-! Plans are confined to the game, whatever the texts say. -/
namespace EdvrPatch.Installer

open Lib Ini

def Step.paths (step : Step) : List Text :=
  match step.action with
  | .makeDir => []
  | .backup => [step.source, step.target]
  | .rename => [step.source, step.target]
  | .writePayload => [step.target]
  | .writeText => [step.target]
  | .delete => [step.source]

def builtinNames : List Text :=
  [kD3d11, kIni, kOpenvr, kOpenvrOrig, kNgx, kLoader, kLicense, kNativeConfig, "state.ini".toList,
    "edvr.ini.base".toList] ++ chainNames

/-- A name that a text names: the install record, or `advanced.real_dll`. It has
passed the check on such names. -/
def Survey.FromText (s : Survey) (name : Text) : Prop :=
  ∃ value ∈ [s.state.chainTarget, iniValue s.iniText "advanced.real_dll".toList []],
    value ≠ [] ∧ safeSiblingName value kD3d11 = value ∧ sameKey name value

/-- A direct child of one of the folders of the game, and where its name is from. -/
def Survey.Confined (s : Survey) (backupDir path : Text) : Prop :=
  ∃ folder ∈ [s.game.dir, s.game.openvrDir, backupDir, stateDirPath s.game.dir], ∃ name,
    FileName name ∧ path = joinPath folder name ∧ (name ∈ builtinNames ∨ s.FromText name)

def Survey.RestoredCopy (s : Survey) (step : Step) : Prop :=
  step.action = .backup ∧ step.target = vrPath s ∧ ∃ stamp, FileName stamp ∧
    step.source = joinPath (joinPath (backupRootPath s.game.dir) stamp) kOpenvr

theorem safeSiblingName_cases (value other : Text) :
    safeSiblingName value other = [] ∨ safeSiblingName value other = value ∧ value ≠ [] ∧
      (∀ c ∈ value, c ∉ "\\/:*?\"<>|".toList) ∧ hasDotDot value = false ∧
      ¬sameKey value other := by
  unfold safeSiblingName
  split
  · exact .inl rfl
  rename_i ne
  split
  · exact .inl rfl
  rename_i plain
  split
  · exact .inl rfl
  rename_i dots
  split
  · exact .inl rfl
  rename_i apart
  split
  · exact .inl rfl
  refine .inr ⟨rfl, ne, ?_, ?_, apart⟩
  · intro c member bad
    exact plain (List.any_eq_true.mpr ⟨c, member, decide_eq_true bad⟩)
  · by_contra has
    exact dots (.inr (.inr (by simpa using has)))

theorem safeSiblingName_plain {value other : Text} (safe : safeSiblingName value other = value)
    (ne : value ≠ []) : FileName value ∧ ':' ∉ value ∧ hasDotDot value = false := by
  rcases safeSiblingName_cases value other with empty | ⟨-, -, plain, dots, -⟩
  · exact absurd (safe.symm.trans empty) ne
  refine ⟨⟨ne, ?_⟩, ?_, dots⟩
  · intro c member
    by_contra slash
    refine plain c member ?_
    have either : c = '\\' ∨ c = '/' := or_iff_not_imp_left.mpr (by simpa [isSlash] using slash)
    rcases either with rfl | rfl <;> decide
  · intro member
    exact plain ':' member (by decide)

section

variable {s : Survey} {backupDir : Text}

variable {name : Text}

theorem confined_builtin {folder : Text}
    (inside : folder ∈ [s.game.dir, s.game.openvrDir, backupDir, stateDirPath s.game.dir])
    (known : name ∈ builtinNames) : s.Confined backupDir (joinPath folder name) :=
  ⟨folder, inside, name, (show ∀ name ∈ builtinNames, FileName name by decide) name known, rfl,
    .inl known⟩

variable {path : Text}

theorem Survey.Confined.copied (confined : s.Confined backupDir path) :
    s.Confined backupDir (joinPath backupDir (leafOf path)) := by
  obtain ⟨folder, -, name, isName, rfl, source⟩ := confined
  rw [leafOf_joinPath folder isName]
  exact ⟨backupDir, by simp, name, isName, rfl, source⟩

def StepConfined (s : Survey) (backupDir : Text) (step : Step) : Prop :=
  ∀ path ∈ step.paths, s.Confined backupDir path

theorem stepConfined_copy (confined : s.Confined backupDir path) :
    StepConfined s backupDir (.copy backupDir path) := by
  simp only [StepConfined, Step.copy, Step.paths, List.forall_mem_cons]
  exact ⟨confined, confined.copied, List.forall_mem_nil _⟩

theorem stepConfined_copyOf (sha : Text) (confined : s.Confined backupDir path) :
    StepConfined s backupDir (.copyOf backupDir path sha) :=
  stepConfined_copy confined

variable {target : Text}

theorem stepConfined_move {source : Text} (sha : Text) (old : s.Confined backupDir source)
    (new : s.Confined backupDir target) : StepConfined s backupDir (.move source target sha) := by
  simp only [StepConfined, Step.move, Step.paths, List.forall_mem_cons]
  exact ⟨old, new, List.forall_mem_nil _⟩

theorem stepConfined_put (item : Text) (confined : s.Confined backupDir target) :
    StepConfined s backupDir (.put item target) := by
  simpa [StepConfined, Step.put, Step.paths] using confined

theorem stepConfined_putText (text : Text) (confined : s.Confined backupDir target) :
    StepConfined s backupDir (.putText text target) := by
  simpa [StepConfined, Step.putText, Step.paths] using confined

theorem stepConfined_drop (sha : Text) (confined : s.Confined backupDir path) :
    StepConfined s backupDir (.drop path sha) := by
  simpa [StepConfined, Step.drop, Step.paths] using confined

theorem d3d11Path_confined : s.Confined backupDir (d3d11Path s) :=
  confined_builtin (by simp) (by decide)

theorem ngxPath_confined : s.Confined backupDir (ngxPath s) :=
  confined_builtin (by simp) (by decide)

theorem iniPath_confined : s.Confined backupDir (iniPath s) :=
  confined_builtin (by simp) (by decide)

theorem chainPath_confined : s.Confined backupDir (chainPath s) :=
  confined_builtin (by simp) (List.mem_append_right _ (chainNameFor_mem s.d3d11))

theorem statePath_confined : s.Confined backupDir (statePath s.game.dir) :=
  confined_builtin (by simp) (by decide)

theorem baseIniPath_confined : s.Confined backupDir (baseIniPath s.game.dir) :=
  confined_builtin (by simp) (by decide)

theorem Survey.Located.native_confined (located : s.Located) (known : name ∈ builtinNames) :
    s.Confined backupDir (joinPath (nativeDirOf s) name) := by
  rw [located.nativeDir]
  exact confined_builtin (by simp) known

/-! ### The arms of an install -/

variable (located : s.Located) (o : Options) (p : PayloadInfo)

theorem d3d11Steps_confined :
    ∀ step ∈ d3d11Steps s o p backupDir, StepConfined s backupDir step := by
  have foreign : ∀ step ∈ chainSteps s backupDir, StepConfined s backupDir step := by
    unfold chainSteps
    rw [List.forall_mem_append]
    constructor
    · split
      · exact List.forall_mem_singleton.mpr (stepConfined_copy chainPath_confined)
      · exact List.forall_mem_nil _
    · simp only [List.forall_mem_cons]
      exact ⟨stepConfined_copy d3d11Path_confined,
        stepConfined_move _ d3d11Path_confined chainPath_confined,
        stepConfined_put _ d3d11Path_confined, List.forall_mem_nil _⟩
  unfold d3d11Steps
  split
  · exact List.forall_mem_nil _
  cases s.d3d11.kind with
  | unreadable => exact List.forall_mem_nil _
  | openVrRuntime => exact foreign
  | d3d11Provider => exact foreign
  | foreign => exact foreign
  | absent => exact List.forall_mem_singleton.mpr (stepConfined_put _ d3d11Path_confined)
  | edvr =>
    dsimp only
    split
    · exact List.forall_mem_nil _
    · simp only [List.forall_mem_cons]
      exact ⟨stepConfined_copy d3d11Path_confined, stepConfined_put _ d3d11Path_confined,
        List.forall_mem_nil _⟩

theorem ngxSteps_confined : ∀ step ∈ ngxSteps s o p backupDir, StepConfined s backupDir step := by
  unfold ngxSteps
  dsimp only
  split
  · split
    · exact List.forall_mem_nil _
    split
    · exact List.forall_mem_nil _
    split
    · exact List.forall_mem_nil _
    split
    · exact List.forall_mem_nil _
    rw [List.forall_mem_append]
    constructor
    · split
      · exact List.forall_mem_singleton.mpr (stepConfined_copy ngxPath_confined)
      · exact List.forall_mem_nil _
    · exact List.forall_mem_singleton.mpr (stepConfined_put _ ngxPath_confined)
  · exact List.forall_mem_nil _

include located in
theorem openvrSteps_confined :
    ∀ step ∈ openvrSteps s o p backupDir, StepConfined s backupDir step := by
  have openvr : s.Confined backupDir (openvrPath s) := located.native_confined (by decide)
  have original : s.Confined backupDir (originalPath s) := by
    unfold originalPath
    rw [located.originalName]
    exact located.native_confined (by decide)
  have kept : ∀ step ∈ keepSteps s backupDir, StepConfined s backupDir step := by
    unfold keepSteps
    split
    · rw [List.forall_mem_append]
      constructor
      · split
        · exact List.forall_mem_singleton.mpr (stepConfined_copyOf _ original)
        · exact List.forall_mem_nil _
      · exact List.forall_mem_singleton.mpr (stepConfined_move _ openvr original)
    · exact List.forall_mem_nil _
  unfold openvrSteps
  split
  · exact List.forall_mem_nil _
  rw [List.forall_mem_append]
  constructor
  · split
    · exact List.forall_mem_nil _
    · exact List.forall_mem_cons.mpr ⟨stepConfined_copyOf _ openvr, kept⟩
  · exact List.forall_mem_singleton.mpr (stepConfined_put _ openvr)

theorem replaceSteps_confined {current : DllInfo} {write : Step}
    (confined : s.Confined backupDir path) (writes : StepConfined s backupDir write) :
    ∀ step ∈ replaceSteps backupDir current path write, StepConfined s backupDir step := by
  unfold replaceSteps
  split
  · exact List.forall_mem_singleton.mpr writes
  · simp only [List.forall_mem_cons]
    exact ⟨stepConfined_copyOf _ confined, writes, List.forall_mem_nil _⟩

theorem assetSteps_confined (current : DllInfo) (item wanted : Text)
    (confined : s.Confined backupDir path) :
    ∀ step ∈ assetSteps o backupDir current path item wanted, StepConfined s backupDir step := by
  unfold assetSteps
  split
  · exact List.forall_mem_nil _
  · exact replaceSteps_confined confined (stepConfined_put _ confined)

include located in
theorem installBody_confined (host : Host) (forced : List (Text × Text)) :
    ∀ step ∈ installBody host s o p backupDir forced, StepConfined s backupDir step := by
  have config : s.Confined backupDir (configPath s) := located.native_confined (by decide)
  unfold installBody
  simp only [List.forall_mem_append]
  refine ⟨⟨⟨⟨⟨⟨d3d11Steps_confined o p, ngxSteps_confined o p⟩, openvrSteps_confined located o p⟩,
    assetSteps_confined o _ _ _ (located.native_confined (by decide))⟩,
    assetSteps_confined o _ _ _ (located.native_confined (by decide))⟩, ?_⟩, ?_⟩
  · unfold configSteps
    dsimp only
    split
    · exact replaceSteps_confined config (stepConfined_putText _ config)
    · exact List.forall_mem_nil _
  · unfold iniSteps
    split
    · exact List.forall_mem_nil _
    rw [List.forall_mem_append]
    constructor
    · split
      · exact List.forall_mem_singleton.mpr (stepConfined_copy iniPath_confined)
      · exact List.forall_mem_nil _
    · split
      · exact List.forall_mem_nil _
      · exact List.forall_mem_singleton.mpr (stepConfined_putText _ iniPath_confined)

/-! ### The arms of an uninstall -/

/-- Every path of a step is confined, the source of a restored copy apart. -/
def StepConfinedBack (s : Survey) (backupDir : Text) (step : Step) : Prop :=
  ∀ path ∈ step.paths, s.Confined backupDir path ∨ s.RestoredCopy step ∧ path = step.source

theorem StepConfined.back {step : Step} (confined : StepConfined s backupDir step) :
    StepConfinedBack s backupDir step :=
  fun path member => .inl (confined path member)

theorem recordedChain_fromText (ne : recordedChain s ≠ []) (same : sameKey name (recordedChain s)) :
    s.FromText name := by
  unfold recordedChain at ne same
  rcases safeSiblingName_cases s.state.chainTarget kD3d11 with empty | ⟨safe, given, -⟩
  · rw [if_pos empty] at ne same
    rcases safeSiblingName_cases (iniValue s.iniText "advanced.real_dll".toList []) kD3d11 with
      none | ⟨safe, given, -⟩
    · exact absurd none ne
    · rw [safe] at same
      exact ⟨_, by simp, given, safe, same⟩
  · have used : safeSiblingName s.state.chainTarget kD3d11 ≠ [] := by
      rw [safe]
      exact given
    rw [if_neg used, safe] at same
    exact ⟨_, by simp, given, safe, same⟩

include located in
theorem chainFile_confined {info : DllInfo} (chained : chainFile s = some info) :
    s.Confined backupDir info.path := by
  unfold chainFile at chained
  split at chained
  · cases chained
  rename_i ne
  obtain ⟨found, -⟩ := Option.filter_eq_some_iff.mp chained
  obtain ⟨-, name, isName, -, path⟩ := located.siblings info (List.mem_of_find?_eq_some found)
  have same : sameKey (leafOf info.path) (recordedChain s) := by
    simpa using List.find?_some found
  rw [path, leafOf_joinPath _ isName] at same
  exact ⟨s.game.dir, by simp, name, isName, path, .inr (recordedChain_fromText ne same)⟩

include located in
theorem removeOpenvrSteps_confined :
    ∀ step ∈ removeOpenvrSteps s backupDir, StepConfinedBack s backupDir step := by
  have openvr : s.Confined backupDir (vrPath s) := confined_builtin (by simp) (by decide)
  have original : s.Confined backupDir (vrOriginalPath s) := by
    unfold vrOriginalPath
    rw [located.originalName]
    exact confined_builtin (by simp) (by decide)
  unfold removeOpenvrSteps
  split
  · exact List.forall_mem_nil _
  split
  · split
    · simp only [List.forall_mem_cons]
      exact ⟨(stepConfined_copy openvr).back, (stepConfined_drop _ openvr).back,
        (stepConfined_move _ original openvr).back, List.forall_mem_nil _⟩
    · cases backups : s.openvrOrigInBackups with
      | nil => exact List.forall_mem_nil _
      | cons copy older =>
        simp only [List.forall_mem_cons]
        refine ⟨(stepConfined_copy openvr).back, ?_, List.forall_mem_nil _⟩
        intro path member
        rcases List.mem_cons.mp member with rfl | member
        · have listed : path ∈ s.openvrOrigInBackups := by
            rw [backups]
            exact List.mem_cons_self
          exact .inr ⟨⟨rfl, rfl, located.backups path listed⟩, rfl⟩
        · rw [List.mem_singleton.mp member]
          exact .inl openvr
  · exact List.forall_mem_nil _

theorem retireSteps_confined (info : DllInfo) (owned : Text)
    (confined : s.Confined backupDir info.path) :
    ∀ step ∈ retireSteps backupDir info owned, StepConfinedBack s backupDir step := by
  unfold retireSteps
  split
  · exact List.forall_mem_nil _
  split
  · exact List.forall_mem_nil _
  · simp only [List.forall_mem_cons]
    exact ⟨(stepConfined_copy confined).back, (stepConfined_drop _ confined).back,
      List.forall_mem_nil _⟩

include located in
theorem uninstallBody_confined :
    ∀ step ∈ uninstallBody s o backupDir, StepConfinedBack s backupDir step := by
  unfold uninstallBody
  simp only [List.forall_mem_append]
  refine ⟨⟨⟨⟨⟨?_, removeOpenvrSteps_confined located⟩, ?_⟩, ?_⟩, ?_⟩, ?_⟩
  · unfold removeD3d11Steps chainBackSteps
    split
    · simp only [List.forall_mem_append, List.forall_mem_cons]
      refine ⟨⟨(stepConfined_copy d3d11Path_confined).back,
        (stepConfined_drop _ d3d11Path_confined).back, List.forall_mem_nil _⟩, ?_⟩
      split
      · rename_i info chained
        exact List.forall_mem_singleton.mpr
          (stepConfined_move _ (chainFile_confined located chained) d3d11Path_confined).back
      · exact List.forall_mem_nil _
    · exact List.forall_mem_nil _
  · unfold removeNativeSteps
    split
    · simp only [List.forall_mem_append]
      refine ⟨⟨retireSteps_confined _ _ ?_, retireSteps_confined _ _ ?_⟩,
        retireSteps_confined _ _ ?_⟩
      · rw [located.openxrLoader]
        exact confined_builtin (by simp) (by decide)
      · rw [located.openxrLicense]
        exact confined_builtin (by simp) (by decide)
      · rw [located.nativeConfig]
        exact confined_builtin (by simp) (by decide)
    · exact List.forall_mem_nil _
  · unfold removeNgxSteps
    split
    · exact List.forall_mem_singleton.mpr (stepConfined_drop _ ngxPath_confined).back
    · exact List.forall_mem_nil _
  · unfold removeIniSteps
    split
    · exact List.forall_mem_nil _
    split
    · simp only [List.forall_mem_cons]
      exact ⟨(stepConfined_copy iniPath_confined).back, (stepConfined_drop _ iniPath_confined).back,
        List.forall_mem_nil _⟩
    · exact List.forall_mem_nil _
  · unfold removeRecordSteps
    rw [List.forall_mem_append]
    constructor
    · split
      · exact List.forall_mem_singleton.mpr (stepConfined_drop _ statePath_confined).back
      · exact List.forall_mem_nil _
    · split
      · exact List.forall_mem_singleton.mpr (stepConfined_drop _ baseIniPath_confined).back
      · exact List.forall_mem_nil _

theorem paths_makeDir {step : Step} (made : step.action = .makeDir) : step.paths = [] := by
  unfold Step.paths
  rw [made]

include located in
/-- Whatever the texts of the folder say, no plan leaves the folders of the game;
and what a name from a text has passed rules out every way out of them. -/
theorem plans_confined (host : Host) :
    (∀ step ∈ (planInstall host s o p).steps, ∀ path ∈ step.paths,
      s.Confined (planInstall host s o p).backupDir path) ∧
    (∀ step ∈ (planUninstall s o).steps, ∀ path ∈ step.paths,
      s.Confined (planUninstall s o).backupDir path ∨ s.RestoredCopy step ∧ path = step.source) ∧
    ∀ value, value ≠ [] → safeSiblingName value kD3d11 = value →
      FileName value ∧ ':' ∉ value ∧ hasDotDot value = false := by
  refine ⟨?_, ?_, fun value ne safe => safeSiblingName_plain safe ne⟩
  · intro step member
    rcases planInstall_steps host s o p with none | ⟨forced, state, made, steps, dir, folders⟩
    · rw [none] at member
      cases member
    rw [dir]
    have plain : step.plain ∈ (planInstall host s o p).steps.map Step.plain :=
      List.mem_map_of_mem member
    rw [steps] at plain
    rcases List.mem_append.mp plain with inside | inside
    · rcases List.mem_append.mp inside with inside | inside
      · have none : step.paths = [] := paths_makeDir (folders step.plain inside)
        rw [none]
        exact List.forall_mem_nil _
      · exact installBody_confined located o p host forced step.plain inside
    · have last : ∀ step ∈ [Step.folder (stateDirPath s.game.dir),
          .putText p.iniText (baseIniPath s.game.dir),
          .putText (serializeState state) (statePath s.game.dir)],
          StepConfined s (backupDirOf s o) step := by
        simp only [List.forall_mem_cons]
        exact ⟨nofun, stepConfined_putText _ baseIniPath_confined,
          stepConfined_putText _ statePath_confined, List.forall_mem_nil _⟩
      exact last step.plain inside
  · intro step member
    rcases planUninstall_steps s o with none | ⟨made, steps, dir, folders⟩
    · rw [none] at member
      cases member
    rw [dir]
    have plain : step.plain ∈ (planUninstall s o).steps.map Step.plain :=
      List.mem_map_of_mem member
    rw [steps] at plain
    rcases List.mem_append.mp plain with inside | inside
    · have none : step.paths = [] := paths_makeDir (folders step.plain inside)
      rw [none]
      exact List.forall_mem_nil _
    · exact uninstallBody_confined located o step.plain inside

end

/-- Ours in the place of a runtime that is left in an older backup only. -/
def lostSurvey : Survey :=
  { chainedSurvey with
    openvrCurrent := { kind := .edvr, path := "g\\openvr_api.dll".toList, sha256 := "ours".toList }
    openvrOrigInBackups := ["g\\edvr_backup\\first\\openvr_api.dll".toList] }

theorem lostSurvey_located : lostSurvey.Located :=
  { chainedSurvey_located with
    openvrCurrent := by decide
    backups := by
      intro copy member
      rw [List.mem_singleton.mp member]
      exact ⟨"first".toList, by decide, by decide⟩ }

theorem plans_confined_chained :
    chainedSurvey.Located ∧ (planUninstall chainedSurvey {}).steps ≠ [] ∧
      ∀ step ∈ (planUninstall chainedSurvey {}).steps, ∀ path ∈ step.paths,
        chainedSurvey.Confined (planUninstall chainedSurvey {}).backupDir path ∨
          chainedSurvey.RestoredCopy step ∧ path = step.source :=
  ⟨chainedSurvey_located, by decide +kernel,
    (plans_confined chainedSurvey_located {} {} Host.plain).2.1⟩

/-- The copy that is put back comes out of the folder of an earlier run. -/
theorem planUninstall_reads_older_backup :
    lostSurvey.Located ∧ ∃ step ∈ (planUninstall lostSurvey {}).steps, ∃ path ∈ step.paths,
      step.action = .backup ∧
        ¬lostSurvey.Confined (planUninstall lostSurvey {}).backupDir path := by
  refine ⟨lostSurvey_located, (planUninstall lostSurvey {}).steps.getD 5 {}, by decide +kernel,
    "g\\edvr_backup\\first\\openvr_api.dll".toList, by decide +kernel, by decide +kernel, ?_⟩
  rintro ⟨folder, inside, name, isName, path, -⟩
  have leaf := congrArg leafOf path
  rw [leafOf_joinPath folder isName] at leaf
  rw [← leaf] at path
  revert folder
  decide +kernel

end EdvrPatch.Installer
