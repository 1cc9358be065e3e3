import EdvrPatch.Installer.Paths
import EdvrPatch.Installer.PlanSteps
import EdvrPatch.OpenXr.LocalConfig

/-! The start-up configuration that an install writes, as the native runtime reads it. -/
namespace EdvrPatch.Installer

open OpenXr

def installedConfig (s : Survey) : LocalConfig :=
  { loader := loaderPath s
    graphics := d3d11Path s
    runtime := "system".toList
    separateDevice := true }

def configText (s : Survey) : Text :=
  nativeConfigText s.game.dir (nativeDirOf s)

section

variable {s : Survey}

theorem configText_lines (loader : OneLine (loaderPath s)) (graphics : OneLine (d3d11Path s)) :
    localLines (configText s) = ["[openxr]".toList, "version=1".toList,
      "loader".toList ++ '=' :: loaderPath s, "graphics".toList ++ '=' :: d3d11Path s,
      "runtime=system".toList, "separate_device=1".toList, []] := by
  have whole : configText s = "[openxr]".toList ++ '\r' :: '\n' ::
      ("version=1".toList ++ '\r' :: '\n' ::
        (("loader".toList ++ '=' :: loaderPath s) ++ '\r' :: '\n' ::
          (("graphics".toList ++ '=' :: d3d11Path s) ++ '\r' :: '\n' ::
            "runtime=system\r\nseparate_device=1\r\n".toList))) := by
    unfold configText nativeConfigText loaderPath d3d11Path
    simp
  rw [whole, localLines_append (by decide), localLines_append (by decide),
    localLines_append (oneLine_pair (by decide) loader),
    localLines_append (oneLine_pair (by decide) graphics)]
  rfl

theorem trimmed_path {dir name : Text} (path : LocalPath (joinPath dir name))
    (name_ : Trimmed name) : Trimmed (joinPath dir name) := by
  refine ⟨?_, ?_⟩
  · obtain ⟨absolute, -⟩ := path
    unfold localConfigAbsolute at absolute
    split at absolute
    · rename_i drive slash rest whole
      have letter : drive.isAlpha = true := by
        simp only [Bool.and_eq_true] at absolute
        exact absolute.2.1
      rw [whole, List.head?_cons, Option.map_some]
      refine congrArg some (Bool.eq_false_iff.mpr fun blank => ?_)
      rcases Bool.or_eq_true _ _ ▸ blank with blank | blank <;>
      · rw [beq_iff_eq.mp blank] at letter
        exact absurd letter (by decide)
    · simp at absolute
  · rw [joinPath_eq dir name_.ne_nil, List.getLast?_append,
      List.getLast?_eq_some_getLast name_.ne_nil, Option.some_or,
      ← List.getLast?_eq_some_getLast name_.ne_nil]
    exact name_.last

theorem parse_configText (loader : LocalPath (loaderPath s)) (graphics : LocalPath (d3d11Path s)) :
    parseLocalConfig (configText s) = some (installedConfig s) := by
  have loader_ : Trimmed (loaderPath s) := trimmed_path loader ⟨by decide, by decide⟩
  have graphics_ : Trimmed (d3d11Path s) := trimmed_path graphics ⟨by decide, by decide⟩
  unfold parseLocalConfig
  rw [configText_lines loader.2 graphics.2]
  have start : LocalReading.readLine {} "[openxr]".toList = some { inSection := true } := by
    decide
  have version : LocalReading.readLine { inSection := true } "version=1".toList =
      some { inSection := true, version := true } := by
    decide
  have third : LocalReading.readLine { inSection := true, version := true }
      ("loader".toList ++ '=' :: loaderPath s) =
        some { inSection := true, version := true, loader := true
               candidate := { loader := loaderPath s } } := by
    rw [readLine_pair rfl (by decide) ⟨by decide, by decide⟩ loader_]
    unfold LocalReading.readKey
    rw [if_neg (by decide), if_pos rfl, if_neg (by simp [loader.1])]
  have fourth : LocalReading.readLine
      { inSection := true, version := true, loader := true
        candidate := { loader := loaderPath s } } ("graphics".toList ++ '=' :: d3d11Path s) =
      some { inSection := true, version := true, loader := true, graphics := true
             candidate := { loader := loaderPath s, graphics := d3d11Path s } } := by
    rw [readLine_pair rfl (by decide) ⟨by decide, by decide⟩ graphics_]
    unfold LocalReading.readKey
    rw [if_neg (by decide), if_neg (by decide), if_pos rfl, if_neg (by simp [graphics.1])]
  simp only [List.foldlM_cons, start, version, third, fourth, Option.bind_eq_bind, Option.bind_some]
  rfl

theorem localPath_solid {path : Text} (taken : LocalPath path) : '\x00' ∉ path := by
  obtain ⟨absolute, -⟩ := taken
  unfold localConfigAbsolute at absolute
  simp only [Bool.and_eq_true] at absolute
  simpa using absolute.1.2

/-- The runtime reads the text as it was meant exactly where both paths are from the
root of a drive and the file is not too long. -/
theorem readLocalConfig_configText :
    readLocalConfig (.bytes (configText s).utf8Encode) = (.ready, installedConfig s) ↔
      LocalPath (loaderPath s) ∧ LocalPath (d3d11Path s) ∧
        (configText s).utf8Encode.size ≤ 65536 := by
  rw [readLocalConfig_encode]
  constructor
  · rintro ⟨small, -, -, parsed⟩
    obtain ⟨loader, graphics⟩ := parseLocalConfig_checked parsed
    exact ⟨loader, graphics, small⟩
  · rintro ⟨loader, graphics, small⟩
    refine ⟨small, ?_, ?_, parse_configText loader graphics⟩
    · unfold configText nativeConfigText
      have loader := localPath_solid loader
      have graphics := localPath_solid graphics
      simp only [List.mem_append, not_or]
      exact ⟨⟨⟨⟨by decide, loader⟩, by decide⟩, graphics⟩, by decide⟩
    · unfold configText nativeConfigText
      simp

/-! ### The step that writes it -/

section

variable (s) (o : Options) (p : PayloadInfo) (backupDir : Text)

theorem d3d11Steps_files : ∀ step ∈ d3d11Steps s o p backupDir, step.action ≠ .writeText := by
  unfold d3d11Steps chainSteps
  repeat' split
  all_goals simp [Step.copy, Step.move, Step.put]

theorem ngxSteps_files : ∀ step ∈ ngxSteps s o p backupDir, step.action ≠ .writeText := by
  unfold ngxSteps
  dsimp only
  repeat' split
  all_goals simp [Step.copy, Step.put]

theorem openvrSteps_files : ∀ step ∈ openvrSteps s o p backupDir, step.action ≠ .writeText := by
  unfold openvrSteps keepSteps
  repeat' split
  all_goals simp [Step.copyOf, Step.move, Step.put]

theorem assetSteps_files (current : DllInfo) (path item wanted : Text) :
    ∀ step ∈ assetSteps o backupDir current path item wanted, step.action ≠ .writeText := by
  unfold assetSteps replaceSteps
  repeat' split
  all_goals simp [Step.copyOf, Step.put]

theorem configSteps_texts (host : Host) :
    ∀ step ∈ configSteps host s o backupDir, step.action = .writeText →
      step = .putText (configText s) (configPath s) := by
  unfold configSteps replaceSteps configText
  dsimp only
  repeat' split
  all_goals simp [Step.copyOf, Step.putText]

theorem iniSteps_texts (forced : List (Text × Text)) :
    ∀ step ∈ iniSteps s o p backupDir forced, step.action = .writeText →
      step = .putText (mergedIni s o p forced) (iniPath s) := by
  unfold iniSteps
  dsimp only
  repeat' split
  all_goals simp [Step.copy, Step.putText]

end

theorem joinPath_ne_configPath (dir : Text) {name : Text} (isName : FileName name)
    (other : name ≠ kNativeConfig) : joinPath dir name ≠ configPath s := by
  intro same
  have leaf := congrArg leafOf same
  unfold configPath at leaf
  rw [leafOf_joinPath dir isName, leafOf_joinPath _ (by decide)] at leaf
  exact other leaf

theorem installBody_config {host : Host} {o : Options} {p : PayloadInfo} {backupDir : Text}
    {forced : List (Text × Text)} {step : Step}
    (planned : step ∈ installBody host s o p backupDir forced) (writes : step.action = .writeText)
    (target : step.target = configPath s) : step.text = configText s := by
  unfold installBody at planned
  simp only [List.mem_append] at planned
  rcases planned with (((((file | file) | file) | file) | file) | config) | ini
  · exact absurd writes (d3d11Steps_files s o p backupDir step file)
  · exact absurd writes (ngxSteps_files s o p backupDir step file)
  · exact absurd writes (openvrSteps_files s o p backupDir step file)
  · exact absurd writes (assetSteps_files o backupDir _ _ _ _ step file)
  · exact absurd writes (assetSteps_files o backupDir _ _ _ _ step file)
  · rw [configSteps_texts s o backupDir host step config writes]
    rfl
  · rw [iniSteps_texts s o p backupDir forced step ini writes] at target
    exact absurd target (joinPath_ne_configPath _ (by decide) (by decide))

theorem planInstall_config {host : Host} {o : Options} {p : PayloadInfo} {step : Step}
    (planned : step ∈ (planInstall host s o p).steps) (writes : step.action = .writeText)
    (target : step.target = configPath s) : step.text = configText s := by
  rcases planInstall_steps host s o p with none_ | ⟨forced, state, made, steps, -, folders⟩
  · rw [none_] at planned
    cases planned
  have plain : step.plain ∈ (planInstall host s o p).steps.map Step.plain :=
    List.mem_map_of_mem planned
  rw [steps, List.mem_append, List.mem_append] at plain
  rcases plain with (folder | body) | record
  · cases (folders step.plain folder).symm.trans writes
  · have done := installBody_config body writes target
    exact done
  · simp only [List.mem_cons, List.not_mem_nil, or_false] at record
    rcases record with same | same | same
    · cases (congrArg Step.action same).symm.trans writes
    · exact absurd ((congrArg Step.target same).symm.trans target)
        (joinPath_ne_configPath _ (by decide) (by decide))
    · exact absurd ((congrArg Step.target same).symm.trans target)
        (joinPath_ne_configPath _ (by decide) (by decide))

/-- What an install writes for the runtime reads as the paths that were put in, exactly
where both are paths from the root of a drive that a line can hold, and the file is not
too long. -/
theorem planInstall_config_ready_iff {host : Host} {o : Options} {p : PayloadInfo} {step : Step}
    (planned : step ∈ (planInstall host s o p).steps) (writes : step.action = .writeText)
    (target : step.target = configPath s) :
    readLocalConfig (.bytes step.text.utf8Encode) = (.ready, installedConfig s) ↔
      LocalPath (loaderPath s) ∧ LocalPath (d3d11Path s) ∧
        step.text.utf8Encode.size ≤ 65536 := by
  rw [planInstall_config planned writes target]
  exact readLocalConfig_configText

end

/-- A folder that an install goes to, with nothing of ours there yet. -/
def bareSurvey (dir : Text) : Survey :=
  { game := { dir }, eliteProfileValid := true }

def wholePayload : PayloadInfo :=
  { haveD3d11 := true, haveOpenvr := true, haveOpenxrLoader := true, haveOpenxrLicense := true
    nativePairValid := true, iniText := "[a]\nk = 1\n".toList }

def driveFolder : Text :=
  "C:\\Spiele = älter\\ED".toList

theorem planInstall_config_ready_drive :
    ∃ step ∈ (planInstall Host.plain (bareSurvey driveFolder) {} wholePayload).steps,
      readLocalConfig (.bytes step.text.utf8Encode) =
        (.ready, installedConfig (bareSurvey driveFolder)) := by
  have planned : (planInstall Host.plain (bareSurvey driveFolder) {} wholePayload).steps.getD 5
      {} ∈ (planInstall Host.plain (bareSurvey driveFolder) {} wholePayload).steps := by
    decide +kernel
  refine ⟨_, planned, (planInstall_config_ready_iff planned (by decide +kernel)
    (by decide +kernel)).mpr ⟨⟨by decide, by decide⟩, ⟨by decide, by decide⟩, ?_⟩⟩
  decide +kernel

/-- A folder on a share is installed to, and the runtime does not take its paths. -/
theorem share_config_not_ready :
    (planInstall Host.plain (bareSurvey "\\\\pc\\games\\ED".toList) {} wholePayload).blocked =
      false ∧
    ∃ step ∈ (planInstall Host.plain (bareSurvey "\\\\pc\\games\\ED".toList) {}
        wholePayload).steps,
      step.action = .writeText ∧ step.target = configPath (bareSurvey "\\\\pc\\games\\ED".toList) ∧
        ∀ config, readLocalConfig (.bytes step.text.utf8Encode) ≠ (.ready, config) := by
  refine ⟨by decide +kernel, (planInstall Host.plain (bareSurvey "\\\\pc\\games\\ED".toList) {}
    wholePayload).steps.getD 5 {}, by decide +kernel, by decide +kernel, by decide +kernel,
    fun config ready => ?_⟩
  obtain ⟨-, -, -, parsed⟩ := (readLocalConfig_encode _ config).mp ready
  have fault : parseLocalConfig ((planInstall Host.plain (bareSurvey "\\\\pc\\games\\ED".toList) {}
    wholePayload).steps.getD 5 {}).text = none := by
    decide +kernel
  cases fault.symm.trans parsed

end EdvrPatch.Installer
