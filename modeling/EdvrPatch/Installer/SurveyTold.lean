import EdvrPatch.Installer.PlanSafety

/-! What the survey of a folder says about the folder, which is what both planners go by. -/
namespace EdvrPatch.Installer

open Lib FileSystem

def Withheld (images : ImageReader) (path content : Text) : Prop :=
  images.opens path = false ∨ images.reads path = false ∨ images.maps path = false ∨ content = [] ∨
    maxImageSize < content.length ∨ (images.parsePe content).parsed = false

/-- What is said of a file. One that does not open is there and unreadable, and one that is
not withheld is known by its own hash. -/
structure Looked (host : Host) (images : ImageReader) (fs : FileSystem) (path : Text) (info : DllInfo) :
    Prop where
  place : info.path = path
  absent : info.kind = .absent ↔ fs.read path = none
  locked : ∀ content, fs.read path = some content → images.opens path = false → info.kind = .unreadable
  hash : ∀ content, fs.read path = some content → info.kind ≠ .unreadable →
    info.sha256 = if images.readable path then host.sha256 content else []
  withheld : ∀ content, fs.read path = some content → info.kind = .unreadable →
    Withheld images path content

/-- What a survey found is there, what is there of the files that it looks for was found, and
of each of them it says what there is. -/
structure Survey.Tells (s : Survey) (host : Host) (images : ImageReader) (fs : FileSystem) : Prop where
  there : ∀ path, s.Found path → fs.fileExists path = true
  named : ∀ entry ∈ s.named, fs.fileExists entry.2.path = true → s.Found entry.2.path
  siblings : ∀ name, FileName name → likeD3d11 (lower name) = true →
    fs.fileExists (joinPath s.game.dir name) = true → s.Found (joinPath s.game.dir name)
  texts : ∀ path ∈ [iniPath s, statePath s.game.dir, baseIniPath s.game.dir],
    fs.fileExists path = true → s.Found path
  looked : ∀ info ∈ s.named.map Prod.snd ++ s.otherD3d11, Looked host images fs info.path info

theorem drop_dirPrefix (dir name : Text) :
    (lower (dirPrefix dir ++ name)).drop (dirPrefix dir).length = lower name := by
  rw [lower_append, ← length_lower (dirPrefix dir), List.drop_left]

theorem nameBelow_eq_some {dir path name : Text} (below : nameBelow dir path = some name) :
    FileName name ∧ path = lower (dirPrefix dir ++ name) ∧ lower name = name := by
  unfold nameBelow at below
  dsimp only at below
  split at below
  · rename_i split
    injection below with name_eq
    rw [name_eq] at split
    exact ⟨split.2, split.1, by rw [← drop_dirPrefix dir, ← split.1, name_eq]⟩
  · cases below

theorem nameBelow_joinPath (dir : Text) {name : Text} (isName : FileName name) :
    nameBelow dir (lower (joinPath dir name)) = some (lower name) := by
  have small : FileName (lower name) := by
    refine ⟨fun empty => isName.ne_nil (List.map_eq_nil_iff.mp empty), fun c member => ?_⟩
    obtain ⟨d, inside, rfl⟩ := List.mem_map.mp member
    rw [isSlash_toLower]
    exact isName.noSlash d inside
  unfold nameBelow
  dsimp only
  rw [joinPath_eq dir isName.ne_nil, drop_dirPrefix, if_pos]
  exact ⟨by simp, small⟩

section

variable {host : Host} {images : ImageReader} {fs : FileSystem} {path : Text}

/-- A file that is there and unreadable, with the reason. -/
theorem looked_unreadable {content : Text} {info : DllInfo} (there : fs.read path = some content)
    (place : info.path = path) (kind : info.kind = .unreadable)
    (withheld : Withheld images path content) : Looked host images fs path info where
  place := place
  absent := by simp [kind, there]
  locked := fun _ _ _ => kind
  hash := fun _ _ readable => absurd kind readable
  withheld other same _ := by
    rw [there] at same
    exact Option.some.inj same ▸ withheld

theorem looked_probe : Looked host images fs path (probeDll host images fs path) := by
  have kinds (facts : PeFacts) : kindOf facts ≠ .absent ∧ kindOf facts ≠ .unreadable := by
    unfold kindOf
    split_ifs <;> simp
  cases there : fs.read path with
  | none => constructor <;> simp [probeDll, there]
  | some content =>
    unfold probeDll probeContent
    rw [there]
    dsimp only
    split_ifs with opens empty maps parsed parsed
    · exact looked_unreadable there rfl rfl (by unfold Withheld; tauto)
    · constructor <;> simp [there, kinds, opens, sha256Of]
    · exact looked_unreadable there rfl rfl (by unfold Withheld; simp [parsed])
    · exact parsed.elim
    · exact looked_unreadable there rfl rfl (by unfold Withheld; simp [maps])
    · exact looked_unreadable there rfl rfl (by unfold Withheld; simp [opens])

theorem looked_text : Looked host images fs path (surveyText host images fs path) := by
  cases there : fs.read path with
  | none => constructor <;> simp [surveyText, fileExists, there]
  | some content =>
    have solid := host.sha256_ne_nil content
    by_cases readable : images.readable path = true
    · have opens : images.opens path = true := (Bool.and_eq_true_iff.mp readable).1
      constructor <;> simp [surveyText, sha256Of, fileExists, there, readable, solid, opens]
    · refine looked_unreadable there ?_ ?_ ?_
      · simp [surveyText, fileExists, there]
      · simp [surveyText, sha256Of, fileExists, there, readable]
      · unfold Withheld
        unfold FileAccess.readable at readable
        simp only [Bool.and_eq_true, not_and, Bool.not_eq_true] at readable
        cases opens : images.opens path with
        | false => exact .inl rfl
        | true => exact .inr (.inl (readable opens))

end

theorem surveyDir_ne_nil (fs : FileSystem) (game : GameInstall) : surveyDir fs game ≠ [] := by
  unfold surveyDir
  dsimp only
  generalize (if game.openvrDir = [] then _ else _) = dir
  split
  · rw [joinPath_eq _ (by decide)]
    exact List.append_ne_nil_of_right_ne_nil _ (by decide)
  · assumption

theorem surveyDir_mem {fs : FileSystem} {game : GameInstall} (found : game.Found) :
    surveyDir fs game ∈ openvrFolders game.dir := by
  have searched : findOpenvrDir fs game.dir = [] ∨
      findOpenvrDir fs game.dir ∈ openvrFolders game.dir := by
    unfold findOpenvrDir
    cases found : List.find? _ (openvrFolders game.dir) with
    | none => exact .inl rfl
    | some dir => exact .inr (List.mem_of_find?_eq_some found)
  unfold surveyDir
  dsimp only
  split_ifs with unknown empty
  · exact List.mem_cons_self
  · exact searched.resolve_left empty
  · exact found.resolve_left unknown

section

variable {host : Host} {images : ImageReader} (machine : Machine) {fs : FileSystem} {game : GameInstall}

theorem looked_survey : ∀ info ∈ (surveyTarget host images machine fs game).named.map Prod.snd ++
    (surveyTarget host images machine fs game).otherD3d11, Looked host images fs info.path info := by
  intro info member
  rcases List.mem_append.mp member with named | sibling
  · revert info
    simp [Survey.named, surveyTarget, looked_probe.place, looked_text.place, looked_probe, looked_text]
  · obtain ⟨name, -, rfl⟩ := List.mem_map.mp sibling
    rw [looked_probe.place]
    exact looked_probe

theorem survey_there {path : Text} (found : (surveyTarget host images machine fs game).Found path) :
    fs.fileExists path = true := by
  obtain ⟨place, member, same⟩ := found
  unfold fileExists FileSystem.read
  rw [show lower path = lower place from same]
  change fs.fileExists place = true
  simp only [Survey.found, List.mem_append, List.mem_map, List.mem_filter, List.mem_ite_nil_right,
    List.mem_singleton] at member
  obtain (((⟨info, ⟨known, there⟩, rfl⟩ | ⟨there, rfl⟩) | ⟨there, rfl⟩) | ⟨there, rfl⟩) | copy := member
  · have looked := looked_survey machine info (List.mem_append.mpr (by simpa using known))
    rw [fileExists, Option.isSome_iff_ne_none, ne_eq, ← looked.absent]
    simpa using there
  · exact there
  · exact there
  · exact there
  · change place ∈ runtimeBackups host images fs game.dir at copy
    unfold runtimeBackups at copy
    simp only [List.mem_ite_nil_right, List.mem_filter, decide_eq_true_eq] at copy
    exact copy.2.2.1

theorem survey_finds {info : DllInfo}
    (known : info ∈ (surveyTarget host images machine fs game).named.map Prod.snd ++
      (surveyTarget host images machine fs game).otherD3d11)
    (there : fs.fileExists info.path = true) :
    (surveyTarget host images machine fs game).Found info.path := by
  have looked := looked_survey machine info known
  refine ⟨info.path, ?_, SameFile.refl _⟩
  have present : info.kind ≠ .absent := by
    rw [ne_eq, looked.absent]
    simpa [fileExists, Option.isSome_iff_ne_none] using there
  simp only [Survey.found, List.mem_append, List.mem_map, List.mem_filter]
  exact .inl (.inl (.inl (.inl ⟨info, ⟨by simpa using known, by simpa using present⟩, rfl⟩)))

theorem survey_located (found : game.Found) : (surveyTarget host images machine fs game).Located where
  ne_nil := surveyDir_ne_nil fs game
  folder := surveyDir_mem found
  d3d11 := looked_probe.place
  ngx := looked_probe.place
  openxrLoader := looked_probe.place
  openxrLicense := looked_text.place
  nativeConfig := looked_text.place
  openvrCurrent := looked_probe.place
  openvrOrig := looked_probe.place
  openvrOrigName := rfl
  siblings := by
    intro info member
    obtain ⟨name, listed, rfl⟩ := List.mem_map.mp member
    obtain ⟨listed, like⟩ := List.mem_filter.mp listed
    obtain ⟨entry, stored, below⟩ := List.mem_filterMap.mp listed
    obtain ⟨isName, whole, small⟩ := nameBelow_eq_some below
    refine ⟨?_, name, isName, ?_, looked_probe.place⟩
    · have key : lower (joinPath game.dir name) ∈ fs.files.map Prod.fst := by
        rw [joinPath_eq _ isName.ne_nil, ← whole]
        exact List.mem_map_of_mem stored
      obtain ⟨content, there⟩ := Store.mem_keys_iff.mp key
      rw [ne_eq, looked_probe.absent]
      change fs.files.get _ ≠ none
      rw [there]
      exact Option.some_ne_none _
    · rw [small]
      exact List.isPrefixOf_iff_prefix.mp (Bool.and_eq_true_iff.mp like).1
  backups := by
    intro path member
    change path ∈ runtimeBackups host images fs game.dir at member
    unfold runtimeBackups at member
    simp only [List.mem_ite_nil_right, List.mem_filter, List.mem_map, List.mem_insertionSort] at member
    obtain ⟨-, ⟨stamp, listed, rfl⟩, -⟩ := member
    obtain ⟨entry, -, below⟩ := List.mem_filterMap.mp (List.mem_filter.mp listed).1
    exact ⟨stamp, (nameBelow_eq_some below).1, rfl⟩

/-- A survey has its files in the places that the planners rely on, and tells the folder. -/
theorem survey_tells_folder (found : game.Found) :
    (surveyTarget host images machine fs game).Located ∧
      (surveyTarget host images machine fs game).Tells host images fs := by
  refine ⟨survey_located machine found, ?_⟩
  constructor
  case there => exact fun path => survey_there machine
  case named =>
    intro entry member
    exact survey_finds _ (List.mem_append_left _ (List.mem_map_of_mem member))
  case looked => exact looked_survey machine
  case texts =>
    intro path member there
    refine ⟨path, ?_, SameFile.refl path⟩
    simp only [List.mem_cons, List.not_mem_nil, or_false] at member
    simp only [Survey.found, List.mem_append, List.mem_ite_nil_right, List.mem_singleton]
    obtain rfl | rfl | rfl := member
    · exact .inl (.inl (.inl (.inr ⟨there, rfl⟩)))
    · exact .inl (.inl (.inr ⟨there, rfl⟩))
    · exact .inl (.inr ⟨there, rfl⟩)
  case siblings =>
    intro name isName like there
    obtain ⟨content, read⟩ := fileExists_iff.mp there
    obtain ⟨entry, stored, key⟩ := List.mem_map.mp (Store.mem_keys_iff.mpr ⟨content, read⟩)
    have listed : lower name ∈ filesLike fs game.dir := by
      refine List.mem_filter.mpr ⟨List.mem_filterMap.mpr ⟨entry, stored, ?_⟩, like⟩
      rw [key]
      exact nameBelow_joinPath game.dir isName
    have small := (nameBelow_eq_some (nameBelow_joinPath game.dir isName)).1
    have same : SameFile (joinPath game.dir name) (joinPath game.dir (lower name)) :=
      (sameFile_joinPath isName small).mpr ⟨rfl, (lower_lower name).symm⟩
    have known := survey_finds machine
      (List.mem_append_right _ (List.mem_map_of_mem (f := fun name => probeDll host images fs
        (joinPath game.dir name)) listed))
    rw [looked_probe.place] at known
    obtain ⟨place, inside, same'⟩ := known (by
      unfold fileExists FileSystem.read at there ⊢
      rwa [← show lower _ = lower _ from same])
    exact ⟨place, inside, same.trans same'⟩

end

/-- An install with a mod beside it, settings, and a file that the game holds. -/
def heldFolder : FileSystem where
  files := ["d3d11.dll", "d3d11_reshade.dll", "nvngx_dlss.dll", "edvr.ini", "edvr_install\\state.ini"].map
    fun name => ("g\\".toList ++ name.toList, ['x'])
  dirs := ["g".toList, "g\\edvr_install".toList]

def heldImages : ImageReader where
  opens path := decide (lower path ≠ "g\\nvngx_dlss.dll".toList)
  maps _ := true
  reads _ := true
  parsePe _ := { parsed := true, is64 := true }
  versionString _ _ := []
  sizeText _ := []

theorem survey_tells_heldFolder :
    let told := surveyTarget .plain heldImages {} heldFolder ⟨['g'], []⟩
    told.Located ∧ told.Tells .plain heldImages heldFolder :=
  survey_tells_folder _ (.inl rfl)

end EdvrPatch.Installer
