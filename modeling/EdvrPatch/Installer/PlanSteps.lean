import EdvrPatch.Installer.Plan

/-! The steps of both plans, one list for each file they are about. What the user is told about a
step is left out. -/
namespace EdvrPatch.Installer

open Ini

/-! ### Steps -/

namespace Step

def plain (step : Step) : Step :=
  { step with why := [] }

def copy (backupDir path : Text) : Step :=
  { action := .backup, source := path, target := joinPath backupDir (leafOf path) }

def copyOf (backupDir path sha : Text) : Step :=
  { action := .backup, source := path, target := joinPath backupDir (leafOf path)
    expectSha := sha, required := true }

def move (source target sha : Text) : Step :=
  { action := .rename, source := source, target := target, expectSha := sha, required := true }

def put (item target : Text) : Step :=
  { action := .writePayload, item := item, target := target }

def putText (text target : Text) : Step :=
  { action := .writeText, text := text, target := target }

def drop (path sha : Text) : Step :=
  { action := .delete, source := path, expectSha := sha }

def copyBack (source target : Text) : Step :=
  { action := .backup, source := source, target := target, required := true }

def folder (path : Text) : Step :=
  { action := .makeDir, target := path }

end Step

/-- What an arm of a planner does to a draft: it adds these steps. The backup
folder stays, and so does the wish for it and that there is something to do. -/
structure Adds (d : Draft) (steps : List Step) (d' : Draft) : Prop where
  body : d'.body.map Step.plain = d.body.map Step.plain ++ steps
  backupDir : d'.backupDir = d.backupDir
  wants : d.wantBackupDir = true → d'.wantBackupDir = true
  changes : d.changed = true → d'.changed = true

namespace Adds

variable {d d' d'' : Draft} {steps more : List Step}

theorem nothing (same : d'.body = d.body) (dir : d'.backupDir = d.backupDir)
    (wants : d'.wantBackupDir = d.wantBackupDir) (changes : d'.changed = d.changed) :
    Adds d [] d' :=
  ⟨by rw [same, List.append_nil], dir, fun h => wants.trans h, fun h => changes.trans h⟩

theorem refl (d : Draft) : Adds d [] d :=
  nothing rfl rfl rfl rfl

theorem trans (first : Adds d steps d') (second : Adds d' more d'') : Adds d (steps ++ more) d'' where
  body := by rw [second.body, first.body, List.append_assoc]
  backupDir := second.backupDir.trans first.backupDir
  wants h := second.wants (first.wants h)
  changes h := second.changes (first.changes h)

theorem andThen (f : Text → List Step) (first : Adds d steps d')
    (second : Adds d' (f d'.backupDir) d'') : Adds d (steps ++ f d.backupDir) d'' := by
  rw [← first.backupDir]
  exact first.trans second

theorem note (adds : Adds d steps d') (line : Text) : Adds d steps (d'.note line) :=
  ⟨adds.body, adds.backupDir, adds.wants, adds.changes⟩

theorem problem (adds : Adds d steps d') (line : Text) : Adds d steps (d'.problem line) :=
  ⟨adds.body, adds.backupDir, adds.wants, adds.changes⟩

theorem force (adds : Adds d steps d') (name value : Text) : Adds d steps (d'.force name value) :=
  ⟨adds.body, adds.backupDir, adds.wants, adds.changes⟩

theorem record (adds : Adds d steps d') (next : InstallState) :
    Adds d steps { d' with next := next } :=
  ⟨adds.body, adds.backupDir, adds.wants, adds.changes⟩

theorem merged (adds : Adds d steps d') (merge : MergeReport) :
    Adds d steps { d' with merge := merge } :=
  ⟨adds.body, adds.backupDir, adds.wants, adds.changes⟩

theorem change (adds : Adds d steps d') : Adds d steps { d' with changed := true } :=
  ⟨adds.body, adds.backupDir, adds.wants, fun _ => rfl⟩

theorem of_eq (adds : Adds d steps d') (same : steps = more) : Adds d more d' :=
  same ▸ adds

theorem ite {c : Prop} [Decidable c] (pos : c → Adds d steps d') (neg : ¬c → Adds d steps d'') :
    Adds d steps (if c then d' else d'') := by
  split
  · exact pos ‹c›
  · exact neg ‹¬c›

theorem ite_both {c : Prop} [Decidable c] (pos : c → Adds d steps d') (neg : ¬c → Adds d more d'') :
    Adds d (if c then steps else more) (if c then d' else d'') := by
  split
  · exact pos ‹c›
  · exact neg ‹¬c›

theorem pushed (adds : Adds d steps d') {step : Step} (body : d''.body = d'.body ++ [step])
    (dir : d''.backupDir = d'.backupDir) (wants : d'.wantBackupDir = true → d''.wantBackupDir = true)
    (changes : d'.changed = true → d''.changed = true) : Adds d (steps ++ [step.plain]) d'' where
  body := by rw [body, List.map_append, adds.body, List.append_assoc, List.map_singleton]
  backupDir := dir.trans adds.backupDir
  wants h := wants (adds.wants h)
  changes h := changes (adds.changes h)

theorem backup (adds : Adds d steps d') (path why : Text) :
    Adds d (steps ++ [Step.copy d.backupDir path]) (d'.backup path why) := by
  have more := @pushed d d' (d'.backup path why) steps adds _ rfl rfl (fun _ => rfl) id
  rw [← adds.backupDir]
  exact more

theorem backupOf (adds : Adds d steps d') (path why sha : Text) :
    Adds d (steps ++ [Step.copyOf d.backupDir path sha]) (d'.backupOf path why sha) := by
  have more := @pushed d d' (d'.backupOf path why sha) steps adds _ rfl rfl (fun _ => rfl) id
  rw [← adds.backupDir]
  exact more

theorem rename (adds : Adds d steps d') (source target why sha : Text) :
    Adds d (steps ++ [Step.move source target sha]) (d'.rename source target why sha) :=
  @pushed d d' (d'.rename source target why sha) steps adds _ rfl rfl id fun _ => rfl

theorem writePayload (adds : Adds d steps d') (item target why : Text) :
    Adds d (steps ++ [Step.put item target]) (d'.writePayload item target why) :=
  @pushed d d' (d'.writePayload item target why) steps adds _ rfl rfl id fun _ => rfl

theorem writeText (adds : Adds d steps d') (text target why : Text) :
    Adds d (steps ++ [Step.putText text target]) (d'.writeText text target why) :=
  @pushed d d' (d'.writeText text target why) steps adds _ rfl rfl id id

theorem remove (adds : Adds d steps d') (path why sha : Text) :
    Adds d (steps ++ [Step.drop path sha]) (d'.remove path why sha) :=
  @pushed d d' (d'.remove path why sha) steps adds _ rfl rfl id fun _ => rfl

theorem restore (adds : Adds d steps d') (source target why : Text) :
    Adds d (steps ++ [Step.copyBack source target]) (d'.restore source target why) :=
  @pushed d d' (d'.restore source target why) steps adds _ rfl rfl id fun _ => rfl

end Adds

/-! ### The steps of an install -/

section

variable (host : Host) (s : Survey) (o : Options) (p : PayloadInfo) (backupDir : Text)

def chainPath : Text :=
  joinPath s.game.dir (chainNameFor s.d3d11)

def d3d11Path : Text :=
  joinPath s.game.dir kD3d11

def chainSteps : List Step :=
  (if (parkedAs s (chainNameFor s.d3d11)).isSome then [Step.copy backupDir (chainPath s)] else []) ++
    [Step.copy backupDir (d3d11Path s), .move (d3d11Path s) (chainPath s) s.d3d11.sha256,
      .put "d3d11".toList (d3d11Path s)]

def d3d11Steps : List Step :=
  if ¬p.haveD3d11 then []
  else
    match s.d3d11.kind with
    | .unreadable => []
    | .edvr =>
      if s.d3d11.sha256 = p.d3d11Sha ∧ ¬o.repair then []
      else [.copy backupDir (d3d11Path s), .put "d3d11".toList (d3d11Path s)]
    | .absent => [.put "d3d11".toList (d3d11Path s)]
    | _ => chainSteps s backupDir

def replaceSteps (current : DllInfo) (path : Text) (write : Step) : List Step :=
  if current.kind = .absent then [write] else [.copyOf backupDir path current.sha256, write]

def ngxPath : Text :=
  joinPath s.game.dir kNgx

def ngxSteps : List Step :=
  let present := s.ngx.kind ≠ .absent ∧ s.ngx.kind ≠ .unreadable
  let ours := present ∧ s.state.ngxInstalled ∧ s.state.ngxSha ≠ [] ∧ s.ngx.sha256 = s.state.ngxSha
  if p.haveNgx then
    if s.ngx.kind = .unreadable then []
    else if present ∧ s.ngx.sha256 = p.ngxSha ∧ ¬o.repair then []
    else if present ∧ ¬ours ∧ s.ngx.sha256 ≠ p.ngxSha then []
    else if ¬s.nvidiaAdapter then []
    else (if present then [Step.copy backupDir (ngxPath s)] else []) ++ [Step.put "ngx".toList (ngxPath s)]
  else []

def openvrPath : Text :=
  joinPath (nativeDirOf s) kOpenvr

def originalPath : Text :=
  joinPath (nativeDirOf s) (originalName s)

/-- The original runtime is kept under its own name, unless it is there already. -/
def keepSteps : List Step :=
  if s.openvrCurrent.kind = .openVrRuntime ∧ (s.openvrOrig.kind = .absent ∨
      s.openvrOrig.kind = .openVrRuntime ∧ s.openvrOrig.sha256 ≠ s.openvrCurrent.sha256) then
    (if s.openvrOrig.kind = .openVrRuntime then
      [Step.copyOf backupDir (originalPath s) s.openvrOrig.sha256] else []) ++
      [Step.move (openvrPath s) (originalPath s) s.openvrCurrent.sha256]
  else []

def openvrSteps : List Step :=
  if s.openvrCurrent.kind = .edvr ∧ s.openvrCurrent.sha256 = p.openvrSha ∧ ¬o.repair then []
  else
    (if s.openvrCurrent.kind = .absent then []
      else Step.copyOf backupDir (openvrPath s) s.openvrCurrent.sha256 :: keepSteps s backupDir) ++
      [Step.put "openvr".toList (openvrPath s)]

def assetSteps (current : DllInfo) (path item wanted : Text) : List Step :=
  if current.kind ≠ .absent ∧ current.sha256 = wanted ∧ ¬o.repair then []
  else replaceSteps backupDir current path (.put item path)

def loaderPath : Text :=
  joinPath (nativeDirOf s) kLoader

def licensePath : Text :=
  joinPath (nativeDirOf s) kLicense

def configPath : Text :=
  joinPath (nativeDirOf s) kNativeConfig

def configSteps : List Step :=
  let config := nativeConfigText s.game.dir (nativeDirOf s)
  if s.nativeConfig.sha256 ≠ host.sha256 config ∨ o.repair then
    replaceSteps backupDir s.nativeConfig (configPath s) (.putText config (configPath s))
  else []

def iniPath : Text :=
  joinPath s.game.dir kIni

def mergedIni (forced : List (Text × Text)) : Text :=
  if ¬s.iniPresent ∨ ¬o.keepSettings then (mergeIni p.iniText [] none forced).1
  else (mergeIni p.iniText s.iniText (if s.baseIniText = [] then none else some s.baseIniText)
    forced).1

def iniSteps (forced : List (Text × Text)) : List Step :=
  let merged := mergedIni s o p forced
  if p.iniText = [] then []
  else
    (if s.iniPresent ∧ (¬o.keepSettings ∨ merged ≠ s.iniText) then
      [Step.copy backupDir (iniPath s)] else []) ++
      if merged = s.iniText then [] else [Step.putText merged (iniPath s)]

def installBody (forced : List (Text × Text)) : List Step :=
  d3d11Steps s o p backupDir ++ ngxSteps s o p backupDir ++ openvrSteps s o p backupDir ++
    assetSteps o backupDir s.openxrLoader (loaderPath s) "openxr_loader".toList p.openxrLoaderSha ++
    assetSteps o backupDir s.openxrLicense (licensePath s) "openxr_license".toList
      p.openxrLicenseSha ++
    configSteps host s o backupDir ++ iniSteps s o p backupDir forced

variable (d : Draft)

theorem backupParked_adds : Adds d (if (parkedAs s (chainNameFor s.d3d11)).isSome then
    [.copy d.backupDir (chainPath s)] else []) (backupParked s d) := by
  unfold backupParked
  dsimp only
  cases parkedAs s (chainNameFor s.d3d11) with
  | none => exact .refl d
  | some existing =>
    exact .ite (fun _ => (Adds.refl d).backup _ _) fun _ => ((Adds.refl d).backup _ _).problem _

theorem sayUnchained_adds : Adds d [] (sayUnchained s d) :=
  .ite (fun _ => (Adds.refl d).problem _) fun _ => .refl d

theorem sayChained_adds : Adds d [] (sayChained s d) :=
  .ite (fun _ => .ite (fun _ => (Adds.refl d).note _) fun _ => (Adds.refl d).note _)
    fun _ => (Adds.ite (fun _ => (Adds.refl d).note _) fun _ => (Adds.refl d).note _).problem _

theorem chainForeign_adds : Adds d (chainSteps s d.backupDir) (chainForeign s p d) := by
  refine ((((((((backupParked_adds s d).backup (d3d11Path s) _).rename (d3d11Path s) (chainPath s) _
    s.d3d11.sha256).writePayload "d3d11".toList (d3d11Path s) _).force _ _).record _).trans
    (sayUnchained_adds s _)).record _).trans (sayChained_adds s _) |>.of_eq ?_
  simp [chainSteps]

theorem planD3d11_adds : Adds d (d3d11Steps s o p d.backupDir) (planD3d11 s o p d) := by
  unfold planD3d11 d3d11Steps
  by_cases have_ : ¬p.haveD3d11 = true
  · rw [if_pos have_, if_pos have_]
    exact .refl d
  rw [if_neg have_, if_neg have_]
  cases s.d3d11.kind with
  | unreadable => exact (Adds.refl d).problem _
  | absent => exact (((Adds.refl d).writePayload _ _ _).note _).record _
  | openVrRuntime => exact chainForeign_adds s p d
  | d3d11Provider => exact chainForeign_adds s p d
  | foreign => exact chainForeign_adds s p d
  | edvr =>
    dsimp only
    split
    · exact ((Adds.refl d).note _).record _
    · exact ((((Adds.refl d).backup _ _).writePayload _ _ _).note _).record _

theorem planChain_adds : Adds d [] (planChain s d) :=
  .ite (fun _ => .ite (fun _ => ((Adds.refl d).record _).note _)
    fun _ => ((Adds.refl d).force _ _).note _) fun _ => .refl d

theorem planNgx_adds : Adds d (ngxSteps s o p d.backupDir) (planNgx s o p d) := by
  have start := (Adds.refl d).record { d.next with ngxInstalled := false, ngxSha := [] }
  refine .ite_both (fun _ => .ite_both (fun _ => start.problem _) fun _ => .ite_both
    (fun _ => (start.note _).record _) fun _ => .ite_both (fun _ => start.note _) fun _ =>
    .ite_both (fun _ => .ite (fun _ => (start.note _).record _) fun _ => start.note _) fun _ => ?_)
    fun _ => .ite (fun _ => (Adds.refl d).note _) fun _ => .refl d
  exact (((Adds.ite_both (fun _ => start.backup _ _) fun _ => start).writePayload _ _ _).note _).record _

theorem planOpenvr_adds :
    Adds d (openvrSteps s o p d.backupDir) (planOpenvr s o p (nativeDirOf s) d) := by
  have start := (Adds.refl d).record { d.next with
    openvrOrigName := originalName s
    openvrOrigSha := if s.openvrOrig.kind = .openVrRuntime then s.openvrOrig.sha256 else [] }
  have copied := start.backupOf (openvrPath s) "the previous VR library, for recovery".toList
    s.openvrCurrent.sha256
  refine Adds.record (.ite_both (fun _ => start.note _) fun _ =>
    (Adds.writePayload (Adds.ite_both (fun _ => start) fun _ => ?_) _ _ _).note _) _
  refine Adds.of_eq (.ite_both (fun _ => (Adds.rename (Adds.ite_both
    (fun _ => (copied.backupOf _ _ _).note _) fun _ => copied) _ _ _ _).record _) fun _ => copied) ?_
  unfold keepSteps
  split
  · split <;> rfl
  · rfl

theorem nativeAsset_adds (current : DllInfo) (name item wanted : Text) :
    Adds d (assetSteps o d.backupDir current (joinPath (nativeDirOf s) name) item wanted)
      (nativeAsset o (nativeDirOf s) current name item wanted d) := by
  refine .ite_both (fun _ => .refl d) fun _ => ?_
  refine Adds.of_eq (Adds.writePayload (Adds.ite_both (fun _ => .refl d) fun _ =>
    (Adds.refl d).backupOf _ _ _) _ _ _) ?_
  unfold replaceSteps
  split <;> rfl

theorem planConfig_adds :
    Adds d (configSteps host s o d.backupDir) (planConfig host s o (nativeDirOf s) d) := by
  have start := (Adds.refl d).record { d.next with
    nativeConfigSha := host.sha256 (nativeConfigText s.game.dir (nativeDirOf s)) }
  refine .ite_both (fun _ => ?_) fun _ => start
  refine Adds.of_eq (Adds.change (Adds.writeText (Adds.ite_both (fun _ => start) fun _ =>
    start.backupOf _ _ _) _ _ _)) ?_
  unfold replaceSteps
  split <;> rfl

theorem mergeSettings_adds : (mergeSettings s o p d).1 = mergedIni s o p d.forced ∧
    Adds d (if s.iniPresent ∧ (¬o.keepSettings ∨ mergedIni s o p d.forced ≠ s.iniText) then
      [.copy d.backupDir (iniPath s)] else []) (mergeSettings s o p d).2 := by
  by_cases present : s.iniPresent = true
  · by_cases keep : o.keepSettings = true
    · have merged : mergedIni s o p d.forced = _ := if_neg (by simp [present, keep])
      rw [merged]
      unfold mergeSettings
      dsimp only
      rw [if_neg (not_not.mpr present), if_neg (not_not.mpr keep)]
      generalize mergeIni p.iniText s.iniText _ d.forced = result
      by_cases same : result.1 = s.iniText
      · rw [if_pos same, if_neg (by simp [keep, same])]
        exact ⟨rfl, (Adds.refl d).merged _⟩
      · have copied : s.iniPresent = true ∧ (¬o.keepSettings = true ∨ result.1 ≠ s.iniText) :=
          ⟨present, .inr same⟩
        rw [if_neg same, if_pos copied]
        exact ⟨rfl, .ite (fun _ => (((Adds.refl d).merged _).backup _ _).note _)
          fun _ => ((((Adds.refl d).merged _).backup _ _).note _).note _⟩
    · have merged : mergedIni s o p d.forced = _ := if_pos (.inr keep)
      rw [merged, if_pos ⟨present, .inl keep⟩]
      unfold mergeSettings
      dsimp only
      rw [if_neg (not_not.mpr present), if_pos keep]
      exact ⟨rfl, (((Adds.refl d).merged _).backup _ _).note _⟩
  · have merged : mergedIni s o p d.forced = _ := if_pos (.inl present)
    rw [merged, if_neg fun h => present h.1]
    unfold mergeSettings
    dsimp only
    rw [if_pos present]
    exact ⟨rfl, ((Adds.refl d).merged _).note _⟩

theorem planIni_adds : Adds d (iniSteps s o p d.backupDir d.forced) (planIni host s o p d) := by
  obtain ⟨merged, adds⟩ := mergeSettings_adds s o p d
  unfold planIni iniSteps
  generalize mergeSettings s o p d = result at merged adds
  obtain ⟨text, d'⟩ := result
  rw [← merged] at adds ⊢
  refine .ite_both (fun _ => (Adds.refl d).problem _) fun _ => Adds.record ?_ _
  by_cases same : text = s.iniText
  · rw [if_pos same, if_pos same, List.append_nil]
    exact adds.note _
  · rw [if_neg same, if_neg same]
    exact (adds.writeText _ _ _).change

def startDraft : Draft :=
  { backupDir := backupDirOf s o
    next := firstState s o p
    notes := if s.gameRunningElsewhere then [kRunningElsewhere] else [] }

/-- The draft once it is known which mod calls are passed through to. -/
def chainedDraft : Draft :=
  planChain s (planD3d11 s o p (startDraft s o p))

def libraryDraft : Draft :=
  let d := planNgx s o p (chainedDraft s o p)
  let d := planOpenvr s o p (nativeDirOf s) d
  let d := nativeAsset o (nativeDirOf s) s.openxrLoader kLoader "openxr_loader".toList
    p.openxrLoaderSha d
  let d := nativeAsset o (nativeDirOf s) s.openxrLicense kLicense "openxr_license".toList
    p.openxrLicenseSha d
  let d := { d with next := { d.next with
    openxrLoaderSha := p.openxrLoaderSha
    openxrLicenseSha := p.openxrLicenseSha } }
  planConfig host s o (nativeDirOf s) d

theorem libraryDraft_adds : Adds (startDraft s o p)
    (d3d11Steps s o p (backupDirOf s o) ++ ngxSteps s o p (backupDirOf s o) ++
      openvrSteps s o p (backupDirOf s o) ++
      assetSteps o (backupDirOf s o) s.openxrLoader (loaderPath s) "openxr_loader".toList
        p.openxrLoaderSha ++
      assetSteps o (backupDirOf s o) s.openxrLicense (licensePath s) "openxr_license".toList
        p.openxrLicenseSha ++
      configSteps host s o (backupDirOf s o)) (libraryDraft host s o p) := by
  have chained := (planD3d11_adds s o p (startDraft s o p)).trans (planChain_adds s _)
  rw [List.append_nil] at chained
  have ngx := chained.andThen (ngxSteps s o p) (planNgx_adds s o p _)
  have openvr := ngx.andThen (openvrSteps s o p) (planOpenvr_adds s o p _)
  have loader := openvr.andThen (fun dir => assetSteps o dir s.openxrLoader (loaderPath s) _ _)
    (nativeAsset_adds s o _ s.openxrLoader kLoader "openxr_loader".toList p.openxrLoaderSha)
  have license := loader.andThen (fun dir => assetSteps o dir s.openxrLicense (licensePath s) _ _)
    (nativeAsset_adds s o _ s.openxrLicense kLicense "openxr_license".toList p.openxrLicenseSha)
  exact (license.record _).andThen (configSteps host s o) (planConfig_adds host s o _)

theorem installDraft_adds : Adds (startDraft s o p)
    (installBody host s o p (backupDirOf s o) (libraryDraft host s o p).forced)
    (installDraft host s o p) :=
  (libraryDraft_adds host s o p).andThen
    (fun dir => iniSteps s o p dir (libraryDraft host s o p).forced) (planIni_adds host s o p _)

end

theorem planInstall_steps (host : Host) (s : Survey) (o : Options) (p : PayloadInfo) :
    (planInstall host s o p).steps = [] ∨ ∃ forced state made,
      (planInstall host s o p).steps.map Step.plain =
        made ++ installBody host s o p (backupDirOf s o) forced ++
          [Step.folder (stateDirPath s.game.dir), .putText p.iniText (baseIniPath s.game.dir),
            .putText (serializeState state) (statePath s.game.dir)] ∧
      (planInstall host s o p).backupDir = backupDirOf s o ∧
      ∀ step ∈ made, step.action = .makeDir := by
  unfold planInstall
  cases installBlock s p with
  | some problem => exact .inl rfl
  | none =>
    dsimp only
    split
    · exact .inl rfl
    · have adds := installDraft_adds host s o p
      refine .inr ⟨(libraryDraft host s o p).forced, (installDraft host s o p).next,
        (if (installDraft host s o p).wantBackupDir then
          [Step.folder (installDraft host s o p).backupDir] else []) ++ [Step.folder (nativeDirOf s)], ?_,
        adds.backupDir, ?_⟩
      · have body := adds.body
        rw [show (startDraft s o p).body.map Step.plain = [] from rfl, List.nil_append] at body
        unfold installSteps
        rw [List.map_append, List.map_append, List.map_append, body]
        congr 3
        split <;> rfl
      · intro step member
        rcases List.mem_append.mp member with member | member
        · split at member
          · rw [List.mem_singleton.mp member]
            rfl
          · cases member
        · rw [List.mem_singleton.mp member]
          rfl

/-! ### The steps of an uninstall -/

section

variable (s : Survey) (o : Options) (backupDir : Text)

def chainBackSteps : List Step :=
  match chainFile s with
  | some target => [.move target.path (d3d11Path s) target.sha256]
  | none => []

def removeD3d11Steps : List Step :=
  match s.d3d11.kind with
  | .edvr => [Step.copy backupDir (d3d11Path s), .drop (d3d11Path s) s.d3d11.sha256] ++ chainBackSteps s
  | _ => []

def vrPath : Text :=
  joinPath s.game.openvrDir kOpenvr

def vrOriginalPath : Text :=
  joinPath s.game.openvrDir (originalName s)

def removeOpenvrSteps : List Step :=
  if ¬s.haveOpenvrDir then []
  else if s.openvrCurrent.kind = .edvr then
    if s.openvrOrig.kind = .openVrRuntime then
      [.copy backupDir (vrPath s), .drop (vrPath s) s.openvrCurrent.sha256,
        .move (vrOriginalPath s) (vrPath s) s.openvrOrig.sha256]
    else
      match s.openvrOrigInBackups with
      | copy :: _ => [.copy backupDir (vrPath s), .copyBack copy (vrPath s)]
      | [] => []
  else []

def retireSteps (info : DllInfo) (owned : Text) : List Step :=
  if info.kind = .absent then []
  else if owned = [] ∨ info.sha256 ≠ owned then []
  else [.copy backupDir info.path, .drop info.path info.sha256]

def removeNativeSteps : List Step :=
  if s.state.nativeInstalled then
    retireSteps backupDir s.openxrLoader s.state.openxrLoaderSha ++
      retireSteps backupDir s.openxrLicense s.state.openxrLicenseSha ++
      retireSteps backupDir s.nativeConfig s.state.nativeConfigSha
  else []

def removeNgxSteps : List Step :=
  if s.state.ngxInstalled ∧ s.state.ngxSha ≠ [] ∧ s.ngx.kind ≠ .absent ∧
      s.ngx.kind ≠ .unreadable ∧ s.ngx.sha256 = s.state.ngxSha then
    [.drop (ngxPath s) s.ngx.sha256]
  else []

def removeIniSteps : List Step :=
  if ¬s.iniPresent then []
  else if o.removeSettings then [.copy backupDir (iniPath s), .drop (iniPath s) []]
  else []

def removeRecordSteps : List Step :=
  (if s.haveRecord then [Step.drop (statePath s.game.dir) []] else []) ++
    if s.haveBaseIni then [Step.drop (baseIniPath s.game.dir) []] else []

def uninstallBody : List Step :=
  removeD3d11Steps s backupDir ++ removeOpenvrSteps s backupDir ++ removeNativeSteps s backupDir ++
    removeNgxSteps s ++ removeIniSteps s o backupDir ++ removeRecordSteps s

variable (d : Draft)

theorem removeD3d11_adds : Adds d (removeD3d11Steps s d.backupDir) (removeD3d11 s d) := by
  unfold removeD3d11 removeD3d11Steps chainBackSteps
  cases s.d3d11.kind with
  | edvr =>
    have removed := ((Adds.refl d).backup (d3d11Path s) "EDVR's d3d11.dll".toList).remove
      (d3d11Path s) "removes EDVR's d3d11.dll".toList s.d3d11.sha256
    cases chainFile s with
    | some target => exact (removed.rename _ _ _ _).note _
    | none => exact .ite (fun _ => removed.note _) fun _ => (removed.note _).problem _
  | absent => exact (Adds.refl d).note _
  | unreadable => exact (Adds.refl d).note _
  | openVrRuntime => exact (Adds.refl d).note _
  | d3d11Provider => exact (Adds.refl d).note _
  | foreign => exact (Adds.refl d).note _

theorem removeOpenvr_adds : Adds d (removeOpenvrSteps s d.backupDir) (removeOpenvr s d) := by
  have copied := (Adds.refl d).backup (vrPath s) "EDVR's openvr_api.dll".toList
  refine .ite_both (fun _ => .refl d) fun _ => .ite_both (fun _ => .ite_both
    (fun _ => ((copied.remove _ _ _).rename _ _ _ _).note _) fun _ => ?_) fun _ =>
    .ite (fun _ => (Adds.refl d).note _) fun _ => (Adds.refl d).note _
  cases s.openvrOrigInBackups with
  | nil => exact (Adds.refl d).problem _
  | cons copy older => exact (copied.restore _ _ _).note _

theorem retire_adds (info : DllInfo) (owned : Text) :
    Adds d (retireSteps d.backupDir info owned) (retire info owned d) :=
  .ite_both (fun _ => .refl d) fun _ => .ite_both (fun _ => (Adds.refl d).note _) fun _ =>
    ((Adds.refl d).backup _ _).remove _ _ _

theorem removeNative_adds : Adds d (removeNativeSteps s d.backupDir) (removeNative s d) :=
  .ite_both (fun _ => ((retire_adds d s.openxrLoader _).andThen
      (fun dir => retireSteps dir s.openxrLicense _) (retire_adds _ s.openxrLicense _)).andThen
      (fun dir => retireSteps dir s.nativeConfig _) (retire_adds _ s.nativeConfig _))
    fun _ => .refl d

theorem removeNgx_adds : Adds d (removeNgxSteps s) (removeNgx s d) :=
  .ite_both (fun _ => ((Adds.refl d).remove _ _ _).note _) fun _ =>
    .ite (fun _ => (Adds.refl d).note _) fun _ => .refl d

theorem removeIni_adds : Adds d (removeIniSteps s o d.backupDir) (removeIni s o d) :=
  .ite_both (fun _ => .refl d) fun _ => .ite_both
    (fun _ => (((Adds.refl d).backup _ _).remove _ _ _).note _) fun _ => (Adds.refl d).note _

theorem removeRecord_adds : Adds d (removeRecordSteps s) (removeRecord s d) :=
  Adds.trans (.ite_both (fun _ => (Adds.refl d).remove (statePath s.game.dir)
      "removes the install record".toList []) fun _ => .refl d)
    (.ite_both (fun _ => (Adds.refl _).remove _ _ _) fun _ => .refl _)

def leaveDraft : Draft :=
  { backupDir := backupDirOf s o
    notes := if s.gameRunningElsewhere then [kRunningElsewhere] else [] }

theorem uninstallDraft_adds :
    Adds (leaveDraft s o) (uninstallBody s o (backupDirOf s o)) (uninstallDraft s o) := by
  have openvr := (removeD3d11_adds s (leaveDraft s o)).andThen (removeOpenvrSteps s)
    (removeOpenvr_adds s _)
  have native := openvr.andThen (removeNativeSteps s) (removeNative_adds s _)
  exact ((native.trans (removeNgx_adds s _)).andThen (removeIniSteps s o)
    (removeIni_adds s o _)).trans (removeRecord_adds s _)

theorem planUninstall_steps :
    (planUninstall s o).steps = [] ∨ ∃ made,
      (planUninstall s o).steps.map Step.plain = made ++ uninstallBody s o (backupDirOf s o) ∧
      (planUninstall s o).backupDir = backupDirOf s o ∧ ∀ step ∈ made, step.action = .makeDir := by
  unfold planUninstall
  split
  · exact .inl rfl
  split
  · exact .inl rfl
  dsimp only
  split
  · have adds := uninstallDraft_adds s o
    have body := adds.body
    rw [show (leaveDraft s o).body.map Step.plain = [] from rfl, List.nil_append] at body
    refine .inr ⟨if (uninstallDraft s o).wantBackupDir then
      [.folder (uninstallDraft s o).backupDir] else [], ?_, adds.backupDir, ?_⟩
    · unfold uninstallSteps
      rw [List.map_append, body]
      congr 1
      split <;> rfl
    · intro step member
      split at member
      · rw [List.mem_singleton.mp member]
        rfl
      · cases member
  · exact .inl rfl

end

end EdvrPatch.Installer
