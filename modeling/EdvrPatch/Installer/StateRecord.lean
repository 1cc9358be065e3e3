import EdvrPatch.Ini.OneValueEdit
import EdvrPatch.Installer.State

/-! The record that the installer writes is read back as it was. The settings file's own
reader is used for it, so that every field has to stand on a line of its own. -/
namespace EdvrPatch.Installer

open Ini Lib

/-! ### Sections of keys with their values -/

abbrev RecordSection (α : Type) := String × List (String × α)

def keyLine (pair : String × Text) : Text :=
  pair.1.toList ++ " = ".toList ++ pair.2

def sectionLines (section_ : RecordSection Text) : List Text :=
  [] :: ('[' :: section_.1.toList ++ [']']) :: section_.2.map keyLine

section

variable {α β : Type}

def pairAt (key : Text) : List (String × α) → Option α
  | [] => none
  | pair :: later => (pairAt key later).or (if sameKey pair.1.toList key then some pair.2 else none)

def sectionAt (sect key : Text) : List (RecordSection α) → Option α
  | [] => none
  | section_ :: later =>
    (sectionAt sect key later).or
      (if sameKey section_.1.toList sect then pairAt key section_.2 else none)

def RecordSection.map (f : α → β) (section_ : RecordSection α) : RecordSection β :=
  (section_.1, section_.2.map fun pair => (pair.1, f pair.2))

theorem pairAt_map (f : α → β) (key : Text) (pairs : List (String × α)) :
    pairAt key (pairs.map fun pair => (pair.1, f pair.2)) = (pairAt key pairs).map f := by
  induction pairs with
  | nil => rfl
  | cons pair pairs ih =>
    rw [List.map_cons, pairAt, ih, pairAt, Option.map_or]
    congr 1
    split <;> rfl

theorem sectionAt_map (f : α → β) (sect key : Text) (sections : List (RecordSection α)) :
    sectionAt sect key (sections.map (RecordSection.map f)) = (sectionAt sect key sections).map f := by
  induction sections with
  | nil => rfl
  | cons t sections ih =>
    rw [List.map_cons, sectionAt, ih, sectionAt, Option.map_or]
    congr 1
    unfold RecordSection.map
    split
    · exact pairAt_map f key t.2
    · rfl

def KeysRead (pairs : List (String × α)) : Prop :=
  ∀ pair ∈ pairs, isKeyToken pair.1.toList = true ∧ '=' ∉ pair.1.toList

end

structure Storable (value : Text) : Prop where
  line : ∀ c ∈ value, isNewline c = false
  trimmed : Trimmed value
  free : CommentFree (' ' :: value)

theorem storable_nil : Storable [] where
  line _ none := nomatch none
  trimmed := trimmed_nil
  free := rfl

theorem storable_of_unmarked {value : Text} (line : ∀ c ∈ value, isNewline c = false)
    (trimmed : Trimmed value) (unmarked : ∀ c ∈ value, isMarker c = false) : Storable value where
  line := line
  trimmed := trimmed
  free := by
    refine (commentFree_of_unmarked fun c member => ?_).1
    rcases List.mem_cons.mp member with rfl | member
    · rfl
    · exact unmarked c member

theorem readLine_keyLine {pair : String × Text} (token : isKeyToken pair.1.toList = true)
    (noEq : '=' ∉ pair.1.toList) (storable : Storable pair.2) (at_ : Text) :
    readLine at_ (keyLine pair) [] =
      { kind := .key, text := keyLine pair, eol := [], sect := at_, key := pair.1.toList
        value := pair.2 } := by
  have blank : ∀ c ∈ [' '], isBlank c = true := by decide
  have assign := @readLine_assign [] pair.1.toList [' '] (' ' :: pair.2) nofun token noEq blank at_ []
  have shape : [] ++ (pair.1.toList ++ [' '] ++ '=' :: ' ' :: pair.2) = keyLine pair := by
    unfold keyLine
    rw [List.nil_append, List.append_assoc, List.append_assoc]
    rfl
  have value : trim (stripInlineComment (' ' :: pair.2)) = pair.2 := by
    rw [storable.free]
    exact (trim_blanks_append blank).trans storable.trimmed.trim_eq
  rw [shape, value] at assign
  exact assign

theorem liveFrom_keyLines {pairs : List (String × Text)} (keys : KeysRead pairs)
    (storable : ∀ pair ∈ pairs, Storable pair.2) (at_ sect key : Text) :
    liveFrom at_ (pairs.map keyLine) sect key =
        (if sameKey at_ sect then pairAt key pairs else none) ∧
      sectAfter at_ (pairs.map keyLine) = at_ := by
  induction pairs with
  | nil => exact ⟨(ite_self _).symm, rfl⟩
  | cons pair pairs ih =>
    obtain ⟨token, noEq⟩ := keys pair List.mem_cons_self
    have read := readLine_keyLine token noEq (storable pair List.mem_cons_self) at_
    obtain ⟨later, after⟩ := ih (fun p member => keys p (List.mem_cons_of_mem pair member))
      fun p member => storable p (List.mem_cons_of_mem pair member)
    refine ⟨?_, ?_⟩
    · rw [List.map_cons, liveFrom_cons, read, later, pairAt]
      by_cases here : sameKey at_ sect
      · by_cases own : sameKey pair.1.toList key
        · simp [IniLine.liveAt, IniLine.declares, here, own]
        · simp [IniLine.liveAt, IniLine.declares, here, own]
      · simp [IniLine.liveAt, IniLine.declares, here]
    · rw [List.map_cons, sectAfter_cons, read]
      exact after

theorem liveFrom_sections {sections : List (RecordSection Text)} (keys : ∀ s ∈ sections, KeysRead s.2)
    (closed : ∀ s ∈ sections, ']' ∉ s.1.toList)
    (storable : ∀ s ∈ sections, ∀ pair ∈ s.2, Storable pair.2) (at_ sect key : Text) :
    liveFrom at_ (sections.flatMap sectionLines) sect key = sectionAt sect key sections := by
  induction sections generalizing at_ with
  | nil => rfl
  | cons s sections ih =>
    have header := readLine_orphanHeader (closed s List.mem_cons_self) at_ []
    obtain ⟨own, after⟩ := liveFrom_keyLines (keys s List.mem_cons_self)
      (storable s List.mem_cons_self) s.1.toList sect key
    have later := ih (fun t member => keys t (List.mem_cons_of_mem s member))
      (fun t member => closed t (List.mem_cons_of_mem s member))
      (fun t member => storable t (List.mem_cons_of_mem s member)) s.1.toList
    rw [List.flatMap_cons, liveFrom_append, sectionLines, sectAfter_cons, liveFrom_cons,
      @readLine_blank [] nofun, sectAfter_cons, liveFrom_cons, header, after, later, own, sectionAt]
    simp [IniLine.liveAt]

/-! ### The record -/

def introLines : List Text :=
  ["# EDVR install record. Written by the installer; read by it on the next run.".toList,
    "# Deleting this file loses nothing the game needs -- it only makes the".toList,
    "# installer fall back to guessing what a previous run did.".toList]

/-- The sections and keys, with the places of their values among the fields. -/
def recordKeys : List (RecordSection Nat) :=
  [("edvr", [("version", 0), ("installed_utc", 1), ("openvr_dir", 2)]),
    ("d3d11", [("sha256", 3), ("chain_target", 4), ("chain_mod", 5)]),
    ("openvr", [("sha256", 6), ("orig_name", 7), ("orig_sha256", 8)]),
    ("ngx", [("sha256", 9)]),
    ("ini", [("sha256", 10)]),
    ("native", [("graphics_sha256", 11), ("runtime_sha256", 12), ("loader_sha256", 13),
      ("license_sha256", 14), ("config_sha256", 15), ("original_name", 16), ("original_sha256", 17)])]

theorem introLines_notes : ∀ line ∈ introLines, (∀ c ∈ line, isNewline c = false) ∧
    (readLine [] line []).kind ≠ .key ∧ (readLine [] line []).sect = [] := by
  decide +kernel

theorem recordKeys_names : ∀ t ∈ recordKeys, ']' ∉ t.1.toList ∧ (∀ c ∈ t.1.toList, isNewline c = false) ∧
    ∀ pair ∈ t.2, (isKeyToken pair.1.toList = true ∧ '=' ∉ pair.1.toList) ∧
      ∀ c ∈ pair.1.toList, isNewline c = false := by
  decide +kernel

def InstallState.texts (s : InstallState) : List Text :=
  [s.edvrVersion, s.installedUtc, s.openvrDir, s.d3d11Sha, s.chainTarget, s.chainMod, s.openvrSha,
    s.openvrOrigName, s.openvrOrigSha, s.ngxSha, s.iniSha, s.nativeGraphicsSha, s.nativeRuntimeSha,
    s.openxrLoaderSha, s.openxrLicenseSha, s.nativeConfigSha, s.nativeOriginalName, s.nativeOriginalSha]

/-- The hash of a file that is not installed is left out of the record. -/
def InstallState.written (s : InstallState) : InstallState :=
  { s with
    d3d11Sha := if s.d3d11Installed then s.d3d11Sha else []
    openvrSha := if s.openvrInstalled then s.openvrSha else []
    ngxSha := if s.ngxInstalled then s.ngxSha else [] }

def InstallState.sections (s : InstallState) : List (RecordSection Text) :=
  recordKeys.map (RecordSection.map fun i => s.written.texts.getD i [])

theorem sectionLines_text (name : String) (pairs : List (String × Text)) :
    (sectionLines (name, pairs)).flatMap (· ++ crlf) =
      recordHeader name ++ pairs.flatMap fun pair => recordLine pair.1 pair.2 := by
  simp [sectionLines, keyLine, recordHeader, recordLine, List.flatMap_map]

theorem serializeState_lines (s : InstallState) :
    serializeState s = (introLines ++ s.sections.flatMap sectionLines).flatMap (· ++ crlf) := by
  have sections : (s.sections.flatMap sectionLines).flatMap (· ++ crlf) =
      s.sections.flatMap fun t => recordHeader t.1 ++ t.2.flatMap fun pair => recordLine pair.1 pair.2 := by
    rw [List.flatMap_assoc]
    exact List.flatMap_congr fun t _ => sectionLines_text t.1 t.2
  rw [List.flatMap_append, sections]
  have explicit : s.sections =
      [("edvr", [("version", s.edvrVersion), ("installed_utc", s.installedUtc),
          ("openvr_dir", s.openvrDir)]),
        ("d3d11", [("sha256", if s.d3d11Installed then s.d3d11Sha else []),
          ("chain_target", s.chainTarget), ("chain_mod", s.chainMod)]),
        ("openvr", [("sha256", if s.openvrInstalled then s.openvrSha else []),
          ("orig_name", s.openvrOrigName), ("orig_sha256", s.openvrOrigSha)]),
        ("ngx", [("sha256", if s.ngxInstalled then s.ngxSha else [])]),
        ("ini", [("sha256", s.iniSha)]),
        ("native", [("graphics_sha256", s.nativeGraphicsSha), ("runtime_sha256", s.nativeRuntimeSha),
          ("loader_sha256", s.openxrLoaderSha), ("license_sha256", s.openxrLicenseSha),
          ("config_sha256", s.nativeConfigSha), ("original_name", s.nativeOriginalName),
          ("original_sha256", s.nativeOriginalSha)])] := rfl
  rw [explicit]
  unfold serializeState introLines
  generalize "# EDVR install record. Written by the installer; read by it on the next run.".toList = first
  generalize "# Deleting this file loses nothing the game needs -- it only makes the".toList = second
  generalize "# installer fall back to guessing what a previous run did.".toList = third
  simp only [List.flatMap_cons, List.flatMap_nil, List.append_assoc, List.append_nil]

theorem pieces_lines {lines : List Text} (free : ∀ line ∈ lines, ∀ c ∈ line, isNewline c = false) :
    pieces isNewline (lines.flatMap (· ++ crlf)) = lines.filter fun line => !line.isEmpty := by
  induction lines with
  | nil => rfl
  | cons line lines ih =>
    have later := ih fun l member => free l (List.mem_cons_of_mem line member)
    rw [List.flatMap_cons, List.append_assoc, pieces_append_append (by decide) (by decide), later,
      pieces_singleton (free line List.mem_cons_self), ← List.filter_append]
    rfl

variable {s : InstallState}

theorem InstallState.written_storable (plain : ∀ value ∈ s.texts, Storable value) :
    ∀ value ∈ s.written.texts, Storable value := by
  have flagged : ∀ (flag : Bool) {sha : Text}, Storable sha → Storable (if flag then sha else []) := by
    intro flag sha storable
    cases flag with
    | false => exact storable_nil
    | true => exact storable
  simp only [texts, written, List.forall_mem_cons] at plain ⊢
  obtain ⟨version, utc, dir, d3d11, target, mod, openvr, name, sha, ngx, rest⟩ := plain
  exact ⟨version, utc, dir, flagged _ d3d11, target, mod, flagged _ openvr, name, sha, flagged _ ngx, rest⟩

section

variable {s : InstallState}

theorem InstallState.sections_read (plain : ∀ value ∈ s.texts, Storable value) :
    (∀ t ∈ s.sections, KeysRead t.2) ∧ (∀ t ∈ s.sections, ']' ∉ t.1.toList) ∧
      ∀ t ∈ s.sections, ∀ pair ∈ t.2, Storable pair.2 := by
  have values : ∀ i, Storable (s.written.texts.getD i []) := by
    intro i
    rw [List.getD_eq_getElem?_getD]
    cases found : s.written.texts[i]? with
    | none => exact storable_nil
    | some value => exact InstallState.written_storable plain value (List.mem_of_getElem? found)
  refine ⟨?_, ?_, ?_⟩
  · intro t member pair inside
    obtain ⟨u, listed, rfl⟩ := List.mem_map.mp member
    obtain ⟨v, key, rfl⟩ := List.mem_map.mp inside
    exact ((recordKeys_names u listed).2.2 v key).1
  · intro t member
    obtain ⟨u, listed, rfl⟩ := List.mem_map.mp member
    exact (recordKeys_names u listed).1
  · intro t member pair inside
    obtain ⟨u, listed, rfl⟩ := List.mem_map.mp member
    obtain ⟨v, key, rfl⟩ := List.mem_map.mp inside
    exact values v.2

theorem InstallState.lines_free (plain : ∀ value ∈ s.texts, Storable value) :
    ∀ line ∈ introLines ++ s.sections.flatMap sectionLines, ∀ c ∈ line, isNewline c = false := by
  have equals : ∀ c ∈ " = ".toList, isNewline c = false := by decide
  obtain ⟨-, -, storable⟩ := sections_read plain
  intro line member c inside
  rcases List.mem_append.mp member with first | later
  · exact (introLines_notes line first).1 c inside
  obtain ⟨t, listed, here⟩ := List.mem_flatMap.mp later
  obtain ⟨u, known, rfl⟩ := List.mem_map.mp listed
  obtain ⟨-, nameFree, keysFree⟩ := recordKeys_names u known
  rcases List.mem_cons.mp here with rfl | here
  · cases inside
  rcases List.mem_cons.mp here with rfl | here
  · rw [List.cons_append, List.mem_cons, List.mem_append, List.mem_singleton] at inside
    rcases inside with rfl | inside | rfl
    · rfl
    · exact nameFree c inside
    · rfl
  · obtain ⟨pair, held, rfl⟩ := List.mem_map.mp here
    obtain ⟨v, key, rfl⟩ := List.mem_map.mp held
    unfold keyLine at inside
    rw [List.mem_append, List.mem_append] at inside
    rcases inside with (inside | inside) | inside
    · exact (keysFree v key).2 c inside
    · exact equals c inside
    · exact (storable _ listed _ held).line c inside

theorem liveFrom_notes {notes : List Text}
    (comments : ∀ line ∈ notes, (readLine [] line []).kind ≠ .key ∧ (readLine [] line []).sect = [])
    (rest : List Text) (sect key : Text) :
    liveFrom [] (notes ++ rest) sect key = liveFrom [] rest sect key := by
  induction notes with
  | nil => rfl
  | cons line notes ih =>
    obtain ⟨kind, same⟩ := comments line List.mem_cons_self
    rw [List.cons_append, liveFrom_cons, same, IniLine.liveAt_of_kind kind, Option.or_none]
    exact ih fun l member => comments l (List.mem_cons_of_mem line member)

theorem live_serializeState (plain : ∀ value ∈ s.texts, Storable value) (sect key : Text) :
    liveIn (iniParse (serializeState s)) sect key = sectionAt sect key s.sections := by
  obtain ⟨keys, closed, storable⟩ := InstallState.sections_read plain
  have unmarked : dropMark (serializeState s) = serializeState s := by
    apply dropMark_eq
    intro marked
    obtain ⟨rest, starts⟩ := marked
    rw [serializeState_lines] at starts
    exact absurd (List.cons.inj starts).1 (by decide)
  rw [liveIn_iniParse, unmarked, serializeState_lines, pieces_lines (InstallState.lines_free plain),
    (liveFrom_filter ..).1, liveFrom_notes fun line member => (introLines_notes line member).2,
    liveFrom_sections keys closed storable]

end

theorem findKey_value (doc : IniDoc) (sect key : Text) :
    (findKey doc sect key).map (·.value) = liveIn doc sect key := by
  have past : ∀ found : Option IniLine, (doc.foldl (fun found line =>
      if line.kind = .key ∧ sameKey line.sect sect ∧ sameKey line.key key then some line
      else found) found).map (·.value) = (liveIn doc sect key).or (found.map (·.value)) := by
    induction doc with
    | nil => exact fun _ => rfl
    | cons line doc ih =>
      intro found
      rw [List.foldl_cons, ih, liveIn, Option.or_assoc]
      congr 1
      unfold IniLine.liveAt IniLine.declares
      by_cases here : line.kind = .key ∧ sameKey line.sect sect ∧ sameKey line.key key
      · obtain ⟨kind, own⟩ := here
        simp [kind, own]
      · rw [if_neg here, if_neg fun live => here ⟨live.1, live.2.2⟩, Option.none_or]
  exact (past none).trans (Option.or_none ..)

theorem recordValue_serializeState (plain : ∀ value ∈ s.texts, Storable value) {sect key : String}
    {i : Nat} (place : sectionAt sect.toList key.toList recordKeys = some i) :
    recordValue (iniParse (serializeState s)) sect key = s.written.texts.getD i [] := by
  unfold recordValue
  rw [findKey_value, live_serializeState plain]
  unfold InstallState.sections
  rw [sectionAt_map, place]
  rfl

/-- What the record says of a state: the flags are read off the hashes. -/
def InstallState.recorded (s : InstallState) : InstallState :=
  let nativeInstalled := s.nativeRuntimeSha != [] || s.nativeGraphicsSha != []
  { s.written with
    d3d11Installed := s.written.d3d11Sha != []
    openvrInstalled := s.written.openvrSha != []
    ngxInstalled := s.written.ngxSha != []
    nativeInstalled
    hasBaseIni := false
    present := s.edvrVersion != [] || s.written.d3d11Sha != [] || s.written.openvrSha != [] ||
      nativeInstalled }

theorem serializeState_ne_nil (s : InstallState) : serializeState s ≠ [] := by
  rw [serializeState_lines]
  exact List.cons_ne_nil _ _

theorem parseState_serializeState (plain : ∀ value ∈ s.texts, Storable value) :
    parseState (serializeState s) = s.recorded := by
  unfold parseState
  rw [if_neg (serializeState_ne_nil s)]
  dsimp only
  have value := fun sect key i place => @recordValue_serializeState s plain sect key i place
  rw [value "edvr" "version" 0 (by decide +kernel), value "edvr" "installed_utc" 1 (by decide +kernel),
    value "edvr" "openvr_dir" 2 (by decide +kernel), value "d3d11" "sha256" 3 (by decide +kernel),
    value "d3d11" "chain_target" 4 (by decide +kernel), value "d3d11" "chain_mod" 5 (by decide +kernel),
    value "openvr" "sha256" 6 (by decide +kernel), value "openvr" "orig_name" 7 (by decide +kernel),
    value "openvr" "orig_sha256" 8 (by decide +kernel), value "ngx" "sha256" 9 (by decide +kernel),
    value "ini" "sha256" 10 (by decide +kernel), value "native" "graphics_sha256" 11 (by decide +kernel),
    value "native" "runtime_sha256" 12 (by decide +kernel),
    value "native" "loader_sha256" 13 (by decide +kernel),
    value "native" "license_sha256" 14 (by decide +kernel),
    value "native" "config_sha256" 15 (by decide +kernel),
    value "native" "original_name" 16 (by decide +kernel),
    value "native" "original_sha256" 17 (by decide +kernel)]
  rfl

/-- The flags of a state are those that its hashes tell, as they are after reading. -/
structure InstallState.Agrees (s : InstallState) : Prop where
  d3d11 : s.d3d11Installed = (s.d3d11Sha != [])
  openvr : s.openvrInstalled = (s.openvrSha != [])
  ngx : s.ngxInstalled = (s.ngxSha != [])
  native : s.nativeInstalled = (s.nativeRuntimeSha != [] || s.nativeGraphicsSha != [])
  present : s.present =
    (s.edvrVersion != [] || s.d3d11Installed || s.openvrInstalled || s.nativeInstalled)
  base : s.hasBaseIni = false

theorem InstallState.recorded_eq_iff (s : InstallState) : s.recorded = s ↔ s.Agrees := by
  have kept : ∀ (flag : Bool) (sha : Text), flag = (sha != []) → (if flag then sha else []) = sha := by
    rintro flag sha rfl
    cases sha <;> rfl
  constructor
  · intro same
    have d3d11 : s.recorded.d3d11Sha = s.d3d11Sha := congrArg InstallState.d3d11Sha same
    change s.written.d3d11Sha = s.d3d11Sha at d3d11
    have openvr : s.recorded.openvrSha = s.openvrSha := congrArg InstallState.openvrSha same
    change s.written.openvrSha = s.openvrSha at openvr
    have ngx : s.recorded.ngxSha = s.ngxSha := congrArg InstallState.ngxSha same
    change s.written.ngxSha = s.ngxSha at ngx
    have d3d11Flag : (s.written.d3d11Sha != []) = s.d3d11Installed :=
      congrArg InstallState.d3d11Installed same
    have openvrFlag : (s.written.openvrSha != []) = s.openvrInstalled :=
      congrArg InstallState.openvrInstalled same
    have ngxFlag : (s.written.ngxSha != []) = s.ngxInstalled := congrArg InstallState.ngxInstalled same
    have native : _ = s.nativeInstalled := congrArg InstallState.nativeInstalled same
    have present : _ = s.present := congrArg InstallState.present same
    refine ⟨?_, ?_, ?_, native.symm, ?_, (congrArg InstallState.hasBaseIni same).symm⟩
    · rw [← d3d11, d3d11Flag]
    · rw [← openvr, openvrFlag]
    · rw [← ngx, ngxFlag]
    · rw [← d3d11Flag, ← openvrFlag, ← native]
      exact present.symm
  · rintro ⟨d3d11, openvr, ngx, native, present, base⟩
    have d3d11Sha := kept s.d3d11Installed s.d3d11Sha d3d11
    have openvrSha := kept s.openvrInstalled s.openvrSha openvr
    have ngxSha := kept s.ngxInstalled s.ngxSha ngx
    unfold recorded written
    dsimp only
    rw [d3d11Sha, openvrSha, ngxSha, ← d3d11, ← openvr, ← ngx, ← native, ← present, ← base]

/-- The record of a state whose texts stand on lines is read back as that state, exactly if
its flags are those that its hashes tell. -/
theorem state_record_round_trip (s : InstallState) (plain : ∀ value ∈ s.texts, Storable value) :
    parseState (serializeState s) = s.recorded ∧
      (parseState (serializeState s) = s ↔ s.Agrees) := by
  rw [parseState_serializeState plain]
  exact ⟨rfl, s.recorded_eq_iff⟩

def chainedState : InstallState where
  present := true
  edvrVersion := "1.4.0".toList
  openvrDir := "Openvr\\win64".toList
  d3d11Installed := true
  d3d11Sha := "00ff".toList
  chainTarget := "d3d11_edhm.dll".toList
  chainMod := "EDHM".toList

theorem chainedState_plain (flag : Bool) :
    ∀ value ∈ { chainedState with d3d11Installed := flag }.texts,
      (∀ c ∈ value, isNewline c = false) ∧ trim value = value ∧ ∀ c ∈ value, isMarker c = false := by
  change ∀ value ∈ chainedState.texts, _
  decide +kernel

theorem chainedState_storable (flag : Bool) :
    ∀ value ∈ { chainedState with d3d11Installed := flag }.texts, Storable value := by
  intro value member
  obtain ⟨line, trimmed, unmarked⟩ := chainedState_plain flag value member
  exact storable_of_unmarked line (trimmed ▸ trimmed_trim value) unmarked

theorem state_record_round_trip_chained : parseState (serializeState chainedState) = chainedState :=
  (state_record_round_trip chainedState (chainedState_storable true)).2.mpr ⟨rfl, rfl, rfl, rfl, rfl, rfl⟩

def isHexDigit (c : Char) : Bool :=
  c.isDigit || 'a' ≤ c && c ≤ 'f'

def InstallState.hashes (s : InstallState) : List Text :=
  [s.d3d11Sha, s.openvrSha, s.openvrOrigSha, s.ngxSha, s.iniSha, s.nativeGraphicsSha, s.nativeRuntimeSha,
    s.openxrLoaderSha, s.openxrLicenseSha, s.nativeConfigSha, s.nativeOriginalSha]

/-- A hash that is kept beside a flag that is off is not written. -/
theorem unflagged_hash_is_lost :
    ¬∀ s : InstallState, (∀ sha ∈ s.hashes, ∀ c ∈ sha, isHexDigit c = true) →
      (∀ value ∈ s.texts, (∀ c ∈ value, isNewline c = false) ∧ trim value = value ∧
        ∀ c ∈ value, isMarker c = false) → parseState (serializeState s) = s := by
  intro all
  have same := all { chainedState with d3d11Installed := false } (by decide +kernel)
    (chainedState_plain false)
  rw [parseState_serializeState (chainedState_storable false)] at same
  exact absurd (congrArg InstallState.d3d11Sha same) (by decide)

end EdvrPatch.Installer
