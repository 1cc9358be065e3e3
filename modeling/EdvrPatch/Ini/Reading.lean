import EdvrPatch.Ini.Lexical
import EdvrPatch.Lib.Pieces

/-! What a text says, less the way it is laid out. A document is read through
the non-empty lines of its text alone: terminators and empty lines carry no
setting. -/
namespace EdvrPatch.Ini

open Lib

/-! ### Live values of a document -/

def IniLine.liveAt (line : IniLine) (sect key : Text) : Option Text :=
  if line.kind = .key ∧ line.declares sect key then some line.value else none

variable {line : IniLine} {sect : Text}

theorem IniLine.liveAt_of_sect (other : ¬sameKey line.sect sect) (key : Text) :
    line.liveAt sect key = none :=
  if_neg fun h => other h.2.2.1

variable {key : Text}

theorem IniLine.liveAt_of_key (other : ¬sameKey line.key key) (sect : Text) :
    line.liveAt sect key = none :=
  if_neg fun h => other h.2.2.2

theorem IniLine.liveAt_of_kind (kind : line.kind ≠ .key) (sect key : Text) :
    line.liveAt sect key = none :=
  if_neg fun h => kind h.1

theorem IniLine.liveAt_of_setting (kind : line.kind = .key)
    (names : sameKey line.sect sect ∧ sameKey line.key key) :
    line.liveAt sect key = some line.value :=
  if_pos ⟨kind, .inl kind, names⟩

def liveIn : IniDoc → Text → Text → Option Text
  | [], _, _ => none
  | line :: later, sect, key => (liveIn later sect key).or (line.liveAt sect key)

theorem liveIn_append (doc more : IniDoc) (sect key : Text) :
    liveIn (doc ++ more) sect key = (liveIn more sect key).or (liveIn doc sect key) := by
  induction doc with
  | nil => simp [liveIn]
  | cons line doc ih => rw [List.cons_append, liveIn, liveIn, ih, Option.or_assoc]

theorem effectiveOf_eq (doc : IniDoc) (sect key : Text) :
    effectiveOf doc sect key =
      { present := (liveIn doc sect key).isSome
        value := (liveIn doc sect key).getD []
        known := doc.any (·.declares sect key) } := by
  have past (e : Effective) : doc.foldl (Effective.see sect key) e =
      { present := (liveIn doc sect key).isSome || e.present
        value := (liveIn doc sect key).getD e.value
        known := doc.any (·.declares sect key) || e.known } := by
    induction doc generalizing e with
    | nil => simp [liveIn]
    | cons line doc ih =>
      rw [List.foldl_cons, ih, liveIn, List.any_cons]
      unfold Effective.see IniLine.liveAt
      by_cases declared : line.declares sect key
      · by_cases live : line.kind = .key
        · cases liveIn doc sect key <;> simp [declared, live]
        · cases liveIn doc sect key <;> simp [declared, live]
      · cases liveIn doc sect key <;> simp [declared]
  simpa [effectiveOf] using past {}

theorem effectiveOf_present (doc : IniDoc) (sect key : Text) :
    (effectiveOf doc sect key).present = (liveIn doc sect key).isSome := by
  rw [effectiveOf_eq]

theorem effectiveOf_value (doc : IniDoc) (sect key : Text) :
    (effectiveOf doc sect key).value = (liveIn doc sect key).getD [] := by
  rw [effectiveOf_eq]

theorem effectiveOf_known {doc : IniDoc} :
    (effectiveOf doc sect key).known = true ↔ ∃ line ∈ doc, line.declares sect key := by
  rw [effectiveOf_eq]
  simp

theorem iniValue_eq (text dotted fallback : Text) :
    iniValue text dotted fallback =
      (liveIn (iniParse text) (splitDotted dotted).1 (splitDotted dotted).2).getD fallback := by
  unfold iniValue
  dsimp only
  rw [effectiveOf_present, effectiveOf_value]
  cases liveIn (iniParse text) (splitDotted dotted).1 (splitDotted dotted).2 <;> rfl

theorem splitDotted_append (undotted : '.' ∉ sect) (key : Text) :
    splitDotted (sect ++ '.' :: key) = (sect, key) := by
  have front : ∀ c ∈ sect, (c != '.') = true := by
    intro c member
    have : c ≠ '.' := fun same => undotted (same ▸ member)
    simpa using this
  unfold splitDotted
  rw [if_pos (by simp), List.takeWhile_append_of_pos front, List.dropWhile_append_of_pos front]
  simp

def Undotted (sect key : Text) : Prop :=
  '.' ∉ if sect = [] then key else sect

instance (sect key : Text) : Decidable (Undotted sect key) :=
  inferInstanceAs (Decidable (_ ∉ _))

theorem splitDotted_dottedName (undotted : Undotted sect key) :
    splitDotted (dottedName sect key) = (sect, key) := by
  unfold Undotted at undotted
  unfold dottedName
  split at undotted
  · rename_i bare
    rw [if_pos bare, splitDotted, if_neg undotted, bare]
  · rename_i named
    rw [if_neg named, splitDotted_append undotted]

theorem splitDotted_lower (name : Text) :
    splitDotted (lower name) = (lower (splitDotted name).1, lower (splitDotted name).2) := by
  have dot (c : Char) : c.toLower = '.' ↔ c = '.' :=
    ⟨eq_of_toLower_eq (by decide), fun same => by rw [same]; rfl⟩
  have front (name : Text) : (lower name).takeWhile (· != '.') = lower (name.takeWhile (· != '.')) ∧
      (lower name).dropWhile (· != '.') = lower (name.dropWhile (· != '.')) := by
    induction name with
    | nil => exact ⟨rfl, rfl⟩
    | cons c name ih =>
      by_cases here : c = '.'
      · subst here
        exact ⟨rfl, rfl⟩
      · have there : c.toLower ≠ '.' := fun same => here ((dot c).mp same)
        simp [here, there, ih]
  have found : '.' ∈ lower name ↔ '.' ∈ name := by
    refine ⟨mem_of_mem_lower (by decide), fun member => ?_⟩
    exact List.mem_map.mpr ⟨'.', member, rfl⟩
  unfold splitDotted
  by_cases here : '.' ∈ name
  · rw [if_pos here, if_pos (found.mpr here), (front name).1, (front name).2]
    simp [lower]
  · rw [if_neg here, if_neg fun h => here (found.mp h)]
    rfl

theorem splitDotted_join {name : Text} (named : (splitDotted name).1 ≠ []) :
    name = (splitDotted name).1 ++ '.' :: (splitDotted name).2 := by
  unfold splitDotted at named ⊢
  split at named
  · rename_i member
    rw [if_pos member]
    have whole := List.takeWhile_append_dropWhile (p := (· != '.')) (l := name)
    have ne : name.dropWhile (· != '.') ≠ [] := by
      intro none
      have := List.dropWhile_eq_nil_iff.mp none '.' member
      simp at this
    obtain ⟨c, rest, starts⟩ := List.exists_cons_of_ne_nil ne
    have dot := List.head_dropWhile_not (· != '.') ne
    simp only [starts, List.head_cons, bne_eq_false_iff_eq] at dot
    subst dot
    rw [starts, List.tail_cons, ← starts, whole]
  · exact absurd rfl named

/-! ### Lines read one after the other -/

def sectAfter : Text → List Text → Text
  | sect, [] => sect
  | sect, text :: later => sectAfter (readLine sect text []).sect later

def liveFrom : Text → List Text → Text → Text → Option Text
  | _, [], _, _ => none
  | at_, text :: later, sect, key =>
    (liveFrom (readLine at_ text []).sect later sect key).or
      ((readLine at_ text []).liveAt sect key)

theorem sectAfter_cons (at_ text : Text) (later : List Text) :
    sectAfter at_ (text :: later) = sectAfter (readLine at_ text []).sect later := rfl

theorem liveFrom_cons (at_ text : Text) (later : List Text) (sect key : Text) :
    liveFrom at_ (text :: later) sect key =
      (liveFrom (readLine at_ text []).sect later sect key).or
        ((readLine at_ text []).liveAt sect key) := rfl

theorem sectAfter_append (at_ : Text) (texts more : List Text) :
    sectAfter at_ (texts ++ more) = sectAfter (sectAfter at_ texts) more := by
  induction texts generalizing at_ with
  | nil => rfl
  | cons text _ ih => exact ih _

theorem liveFrom_append (at_ : Text) (texts more : List Text) (sect key : Text) :
    liveFrom at_ (texts ++ more) sect key =
      (liveFrom (sectAfter at_ texts) more sect key).or (liveFrom at_ texts sect key) := by
  induction texts generalizing at_ with
  | nil => simp [liveFrom, sectAfter]
  | cons text texts ih =>
    rw [List.cons_append, liveFrom, liveFrom, ih, Option.or_assoc]
    rfl

theorem readLine_eol (at_ text eol : Text) :
    readLine at_ text eol = { readLine at_ text [] with eol := eol } := by
  unfold readLine
  dsimp only
  split
  · rfl
  · split
    · split <;> rfl
    · split
      · split <;> rfl
      · split <;> rfl

theorem liveIn_readLines (at_ : Text) (raw : List (Text × Text)) (sect key : Text) :
    liveIn (readLines at_ raw) sect key = liveFrom at_ (raw.map Prod.fst) sect key := by
  induction raw generalizing at_ with
  | nil => rfl
  | cons line raw ih =>
    obtain ⟨text, eol⟩ := line
    rw [readLines, liveIn, ih, List.map_cons, liveFrom, readLine_eol]
    rfl

/-! What a line is, by the first character of its body. -/

theorem readLine_header {text rest : Text} (body : trim text = '[' :: rest) (close : ']' ∈ rest)
    (at_ eol : Text) : readLine at_ text eol =
      { kind := .sect, text := text, eol := eol, sect := rest.takeWhile (· != ']') } := by
  unfold readLine
  rw [body]
  simp [close]

theorem readLine_unclosed {text rest : Text} (body : trim text = '[' :: rest) (open_ : ']' ∉ rest)
    (at_ eol : Text) : readLine at_ text eol =
      { kind := .comment, text := text, eol := eol, sect := at_ } := by
  unfold readLine
  rw [body]
  simp [open_]

theorem readLine_marker {text rest : Text} {first : Char} (body : trim text = first :: rest)
    (marker : isMarker first = true) (at_ eol : Text) : readLine at_ text eol =
      match splitKeyValue (trim ((first :: rest).dropWhile isMarker)) with
      | some (key, value) =>
        { kind := .commentedKey, text := text, eol := eol, sect := at_, key := key,
          value := value }
      | none => { kind := .comment, text := text, eol := eol, sect := at_ } := by
  have notHeader : first ≠ '[' := by
    rintro rfl
    cases marker
  unfold readLine
  rw [body]
  refine (if_neg notHeader).trans ((if_pos marker).trans ?_)
  cases splitKeyValue (trim ((first :: rest).dropWhile isMarker)) <;> rfl

theorem readLine_plain {text rest : Text} {first : Char} (body : trim text = first :: rest)
    (notHeader : first ≠ '[') (notMarker : isMarker first = false) (at_ eol : Text) :
    readLine at_ text eol =
      match splitKeyValue (first :: rest) with
      | some (key, value) =>
        { kind := .key, text := text, eol := eol, sect := at_, key := key, value := value }
      | none => { kind := .comment, text := text, eol := eol, sect := at_ } := by
  unfold readLine
  rw [body]
  refine (if_neg notHeader).trans ((if_neg (by simp [notMarker])).trans ?_)
  cases splitKeyValue (first :: rest) <;> rfl

theorem readLine_blank {text : Text} (blank : ∀ c ∈ text, isBlank c = true) (at_ eol : Text) :
    readLine at_ text eol = { kind := .blank, text := text, eol := eol, sect := at_ } := by
  unfold readLine
  rw [trim_eq_nil_iff.mpr blank]

theorem liveFrom_filter (at_ : Text) (texts : List Text) (sect key : Text) :
    liveFrom at_ (texts.filter fun text => !text.isEmpty) sect key = liveFrom at_ texts sect key ∧
      sectAfter at_ (texts.filter fun text => !text.isEmpty) = sectAfter at_ texts := by
  induction texts generalizing at_ with
  | nil => exact ⟨rfl, rfl⟩
  | cons text texts ih =>
    cases text with
    | nil =>
      have past := @readLine_blank [] nofun at_ []
      refine ⟨?_, ?_⟩
      · rw [List.filter_cons_of_neg (by simp), (ih at_).1, liveFrom, past]
        simp [IniLine.liveAt]
      · rw [List.filter_cons_of_neg (by simp), (ih at_).2, sectAfter, past]
    | cons c text =>
      rw [List.filter_cons_of_pos (by simp)]
      refine ⟨?_, ?_⟩
      · rw [liveFrom, (ih _).1, liveFrom]
      · exact (ih _).2

/-! ### From characters to lines -/

theorem takeEol_spec (rest : Text) : ∃ more, rest = takeEol rest ++ more ∧
    (∀ c ∈ takeEol rest, isNewline c = true) ∧
    (∀ c ∈ rest.head?, isNewline c = true → takeEol rest ≠ []) := by
  cases rest with
  | nil => exact ⟨[], rfl, nofun, nofun⟩
  | cons c rest =>
    simp only [takeEol]
    split
    · rename_i cr
      subst cr
      split
      · rename_i lf
        obtain ⟨more, rfl⟩ := List.head?_eq_some_iff.mp lf
        exact ⟨more, rfl, by decide, fun _ _ _ => by simp⟩
      · exact ⟨rest, rfl, by decide, fun _ _ _ => by simp⟩
    · rename_i cr
      split
      · rename_i lf
        subst lf
        exact ⟨rest, rfl, by decide, fun _ _ _ => by simp⟩
      · rename_i lf
        refine ⟨c :: rest, rfl, nofun, ?_⟩
        rintro _ ⟨⟩ newline
        simp [isNewline, cr, lf] at newline

theorem splitLines_cons {fuel : Nat} {text : Text} (ne : text ≠ []) :
    ∃ line eol rest, splitLines (fuel + 1) text = (line, eol) :: splitLines fuel rest ∧
      text = line ++ (eol ++ rest) ∧ (∀ c ∈ line, isNewline c = false) ∧
      (∀ c ∈ eol, isNewline c = true) ∧ (rest ≠ [] → eol ≠ []) ∧ rest.length < text.length := by
  obtain ⟨more, cut, newlines, found⟩ := takeEol_spec (text.dropWhile (!isNewline ·))
  have stops : ∀ c ∈ (text.dropWhile (!isNewline ·)).head?, isNewline c = true := by
    intro c first
    have := List.head?_dropWhile_not (!isNewline ·) text
    rw [first] at this
    simpa using this
  have whole : text = text.takeWhile (!isNewline ·) ++
      (takeEol (text.dropWhile (!isNewline ·)) ++ more) := by
    rw [← cut, List.takeWhile_append_dropWhile]
  have ended : more ≠ [] → takeEol (text.dropWhile (!isNewline ·)) ≠ [] := by
    intro some_ none
    rw [none, List.nil_append] at cut
    obtain ⟨c, later, rfl⟩ := List.exists_cons_of_ne_nil some_
    exact found c (by rw [cut]; rfl) (stops c (by rw [cut]; rfl)) none
  refine ⟨_, _, more, ?_, whole, takeWhile_free text, newlines, ended, ?_⟩
  · rw [splitLines, if_neg ne]
    dsimp only
    generalize text.dropWhile (!isNewline ·) = tail at *
    generalize takeEol tail = eol at *
    rw [cut, List.drop_left]
  · by_cases empty : more = []
    · subst empty
      exact List.length_pos_of_ne_nil ne
    · have := List.length_pos_of_ne_nil (ended empty)
      have total := congrArg List.length whole
      simp only [List.length_append] at total
      omega

theorem filter_line {line eol rest : Text} {lines : List Text} (free : ∀ c ∈ line, isNewline c = false)
    (newlines : ∀ c ∈ eol, isNewline c = true) (ended : rest ≠ [] → eol ≠ [])
    (tail : lines.filter (fun line => !line.isEmpty) = pieces isNewline rest) :
    (line :: lines).filter (fun line => !line.isEmpty) =
      pieces isNewline (line ++ (eol ++ rest)) := by
  have front : [line].filter (fun line => !line.isEmpty) = pieces isNewline line := by
    cases line with
    | nil => rfl
    | cons c line => exact (pieces_eq_singleton free (by simp)).symm
  rw [← List.singleton_append, List.filter_append, tail, front]
  by_cases none : eol = []
  · subst none
    obtain rfl : rest = [] := not_ne_iff.mp fun more => ended more rfl
    simp
  · exact (pieces_append_append newlines none).symm

theorem splitLines_pieces (fuel : Nat) (text : Text) (enough : text.length ≤ fuel) :
    ((splitLines fuel text).map Prod.fst).filter (fun line => !line.isEmpty) =
      pieces isNewline text := by
  induction fuel generalizing text with
  | zero =>
    obtain rfl := List.length_eq_zero_iff.mp (Nat.le_zero.mp enough)
    rfl
  | succ fuel ih =>
    by_cases ne : text = []
    · subst ne
      rfl
    · obtain ⟨line, eol, rest, split, whole, free, newlines, ended, shorter⟩ :=
        @splitLines_cons fuel text ne
      rw [split, List.map_cons, filter_line free newlines ended (ih rest (by omega)), whole]

theorem liveIn_iniParse (text sect key : Text) :
    liveIn (iniParse text) sect key =
      liveFrom [] (pieces isNewline (dropMark text)) sect key := by
  unfold iniParse
  rw [liveIn_readLines, ← splitLines_pieces _ _ (Nat.le_refl _), (liveFrom_filter ..).1]

end EdvrPatch.Ini
