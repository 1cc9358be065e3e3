import EdvrPatch.Ini.Notes

/-! No value of the user's is lost: a setting that the user's file has live, and
that nobody else decides, is live with that value in the merged file. -/
namespace EdvrPatch.Ini

open Lib

/-! ### Many steps -/

section

variable {next : IniDoc} {sect key : Text}

/-- Edits that came past a setting: they say about it what they said before. -/
structure Past (next : IniDoc) (sect key : Text) (m m' : Edits) : Prop where
  keyed : m'.Keyed next
  top : m'.TopPlain
  untouched : Untouched next sect key m m'

theorem Past.trans {m m' m'' : Edits} (first : Past next sect key m m')
    (second : Past next sect key m' m'') : Past next sect key m m'' :=
  ⟨second.keyed, second.top, first.untouched.trans second.untouched⟩

theorem Past.silent {m : Edits} (keyed : m.Keyed next) (top : m.TopPlain) (report : MergeReport) :
    Past next sect key m { m with report := report } :=
  ⟨keyed.report report, top, ⟨rfl, fun _ _ _ _ => rfl⟩⟩

/-- A new file that was read, its first line's key without a byte order mark. -/
structure Readable (next : IniDoc) : Prop where
  read : ReadFrom [] next
  laid : LaidOut next
  head : ∀ line, next.head? = some line → ¬byteOrderMark <+: line.key

theorem EditFor.past {sect' key' : Text} {m m' : Edits} (edit : EditFor next sect' key' m m')
    (readable : Readable next) (other : ¬SamePair sect' key' sect key) (keyed : m.Keyed next)
    (top : m.TopPlain) : Past next sect key m m' :=
  ⟨edit.keyed readable.read readable.laid keyed, edit.topPlain readable.read readable.head top,
    edit.untouched keyed other⟩

theorem foldl_past {α : Type} {f : Edits → α → Edits} {xs : List α}
    (steps : ∀ x ∈ xs, ∀ m : Edits, m.Keyed next → m.TopPlain → Past next sect key m (f m x))
    {m : Edits} (keyed : m.Keyed next) (top : m.TopPlain) : Past next sect key m (xs.foldl f m) := by
  induction xs generalizing m with
  | nil => exact ⟨keyed, top, .refl m⟩
  | cons x xs ih =>
    have past := steps x List.mem_cons_self m keyed top
    exact past.trans (ih (fun y member => steps y (List.mem_cons_of_mem _ member)) past.keyed past.top)

/-- What edits make of a setting, once the new file is written with them. -/
structure Tells (next : IniDoc) (m : Edits) (sect key : Text) (said : Option Text) : Prop where
  keyed : m.Keyed next
  top : m.TopPlain
  live : (blockLive m sect key).or (liveIn (slotted m 0 next) sect key) = said

variable {report : MergeReport}

theorem Past.tells_own {m : Edits} (past : Past next sect key { report := report } m) :
    Tells next m sect key (liveIn next sect key) := by
  refine ⟨past.keyed, past.top, ?_⟩
  rw [past.untouched.block]
  apply liveIn_slotted_same (past.keyed.quiet sect key)
  intro i line here declares
  rw [past.untouched.lines i line here declares]
  rfl

theorem tells_written (read : ReadFrom [] next) {m : Edits} (keyed : m.Keyed next) (top : m.TopPlain)
    (block : blockLive m sect key = none) {i : Nat} {value : Text}
    (last : lastDeclared next sect key = some i)
    (found : m.replacements.get i = some (rewritten next i value)) (trimmed : Trimmed value)
    (free : CommentFree value) : Tells next m sect key (some (writtenValue value)) := by
  obtain ⟨line, here, declares⟩ := lastDeclared_spec last
  refine ⟨keyed, top, ?_⟩
  rw [block, Option.none_or]
  apply liveIn_slotted_last (keyed.quiet sect key) last found
  intro line' here'
  cases here.symm.trans here'
  obtain ⟨found', reads, value_eq⟩ := rewritten_reads read here declares.setting value
  rw [reads, value_eq trimmed free]
  generalize writtenValue value = written
  exact IniLine.liveAt_of_setting rfl declares.2

theorem Past.tells_rewritten (read : ReadFrom [] next) {m m' : Edits} {report' : MergeReport}
    {i : Nat} {value : Text} (before : Past next sect key { report := report } m)
    (last : lastDeclared next sect key = some i) (trimmed : Trimmed value)
    (free : CommentFree value)
    (after : Past next sect key { m.replace i (rewritten next i value) with report := report' } m') :
    Tells next m' sect key (some (writtenValue value)) ∧ m'.replacements.get i ≠ none := by
  obtain ⟨line, here, declares⟩ := lastDeclared_spec last
  have found : m'.replacements.get i = some (rewritten next i value) := by
    rw [after.untouched.lines i line here declares]
    exact Store.get_set_self ..
  have block : blockLive m' sect key = none := by
    rw [after.untouched.block]
    exact before.untouched.block
  exact ⟨tells_written read after.keyed after.top block last found trimmed free, by simp [found]⟩

theorem Past.tells_carried {m m' : Edits} {note value : Text} (keyed : m.Keyed next)
    (isNote : IsNote note) (ok : Appendable sect key value) (trimmed : Trimmed value)
    (free : CommentFree value)
    (after : Past next sect key { (m.append sect note).append sect (assignText key value) with report := report } m') :
    Tells next m' sect key (some (writtenValue value)) := by
  obtain ⟨plain, -, noteLine⟩ := note_reads isNote
  have keyed' := keyed.append ok.closed ok.sectLine noteLine plain
  obtain ⟨found, reads, value_eq⟩ := assignText_reads ok.token ok.noEq value
  refine ⟨after.keyed, after.top, ?_⟩
  rw [after.untouched.block]
  change Option.or (blockLive ((m.append sect note).append sect (assignText key value)) sect key) _ = _
  rw [blockLive_append keyed', if_pos (show sameKey sect sect from rfl), reads,
    value_eq trimmed free]
  generalize writtenValue value = written
  rw [IniLine.liveAt_of_setting rfl ⟨rfl, rfl⟩]
  rfl

end

/-! ### Which settings are meant -/

/-- A value the installer sets under a name that stands for one setting, on a
line of its own. -/
structure ForcedOk (f : Text × Text) : Prop where
  undotted : f.1.head? ≠ some '.'
  unmarked : ¬byteOrderMark <+: f.1
  writes : Appendable (splitDotted f.1).1 (splitDotted f.1).2 f.2

/-- A new file and forced values that do not get in the way of the reader. The
file starts with no second byte order mark, on its first line or behind the
marker of a setting there; and where its last line is unterminated, no forced
value is put behind it. -/
structure Tidy (next : IniDoc) (forced : List (Text × Text)) : Prop where
  head : ∀ line, next.head? = some line →
    ¬byteOrderMark <+: line.text ∧ ¬byteOrderMark <+: line.key
  writes : ∀ f ∈ forced, ForcedOk f
  tail : ∀ last, next.getLast? = some last → last.eol = [] → last.kind ≠ .blank → ∀ f ∈ forced,
    sameKey (splitDotted f.1).1 last.sect →
      lastDeclared next (splitDotted f.1).1 (splitDotted f.1).2 ≠ none

/-- A setting of the user's file that nobody else decides: it is live there, it is
neither forced nor a retired default, and either the new file knows it and the
user changed it, or the new file neither knows it nor says where it moved. -/
structure UserSetting (docs : Sources) (forced : List (Text × Text)) (sect key value : Text) :
    Prop where
  live : liveIn docs.user sect key = some value
  unforced : keyId (sect, key) ∉ forced.map fun f => lower f.1
  unretired : (keyId (sect, key), lower value) ∉ retiredDefaults docs.next
  meant : if (effectiveOf docs.next sect key).known then liveIn docs.base sect key ≠ some value
    else (movedKeys docs.next).get (keyId (sect, key)) = none

/-- The merge visits settings by their dotted names, the first one that has a name
only; `a.b` in a section `c` and `b` in a section `c.a` share one. -/
def Visited (user : IniDoc) (sect key : Text) : Prop :=
  ∃ line, firstWithId user (keyId (sect, key)) = some line ∧ SamePair line.sect line.key sect key

theorem ForcedOk.top {f : Text × Text} (ok : ForcedOk f) (empty : (splitDotted f.1).1 = []) :
    (splitDotted f.1).2 = f.1 := by
  unfold splitDotted at empty ⊢
  split at empty
  · rename_i dotted
    cases name : f.1 with
    | nil =>
      rw [name] at dotted
      cases dotted
    | cons c rest =>
      have first : c ≠ '.' := by
        have := ok.undotted
        rw [name] at this
        simpa using this
      rw [name, List.takeWhile_cons_of_pos (by simpa using first)] at empty
      cases empty
  · rename_i undotted
    rw [if_neg undotted]

theorem ForcedOk.id {f : Text × Text} (ok : ForcedOk f) : keyId (splitDotted f.1) = lower f.1 := by
  unfold keyId dottedName
  by_cases empty : (splitDotted f.1).1 = []
  · rw [if_pos empty, ok.top empty]
  · rw [if_neg empty, ← splitDotted_join empty]

section

variable {next user : Text} {base : Option Text} {forced : List (Text × Text)}
variable {sect key value : Text}

theorem userKeys_ok {sk : Text × Text}
    (member : sk ∈ userKeys (iniParse user) (iniParse (base.getD next)) base.isSome) :
    isKeyToken sk.2 = true ∧ '=' ∉ sk.2 ∧ SectName sk.1 := by
  obtain ⟨line, inside | inside, setting, rfl⟩ := mem_userKeys member
  · have ok := settingLine_of_mem inside setting
    exact ⟨ok.token, ok.noEq, sectName_of_mem inside⟩
  · have ok := settingLine_of_mem inside setting
    exact ⟨ok.token, ok.noEq, sectName_of_mem inside⟩

theorem visit_edit {sk : Text × Text}
    (member : sk ∈ userKeys (iniParse user) (iniParse (base.getD next)) base.isSome) (m : Edits) :
    ∃ sect' key', EditFor (iniParse next) sect' key' m
        ((readSources next user base).mergeKey forced m sk) ∧
      (SamePair sect' key' sk.1 sk.2 ∨ ∃ move, (readSources next user base).Follows forced sk move ∧
        sect' = move.sect ∧ key' = move.key) := by
  obtain ⟨token, noEq, named⟩ := userKeys_ok member
  exact Sources.mergeKey_edit (Sources.writable_readSources next user base) token noEq named

theorem Tidy.readable (tidy : Tidy (iniParse next) forced) : Readable (iniParse next) :=
  ⟨iniParse_readFrom next, iniParse_laidOut next, fun line first => (tidy.head line first).2⟩

/-- Visits of other settings pass one that no rename is followed to, and so do those
of its own that say nothing about it. -/
theorem visits_past (unset : ∀ sk move, (readSources next user base).Follows forced sk move →
      ¬SamePair move.sect move.key sect key)
    (readable : Readable (iniParse next)) {keys : List (Text × Text)}
    (inside : keys ⊆ userKeys (iniParse user) (iniParse (base.getD next)) base.isSome)
    (own : ∀ sk ∈ keys, SamePair sk.1 sk.2 sect key → ∀ m : Edits, m.Keyed (iniParse next) →
      m.TopPlain →
        Past (iniParse next) sect key m ((readSources next user base).mergeKey forced m sk))
    {m : Edits} (keyed : m.Keyed (iniParse next)) (top : m.TopPlain) :
    Past (iniParse next) sect key m
      (keys.foldl ((readSources next user base).mergeKey forced) m) := by
  refine foldl_past (fun sk member m keyed top => ?_) keyed top
  by_cases here : SamePair sk.1 sk.2 sect key
  · exact own sk member here m keyed top
  obtain ⟨sect', key', edit, pair | ⟨move, follows, rfl, rfl⟩⟩ :=
    @visit_edit next user base forced sk (inside member) m
  · refine edit.past readable (fun same => here ?_) keyed top
    exact ⟨pair.1.symm.trans same.1, pair.2.symm.trans same.2⟩
  · exact edit.past readable (unset sk move follows) keyed top

theorem unfollowed_of_live (live : liveIn (iniParse user) sect key = some value)
    (sk : Text × Text) (move : MovedTarget)
    (follows : (readSources next user base).Follows forced sk move) :
    ¬SamePair move.sect move.key sect key := by
  intro same
  have free := follows.free
  rw [liveIn_congr same] at free
  cases free.symm.trans live

theorem force_past {f : Text × Text} (ok : ForcedOk f) (readable : Readable (iniParse next))
    (other : ¬SamePair (splitDotted f.1).1 (splitDotted f.1).2 sect key) {m : Edits}
    (keyed : m.Keyed (iniParse next)) (top : m.TopPlain) :
    Past (iniParse next) sect key m ((readSources next user base).forceKey m f) :=
  (@Sources.forceKey_edit (readSources next user base) m f ok.writes.valueLine
    fun _ => ok.writes).past readable other keyed top

theorem forces_past (tidy : Tidy (iniParse next) forced)
    (unforced : ∀ f ∈ forced, ¬SamePair (splitDotted f.1).1 (splitDotted f.1).2 sect key) {m : Edits}
    (keyed : m.Keyed (iniParse next)) (top : m.TopPlain) : Past (iniParse next) sect key m
      (forced.foldl (readSources next user base).forceKey m) :=
  foldl_past (fun f member _ => force_past (tidy.writes f member) tidy.readable (unforced f member))
    keyed top

theorem Tidy.unforced (tidy : Tidy (iniParse next) forced)
    (unnamed : keyId (sect, key) ∉ forced.map fun f => lower f.1) :
    ∀ f ∈ forced, ¬SamePair (splitDotted f.1).1 (splitDotted f.1).2 sect key := by
  intro f member same
  apply unnamed
  rw [← keyId_congr same]
  exact List.mem_map.mpr ⟨f, member, (tidy.writes f member).id.symm⟩

theorem Tells.merged {said : Option Text} (tidy : Tidy (iniParse next) forced)
    (tells : Tells (iniParse next) ((readSources next user base).edits forced) sect key said)
    (own : ∀ last, (iniParse next).getLast? = some last → last.eol = [] → last.kind ≠ .blank →
      ((readSources next user base).edits forced).replacements.get ((iniParse next).length - 1) =
        none → ¬last.declares sect key) :
    liveIn (iniParse (mergeIni next user base forced).1) sect key = said := by
  have notes : ∀ note, IsNote note → ¬byteOrderMark <+: note := by
    rintro note (rfl | rfl) <;> decide
  have block : ((readSources next user base).edits forced).Led
      (fun text => ¬byteOrderMark <+: text) [] := by
    refine Sources.edits_led notes fun f member _ top marked => ?_
    have ok := tidy.writes f member
    have empty : (splitDotted f.1).1 = [] := by
      have := congrArg List.length top
      rw [length_lower] at this
      exact List.length_eq_zero_iff.mp this
    apply ok.unmarked
    rw [ok.top empty] at marked
    unfold assignText at marked
    rw [List.append_assoc] at marked
    refine prefix_of_stop mark_not_ascii ?_ marked
    rintro _ ⟨⟩
    rfl
  rw [← tells.live]
  refine tells.keyed.live_emit (iniParse_readFrom next) (iniParse_laidOut next)
    (fun line first => (tidy.head line first).1) tells.top block ?_
  intro last isLast bare solid unreplaced
  refine ⟨Sources.edits_led (fun note isNote => isNote) ?_, own last isLast bare solid unreplaced⟩
  intro f member undeclared same
  exact absurd undeclared (tidy.tail last isLast bare solid f member same)

def Gives (text sect key value : Text) : Prop :=
  ∀ fallback, iniValue text (dottedName sect key) fallback = value

theorem gives_iff_cut {text : Text} : Gives text sect key value ↔
    liveIn (iniParse text) (splitDotted (dottedName sect key)).1
      (splitDotted (dottedName sect key)).2 = some value := by
  unfold Gives
  simp only [iniValue_eq]
  cases liveIn (iniParse text) _ _ with
  | none =>
    -- the fallback itself would have to be the value
    refine iff_of_false (fun gives => ?_) (by rintro ⟨⟩)
    have first : [] = value := gives []
    have second : ['.'] = value := gives ['.']
    cases first.trans second.symm
  | some found => simp

theorem gives_iff {text : Text} (undotted : Undotted sect key) :
    Gives text sect key value ↔ liveIn (iniParse text) sect key = some value := by
  rw [gives_iff_cut, splitDotted_dottedName undotted]

/-- What is asked of a setting of the user's: where the new file declares it, the
merged text is read with the value under its name; elsewhere it is live there. -/
def Kept (next : IniDoc) (text sect key value : Text) : Prop :=
  if (effectiveOf next sect key).known then Gives text sect key value
  else liveIn (iniParse text) sect key = some value

theorem kept_iff {next : IniDoc} {text : Text}
    (undotted : (effectiveOf next sect key).known → Undotted sect key) :
    Kept next text sect key value ↔ liveIn (iniParse text) sect key = some value := by
  unfold Kept
  split
  · rename_i known
    exact gives_iff (undotted known)
  · exact Iff.rfl

theorem start_keyed (next : IniDoc) (report : MergeReport) :
    ({ report := report } : Edits).Keyed next ∧ ({ report := report } : Edits).TopPlain :=
  ⟨⟨nofun, nofun⟩, nofun⟩

theorem UserSetting.congr {docs : Sources} {sect' key' : Text}
    (setting : UserSetting docs forced sect key value) (same : SamePair sect key sect' key') :
    UserSetting docs forced sect' key' value := by
  obtain ⟨live, unforced, unretired, meant⟩ := setting
  rw [liveIn_congr same] at live
  rw [keyId_congr same] at unforced unretired
  rw [effectiveOf_congr same, liveIn_congr same, keyId_congr same] at meant
  exact ⟨live, unforced, unretired, meant⟩

theorem edits_split {front back : List (Text × Text)} {sk : Text × Text}
    (keys : userKeys (iniParse user) (iniParse (base.getD next)) base.isSome = front ++ sk :: back) :
    (readSources next user base).edits forced =
      forced.foldl (readSources next user base).forceKey
        (back.foldl ((readSources next user base).mergeKey forced)
          ((readSources next user base).mergeKey forced
            (front.foldl ((readSources next user base).mergeKey forced)
              { report := { twoWay := !base.isSome } }) sk)) := by
  unfold Sources.edits
  change forced.foldl _ ((userKeys (iniParse user) (iniParse (base.getD next)) base.isSome).foldl
    _ _) = _
  rw [keys, List.foldl_append, List.foldl_cons]
  rfl

/-- The one visit a setting gets writes the user's value; the visits before and
after it and the forced values pass. -/
theorem edits_visited (tidy : Tidy (iniParse next) forced)
    (setting : UserSetting (readSources next user base) forced sect key value)
    {front back : List (Text × Text)}
    (keys : userKeys (iniParse user) (iniParse (base.getD next)) base.isSome =
      front ++ (sect, key) :: back)
    (others : ∀ sk ∈ front ++ back, keyId sk ≠ keyId (sect, key)) :
    Tells (iniParse next) ((readSources next user base).edits forced) sect key
        (some (writtenValue value)) ∧
      ∀ i, lastDeclared (iniParse next) sect key = some i →
        ((readSources next user base).edits forced).replacements.get i ≠ none := by
  have readable := tidy.readable
  have live : liveIn (iniParse user) sect key = some value := setting.live
  obtain ⟨trimmed, free, valueLine⟩ := liveIn_value live
  have other (sk : Text × Text) (member : sk ∈ front ++ back) : ¬SamePair sk.1 sk.2 sect key :=
    fun same => others sk member (keyId_congr same)
  obtain ⟨keyed₀, top₀⟩ := start_keyed (iniParse next) { twoWay := !base.isSome }
  have unset := @unfollowed_of_live next user base forced _ _ _ live
  have before := @visits_past next user base forced _ _ unset readable front
    (fun sk member => by rw [keys]; exact List.mem_append_left _ member)
    (fun sk member same => absurd same (other sk (List.mem_append_left _ member))) _ keyed₀ top₀
  rw [edits_split keys]
  generalize front.foldl ((readSources next user base).mergeKey forced)
    { report := { twoWay := !base.isSome } } = m at before
  have own : (sect, key) ∈ userKeys (iniParse user) (iniParse (base.getD next)) base.isSome := by
    rw [keys]
    exact List.mem_append_right _ List.mem_cons_self
  obtain ⟨_, _, edit, -⟩ := @visit_edit next user base forced (sect, key) own m
  have keyed := edit.keyed readable.read readable.laid before.keyed
  have top := edit.topPlain readable.read readable.head before.top
  have visits := @visits_past next user base forced _ _ unset readable back
    (fun sk member => by rw [keys]; exact List.mem_append_right _ (List.mem_cons_of_mem _ member))
    (fun sk member same => absurd same (other sk (List.mem_append_right _ member))) _ keyed top
  have after := visits.trans
    (@forces_past next user base forced _ _ tidy (tidy.unforced setting.unforced) _ visits.keyed
      visits.top)
  have meant := setting.meant
  split at meant
  · rename_i known
    obtain ⟨i, report, last, kept⟩ := @Sources.mergeKey_kept _ _ m _ _ _ setting.unforced known
      setting.live setting.unretired meant
    rw [kept] at after ⊢
    obtain ⟨tells, replaced⟩ := before.tells_rewritten readable.read last trimmed free after
    refine ⟨tells, fun j last' => ?_⟩
    rw [← Option.some.inj (last.symm.trans last')]
    exact replaced
  · rename_i unknown
    obtain ⟨note, report, isNote, carried⟩ := @Sources.mergeKey_carried _ _ m _ _ _
      setting.unforced (by simpa using unknown) setting.live meant
    obtain ⟨token, noEq, named⟩ := userKeys_ok own
    rw [carried] at after ⊢
    refine ⟨Past.tells_carried before.keyed isNote ⟨token, noEq, named.1, named.2, valueLine⟩ trimmed
      free after, fun i last => absurd ?_ unknown⟩
    obtain ⟨line, here, declares⟩ := lastDeclared_spec last
    exact effectiveOf_known.mpr ⟨line, List.mem_of_getElem? here, declares⟩

theorem edits_unsaid (tidy : Tidy (iniParse next) forced)
    (unset : ∀ sk move, (readSources next user base).Follows forced sk move →
      ¬SamePair move.sect move.key sect key)
    (unforced : ∀ f ∈ forced, ¬SamePair (splitDotted f.1).1 (splitDotted f.1).2 sect key)
    (visits : ∀ sk ∈ userKeys (iniParse user) (iniParse (base.getD next)) base.isSome,
      SamePair sk.1 sk.2 sect key → ∀ m : Edits, m.Keyed (iniParse next) → m.TopPlain →
        Past (iniParse next) sect key m ((readSources next user base).mergeKey forced m sk)) :
    Tells (iniParse next) ((readSources next user base).edits forced) sect key
      (liveIn (iniParse next) sect key) := by
  obtain ⟨keyed₀, top₀⟩ := start_keyed (iniParse next) { twoWay := !base.isSome }
  have visits := @visits_past next user base forced _ _ unset tidy.readable _
    (List.Subset.refl _) visits _ keyed₀ top₀
  exact (visits.trans
    (@forces_past next user base forced _ _ tidy unforced _ visits.keyed visits.top)).tells_own

def Untold (next user : Text) (base : Option Text) (forced : List (Text × Text))
    (sect key : Text) : Prop :=
  (∀ sk ∈ userKeys (iniParse user) (iniParse (base.getD next)) base.isSome,
    ¬SamePair sk.1 sk.2 sect key) ∧
  ∀ sk move, (readSources next user base).Follows forced sk move →
    ¬SamePair move.sect move.key sect key

/-- A name that is cut elsewhere than where it was joined is read as another setting,
which says in the merged file what it says in the new one, if nobody sets it. -/
theorem gives_dotted (tidy : Tidy (iniParse next) forced)
    (unforced : keyId (sect, key) ∉ forced.map fun f => lower f.1) {sect' key' : Text}
    (cut : splitDotted (dottedName sect key) = (sect', key')) (named : sect' ≠ [])
    (untold : Untold next user base forced sect' key')
    (ended : ∀ last, (iniParse next).getLast? = some last → last.declares sect' key' → last.eol ≠ []) :
    Gives (mergeIni next user base forced).1 sect key value ↔ Gives next sect key value := by
  have joined : dottedName sect' key' = dottedName sect key := by
    have whole : dottedName sect key = _ := splitDotted_join (by rw [cut]; exact named)
    rw [whole, cut, dottedName, if_neg named]
  have unforced' : keyId (sect', key') ∉ forced.map fun f => lower f.1 := by
    unfold keyId at unforced ⊢
    rw [joined]
    exact unforced
  have unsaid := @edits_unsaid next user base forced _ _ tidy untold.2 (tidy.unforced unforced')
    fun sk member same => absurd same (untold.1 sk member)
  rw [gives_iff_cut, gives_iff_cut, cut,
    unsaid.merged tidy fun last isLast bare _ _ declares => ended last isLast declares bare]

theorem unvisited (live : liveIn (iniParse user) sect key = some value)
    (shadowed : ¬Visited (iniParse user) sect key) :
    ∀ sk ∈ userKeys (iniParse user) (iniParse (base.getD next)) base.isSome,
      ¬SamePair sk.1 sk.2 sect key := by
  intro sk member same
  obtain ⟨line, inside, -, declares, -⟩ := liveIn_some live
  cases first : firstWithId (iniParse user) (keyId (sect, key)) with
  | none =>
    have := List.find?_eq_none.mp first line
      (List.mem_filter.mpr ⟨inside, declares.setting⟩)
    exact this (by simpa using keyId_congr declares.2)
  | some line =>
    obtain ⟨front, back, keys, -, others⟩ :=
      @userKeys_split (iniParse user) (iniParse (base.getD next)) base.isSome _ _ first
    rw [keys] at member
    have here : sk = (line.sect, line.key) := by
      by_contra ne
      refine others sk ?_ (keyId_congr same)
      rcases List.mem_append.mp member with member | member
      · exact List.mem_append_left _ member
      · exact List.mem_append_right _ ((List.mem_cons.mp member).resolve_left ne)
    subst here
    exact shadowed ⟨line, first, same⟩

end

/-! ### The merge keeps the user's values -/

/-- In a merge with a tidy new file and tidy forced values, the user's value of a
setting that nobody else decides is kept exactly when it does not start like a
comment. Where the setting is shadowed by another one of the same dotted name, the
new file's own value stands, the line it is on being whole. Where the new file
declares the setting in a section with a dot, its name is read as another setting. -/
theorem mergeIni_keeps_iff (next user : Text) (base : Option Text) (forced : List (Text × Text))
    (sect key value : Text) (tidy : Tidy (iniParse next) forced)
    (setting : UserSetting (readSources next user base) forced sect key value) :
    (((effectiveOf (iniParse next) sect key).known → Undotted sect key) →
      (Visited (iniParse user) sect key →
        (Kept (iniParse next) (mergeIni next user base forced).1 sect key value ↔
          ¬MarkerLed value)) ∧
      (¬Visited (iniParse user) sect key →
        (∀ last, (iniParse next).getLast? = some last → last.declares sect key → last.eol ≠ []) →
        (Kept (iniParse next) (mergeIni next user base forced).1 sect key value ↔
          liveIn (iniParse next) sect key = some value))) ∧
    ∀ sect' key', (effectiveOf (iniParse next) sect key).known → sect' ≠ [] →
      splitDotted (dottedName sect key) = (sect', key') → Untold next user base forced sect' key' →
      (∀ last, (iniParse next).getLast? = some last → last.declares sect' key' → last.eol ≠ []) →
      (Kept (iniParse next) (mergeIni next user base forced).1 sect key value ↔
        Gives next sect key value) := by
  refine ⟨fun undotted => ⟨fun visited => ?_, fun shadowed ended => ?_⟩,
    fun sect' key' known named cut untold ended => ?_⟩
  · obtain ⟨line, first, same⟩ := visited
    have back : SamePair sect key line.sect line.key := ⟨same.1.symm, same.2.symm⟩
    obtain ⟨front, back', keys, id, others⟩ :=
      @userKeys_split (iniParse user) (iniParse (base.getD next)) base.isSome _ _ first
    obtain ⟨tells, replaced⟩ := edits_visited tidy (setting.congr back) keys
      (by rw [id]; exact others)
    have written : liveIn (iniParse (mergeIni next user base forced).1) sect key =
        some (writtenValue value) := by
      rw [liveIn_congr back]
      refine tells.merged tidy fun last isLast _ _ unreplaced declares => ?_
      obtain ⟨init, whole⟩ := List.getLast?_eq_some_iff.mp isLast
      refine replaced _ ?_ unreplaced
      rw [whole, List.length_append, List.length_singleton, Nat.add_sub_cancel]
      exact lastIndex_concat init (by simpa using declares)
    rw [kept_iff undotted, written]
    unfold writtenValue
    split
    · rename_i led
      refine iff_of_false (fun same => ?_) (not_not.mpr led)
      obtain ⟨c, first, -⟩ := led
      rw [← Option.some.inj same] at first
      cases first
    · rename_i plain
      exact iff_of_true rfl plain
  · have unsaid := @edits_unsaid next user base forced _ _ tidy (unfollowed_of_live setting.live)
      (tidy.unforced setting.unforced)
      fun sk member same => absurd same (unvisited setting.live shadowed sk member)
    have own := unsaid.merged tidy fun last isLast bare _ _ declares =>
      ended last isLast declares bare
    rw [kept_iff undotted, own]
  · unfold Kept
    rw [if_pos known]
    exact gives_dotted tidy setting.unforced cut named untold ended

theorem tidy_example : Tidy (iniParse "[a]\nk = 1\n".toList) [("a.f".toList, "7".toList)] where
  head := by
    have first : (iniParse "[a]\nk = 1\n".toList).head? =
        some { kind := .sect, text := "[a]".toList, eol := ['\n'], sect := "a".toList } := by
      decide +kernel
    intro line here
    cases first.symm.trans here
    decide
  writes := by
    intro f member
    obtain rfl := List.mem_singleton.mp member
    exact ⟨by decide, by decide, by decide, by decide, by decide, by decide, by decide⟩
  tail := by
    have last : (iniParse "[a]\nk = 1\n".toList).getLast?.map (·.eol) = some ['\n'] := by
      decide +kernel
    intro line here bare
    rw [here, Option.map_some, bare] at last
    cases last

theorem mergeIni_keeps_changed :
    Kept (iniParse "[a]\nk = 1\n".toList) (mergeIni "[a]\nk = 1\n".toList "[a]\nk = 2\n".toList
      none [("a.f".toList, "7".toList)]).1 "a".toList "k".toList "2".toList := by
  refine (((mergeIni_keeps_iff _ _ none _ _ _ _ tidy_example
    ⟨by decide +kernel, by decide +kernel, by decide +kernel, by decide +kernel⟩).1
      fun _ => by decide).1 ⟨_, rfl, by decide +kernel⟩).mpr (by decide)

/-- A value that starts like a comment is written as one. -/
theorem mergeIni_loses_marker_value :
    UserSetting (readSources "[a]\nk = 1\n".toList "[a]\nk =#x\n".toList none) [] "a".toList
        "k".toList "#x".toList ∧
      (mergeIni "[a]\nk = 1\n".toList "[a]\nk =#x\n".toList none []).1 = "[a]\nk = #x\n".toList ∧
      ¬Kept (iniParse "[a]\nk = 1\n".toList)
        (mergeIni "[a]\nk = 1\n".toList "[a]\nk =#x\n".toList none []).1 "a".toList "k".toList
        "#x".toList := by
  refine ⟨⟨by decide +kernel, by decide +kernel, by decide +kernel, by decide +kernel⟩,
    by decide +kernel, fun kept => ?_⟩
  have live := (kept_iff fun _ => by decide).mp kept
  revert live
  decide +kernel

end EdvrPatch.Ini
