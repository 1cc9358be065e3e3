import EdvrPatch.Lib.Occurrences
import EdvrPatch.Journal.Watch

/-! What the reader sees when the file is cut into slices. The bytes kept of a slice
are scanned again in front of the next one, and so is the head of that one, while an
event that began before the bytes that were kept is never put together. -/
namespace EdvrPatch.Journal

open Lib

def eventText (name : Text) : Text :=
  kEventTok ++ name ++ ['"']

def counted : List Text :=
  ["Disembark".toList, "Embark".toList]

def handled : List Text :=
  counted ++ ["LoadGame".toList, "Shutdown".toList, "StartJump".toList, "FSDJump".toList,
    "SupercruiseEntry".toList]

/-- A slice `data` that follows the bytes `stream`, of which `carry` were kept. An event
that is counted must not stand in the part that is scanned twice, and an event that the
slice completes must have begun in the bytes that were kept. -/
structure Seam (stream carry data : Text) : Prop where
  once : ∀ name ∈ counted, ¬eventText name <:+: carry ∧ ¬eventText name <:+: data.take kHead
  whole : ∀ name ∈ handled, ∀ begun ∈ stream.tails, eventText name <+: begun ++ data →
    ¬eventText name <+: begun → begun <:+ carry

def Seams : Text → Text → List Text → Prop
  | _, _, [] => True
  | stream, carry, data :: rest =>
    (carry ≠ [] → Seam stream carry data) ∧ Seams (stream ++ data) (kept data) rest

/-- No token stands inside an event, from its own token to the quote behind its name. -/
def Apart (stream : Text) : Prop :=
  ∀ event ∈ stream.tails, kEventTok <+: event →
    ∀ k < kEventTokLen + (nameOf (event.drop kEventTokLen)).length,
      ¬kEventTok <+: event.drop (k + 1)

instance (stream : Text) : Decidable (Apart stream) :=
  inferInstanceAs (Decidable (∀ event ∈ stream.tails, kEventTok <+: event → ∀ k < _, ¬_))

instance (stream carry data : Text) : Decidable (Seam stream carry data) :=
  decidable_of_iff
    ((∀ name ∈ counted, ¬eventText name <:+: carry ∧ ¬eventText name <:+: data.take kHead) ∧
      ∀ name ∈ handled, ∀ begun ∈ stream.tails, eventText name <+: begun ++ data →
        ¬eventText name <+: begun → begun <:+ carry)
    ⟨fun both => ⟨both.1, both.2⟩, fun seam => ⟨seam.once, seam.whole⟩⟩

instance instDecidableSeams : (stream carry : Text) → (slices : List Text) →
    Decidable (Seams stream carry slices)
  | _, _, [] => isTrue trivial
  | stream, carry, data :: rest =>
    have := instDecidableSeams (stream ++ data) (kept data) rest
    inferInstanceAs (Decidable ((carry ≠ [] → Seam stream carry data) ∧ _))

def lookEvent (p : Text) : Option Text :=
  if kEventTok <+: p then
    let name := nameOf (p.drop kEventTokLen)
    if (p.drop (kEventTokLen + name.length)).head? = some '"' then some name else none
  else none

theorem kEventTok_length : kEventTok.length = kEventTokLen := rfl

theorem drop_token (rest : Text) : (kEventTok ++ rest).drop kEventTokLen = rest := by
  rw [← kEventTok_length, List.drop_left]

theorem drop_event (rest : Text) (n : Nat) :
    (kEventTok ++ rest).drop (kEventTokLen + n) = rest.drop n := by
  rw [← List.drop_drop, drop_token]

theorem nameOf_starts (rest : Text) : nameOf rest <+: rest :=
  (List.take_prefix _ _).trans (List.takeWhile_prefix _)

theorem nameOf_plain (rest : Text) : '"' ∉ nameOf rest := by
  intro inside
  have read := List.mem_takeWhile_imp (List.mem_of_mem_take inside)
  simp at read

theorem nameOf_short (rest : Text) : (nameOf rest).length ≤ kMaxName :=
  List.length_take_le _ _

variable {name : Text}

theorem nameOf_quoted (plain : '"' ∉ name) (short : name.length ≤ kMaxName) (more : Text) :
    nameOf (name ++ '"' :: more) = name := by
  unfold nameOf
  have stops : (name ++ '"' :: more).takeWhile (· ≠ '"') = name := by
    rw [List.takeWhile_append_of_pos]
    · simp
    · intro c inside
      simp only [ne_eq, decide_eq_true_eq]
      rintro rfl
      exact plain inside
  rw [stops, List.take_of_length_le short]

theorem eventText_append (name more : Text) :
    eventText name ++ more = kEventTok ++ (name ++ '"' :: more) := by
  simp [eventText]

theorem eventText_length (name : Text) :
    (eventText name).length = kEventTokLen + name.length + 1 := by
  simp [eventText, kEventTok_length]
  omega

variable {p : Text}

theorem lookEvent_eq_some :
    lookEvent p = some name ↔
      eventText name <+: p ∧ '"' ∉ name ∧ name.length ≤ kMaxName := by
  constructor
  · intro found
    unfold lookEvent at found
    split at found
    · rename_i token
      obtain ⟨rest, rfl⟩ := token
      dsimp only at found
      rw [drop_token, drop_event] at found
      split at found
      · rename_i ended
        obtain rfl := Option.some.inj found
        obtain ⟨more, last⟩ := List.head?_eq_some_iff.mp ended
        refine ⟨⟨more, ?_⟩, nameOf_plain rest, nameOf_short rest⟩
        rw [eventText_append, ← last, List.prefix_iff_eq_append.mp (nameOf_starts rest)]
      · cases found
    · cases found
  · rintro ⟨⟨more, rfl⟩, plain, short⟩
    unfold lookEvent
    rw [eventText_append, if_pos (List.prefix_append _ _)]
    dsimp only
    rw [drop_token, drop_event, nameOf_quoted plain short, List.drop_left]
    rfl

theorem lookEvent_append (read : lookEvent p = some name) (more : Text) :
    lookEvent (p ++ more) = some name := by
  rw [lookEvent_eq_some] at read ⊢
  exact ⟨read.1.trans (List.prefix_append p more), read.2⟩

theorem lookEvent_token (read : lookEvent p = some name) : kEventTok <+: p := by
  obtain ⟨⟨more, rfl⟩, -⟩ := lookEvent_eq_some.mp read
  exact List.prefix_append _ _

theorem lookEvent_none (absent : ¬kEventTok <+: p) : lookEvent p = none :=
  if_neg absent

theorem lookEvent_head (begun data : Text) :
    lookEvent (begun ++ data.take kHead) = lookEvent (begun ++ data) := by
  cases read : lookEvent (begun ++ data) with
  | none =>
    by_contra other
    obtain ⟨name, some_⟩ := Option.ne_none_iff_exists'.mp other
    have later := lookEvent_append some_ (data.drop kHead)
    rw [List.append_assoc, List.take_append_drop, read] at later
    cases later
  | some name =>
    rw [lookEvent_eq_some] at read ⊢
    obtain ⟨inside, plain, short⟩ := read
    refine ⟨?_, plain, short⟩
    by_cases all : data.length ≤ kHead
    · rw [List.take_of_length_le all]
      exact inside
    · have head : begun ++ data.take kHead <+: begun ++ data :=
        (List.prefix_append_right_inj begun).mpr (List.take_prefix _ _)
      refine List.prefix_of_prefix_length_le inside head ?_
      have long : (data.take kHead).length = kHead := by
        rw [List.length_take]
        omega
      rw [eventText_length, List.length_append, long]
      unfold kMaxName at short
      unfold kEventTokLen kHead
      omega

section

variable {stream : Text}

variable {part : Text}

theorem Apart.suffix (apart : Apart stream) (inside : part <:+ stream) : Apart part := by
  intro event member
  exact apart event ((List.mem_tails _ _).mpr (((List.mem_tails _ _).mp member).trans inside))

theorem nameOf_append_length (rest more : Text) :
    (nameOf rest).length ≤ (nameOf (rest ++ more)).length := by
  unfold nameOf
  rw [List.length_take, List.length_take]
  have grows : (rest.takeWhile (· ≠ '"')).length ≤ ((rest ++ more).takeWhile (· ≠ '"')).length := by
    rw [List.takeWhile_append]
    split
    · rename_i whole
      rw [List.length_append]
      omega
    · exact Nat.le_refl _
  omega

theorem Apart.prefix_ (apart : Apart stream) (inside : part <+: stream) : Apart part := by
  obtain ⟨more, rfl⟩ := inside
  intro event member token k below
  obtain ⟨before, rfl⟩ := (List.mem_tails _ _).mp member
  have whole : event ++ more ∈ (before ++ event ++ more).tails := by
    rw [List.append_assoc]
    exact (List.mem_tails _ _).mpr (List.suffix_append _ _)
  have long : kEventTokLen + (nameOf (event.drop kEventTokLen)).length ≤ event.length := by
    have size := (nameOf_starts (event.drop kEventTokLen)).length_le
    have enough := token.length_le
    rw [List.length_drop] at size
    rw [kEventTok_length] at enough
    omega
  have longer : k < kEventTokLen + (nameOf ((event ++ more).drop kEventTokLen)).length := by
    have grows := nameOf_append_length (event.drop kEventTokLen) more
    rw [List.drop_append_of_le_length (by omega)]
    omega
  have absent := apart _ whole (token.trans (List.prefix_append _ _)) k longer
  rw [List.drop_append_of_le_length (by omega)] at absent
  exact fun again => absent (again.trans (List.prefix_append _ _))

theorem Apart.infix_ (apart : Apart stream) (inside : part <:+: stream) : Apart part := by
  obtain ⟨before, after, rfl⟩ := inside
  exact (apart.prefix_ (List.prefix_append _ _)).suffix (List.suffix_append _ _)

theorem scanFrom_eq_found (now : Nat) {p : Text} (apart : Apart p) (s : State) (skip : Nat)
    (passed : ∀ j < skip, ¬kEventTok <+: p.drop j) :
    scanFrom now skip p s = (found lookEvent p).foldl (State.onEvent now) s := by
  induction p generalizing skip s with
  | nil => cases skip <;> rfl
  | cons c p ih =>
    have later : Apart p := apart.suffix (List.suffix_cons c p)
    cases skip with
    | succ skip =>
      have here : lookEvent (c :: p) = none := lookEvent_none (passed 0 (Nat.succ_pos skip))
      rw [scanFrom, found, here]
      exact ih later s skip fun j below => passed (j + 1) (Nat.succ_lt_succ below)
    | zero =>
      rw [scanFrom, found]
      split
      · rename_i token
        rw [ih later _ _ fun j below => apart (c :: p) (List.mem_tails _ _ |>.mpr List.suffix_rfl)
          token.1 j below, List.foldl_append]
        unfold lookEvent
        rw [if_pos token.1]
        dsimp only
        split <;> rfl
      · rename_i absent
        have here : lookEvent (c :: p) = none := by
          by_contra other
          obtain ⟨name, read⟩ := Option.ne_none_iff_exists'.mp other
          refine absent ⟨lookEvent_token read, ?_⟩
          have size := (lookEvent_eq_some.mp read).1.length_le
          rw [eventText_length] at size
          omega
        rw [here]
        exact ih later s 0 fun j below => absurd below (Nat.not_lt_zero j)

theorem scanRange_eq_found (now : Nat) {p : Text} (apart : Apart p) (s : State) :
    scanRange now s p = (found lookEvent p).foldl (State.onEvent now) s :=
  scanFrom_eq_found now apart s 0 nofun

theorem found_nil_of_unfinished {c : Char} {rest data name : Text}
    (unread : lookEvent (c :: rest) = none) (read : lookEvent (c :: rest ++ data) = some name)
    (apart : Apart (c :: rest ++ data)) : found lookEvent rest = [] := by
  obtain ⟨text, plain, short⟩ := lookEvent_eq_some.mp read
  have long : (c :: rest).length < kEventTokLen + name.length + 1 := by
    by_contra enough
    have inside := List.prefix_of_prefix_length_le text (List.prefix_append (c :: rest) data)
      (by rw [eventText_length]; omega)
    rw [lookEvent_eq_some.mpr ⟨inside, plain, short⟩] at unread
    cases unread
  have named : nameOf ((c :: rest ++ data).drop kEventTokLen) = name := by
    obtain ⟨more, split⟩ := text
    rw [← split, eventText_append, drop_token, nameOf_quoted plain short]
  rw [List.eq_nil_iff_forall_not_mem]
  intro other member
  obtain ⟨tail, ⟨before, rfl⟩, found_⟩ := mem_found lookEvent member
  rw [List.length_cons, List.length_append] at long
  have inner : (c :: (before ++ tail) ++ data).drop (before.length + 1) = tail ++ data := by
    simp
  refine apart _ ((List.mem_tails _ _).mpr List.suffix_rfl) (lookEvent_token read) before.length
    (by rw [named]; omega) ?_
  rw [inner]
  exact (lookEvent_token found_).trans (List.prefix_append _ _)

theorem foundBefore_eq (data : Text) (apart : Apart (stream ++ data)) :
    foundBefore lookEvent data stream =
      found lookEvent stream ++ spanning lookEvent data stream := by
  induction stream with
  | nil => rfl
  | cons c rest ih =>
    have later := ih (apart.suffix (List.suffix_cons c (rest ++ data)))
    rw [foundBefore, found, spanning, later]
    cases here : lookEvent (c :: rest) with
    | some name =>
      rw [lookEvent_append here data]
      simp
    | none =>
      rw [if_pos rfl]
      cases whole : lookEvent (c :: rest ++ data) with
      | none => rfl
      | some name =>
        rw [found_nil_of_unfinished here whole apart]
        simp

end

def plays (name : Text) : Option Bool :=
  if name = "LoadGame".toList then some true
  else if name = "Shutdown".toList then some false
  else none

def arms (name : Text) : Option Bool :=
  if name = "StartJump".toList then some true
  else if name = "Shutdown".toList ∨ name = "FSDJump".toList ∨ name = "SupercruiseEntry".toList then
    some false
  else none

def lastSet (sets : Text → Option Bool) (names : List Text) : Option Bool :=
  (names.filterMap sets).getLast?

def Seen.after (seen : Seen) (names : List Text) : Seen :=
  { disembarks := seen.disembarks + names.count "Disembark".toList
    embarks := seen.embarks + names.count "Embark".toList
    gameplay := (lastSet plays names).getD seen.gameplay
    jumpArmed := (lastSet arms names).getD seen.jumpArmed }

theorem lastSet_append (sets : Text → Option Bool) (first rest : List Text) :
    lastSet sets (first ++ rest) = (lastSet sets rest).or (lastSet sets first) := by
  simp [lastSet, List.getLast?_append]

theorem seen_onEvent (now : Nat) (s : State) (name : Text) :
    (s.onEvent now name).seen = s.seen.after [name] := by
  unfold State.onEvent
  split_ifs with load disembark embark shutdown start fsd supercruise
  · subst load
    rfl
  · subst disembark
    rfl
  · subst embark
    rfl
  · subst shutdown
    rfl
  · subst start
    have taken : decide (stampMs now ≠ 0) = true := by
      unfold stampMs
      split <;> simp_all
    unfold State.seen
    rw [taken]
    rfl
  · subst fsd
    rfl
  · subst supercruise
    rfl
  · have off : [name].count "Disembark".toList = 0 :=
      List.count_eq_zero.mpr fun member => disembark (List.mem_singleton.mp member).symm
    have on_ : [name].count "Embark".toList = 0 :=
      List.count_eq_zero.mpr fun member => embark (List.mem_singleton.mp member).symm
    have play : plays name = none := by
      rw [plays, if_neg load, if_neg shutdown]
    have arm : arms name = none := by
      rw [arms, if_neg start, if_neg]
      rintro (past | past | past)
      · exact shutdown past
      · exact fsd past
      · exact supercruise past
    unfold Seen.after lastSet
    rw [off, on_, List.filterMap_cons_none play, List.filterMap_cons_none arm]
    rfl

theorem Seen.after_after (seen : Seen) (first rest : List Text) :
    (seen.after first).after rest = seen.after (first ++ rest) := by
  unfold Seen.after
  rw [lastSet_append, lastSet_append, List.count_append, List.count_append, Nat.add_assoc,
    Nat.add_assoc]
  cases lastSet plays rest <;> cases lastSet arms rest <;> rfl

theorem seen_foldl (now : Nat) (s : State) (names : List Text) :
    (names.foldl (State.onEvent now) s).seen = s.seen.after names := by
  induction names generalizing s with
  | nil => rfl
  | cons name names ih =>
    rw [List.foldl_cons, ih, seen_onEvent, Seen.after_after]
    rfl

theorem plays_eq_none (unhandled : name ∉ handled) : plays name = none := by
  unfold plays
  split_ifs with load shutdown
  · exact absurd (load ▸ by decide) unhandled
  · exact absurd (shutdown ▸ by decide) unhandled
  · rfl

theorem arms_eq_none (unhandled : name ∉ handled) : arms name = none := by
  unfold arms
  split_ifs with start past
  · exact absurd (start ▸ by decide) unhandled
  · rcases past with past | past | past
    · exact absurd (past ▸ by decide) unhandled
    · exact absurd (past ▸ by decide) unhandled
    · exact absurd (past ▸ by decide) unhandled
  · rfl

theorem spanning_head (carry data : Text) :
    spanning lookEvent (data.take kHead) carry = spanning lookEvent data carry := by
  induction carry with
  | nil => rfl
  | cons c carry ih => rw [spanning, spanning, ih, lookEvent_head]

theorem not_mem_found {text : Text} (absent : ¬eventText name <:+: text) :
    name ∉ found lookEvent text := by
  intro member
  obtain ⟨tail, inside, read⟩ := mem_found lookEvent member
  exact absent ((lookEvent_eq_some.mp read).1.isInfix.trans inside.isInfix)

section

variable {stream carry data : Text}

theorem Seam.spanning_eq (seam : Seam stream carry data) (suffix : carry <:+ stream) :
    ∃ before, spanning lookEvent data stream = before ++ spanning lookEvent data carry ∧
      ∀ name ∈ before, name ∉ handled := by
  obtain ⟨first, rfl⟩ := suffix
  obtain ⟨before, split, known⟩ := spanning_append lookEvent first carry data
  refine ⟨before, split, fun name member acts => ?_⟩
  obtain ⟨c, tail, inside, unread, read⟩ := known name member
  obtain ⟨text, plain, short⟩ := lookEvent_eq_some.mp read
  have begun : c :: tail ++ carry <:+ first ++ carry := by
    obtain ⟨front, rfl⟩ := inside
    exact ⟨front, by simp⟩
  have unfinished : ¬eventText name <+: c :: tail ++ carry := by
    intro whole
    rw [lookEvent_eq_some.mpr ⟨whole, plain, short⟩] at unread
    cases unread
  have size := (seam.whole name acts _ ((List.mem_tails _ _).mpr begun) text unfinished).length_le
  rw [List.length_append, List.length_cons] at size
  omega

theorem found_whole (apart : Apart (stream ++ data)) : found lookEvent (stream ++ data) =
    found lookEvent stream ++ spanning lookEvent data stream ++ found lookEvent data := by
  rw [found_append, foundBefore_eq _ apart]

variable (apart : Apart (stream ++ data)) (suffix : carry <:+ stream)

include apart suffix

theorem apart_stitched : Apart (carry ++ data.take kHead) := by
  obtain ⟨first, rfl⟩ := suffix
  refine apart.infix_ ⟨first, data.drop kHead, ?_⟩
  rw [List.append_assoc, List.append_assoc, List.append_assoc, List.take_append_drop]

theorem found_stitched : found lookEvent (carry ++ data.take kHead) =
    found lookEvent carry ++ spanning lookEvent data carry ++ found lookEvent (data.take kHead) := by
  rw [found_append, foundBefore_eq _ (apart_stitched apart suffix), spanning_head]

theorem count_step (seam : Seam stream carry data) (name : Text) (counts : name ∈ counted) :
    (found lookEvent stream ++ found lookEvent (carry ++ data.take kHead) ++
      found lookEvent data).count name = (found lookEvent (stream ++ data)).count name := by
  obtain ⟨kept_, head⟩ := seam.once name counts
  obtain ⟨before, split, unhandled⟩ := seam.spanning_eq suffix
  have acts : name ∈ handled := List.mem_append_left _ counts
  rw [found_stitched apart suffix, found_whole apart, split]
  simp only [List.count_append]
  rw [List.count_eq_zero.mpr (not_mem_found kept_), List.count_eq_zero.mpr (not_mem_found head),
    List.count_eq_zero.mpr fun member => unhandled name member acts]
  omega

theorem lastSet_step (seam : Seam stream carry data) {sets : Text → Option Bool}
    (acts : ∀ name, name ∉ handled → sets name = none) :
    lastSet sets (found lookEvent stream ++ found lookEvent (carry ++ data.take kHead) ++
      found lookEvent data) = lastSet sets (found lookEvent (stream ++ data)) := by
  obtain ⟨before, split, unhandled⟩ := seam.spanning_eq suffix
  have silent : lastSet sets before = none := by
    unfold lastSet
    rw [List.filterMap_eq_nil_iff.mpr fun name member => acts name (unhandled name member)]
    rfl
  have tail : found lookEvent data = found lookEvent (data.take kHead) ++
      (spanning lookEvent (data.drop kHead) (data.take kHead) ++
        found lookEvent (data.drop kHead)) := by
    have whole : Apart (data.take kHead ++ data.drop kHead) := by
      rw [List.take_append_drop]
      exact apart.suffix (List.suffix_append _ _)
    rw [← List.append_assoc, ← found_whole whole, List.take_append_drop]
  have front : ∃ first, found lookEvent stream = first ++ found lookEvent carry := by
    obtain ⟨first, rfl⟩ := suffix
    exact ⟨_, found_append lookEvent first carry⟩
  obtain ⟨first, begins⟩ := front
  rw [found_stitched apart suffix, found_whole apart, split, begins, tail]
  simp only [lastSet_append, silent]
  cases lastSet sets (found lookEvent (data.drop kHead)) <;>
    cases lastSet sets (spanning lookEvent (data.drop kHead) (data.take kHead)) <;>
    cases lastSet sets (found lookEvent (data.take kHead)) <;>
    cases lastSet sets (spanning lookEvent data carry) <;>
    cases lastSet sets (found lookEvent carry) <;> rfl

theorem after_step (seam : Seam stream carry data) (seen : Seen) :
    ((seen.after (found lookEvent stream)).after
      (found lookEvent (carry ++ data.take kHead))).after (found lookEvent data) =
      seen.after (found lookEvent (stream ++ data)) := by
  rw [Seen.after_after, Seen.after_after, ← List.append_assoc]
  unfold Seen.after
  rw [count_step apart suffix seam "Disembark".toList (by decide),
    count_step apart suffix seam "Embark".toList (by decide),
    lastSet_step apart suffix seam fun _ => plays_eq_none,
    lastSet_step apart suffix seam fun _ => arms_eq_none]

end

structure CaughtUp (seen : Seen) (stream : Text) (s : State) : Prop where
  seen : s.seen = seen.after (found lookEvent stream)
  carry : s.carry <:+ stream
  started : s.carry = [] → stream = []

theorem kept_suffix (data : Text) : kept data <:+ data :=
  List.drop_suffix _ _

theorem kept_ne_nil {data : Text} (some_ : data ≠ []) : kept data ≠ [] := by
  have long := List.length_pos_iff.mpr some_
  rw [← List.length_pos_iff, kept, List.length_drop]
  unfold kCarry
  omega

theorem CaughtUp.scanEvents {seen : Seen} {stream data : Text} {s : State}
    (caughtUp : CaughtUp seen stream s) (now : Nat) (some_ : data ≠ [])
    (apart : Apart (stream ++ data)) (seam : s.carry ≠ [] → Seam stream s.carry data) :
    CaughtUp seen (stream ++ data) (scanEvents now s data) := by
  refine ⟨?_, (kept_suffix data).trans (List.suffix_append _ _), fun none_ =>
    absurd none_ (kept_ne_nil some_)⟩
  have own : Apart data := apart.suffix (List.suffix_append _ _)
  have scanned (s : State) : { scanRange now s data with carry := kept data }.seen =
      s.seen.after (found lookEvent data) := by
    rw [scanRange_eq_found now own, ← seen_foldl now]
    rfl
  unfold Journal.scanEvents
  rw [scanned]
  by_cases empty : s.carry = []
  · rw [if_pos empty, if_pos rfl, caughtUp.seen, caughtUp.started empty]
    rfl
  · have stitched : s.carry ++ data.take kHead ≠ [] := by
      simp [empty]
    rw [if_neg empty, if_neg stitched, scanRange_eq_found now (apart_stitched apart caughtUp.carry),
      seen_foldl, caughtUp.seen]
    exact after_step apart caughtUp.carry (seam empty) seen

theorem CaughtUp.feed {seen : Seen} {stream : Text} {s : State} (caughtUp : CaughtUp seen stream s)
    {slices : List (Nat × Text)} (some_ : ∀ slice ∈ slices, slice.2 ≠ [])
    (apart : Apart (stream ++ (slices.map Prod.snd).flatten))
    (seams : Seams stream s.carry (slices.map Prod.snd)) :
    CaughtUp seen (stream ++ (slices.map Prod.snd).flatten) (feed s slices) := by
  induction slices generalizing stream s with
  | nil =>
    rw [List.map_nil, List.flatten_nil, List.append_nil]
    exact caughtUp
  | cons slice rest ih =>
    rw [List.map_cons, List.flatten_cons, ← List.append_assoc] at apart ⊢
    have next := caughtUp.scanEvents slice.1 (some_ slice List.mem_cons_self)
      (apart.prefix_ (List.prefix_append _ _)) seams.1
    exact ih next (fun other member => some_ other (List.mem_cons_of_mem slice member)) apart seams.2

/-- What is seen depends neither on the clock nor on what is kept. -/
theorem scanFrom_seen (now now' : Nat) (skip : Nat) (p : Text) {s s' : State}
    (same : s.seen = s'.seen) : (scanFrom now skip p s).seen = (scanFrom now' skip p s').seen := by
  induction p generalizing skip s s' with
  | nil => cases skip <;> exact same
  | cons c p ih =>
    cases skip with
    | succ skip => exact ih skip same
    | zero =>
      rw [scanFrom, scanFrom]
      split
      · refine ih _ ?_
        split
        · rw [seen_onEvent, seen_onEvent, same]
        · exact same
      · exact ih 0 same

/-- A single slice is scanned as it is, and nothing in front of it. -/
theorem feed_one (now : Nat) {s : State} (empty : s.carry = []) (slice : Nat × Text) :
    (feed s [slice]).seen = (scanRange now s slice.2).seen := by
  change (scanEvents slice.1 s slice.2).seen = _
  unfold Journal.scanEvents
  rw [if_pos empty]
  exact scanFrom_seen slice.1 now 0 slice.2 rfl

/-- However the file is cut, the reader sees what one scan of it all would see, when no
event that is counted stands in the bytes that are scanned twice, no event that is acted
on begins in front of the bytes that were kept, and no event stands inside another. -/
theorem slices_seen_as_whole (s : State) (empty : s.carry = []) (slices : List (Nat × Text))
    (some_ : ∀ slice ∈ slices, slice.2 ≠ [])
    (apart : 1 < slices.length → Apart (slices.map Prod.snd).flatten)
    (seams : Seams [] [] (slices.map Prod.snd)) (now : Nat) :
    (feed s slices).seen = (scanRange now s (slices.map Prod.snd).flatten).seen := by
  cases slices with
  | nil => rfl
  | cons slice rest =>
    cases rest with
    | nil => simpa using feed_one now empty slice
    | cons next rest =>
      have apart := apart (Nat.succ_lt_succ (Nat.succ_pos _))
      have fresh : CaughtUp s.seen [] s := ⟨rfl, by rw [empty], fun _ => rfl⟩
      rw [scanRange_eq_found now apart, seen_foldl]
      exact (fresh.feed some_ apart (by rw [empty]; exact seams)).seen

def tailed : List (Nat × Text) :=
  [(7, "\x7b \"event\":\"Disem".toList), (8, "bark\" \x7d\n".toList),
    (9, List.replicate kHead ' ' ++ "\x7b \"event\":\"StartJump\" \x7d".toList)]

theorem slices_seen_as_whole_tailed :
    (feed {} tailed).seen = (scanRange 9 {} (tailed.map Prod.snd).flatten).seen ∧
    (feed {} tailed).seen = ⟨1, 0, false, true⟩ :=
  ⟨slices_seen_as_whole {} rfl tailed (by decide +kernel) (fun _ => by decide +kernel)
    (by decide +kernel) 9, by decide +kernel⟩

/-- An event near the start of a slice that is not the first is counted twice. -/
theorem head_of_slice_counted_twice :
    (feed {} [(7, " ".toList), (8, "\x7b \"event\":\"Disembark\" \x7d".toList)]).seen =
      ⟨2, 0, false, false⟩ ∧
    (scanRange 8 {} ([" ".toList, "\x7b \"event\":\"Disembark\" \x7d".toList]).flatten).seen =
      ⟨1, 0, false, false⟩ := by
  constructor <;> decide +kernel

end EdvrPatch.Journal
