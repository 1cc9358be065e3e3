import EdvrPatch.Headset.Tokens

/-! A list that was written is read back as it was. -/
namespace EdvrPatch.Headset

structure WellFormed (range : ValueRange) (e : HeadsetEntry) : Prop where
  runtime : IsToken e.runtime
  named : e.runtime ≠ []
  system : IsToken e.system
  low : range.min ≤ e.value
  high : e.value ≤ range.max

theorem isToken_nil : IsToken [] := headsetToken_isToken []

theorem parseKey_isToken {head runtime system : Text} (isKey : parseKey head = some (runtime, system)) :
    IsToken runtime ∧ IsToken system := by
  unfold parseKey at isKey
  dsimp only at isKey
  split at isKey
  · cases isKey
    exact ⟨headsetToken_isToken _, isToken_nil⟩
  split at isKey
  · cases isKey
  · cases isKey
    exact ⟨headsetToken_isToken _, headsetToken_isToken _⟩

variable {range : ValueRange} {e : HeadsetEntry}

theorem parseHeadsetEntry_wellFormed {piece : Text}
    (parsed : parseHeadsetEntry range piece = some e) : WellFormed range e := by
  unfold parseHeadsetEntry at parsed
  dsimp only at parsed
  split at parsed
  · cases parsed
  split at parsed
  · cases parsed
  split at parsed
  · cases parsed
  rename_i inRange
  split at parsed
  · cases parsed
  rename_i isKey
  split at parsed
  · cases parsed
  rename_i named
  cases parsed
  obtain ⟨runtime, system⟩ := parseKey_isToken isKey
  rw [not_or, Nat.not_lt, Nat.not_lt] at inRange
  exact ⟨runtime, named, system, inRange.1, inRange.2⟩

theorem parseHeadsetEntries_wellFormed (range : ValueRange) (value : Text) :
    (∀ e ∈ (parseHeadsetEntries range value).1, WellFormed range e) ∧
      (parseHeadsetEntries range value).1.length ≤ kHeadsetEntryMax := by
  unfold parseHeadsetEntries
  induction (cString value).splitOnP (· == ',') using List.reverseRecOn with
  | nil => exact ⟨nofun, Nat.zero_le _⟩
  | append_singleton parts part ih =>
    rw [List.foldl_append, List.foldl_cons, List.foldl_nil]
    generalize parts.foldl (entriesStep range) ([], []) = state at ih ⊢
    unfold entriesStep
    dsimp only
    split
    · exact ih
    split
    · exact ih
    split
    · exact ih
    · rename_i e parsed room
      refine ⟨fun k mem => ?_, ?_⟩
      · rcases List.mem_append.mp mem with old | new
        · exact ih.1 k old
        · rw [List.mem_singleton.mp new]
          exact parseHeadsetEntry_wellFormed parsed
      · rw [List.length_append]
        exact Nat.lt_of_not_le room

theorem isBlank_of_isSmall {c : Char} (small : isSmall c = true) : isBlank c = false := by
  by_contra blank
  simp only [isBlank, Bool.not_eq_false, Bool.or_eq_true, beq_iff_eq] at blank
  rcases blank with rfl | rfl <;> cases small

theorem trimSpaces_eq_self {t : Text} (free : ∀ c ∈ t, isBlank c = false) : trimSpaces t = t := by
  have first : t.dropWhile isBlank = t := by
    cases t with
    | nil => rfl
    | cons a t => rw [List.dropWhile_cons, free a List.mem_cons_self, if_neg (by decide)]
  unfold trimSpaces
  rw [first]
  refine List.rdropWhile_eq_self_iff.mpr fun some_ blank => ?_
  rw [free _ (List.getLast_mem some_)] at blank
  cases blank

theorem trimSpaces_append {lead t : Text} (blank : ∀ c ∈ lead, isBlank c = true) :
    trimSpaces (lead ++ t) = trimSpaces t := by
  unfold trimSpaces
  rw [List.dropWhile_append_of_pos blank]

theorem IsToken.free {t : Text} (token : IsToken t) : ∀ c ∈ t, isBlank c = false := by
  intro c mem
  rcases token.chars c mem with small | rfl
  · exact isBlank_of_isSmall small
  · rfl

theorem isDigit_of_mem_toDigits {n : Nat} {c : Char} (mem : c ∈ Nat.toDigits 10 n) : isDigit c = true :=
  Nat.isDigit_of_mem_toDigits (by decide) (by decide) mem

theorem isBlank_of_isDigit {c : Char} (digit : isDigit c = true) : isBlank c = false := by
  refine isBlank_of_isSmall ?_
  rw [isSmall, Bool.or_eq_true]
  exact .inr digit

theorem digitsValue_toDigits (n : Nat) : digitsValue (Nat.toDigits 10 n) = n := by
  have swapped : digitsValue (Nat.toDigits 10 n) = Nat.ofDigitChars 10 (Nat.toDigits 10 n) 0 := by
    unfold digitsValue
    congr 1
    funext value c
    rw [Nat.mul_comm]
  rw [swapped, Nat.ofDigitChars_ten_toDigits]

theorem span_of_not_mem {front rest : Text} {c : Char} (free : c ∉ front) :
    (front ++ c :: rest).takeWhile (· != c) = front ∧ (front ++ c :: rest).dropWhile (· != c) = c :: rest := by
  have all : ∀ x ∈ front, (x != c) = true := by
    intro x mem
    rw [bne_iff_ne]
    rintro rfl
    exact free mem
  rw [List.takeWhile_append_of_pos all, List.dropWhile_append_of_pos all]
  simp

theorem rspan_of_not_mem {front rest : Text} {c : Char} (free : c ∉ rest) :
    (front ++ c :: rest).rtakeWhile (· != c) = rest ∧ (front ++ c :: rest).rdropWhile (· != c) = front ++ [c] := by
  have turned : (front ++ c :: rest).reverse = rest.reverse ++ c :: front.reverse := by simp
  obtain ⟨takes, drops⟩ := @span_of_not_mem rest.reverse front.reverse c (by simpa using free)
  refine ⟨?_, ?_⟩
  · rw [List.rtakeWhile, turned, takes, List.reverse_reverse]
  · rw [List.rdropWhile, turned, drops]
    simp

theorem IsToken.not_mem {t : Text} (token : IsToken t) {c : Char} (other : isSmall c = false) (notDash : c ≠ '-') :
    c ∉ t :=
  not_mem_of_small token.chars other notDash

theorem parseKey_headsetKey {runtime system : Text} (isRuntime : IsToken runtime) (isSystem : IsToken system) :
    parseKey (headsetKey runtime system) = some (runtime, system) := by
  have noSlash : '/' ∉ runtime := isRuntime.not_mem rfl (by decide)
  unfold headsetKey
  split
  · rename_i none_
    unfold parseKey
    rw [if_pos noSlash, trimSpaces_eq_self isRuntime.free, isRuntime.headsetToken_eq, none_]
  · rename_i some_
    obtain ⟨takes, drops⟩ := @span_of_not_mem runtime system '/' noSlash
    unfold parseKey
    rw [if_neg (by simp), takes, drops]
    dsimp only [List.tail_cons]
    rw [trimSpaces_eq_self isSystem.free, isSystem.headsetToken_eq, if_neg some_, trimSpaces_eq_self isRuntime.free,
      isRuntime.headsetToken_eq]

theorem mem_formatHeadsetEntry (wellFormed : WellFormed range e) {c : Char}
    (mem : c ∈ formatHeadsetEntry e) : isSmall c = true ∨ c = '-' ∨ c = '/' ∨ c = ':' := by
  have digits : ∀ c ∈ Nat.toDigits 10 e.value, isSmall c = true := by
    intro c mem
    rw [isSmall, Bool.or_eq_true]
    exact .inr (isDigit_of_mem_toDigits mem)
  have token : ∀ {t : Text}, IsToken t → c ∈ t → isSmall c = true ∨ c = '-' ∨ c = '/' ∨ c = ':' := by
    intro t isToken mem
    exact (isToken.chars c mem).imp id .inl
  unfold formatHeadsetEntry headsetKey at mem
  split at mem
  · rcases List.mem_append.mp mem with key | value
    · exact token wellFormed.runtime key
    · rcases List.mem_cons.mp value with rfl | value
      · exact .inr (.inr (.inr rfl))
      · exact .inl (digits c value)
  · rcases List.mem_append.mp mem with key | value
    · rcases List.mem_append.mp key with runtime | system
      · exact token wellFormed.runtime runtime
      · rcases List.mem_cons.mp system with rfl | system
        · exact .inr (.inr (.inl rfl))
        · exact token wellFormed.system system
    · rcases List.mem_cons.mp value with rfl | value
      · exact .inr (.inr (.inr rfl))
      · exact .inl (digits c value)

theorem formatHeadsetEntry_free (wellFormed : WellFormed range e) :
    (∀ c ∈ formatHeadsetEntry e, isBlank c = false) ∧ ',' ∉ formatHeadsetEntry e ∧
      '\x00' ∉ formatHeadsetEntry e := by
  refine ⟨fun c mem => ?_, fun mem => ?_, fun mem => ?_⟩
  · rcases mem_formatHeadsetEntry wellFormed mem with small | rfl | rfl | rfl
    · exact isBlank_of_isSmall small
    · rfl
    · rfl
    · rfl
  · exact absurd (mem_formatHeadsetEntry wellFormed mem) (by decide)
  · exact absurd (mem_formatHeadsetEntry wellFormed mem) (by decide)

theorem parseHeadsetEntry_format (wellFormed : WellFormed range e) :
    parseHeadsetEntry range (formatHeadsetEntry e) = some e := by
  have digits : ∀ c ∈ Nat.toDigits 10 e.value, isDigit c = true := fun c mem => isDigit_of_mem_toDigits mem
  have noColon : ':' ∉ Nat.toDigits 10 e.value := by
    intro mem
    cases digits _ mem
  have short : (Nat.toDigits 10 e.value).length ≤ 5 := by
    refine (Nat.length_toDigits_le_iff (by decide) (by decide)).mpr ?_
    exact Nat.lt_of_le_of_lt (Nat.le_trans wellFormed.high range.fiveDigits) (by decide)
  have plain : ¬(Nat.toDigits 10 e.value = [] ∨ 5 < (Nat.toDigits 10 e.value).length ∨
      ¬(Nat.toDigits 10 e.value).all isDigit = true) := by
    rintro (none_ | long | other)
    · exact Nat.toDigits_ne_nil none_
    · exact absurd short (Nat.not_le_of_lt long)
    · exact other (List.all_eq_true.mpr digits)
  have inRange : ¬(e.value < range.min ∨ range.max < e.value) := by
    rintro (low | high)
    · exact absurd wellFormed.low (Nat.not_le_of_lt low)
    · exact absurd wellFormed.high (Nat.not_le_of_lt high)
  obtain ⟨takes, drops⟩ := @rspan_of_not_mem (headsetKey e.runtime e.system) _ ':' noColon
  unfold parseHeadsetEntry
  rw [trimSpaces_eq_self (formatHeadsetEntry_free wellFormed).1]
  unfold formatHeadsetEntry
  rw [if_neg (by simp), takes, trimSpaces_eq_self fun c mem => isBlank_of_isDigit (digits c mem), if_neg plain,
    digitsValue_toDigits, if_neg inRange, drops, List.dropLast_concat,
    parseKey_headsetKey wellFormed.runtime wellFormed.system]
  dsimp only
  rw [if_neg wellFormed.named]

theorem entriesStep_format (wellFormed : WellFormed range e) {lead : Text}
    (blank : ∀ c ∈ lead, isBlank c = true) {state : List HeadsetEntry × List Text}
    (room : state.1.length < kHeadsetEntryMax) :
    entriesStep range state (lead ++ formatHeadsetEntry e) = (state.1 ++ [e], state.2) := by
  have some_ : formatHeadsetEntry e ≠ [] := by
    unfold formatHeadsetEntry
    simp
  unfold entriesStep
  rw [trimSpaces_append blank, trimSpaces_eq_self (formatHeadsetEntry_free wellFormed).1, if_neg some_,
    parseHeadsetEntry_format wellFormed]
  dsimp only
  rw [if_neg (Nat.not_le_of_lt room)]

theorem foldl_entriesStep_format (entries : List HeadsetEntry)
    (wellFormed : ∀ e ∈ entries, WellFormed range e) {lead : Text}
    (blank : ∀ c ∈ lead, isBlank c = true) (state : List HeadsetEntry × List Text)
    (room : state.1.length + entries.length ≤ kHeadsetEntryMax) :
    ((lead ++ formatHeadsetEntries entries).splitOnP (· == ',')).foldl (entriesStep range) state =
      (state.1 ++ entries, state.2) := by
  have noComma : ∀ {t : Text}, ',' ∉ t → ∀ c ∈ t, (c == ',') = false := by
    intro t free c mem
    rw [beq_eq_false_iff_ne]
    rintro rfl
    exact free mem
  have leadFree : ',' ∉ lead := fun mem => absurd (blank _ mem) (by decide)
  fun_induction formatHeadsetEntries entries generalizing lead state with
  | case1 =>
    rw [List.append_nil, List.splitOnP_eq_singleton (noComma leadFree), List.foldl_cons, List.foldl_nil]
    have gone : trimSpaces lead = [] := by
      have := @trimSpaces_append lead [] blank
      rwa [List.append_nil] at this
    unfold entriesStep
    rw [if_pos gone, List.append_nil]
  | case2 e =>
    have isEntry := wellFormed e List.mem_cons_self
    have free : ',' ∉ lead ++ formatHeadsetEntry e := by
      rw [List.mem_append, not_or]
      exact ⟨leadFree, (formatHeadsetEntry_free isEntry).2.1⟩
    rw [List.splitOnP_eq_singleton (noComma free), List.foldl_cons, List.foldl_nil,
      entriesStep_format isEntry blank (Nat.lt_of_succ_le room)]
  | case3 e next rest ih =>
    have isEntry := wellFormed e List.mem_cons_self
    have free : ',' ∉ lead ++ formatHeadsetEntry e := by
      rw [List.mem_append, not_or]
      exact ⟨leadFree, (formatHeadsetEntry_free isEntry).2.1⟩
    rw [← List.append_assoc, List.splitOnP_append_cons _ _ (by decide), List.splitOnP_eq_singleton (noComma free),
      List.singleton_append, List.foldl_cons,
      entriesStep_format isEntry blank (by simp only [List.length_cons] at room; omega)]
    have tail := @ih (fun k mem => wellFormed k (List.mem_cons_of_mem _ mem)) [' '] (by decide)
      (state.1 ++ [e], state.2) (by simp only [List.length_append, List.length_cons, List.length_nil] at room ⊢; omega)
      (by decide)
    rw [List.append_assoc] at tail
    exact tail

theorem parseHeadsetEntries_format {entries : List HeadsetEntry}
    (wellFormed : ∀ e ∈ entries, WellFormed range e) (few : entries.length ≤ kHeadsetEntryMax) :
    parseHeadsetEntries range (formatHeadsetEntries entries) = (entries, []) := by
  have noNul : '\x00' ∉ formatHeadsetEntries entries := by
    fun_induction formatHeadsetEntries entries with
    | case1 => nofun
    | case2 e => exact (formatHeadsetEntry_free (wellFormed e List.mem_cons_self)).2.2
    | case3 e next rest ih =>
      have later := ih (fun k mem => wellFormed k (List.mem_cons_of_mem _ mem)) (Nat.le_of_succ_le few)
      have here := (formatHeadsetEntry_free (wellFormed e List.mem_cons_self)).2.2
      simp [here, later]
  have whole : cString (formatHeadsetEntries entries) = formatHeadsetEntries entries := by
    refine List.takeWhile_eq_self_iff.mpr fun c mem => ?_
    rw [bne_iff_ne]
    rintro rfl
    exact noNul mem
  unfold parseHeadsetEntries
  rw [whole]
  exact @foldl_entriesStep_format range entries wellFormed [] nofun ([], []) (by simpa using few)

/-- The entry of a headset whose two names came through the sanitiser. -/
structure Sanitised (range : ValueRange) (e : HeadsetEntry) : Prop where
  runtime : ∃ raw, e.runtime = headsetToken raw
  system : ∃ raw, e.system = headsetToken raw
  low : range.min ≤ e.value
  high : e.value ≤ range.max

theorem Sanitised.wellFormed (sanitised : Sanitised range e) (named : e.runtime ≠ []) :
    WellFormed range e := by
  obtain ⟨runtime, isRuntime⟩ := sanitised.runtime
  obtain ⟨system, isSystem⟩ := sanitised.system
  refine ⟨?_, named, ?_, sanitised.low, sanitised.high⟩
  · rw [isRuntime]
    exact headsetToken_isToken runtime
  · rw [isSystem]
    exact headsetToken_isToken system

/-- A list of sanitised entries round-trips through its text exactly where every runtime
has a name left, nothing of it is skipped then, and a token sanitises to itself. -/
theorem headset_lists_round_trip (range : ValueRange) (entries : List HeadsetEntry)
    (sanitised : ∀ e ∈ entries, Sanitised range e) (few : entries.length ≤ kHeadsetEntryMax) :
    (parseHeadsetEntries range (formatHeadsetEntries entries) = (entries, []) ↔
      ∀ e ∈ entries, e.runtime ≠ []) ∧
      ∀ raw, headsetToken (headsetToken raw) = headsetToken raw := by
  refine ⟨⟨fun parsed e mem => ?_, fun named => ?_⟩, headsetToken_headsetToken⟩
  · have accepted := (parseHeadsetEntries_wellFormed range (formatHeadsetEntries entries)).1
    rw [parsed] at accepted
    exact (accepted e mem).named
  · exact parseHeadsetEntries_format (fun e mem => (sanitised e mem).wellFormed (named e mem)) few

theorem headset_lists_round_trip_oculus :
    parseHeadsetEntries resolutionWidths (formatHeadsetEntries
      [⟨headsetToken ['O', 'c', '.'], headsetToken ['Q', ',', '3'], 3283⟩,
        ⟨headsetToken ['V', ' ', 'R'], headsetToken ['é', '='], 2160⟩]) =
        ([⟨['o', 'c'], ['q', '-', '3'], 3283⟩, ⟨['v', '-', 'r'], [], 2160⟩], []) :=
  (headset_lists_round_trip resolutionWidths
    [⟨headsetToken ['O', 'c', '.'], headsetToken ['Q', ',', '3'], 3283⟩,
      ⟨headsetToken ['V', ' ', 'R'], headsetToken ['é', '='], 2160⟩]
    (List.forall_mem_cons.mpr ⟨⟨⟨_, rfl⟩, ⟨_, rfl⟩, by decide, by decide⟩,
      List.forall_mem_singleton.mpr ⟨⟨_, rfl⟩, ⟨_, rfl⟩, by decide, by decide⟩⟩)
    (by decide)).1.mpr (by decide)

/-- A runtime of punctuation alone has no name left, and the parser refuses its entry. -/
theorem unnamed_runtime_is_skipped :
    ¬∀ entries : List HeadsetEntry, (∀ e ∈ entries, Sanitised trimDegrees e) →
      entries.length ≤ kHeadsetEntryMax →
        (parseHeadsetEntries trimDegrees (formatHeadsetEntries entries)).1 = entries := by
  intro claimed
  have kept := claimed [⟨headsetToken ['?'], headsetToken ['Q'], 5⟩]
    (by
      intro e mem
      rw [List.mem_singleton.mp mem]
      exact ⟨⟨_, rfl⟩, ⟨_, rfl⟩, by decide, by decide⟩)
    (by decide)
  exact absurd kept (by decide)

end EdvrPatch.Headset
