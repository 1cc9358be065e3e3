import EdvrPatch.Headset.Entries

/-! What the sanitiser leaves of a name: small letters and digits in groups with single
dashes between them. A token sanitises to itself. -/
namespace EdvrPatch.Headset

def isSmall (c : Char) : Bool :=
  ('a' ≤ c && c ≤ 'z') || ('0' ≤ c && c ≤ '9')

structure Clean (t : Text) : Prop where
  chars : ∀ c ∈ t, isSmall c = true ∨ c = '-'
  first : t.head? ≠ some '-'
  apart : t.IsChain fun a b => ¬(a = '-' ∧ b = '-')

structure IsToken (t : Text) : Prop extends Clean t where
  last : t.getLast? ≠ some '-'
  short : t.length ≤ kHeadsetTokenMax

variable {c : Char}

theorem isSmall_toLower (kept : isKept c = true) : isSmall c.toLower = true := by
  by_cases upper : c.val ≥ 'A'.val ∧ c.val ≤ 'Z'.val
  · have low : 65 ≤ c.val.toNat := UInt32.le_iff_toNat_le.mp upper.1
    have high : c.val.toNat ≤ 90 := UInt32.le_iff_toNat_le.mp upper.2
    have raised : c.toLower.val.toNat = c.val.toNat + 32 := by
      rw [Char.toLower, dif_pos upper]
      exact Nat.mod_eq_of_lt (show c.val.toNat + 32 < 2 ^ 32 by omega)
    have letter : 'a' ≤ c.toLower ∧ c.toLower ≤ 'z' :=
      ⟨UInt32.le_iff_toNat_le.mpr (show 97 ≤ _ by omega), UInt32.le_iff_toNat_le.mpr (show _ ≤ 122 by omega)⟩
    simp [isSmall, letter.1, letter.2]
  · have same : c.toLower = c := by rw [Char.toLower, dif_neg upper]
    have small : isUpper c = false := by
      by_contra isUpper
      simp only [Headset.isUpper, Bool.not_eq_false, Bool.and_eq_true, decide_eq_true_eq] at isUpper
      exact upper isUpper
    rw [isKept, small, Bool.false_or] at kept
    rw [same]
    exact kept

theorem isKept_of_isSmall (small : isSmall c = true) : isKept c = true := by
  simp only [isSmall, Bool.or_eq_true] at small
  simp only [isKept, Bool.or_eq_true]
  rcases small with letter | digit
  · exact .inl (.inr letter)
  · exact .inr digit

theorem toLower_of_isSmall (small : isSmall c = true) : c.toLower = c := by
  rw [Char.toLower, dif_neg]
  intro upper
  have low : 65 ≤ c.val.toNat := UInt32.le_iff_toNat_le.mp upper.1
  have high : c.val.toNat ≤ 90 := UInt32.le_iff_toNat_le.mp upper.2
  simp only [isSmall, Bool.or_eq_true, Bool.and_eq_true, decide_eq_true_eq] at small
  rcases small with letter | digit
  · have above : 97 ≤ c.val.toNat := UInt32.le_iff_toNat_le.mp letter.1
    omega
  · have below : c.val.toNat ≤ 57 := UInt32.le_iff_toNat_le.mp digit.2
    omega

variable {t : Text}

theorem Clean.of_prefix {p : Text} (clean : Clean t) (isPrefix : p <+: t) : Clean p := by
  refine ⟨fun c mem => clean.chars c (isPrefix.subset mem), fun isHead => clean.first ?_,
    clean.apart.infix isPrefix.isInfix⟩
  obtain ⟨rest, rfl⟩ := isPrefix
  cases p with
  | nil => cases isHead
  | cons a p => exact isHead

theorem Clean.append_small (clean : Clean t) (small : isSmall c = true) : Clean (t ++ [c]) := by
  have notDash : c ≠ '-' := by
    rintro rfl
    cases small
  refine ⟨fun x mem => ?_, ?_, List.isChain_append.mpr ⟨clean.apart, List.isChain_singleton c, ?_⟩⟩
  · rcases List.mem_append.mp mem with old | new
    · exact clean.chars x old
    · rw [List.mem_singleton.mp new]
      exact .inl small
  · cases t with
    | nil => simpa using notDash
    | cons a t => exact clean.first
  · intro a _ b isHead both
    simp only [List.head?_cons, Option.mem_def, Option.some.injEq] at isHead
    exact notDash (isHead.trans both.2)

theorem Clean.append_dash (clean : Clean t) (some_ : t ≠ []) (last : t.getLast? ≠ some '-') :
    Clean (t ++ ['-']) := by
  refine ⟨fun x mem => ?_, ?_, List.isChain_append.mpr ⟨clean.apart, List.isChain_singleton _, ?_⟩⟩
  · rcases List.mem_append.mp mem with old | new
    · exact clean.chars x old
    · exact .inr (List.mem_singleton.mp new)
  · cases t with
    | nil => exact absurd rfl some_
    | cons a t => exact clean.first
  · intro a isLast b _ both
    rw [both.1] at isLast
    exact last isLast

theorem foldl_tokenStep_clean (raw : Text) :
    Clean (raw.foldl tokenStep ([], false)).1 ∧ (raw.foldl tokenStep ([], false)).1.getLast? ≠ some '-' := by
  induction raw using List.reverseRecOn with
  | nil => exact ⟨⟨nofun, nofun, List.isChain_nil⟩, nofun⟩
  | append_singleton raw c ih =>
    rw [List.foldl_append, List.foldl_cons, List.foldl_nil]
    generalize raw.foldl tokenStep ([], false) = state at ih ⊢
    obtain ⟨clean, last⟩ := ih
    unfold tokenStep
    split
    · rename_i kept
      have small := isSmall_toLower kept
      refine ⟨?_, ?_⟩
      · split
        · rename_i due
          simp only [Bool.and_eq_true, Bool.not_eq_true', List.isEmpty_eq_false_iff] at due
          exact (clean.append_dash due.2 last).append_small small
        · exact clean.append_small small
      · rw [List.getLast?_concat]
        intro isDash
        rw [Option.some.inj isDash] at small
        cases small
    · exact ⟨clean, last⟩

theorem headsetToken_isToken (raw : Text) : IsToken (headsetToken raw) := by
  obtain ⟨clean, _⟩ := foldl_tokenStep_clean (cString raw)
  have cut := List.rdropWhile_prefix (fun c => c == '-') (((cString raw).foldl tokenStep ([], false)).1.take kHeadsetTokenMax)
  refine ⟨clean.of_prefix (cut.trans (List.take_prefix ..)), ?_, ?_⟩
  · intro isLast
    have some_ : headsetToken raw ≠ [] := by
      intro none_
      rw [none_] at isLast
      cases isLast
    rw [List.getLast?_eq_some_getLast some_, Option.some.injEq] at isLast
    exact List.rdropWhile_last_not (fun c => c == '-') _ some_ (beq_iff_eq.mpr isLast)
  · exact Nat.le_trans cut.length_le (List.length_take_le ..)

theorem Clean.foldl_tokenStep (clean : Clean t) :
    t.foldl tokenStep ([], false) = if t.getLast? = some '-' then (t.dropLast, true) else (t, false) := by
  induction t using List.reverseRecOn with
  | nil => rfl
  | append_singleton t c ih =>
    have before := clean.of_prefix (List.prefix_append t [c])
    rw [List.foldl_append, List.foldl_cons, List.foldl_nil, ih before, List.getLast?_concat, List.dropLast_concat]
    rcases clean.chars c (by simp) with small | rfl
    · have kept := isKept_of_isSmall small
      have notDash : ¬some c = some '-' := by
        intro isDash
        rw [Option.some.inj isDash] at small
        cases small
      rw [if_neg notDash, tokenStep, if_pos kept, toLower_of_isSmall small]
      split
      · rename_i isLast
        obtain ⟨front, rfl⟩ := List.getLast?_eq_some_iff.mp isLast
        have some_ : front ≠ [] := by
          rintro rfl
          exact before.first rfl
        simp [some_]
      · rfl
    · have apart : ¬t.getLast? = some '-' := by
        intro isLast
        exact (List.isChain_append.mp clean.apart).2.2 '-' isLast '-' rfl ⟨rfl, rfl⟩
      rw [if_neg apart, if_pos rfl]
      rfl

theorem not_mem_of_small (chars : ∀ c ∈ t, isSmall c = true ∨ c = '-') (other : isSmall c = false)
    (notDash : c ≠ '-') : c ∉ t := by
  intro mem
  rcases chars c mem with small | dash
  · rw [other] at small
    cases small
  · exact notDash dash

theorem IsToken.headsetToken_eq (token : IsToken t) : headsetToken t = t := by
  have noNul : cString t = t := by
    refine List.takeWhile_eq_self_iff.mpr fun c mem => ?_
    have other : c ≠ '\x00' := fun isNul => not_mem_of_small token.chars rfl (by decide) (isNul ▸ mem)
    simpa using other
  unfold headsetToken
  rw [noNul, token.toClean.foldl_tokenStep, if_neg token.last, List.take_of_length_le token.short]
  refine List.rdropWhile_eq_self_iff.mpr fun some_ isDash => token.last ?_
  rw [List.getLast?_eq_some_getLast some_, beq_iff_eq.mp isDash]

theorem headsetToken_headsetToken (raw : Text) : headsetToken (headsetToken raw) = headsetToken raw :=
  (headsetToken_isToken raw).headsetToken_eq

end EdvrPatch.Headset
