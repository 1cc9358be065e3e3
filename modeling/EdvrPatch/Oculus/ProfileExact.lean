import EdvrPatch.Oculus.Profile

/-! What the check of the executable proves. It reads nothing outside the image, and when it
answers true the imports and the call are what they have to be. -/
namespace EdvrPatch.Oculus

open Lib

variable {image : Bytes} {v : ImageView} {rva size : Nat}

def byteOf (image : Bytes) (i : Nat) : UInt8 := image.getD i 0

def word (image : Bytes) (i : Nat) : Nat :=
  (bytesWord (byteOf image i) (byteOf image (i + 1)) (byteOf image (i + 2))
    (byteOf image (i + 3))).toNat

def quad (image : Bytes) (i : Nat) : Nat := word image i + 2 ^ 32 * word image (i + 4)

theorem inside_byte {i : Nat} (there : i < image.length) :
    Inside image (Guarded.byteAt i : Check UInt8) fun b => b = byteOf image i :=
  (Inside.byteAt there).imp fun _ found => by simp [byteOf, found]

def half (image : Bytes) (i : Nat) : Nat :=
  (byteOf image i).toNat + 2 ^ 8 * (byteOf image (i + 1)).toNat

theorem half_lt (i : Nat) : half image i < 2 ^ 16 := by
  have := (byteOf image i).toNat_lt
  have := (byteOf image (i + 1)).toNat_lt
  unfold half
  omega

theorem inside_u16 {i : Nat} (there : i + 2 ≤ image.length) :
    Inside image (u16 i) fun n => n = half image i := by
  refine Inside.bind (P := fun w => w.toNat = half image i) ?_ fun _ is => Inside.pure is
  refine Inside.bind (inside_byte (by omega)) fun a first => ?_
  refine Inside.bind (inside_byte (by omega)) fun b second => ?_
  subst first second
  exact Inside.pure (UInt16.toNat_ofNat_of_lt' (half_lt i))

theorem inside_u32 {i : Nat} (there : i + 4 ≤ image.length) :
    Inside image (u32 i) fun n => n = word image i := by
  refine Inside.bind (P := fun w => w.toNat = word image i) ?_ fun _ is => Inside.pure is
  refine Inside.bind (inside_byte (by omega)) fun a first => ?_
  refine Inside.bind (inside_byte (by omega)) fun b second => ?_
  refine Inside.bind (inside_byte (by omega)) fun c third => ?_
  refine Inside.bind (inside_byte (by omega)) fun d fourth => ?_
  subst first second third fourth
  exact Inside.pure rfl

theorem inside_u64 {i : Nat} (there : i + 8 ≤ image.length) :
    Inside image (u64 i) fun n => n = quad image i := by
  refine Inside.bind (inside_u32 (by omega)) fun low first => ?_
  refine Inside.bind (inside_u32 (by omega)) fun high second => ?_
  subst first second
  exact Inside.pure rfl

theorem inside_sum32 {a b : Nat} (small : a + b < 2 ^ 32) :
    Inside image (sum32 a b) fun n => n = a + b := by
  refine ⟨fun _ _ _ => rfl, fun _ => ?_⟩
  unfold sum32
  rw [if_pos small]
  exact rfl

theorem inside_u16In {a b : Nat} (there : a + b + 2 ≤ image.length) (small : a + b < 2 ^ 32) :
    Inside image (u16In a b) fun n => n = half image (a + b) := by
  refine Inside.bind (inside_sum32 small) fun _ is => ?_
  subst is
  exact inside_u16 there

theorem inside_u32In {a b : Nat} (there : a + b + 4 ≤ image.length) (small : a + b < 2 ^ 32) :
    Inside image (u32In a b) fun n => n = word image (a + b) := by
  refine Inside.bind (inside_sum32 small) fun _ is => ?_
  subst is
  exact inside_u32 there

theorem inside_forM {σ ι : Type} {f : ι → Guarded σ Unit} {R : ι → Prop} {is : List ι}
    (turn : ∀ i ∈ is, Inside image (f i) fun _ => R i) :
    Inside image (is.forM f) fun _ => ∀ i ∈ is, R i := by
  induction is with
  | nil => exact Inside.pure nofun
  | cons i is ih =>
    refine Inside.bind (turn i List.mem_cons_self) fun _ here => ?_
    refine (ih fun j later => turn j (List.mem_cons_of_mem i later)).imp fun _ rest => ?_
    exact List.forall_mem_cons.mpr ⟨here, rest⟩

def sectionOf (image : Bytes) (v : ImageView) (index : Nat) : Option Section_ :=
  let off := v.sectionTable + index * 40
  let span := max (word image (off + 8)) (word image (off + 16))
  if ¬v.Range off 40 ∨ span = 0 ∨ v.imageSize < word image (off + 12) + span then none
  else some ⟨word image (off + 12), span, word image (off + 36)⟩

theorem inside_sectionAt (whole : v.span = image.length) (index : Nat) :
    Inside image (sectionAt v index) fun s => s = sectionOf image v index := by
  unfold sectionAt sectionOf
  dsimp only
  split
  · rename_i out
    exact Inside.pure (if_pos (.inl out)).symm
  rename_i range
  have there : v.sectionTable + index * 40 + 40 ≤ image.length := by
    have := (not_not.mp range).2.1
    omega
  refine Inside.bind (inside_u32 (by omega)) fun _ is => ?_
  subst is
  refine Inside.bind (inside_u32 (by omega)) fun _ is => ?_
  subst is
  refine Inside.bind (inside_u32 (by omega)) fun _ is => ?_
  subst is
  split
  · rename_i bad
    exact Inside.pure (if_pos (.inr bad)).symm
  rename_i good
  refine Inside.bind (inside_u32 (by omega)) fun _ is => ?_
  subst is
  exact Inside.pure (if_neg (not_or.mpr ⟨range, good⟩)).symm

theorem sectionOf_bounds {index : Nat} {s : Section_} (found : sectionOf image v index = some s) :
    s.rva + s.span ≤ v.imageSize := by
  unfold sectionOf at found
  dsimp only at found
  split at found
  · cases found
  cases found
  dsimp only
  omega

def headersOf (image : Bytes) : ImageView :=
  let nt := word image 0x3C
  let optional := nt + 24
  let optionalSize := half image (nt + 20)
  { span := image.length, imageSize := word image (optional + 56)
    headersSize := word image (optional + 60), sectionTable := optional + optionalSize
    sectionCount := half image (nt + 6), optional, optionalSize
    directoryCount := word image (optional + 108) }

structure Sound (image : Bytes) (v : ImageView) : Prop where
  span : v.span = image.length
  size : v.imageSize ≤ image.length
  small : v.imageSize < 2 ^ 32
  optional : v.optional + v.optionalSize ≤ image.length
  optional_small : v.optional + v.optionalSize < 2 ^ 32
  directories : 112 + 8 * v.directoryCount ≤ v.optionalSize
  sections : ∀ i < v.sectionCount, sectionOf image v i ≠ none

theorem inside_inSections (whole : v.span = image.length) (test : Section_ → Bool)
    {is : List Nat} (known : ∀ i ∈ is, sectionOf image v i ≠ none) :
    Inside image (inSections v test is) fun b =>
      b = true ↔ ∃ i ∈ is, ∃ s, sectionOf image v i = some s ∧ test s = true := by
  induction is with
  | nil => exact Inside.pure (by simp)
  | cons i is ih =>
    refine Inside.bind (inside_sectionAt whole i) fun found is_ => ?_
    obtain ⟨s, here⟩ := Option.ne_none_iff_exists'.mp (known i List.mem_cons_self)
    rw [here] at is_
    subst is_
    dsimp only
    by_cases holds : test s = true
    · rw [if_pos holds]
      exact Inside.pure (by simp [here, holds])
    · rw [if_neg holds]
      refine (ih fun j later => known j (List.mem_cons_of_mem i later)).imp fun b meaning => ?_
      simp [meaning, here, holds]

def Mapped (image : Bytes) (v : ImageView) (rva size : Nat) : Prop :=
  rva + size ≤ v.imageSize ∧ (rva + size ≤ v.headersSize ∨
    ∃ i ∈ List.range v.sectionCount, ∃ s, sectionOf image v i = some s ∧ s.holds rva size = true)

section

variable (sound : Sound image v)

include sound

theorem Sound.range_iff : v.Range rva size ↔ rva + size ≤ v.imageSize := by
  have := sound.span
  have := sound.size
  unfold ImageView.Range
  omega

theorem Sound.inside (fits : rva + size ≤ v.imageSize) :
    rva + size ≤ image.length ∧ rva + size < 2 ^ 32 := by
  have := sound.size
  have := sound.small
  omega

theorem inside_mappedRva (rva size : Nat) :
    Inside image (mappedRva v rva size) fun b => b = true ↔ Mapped image v rva size := by
  unfold mappedRva Mapped
  split
  · rename_i out
    rw [sound.range_iff] at out
    exact Inside.pure (by simp [out])
  rename_i fits
  rw [not_not, sound.range_iff] at fits
  split
  · rename_i header
    exact Inside.pure (by simp [fits, header])
  rename_i behind
  refine (inside_inSections sound.span _ fun i inside =>
    sound.sections i (List.mem_range.mp inside)).imp fun b meaning => ?_
  simp [meaning, fits, behind]

theorem inside_executableRva (rva size : Nat) :
    Inside image (executableRva v rva size) fun b => b = true → rva + size ≤ v.imageSize := by
  unfold executableRva
  split
  · exact Inside.pure nofun
  rename_i fits
  rw [not_not, sound.range_iff] at fits
  exact (inside_inSections sound.span _ fun i inside =>
    sound.sections i (List.mem_range.mp inside)).imp fun _ _ _ => fits

theorem inside_needMapped {α : Type} {rva size : Nat} {rest : Check α} {post : α → Prop}
    (next : Mapped image v rva size → Inside image rest post) :
    Inside image (do Guarded.returnIf (¬(← mappedRva v rva size)); rest) post := by
  refine Inside.bind (inside_mappedRva sound rva size) fun _ meaning => ?_
  refine Inside.bind (Inside.returnIf _) fun _ kept => ?_
  exact next (meaning.mp (not_not.mp kept))

/-- The name at an address is this one, in any case of its letters. -/
def Names (image : Bytes) (v : ImageView) (rva : Nat) (name : Bytes) : Prop :=
  ∀ k < name.length, Mapped image v (rva + k) 1 ∧
    lowerByte (byteOf image (rva + k)) = lowerByte (name.getD k 0)

/-- One of the first 64 bytes of the name at an address begins `libovr`. -/
def NamesLibovr (image : Bytes) (v : ImageView) (rva : Nat) : Prop :=
  ∃ k, k + 6 ≤ 64 ∧
    (∀ j < k + 6, Mapped image v (rva + j) 1 ∧ byteOf image (rva + j) ≠ 0) ∧
    ((List.range 6).map fun j => lowerByte (byteOf image (rva + (k + j)))) = libovr

omit sound in
theorem lowerByte_eq_zero (b : UInt8) : lowerByte b = 0 ↔ b = 0 := by
  unfold lowerByte
  split
  · rename_i upper
    have low := UInt8.le_iff_toNat_le.mp upper.1
    have high := UInt8.le_iff_toNat_le.mp upper.2
    simp only [← UInt8.toNat_inj, UInt8.toNat_add, UInt8.reduceToNat] at low high ⊢
    omega
  · rfl

omit sound in
theorem names_cons (rva : Nat) (c : UInt8) (rest : Bytes) :
    Names image v rva (c :: rest) ↔ (Mapped image v rva 1 ∧
      lowerByte (byteOf image rva) = lowerByte c) ∧ Names image v (rva + 1) rest := by
  constructor
  · intro names
    refine ⟨names 0 (by simp), fun k inside => ?_⟩
    have next := names (k + 1) (by simpa using inside)
    rwa [show rva + (k + 1) = rva + 1 + k by omega] at next
  · rintro ⟨first, names⟩ (_ | k) inside
    · exact first
    · rw [show rva + (k + 1) = rva + 1 + k by omega]
      exact names k (by simpa using inside)

theorem inside_equalsFrom {letters : Bytes} (solid : ∀ b ∈ letters, b ≠ 0) (rva n : Nat)
    (near : rva + n < 2 ^ 32) :
    Inside image (equalsFrom v rva (letters ++ [0]) n) fun b =>
      b = true ↔ Names image v (rva + n) (letters ++ [0]) := by
  induction letters generalizing n with
  | nil =>
    rw [List.nil_append, names_cons]
    unfold equalsFrom
    refine Inside.bind (inside_sum32 near) fun _ is => ?_
    subst is
    refine Inside.bind (inside_mappedRva sound _ 1) fun b meaning => ?_
    split
    · rename_i out
      exact Inside.pure (by simp_all)
    rename_i mapped
    have here := meaning.mp (by simpa using mapped)
    refine Inside.bind (inside_byte (sound.inside here.1).1) fun _ is => ?_
    subst is
    simp only [or_true, if_true]
    refine Inside.pure ?_
    have zero : lowerByte 0 = 0 := rfl
    simp [here, Names, zero, lowerByte_eq_zero]
  | cons c letters ih =>
    have solid_c := solid c List.mem_cons_self
    rw [List.cons_append, names_cons]
    unfold equalsFrom
    refine Inside.bind (inside_sum32 near) fun _ is => ?_
    subst is
    refine Inside.bind (inside_mappedRva sound _ 1) fun b meaning => ?_
    split
    · rename_i out
      exact Inside.pure (by simp_all)
    rename_i mapped
    have here := meaning.mp (by simpa using mapped)
    refine Inside.bind (inside_byte (sound.inside here.1).1) fun _ is => ?_
    subst is
    split
    · rename_i ends
      have null := ends.resolve_right solid_c
      have apart : lowerByte 0 ≠ lowerByte c := fun same =>
        solid_c ((lowerByte_eq_zero c).mp (same.symm.trans rfl))
      exact Inside.pure (by simp [null, apart, solid_c.symm])
    split
    · rename_i other
      exact Inside.pure (by simp [other])
    rename_i same
    rw [not_not] at same
    refine (ih (fun b later => solid b (List.mem_cons_of_mem c later)) (n + 1)
      (sound.inside here.1).2).imp fun b meaning => ?_
    simp [meaning, here, same, Nat.add_assoc]

/-- The six bytes before a place of the name, with zeros before its start. -/
def window (image : Bytes) (rva n : Nat) : Bytes :=
  (List.range 6).map fun j => if n + j < 6 then 0 else lowerByte (byteOf image (rva + (n + j - 6)))

omit sound in
theorem window_succ (rva n : Nat) :
    window image rva (n + 1) = (window image rva n).drop 1 ++ [lowerByte (byteOf image (rva + n))] := by
  simp [window, List.range_succ, Nat.add_comm, Nat.add_left_comm]

omit sound in
theorem window_of_le (rva : Nat) {k n : Nat} (place : k + 6 = n) :
    window image rva n = (List.range 6).map fun j => lowerByte (byteOf image (rva + (k + j))) := by
  apply List.map_congr_left
  intro j _
  rw [if_neg (by omega), show n + j - 6 = k + j by omega]

theorem inside_libovrFrom (rva left n : Nat) (near : rva + n < 2 ^ 32) :
    Inside image (libovrFrom v rva left n (window image rva n)) fun b => b = false →
      ¬∃ k, n < k + 6 ∧ k + 6 ≤ n + left ∧
        (∀ j < k + 6, Mapped image v (rva + j) 1 ∧ byteOf image (rva + j) ≠ 0) ∧
        window image rva (k + 6) = libovr := by
  induction left generalizing n with
  | zero =>
    refine Inside.pure fun _ => ?_
    rintro ⟨k, first, last, -⟩
    omega
  | succ left ih =>
    unfold libovrFrom
    refine Inside.bind (inside_sum32 near) fun _ is => ?_
    subst is
    refine Inside.bind (inside_mappedRva sound _ 1) fun b meaning => ?_
    split
    · rename_i out
      refine Inside.pure fun _ => ?_
      rintro ⟨k, first, -, mapped, -⟩
      have here := meaning.mpr (mapped n first).1
      simp [here] at out
    rename_i mapped
    have here := meaning.mp (by simpa using mapped)
    refine Inside.bind (inside_byte (sound.inside here.1).1) fun _ is => ?_
    subst is
    split
    · rename_i null
      refine Inside.pure fun _ => ?_
      rintro ⟨k, first, -, mapped, -⟩
      exact (mapped n first).2 null
    dsimp only
    rw [← window_succ]
    split
    · exact Inside.pure nofun
    rename_i other
    refine (ih (n + 1) (sound.inside here.1).2).imp fun b none_ no => ?_
    rintro ⟨k, first, last, facts⟩
    by_cases now : k + 6 = n + 1
    · rw [now] at facts
      exact other facts.2
    · exact none_ no ⟨k, by omega, by omega, facts⟩

theorem inside_cstringContainsLibovr (rva : Nat) :
    Inside image (cstringContainsLibovr v rva) fun b => b = false → ¬NamesLibovr image v rva := by
  refine Inside.bind (inside_mappedRva sound rva 1) fun b meaning => ?_
  split
  · rename_i out
    refine Inside.pure fun _ => ?_
    rintro ⟨k, -, mapped, -⟩
    have here := meaning.mpr (mapped 0 (by omega)).1
    simp [here] at out
  rename_i mapped
  have here := meaning.mp (by simpa using mapped)
  have near := (sound.inside here.1).2
  refine (inside_libovrFrom sound rva 64 0 (by omega)).imp fun b none_ no => ?_
  rintro ⟨k, few, facts, names⟩
  exact none_ no ⟨k, by omega, by omega, facts, (window_of_le rva rfl).trans names⟩

theorem inside_cstringEquals (rva : Nat) {letters : Bytes} (solid : ∀ b ∈ letters, b ≠ 0) :
    Inside image (cstringEquals v rva (letters ++ [0])) fun b =>
      b = true ↔ Names image v rva (letters ++ [0]) := by
  unfold cstringEquals
  refine Inside.bind (inside_mappedRva sound rva 1) fun b meaning => ?_
  split
  · rename_i out
    refine Inside.pure ⟨nofun, fun names => ?_⟩
    have here := meaning.mpr (names 0 (by simp)).1
    simp [here] at out
  rename_i mapped
  have here := meaning.mp (by simpa using mapped)
  have near := (sound.inside here.1).2
  exact inside_equalsFrom sound solid rva 0 (by omega)

/-! The import tables. -/

def Ends (image : Bytes) (at_ : Nat) (fields : List Nat) : Prop :=
  ∀ field ∈ fields, word image (at_ + field) = 0

def importFields : List Nat := [0, 4, 8, 12, 16]
def delayFields : List Nat := [0, 4, 8, 12, 16, 20, 24, 28]

theorem inside_scanDelay (delayRva left d : Nat) (fits : delayRva + (d + left) * 32 < 2 ^ 32) :
    Inside image (scanDelay v delayRva left d) fun b => b = true →
      ∃ n, d ≤ n ∧ n < d + left ∧ Ends image (delayRva + n * 32) delayFields ∧
        ∀ e, d ≤ e → e < n → ¬NamesLibovr image v (word image (delayRva + e * 32 + 4)) := by
  induction left generalizing d with
  | zero => exact Inside.pure nofun
  | succ left ih =>
    unfold scanDelay
    refine Inside.bind (inside_sum32 (by omega)) fun _ is => ?_
    subst is
    generalize place : delayRva + d * 32 = at_
    refine inside_needMapped sound fun here => ?_
    have near := sound.inside here.1
    refine Inside.bind (inside_u32 (by omega)) fun attrs is0 => ?_
    refine Inside.bind (inside_u32In (by omega) (by omega)) fun name is1 => ?_
    refine Inside.bind (inside_u32In (by omega) (by omega)) fun module_ is2 => ?_
    refine Inside.bind (inside_u32In (by omega) (by omega)) fun first is3 => ?_
    refine Inside.bind (inside_u32In (by omega) (by omega)) fun original is4 => ?_
    refine Inside.bind (inside_u32In (by omega) (by omega)) fun bound is5 => ?_
    refine Inside.bind (inside_u32In (by omega) (by omega)) fun unload is6 => ?_
    refine Inside.bind (inside_u32In (by omega) (by omega)) fun stamp is7 => ?_
    split
    · rename_i zero
      refine Inside.pure fun _ => ⟨d, by omega, by omega, ?_, fun e _ _ => by omega⟩
      subst is0 is1 is2 is3 is4 is5 is6 is7
      rw [place]
      simpa [Ends, delayFields] using zero
    refine Inside.bind (Inside.returnIf _) fun _ _ => ?_
    refine inside_needMapped sound fun _ => ?_
    refine inside_needMapped sound fun _ => ?_
    refine inside_needMapped sound fun _ => ?_
    refine Inside.bind (inside_cstringContainsLibovr sound _) fun b none_ => ?_
    refine Inside.bind (Inside.returnIf _) fun _ no => ?_
    refine (ih (d + 1) (by omega)).imp fun b found ends => ?_
    obtain ⟨n, le, lt, zero, rest⟩ := found ends
    refine ⟨n, by omega, by omega, zero, fun e low high => ?_⟩
    by_cases now : e = d
    · subst now
      rw [place, ← is1]
      exact none_ (by simpa using no)
    · exact rest e (by omega) high

/-- The thunk of an import and its slot: the descriptor, and the place in its list. -/
def thunkAt (image : Bytes) (importRva : Nat) (p : Nat × Nat) : Nat :=
  quad image (word image (importRva + p.1 * 20) + p.2 * 8)

def slotAt (image : Bytes) (importRva : Nat) (p : Nat × Nat) : Nat :=
  word image (importRva + p.1 * 20 + 16) + p.2 * 8

/-- The import is `LoadLibraryW` of `KERNEL32.dll`, and the list has not ended before it. -/
structure Loads (image : Bytes) (v : ImageView) (importRva : Nat) (p : Nat × Nat) : Prop where
  listed : ∀ i ≤ p.2, thunkAt image importRva (p.1, i) ≠ 0
  kernel : Names image v (word image (importRva + p.1 * 20 + 12)) (cstring "KERNEL32.dll")
  named : thunkAt image importRva p < 2 ^ 63
  name : Names image v (thunkAt image importRva p + 2) (cstring "LoadLibraryW")

def Reached (d i : Nat) (p : Nat × Nat) : Prop := p.1 < d ∨ p.1 = d ∧ p.2 < i

inductive Counted (slot : Nat × Nat → Nat) (met : Nat × Nat → Prop) : Load → Prop
  | none_ : (∀ p, ¬met p) → Counted slot met {}
  | one (p) : met p → (∀ q, met q → q = p) → slot p = kLoadLibraryIatRva →
    Counted slot met { loadSlot := some kLoadLibraryIatRva, loadCount := 1 }
  | many {load} : 2 ≤ load.loadCount → Counted slot met load

section

omit sound

variable {slot : Nat × Nat → Nat} {met met' : Nat × Nat → Prop} {load : Load} {p : Nat × Nat}

theorem Counted.congr (counted : Counted slot met load) (same : ∀ p, met' p ↔ met p) :
    Counted slot met' load := by
  cases counted with
  | none_ none_ => exact .none_ fun p here => none_ p ((same p).mp here)
  | one p here only at_ =>
    exact .one p ((same p).mpr here) (fun q there => only q ((same q).mp there)) at_
  | many two => exact .many two

theorem Counted.add (counted : Counted slot met load) (at_ : slot p = kLoadLibraryIatRva)
    (added : ∀ q, met' q ↔ met q ∨ q = p) :
    Counted slot met' { loadSlot := some (slot p), loadCount := load.loadCount + 1 } := by
  cases counted with
  | none_ none_ =>
    rw [at_]
    exact .one p ((added p).mpr (.inr rfl))
      (fun q here => ((added q).mp here).resolve_left (none_ q)) at_
  | one _ _ _ _ => exact .many (Nat.le_refl 2)
  | many two => exact .many (by dsimp only; omega)

end

theorem inside_scanThunks {importRva d original first : Nat} {kernel : Bool}
    (is_original : original = word image (importRva + d * 20))
    (is_first : first = word image (importRva + d * 20 + 16))
    (is_kernel : kernel = true ↔
      Names image v (word image (importRva + d * 20 + 12)) (cstring "KERNEL32.dll"))
    (left i : Nat) (load : Load) (before : ∀ j < i, thunkAt image importRva (d, j) ≠ 0)
    (counted : Counted (slotAt image importRva)
      (fun p => Loads image v importRva p ∧ Reached d i p) load) :
    Inside image (scanThunks v kernel original first left i load) fun r => r.1 = true →
      Counted (slotAt image importRva)
        (fun p => Loads image v importRva p ∧ Reached (d + 1) 0 p) r.2 := by
  induction left generalizing i load with
  | zero => exact Inside.pure nofun
  | succ left ih =>
    unfold scanThunks
    refine Inside.bind (Inside.returnIf _) fun _ _ => ?_
    refine inside_needMapped sound fun here => ?_
    refine inside_needMapped sound fun _ => ?_
    refine Inside.bind (inside_u64 (sound.inside here.1).1) fun thunk is => ?_
    have thunk_eq : thunk = thunkAt image importRva (d, i) := by rw [is, is_original]; rfl
    have slot_eq : first + i * 8 = slotAt image importRva (d, i) := by rw [is_first]; rfl
    split
    · rename_i zero
      refine Inside.pure fun _ => counted.congr fun p => and_congr_right fun loads => ?_
      have listed := loads.listed i
      unfold Reached
      obtain ⟨e, j⟩ := p
      by_cases same : e = d
      · subst same
        have short : j < i := by
          by_contra late
          exact listed (Nat.not_lt.mp late) (thunk_eq.symm.trans zero)
        simp [short]
      · dsimp only
        omega
    rename_i some_
    have next : ∀ j < i + 1, thunkAt image importRva (d, j) ≠ 0 := by
      intro j low
      by_cases now : j = i
      · rw [now, ← thunk_eq]
        exact some_
      · exact before j (by omega)
    have reached (p : Nat × Nat) : Reached d (i + 1) p ↔ Reached d i p ∨ p = (d, i) := by
      unfold Reached
      rw [Prod.ext_iff]
      omega
    have skip (no : ¬Loads image v importRva (d, i)) : Counted (slotAt image importRva)
        (fun p => Loads image v importRva p ∧ Reached d (i + 1) p) load := by
      refine counted.congr fun p => and_congr_right fun loads => ?_
      rw [reached]
      exact or_iff_left fun here => no (here ▸ loads)
    split
    · rename_i ordinal
      refine Inside.bind (Inside.returnIf _) fun _ _ => ?_
      refine ih (i + 1) load next (skip fun loads => ?_)
      have named := loads.named
      omega
    rename_i named
    refine Inside.bind (Inside.returnIf _) fun _ _ => ?_
    refine inside_needMapped sound fun hint => ?_
    refine Inside.bind (inside_sum32 (by have := sound.inside hint.1; omega)) fun name is => ?_
    subst is
    have equals : Inside image (namesLoad v kernel (thunk + 2)) fun b =>
        b = true ↔ Loads image v importRva (d, i) := by
      unfold namesLoad
      have loads_iff (k : kernel = true) : Loads image v importRva (d, i) ↔
          Names image v (thunk + 2) (cstring "LoadLibraryW") := by
        rw [thunk_eq]
        exact ⟨Loads.name, fun name => ⟨fun j le => next j (by omega), is_kernel.mp k,
          thunk_eq ▸ Nat.not_le.mp named, name⟩⟩
      by_cases k : kernel = true
      · rw [if_pos k, loads_iff k]
        exact inside_cstringEquals sound _ (by decide +kernel)
      · rw [if_neg k]
        exact Inside.pure ⟨nofun, fun loads => absurd (is_kernel.mpr loads.kernel) k⟩
    refine Inside.bind equals fun loads meaning => ?_
    refine Inside.bind (Inside.returnIf _) fun _ kept => ?_
    refine ih (i + 1) _ next ?_
    by_cases yes : loads = true
    · rw [if_pos yes, slot_eq]
      refine counted.add (by grind) fun p => ?_
      grind
    · rw [if_neg yes]
      exact skip (mt meaning.mpr yes)

/-- The descriptors up to the terminator: none of them names LibOVR. -/
def ImportsEnd (image : Bytes) (v : ImageView) (importRva n : Nat) : Prop :=
  Ends image (importRva + n * 20) importFields ∧ ∀ d < n,
    ¬Ends image (importRva + d * 20) importFields ∧
      ¬NamesLibovr image v (word image (importRva + d * 20 + 12))

theorem inside_scanImports (importRva left d : Nat) (load : Load)
    (fits : importRva + (d + left) * 20 < 2 ^ 32)
    (before : ∀ e < d, ¬Ends image (importRva + e * 20) importFields ∧
      ¬NamesLibovr image v (word image (importRva + e * 20 + 12)))
    (counted : Counted (slotAt image importRva)
      (fun p => Loads image v importRva p ∧ Reached d 0 p) load) :
    Inside image (scanImports v importRva left d load) fun r => r.1 = true →
      ∃ n < d + left, ImportsEnd image v importRva n ∧ Counted (slotAt image importRva)
        (fun p => Loads image v importRva p ∧ p.1 < n) r.2 := by
  induction left generalizing d load with
  | zero => exact Inside.pure nofun
  | succ left ih =>
    unfold scanImports
    refine Inside.bind (inside_sum32 (by omega)) fun at_ place => ?_
    refine inside_needMapped sound fun here => ?_
    have near := sound.inside here.1
    refine Inside.bind (inside_u32 (by omega)) fun original is0 => ?_
    refine Inside.bind (inside_u32In (by omega) (by omega)) fun stamp is1 => ?_
    refine Inside.bind (inside_u32In (by omega) (by omega)) fun chain is2 => ?_
    refine Inside.bind (inside_u32In (by omega) (by omega)) fun name is3 => ?_
    refine Inside.bind (inside_u32In (by omega) (by omega)) fun first is4 => ?_
    have ends_iff : (original = 0 ∧ stamp = 0 ∧ chain = 0 ∧ name = 0 ∧ first = 0) ↔
        Ends image at_ importFields := by
      rw [is0, is1, is2, is3, is4]
      simp [Ends, importFields]
    rw [place] at is0 is3 is4 ends_iff
    split
    · rename_i zero
      refine Inside.pure fun _ => ⟨d, by omega, ⟨ends_iff.mp zero, before⟩, ?_⟩
      refine counted.congr fun p => and_congr_right fun _ => ?_
      simp [Reached]
    rename_i some_
    refine Inside.bind (Inside.returnIf _) fun _ _ => ?_
    refine inside_needMapped sound fun _ => ?_
    refine inside_needMapped sound fun _ => ?_
    refine inside_needMapped sound fun _ => ?_
    refine Inside.bind (inside_cstringEquals sound _ (by decide +kernel)) fun kernel is_kernel => ?_
    rw [is3] at is_kernel
    refine Inside.bind (inside_cstringContainsLibovr sound _) fun libovr none_ => ?_
    refine Inside.bind (Inside.returnIf _) fun _ no => ?_
    rw [is3] at none_
    refine Inside.bind (inside_scanThunks sound is0 is4 is_kernel _ 0 _ nofun counted)
      fun r listed => ?_
    obtain ⟨terminated, load'⟩ := r
    refine Inside.bind (Inside.returnIf _) fun _ kept => ?_
    refine (ih (d + 1) load' (by omega) (fun e low => ?_) (listed (by simpa using kept))).imp
      fun r found ends => ?_
    · by_cases now : e = d
      · subst now
        exact ⟨mt ends_iff.mpr some_, none_ (by simpa using no)⟩
      · exact before e (by omega)
    · obtain ⟨n, lt, facts⟩ := found ends
      exact ⟨n, by omega, facts⟩

/-- The delay imports, if there are any, end, and none of them names LibOVR. -/
def DelayEnds (image : Bytes) (v : ImageView) : Prop :=
  13 < v.directoryCount → word image (v.optional + 216) ≠ 0 ∨ word image (v.optional + 220) ≠ 0 →
    ∃ n, Ends image (word image (v.optional + 216) + n * 32) delayFields ∧ ∀ d < n,
      ¬NamesLibovr image v (word image (word image (v.optional + 216) + d * 32 + 4))

theorem inside_checkDelay : Inside image (checkDelay v) fun _ => DelayEnds image v := by
  have optional := sound.optional
  have small := sound.optional_small
  have directories := sound.directories
  unfold checkDelay DelayEnds
  split
  swap
  · rename_i few
    exact Inside.pure fun many => absurd many few
  refine Inside.bind (inside_u32In (by omega) (by omega)) fun delayRva is0 => ?_
  refine Inside.bind (inside_u32In (by omega) (by omega)) fun delaySize is1 => ?_
  rw [← is0, ← is1]
  split
  swap
  · rename_i none_
    exact Inside.pure fun _ some_ => absurd some_ none_
  refine Inside.bind (Inside.returnIf _) fun _ _ => ?_
  refine inside_needMapped sound fun here => ?_
  have near := sound.inside here.1
  refine Inside.bind (inside_scanDelay sound delayRva (delaySize / 32) 0 (by omega))
    fun b found => ?_
  refine (Inside.returnIf _).imp fun _ kept _ _ => ?_
  obtain ⟨n, -, -, ends, rest⟩ := found (by simpa using kept)
  exact ⟨n, ends, fun d low => rest d (Nat.zero_le d) low⟩

theorem inside_sameBytes (rva i : Nat) {want : Bytes} (fits : rva + i + want.length ≤ v.imageSize) :
    Inside image (sameBytes rva want i) fun b => b = true →
      ∀ k < want.length, byteOf image (rva + (i + k)) = want.getD k 0 := by
  induction want generalizing i with
  | nil => exact Inside.pure fun _ => nofun
  | cons w rest ih =>
    have near := sound.inside fits
    rw [List.length_cons] at fits near
    unfold sameBytes
    refine Inside.bind (inside_sum32 (by omega)) fun _ is => ?_
    subst is
    refine Inside.bind (inside_byte (by omega)) fun _ is => ?_
    subst is
    split
    · exact Inside.pure nofun
    rename_i same
    refine (ih (i + 1) (by omega)).imp fun b rest_same yes => ?_
    rintro (_ | k) low
    · exact not_not.mp same
    · rw [show i + (k + 1) = i + 1 + k by omega]
      exact rest_same yes k (by simpa using low)

theorem inside_bytes (rva : Nat) (want : Bytes) :
    Inside image (bytes v rva want) fun _ => True := by
  refine Inside.bind (inside_executableRva sound rva _) fun b fits => ?_
  split
  · exact Inside.pure trivial
  rename_i code
  exact (inside_sameBytes sound rva 0 (fits (by simpa using code))).imp fun _ _ => trivial

theorem inside_fnv1a (rva size : Nat) : Inside image (fnv1a v rva size) fun _ => True := by
  refine Inside.bind (inside_executableRva sound rva _) fun b fits => ?_
  split
  · exact Inside.pure trivial
  rename_i code
  have near := sound.inside (fits (by simpa using code))
  refine Inside.foldlM (fun hash i inside => ?_) _
  have low := List.mem_range.mp inside
  refine Inside.bind (inside_sum32 (by omega)) fun _ is => ?_
  exact Inside.bind (inside_byte (by omega)) fun _ _ => Inside.pure trivial

def CallsTo (image : Bytes) (rva target : Nat) (opcode : Bytes) : Prop :=
  (∀ k < opcode.length, byteOf image (rva + k) = opcode.getD k 0) ∧
    (rva + (opcode.length + 4) : Int) + Int.bmod (word image (rva + opcode.length)) (2 ^ 32) = target

theorem inside_callTo (rva target : Nat) (opcode : Bytes) :
    Inside image (callTo v rva target opcode) fun b => b = true →
      CallsTo image rva target opcode := by
  unfold callTo
  refine Inside.bind (inside_executableRva sound rva _) fun b fits => ?_
  split
  · exact Inside.pure nofun
  rename_i code
  have fits := fits (by simpa using code)
  have near := sound.inside fits
  refine Inside.bind (inside_sameBytes sound rva 0 (by omega)) fun b same => ?_
  split
  · exact Inside.pure nofun
  rename_i opened
  refine Inside.bind (inside_u32In (by omega) (by omega)) fun displacement is => ?_
  subst is
  refine Inside.pure fun here => ⟨?_, of_decide_eq_true here⟩
  simpa using same (by simpa using opened)

theorem inside_relocatedPointer (exeBase rva target : Nat) :
    Inside image (relocatedPointer v exeBase rva target) fun _ => True := by
  refine Inside.bind (inside_mappedRva sound rva 8) fun b meaning => ?_
  split
  · exact Inside.pure trivial
  rename_i mapped
  have here := meaning.mp (by simpa using mapped)
  exact Inside.bind (inside_u64 (sound.inside here.1).1) fun _ _ => Inside.pure trivial

omit sound in
theorem inside_need {f : Check Bool} {P : Bool → Prop} (inside : Inside image f P) :
    Inside image (do Guarded.returnIf (¬(← f)) : Check Unit) fun _ => True :=
  Inside.bind inside fun _ _ => (Inside.returnIf _).imp fun _ _ => trivial

theorem inside_checkCode (exeBase : Nat) : Inside image (checkCode v exeBase) fun _ => True := by
  refine Inside.bind (Inside.modify _) fun _ _ => ?_
  refine Inside.bind (inside_forM (R := fun _ => True) fun p _ => ?_) fun _ _ => ?_
  · exact Inside.bind (inside_fnv1a sound _ _) fun _ _ =>
      (Inside.returnIf _).imp fun _ _ => trivial
  refine Inside.bind (Inside.modify _) fun _ _ => ?_
  refine Inside.bind (inside_forM (R := fun _ => True) fun p _ => ?_) fun _ _ => ?_
  · exact inside_need (inside_bytes sound _ _)
  refine Inside.bind (inside_forM (R := fun _ => True) fun p _ => ?_) fun _ _ => ?_
  · exact inside_need (inside_callTo sound _ _ _)
  refine (inside_forM (R := fun _ => True) fun p _ => ?_).imp fun _ _ => trivial
  exact inside_need (inside_relocatedPointer sound exeBase _ _)

end

theorem inside_someSection (whole : v.span = image.length) (index : Nat) {post : Unit → Prop}
    {rest : Section_ → Check Unit}
    (next : ∀ s, sectionOf image v index = some s → Inside image (rest s) post) :
    Inside image (do let s ← Guarded.orReturn (← sectionAt v index); rest s) post := by
  refine Inside.bind (inside_sectionAt whole index) fun found is => ?_
  refine Inside.bind (Inside.orReturn found) fun s here => ?_
  exact next s (is.symm.trans here)

theorem inside_checkSection (whole : v.span = image.length) (small : v.imageSize < 2 ^ 32)
    (index : Nat) :
    Inside image (checkSection v index) fun _ => sectionOf image v index ≠ none := by
  refine inside_someSection whole index fun a found => ?_
  have above := sectionOf_bounds found
  refine (inside_forM (R := fun _ => True) fun j _ => ?_).imp fun _ _ => by simp [found]
  refine inside_someSection whole j fun b found' => ?_
  have below := sectionOf_bounds found'
  refine Inside.bind (inside_sum32 (by omega)) fun _ _ => ?_
  refine Inside.bind (inside_sum32 (by omega)) fun _ _ => ?_
  exact (Inside.returnIf _).imp fun _ _ => trivial

theorem inside_imageView (exeBase : Nat) :
    Inside image (imageView exeBase image.length) fun v => v = headersOf image ∧ Sound image v := by
  refine Inside.bind (Inside.returnIf _) fun _ long => ?_
  refine Inside.bind (inside_byte (by omega)) fun _ _ => ?_
  refine Inside.bind (Inside.returnIf _) fun _ _ => ?_
  refine Inside.bind (inside_byte (by omega)) fun _ _ => ?_
  refine Inside.bind (Inside.returnIf _) fun _ _ => ?_
  refine Inside.bind (inside_u32 (by omega)) fun nt isNt => ?_
  refine Inside.bind (Inside.returnIf _) fun _ there => ?_
  refine Inside.bind (inside_u32 (by omega)) fun _ _ => ?_
  refine Inside.bind (Inside.returnIf _) fun _ _ => ?_
  refine Inside.bind (inside_u16In (by omega) (by omega)) fun sectionCount isCount => ?_
  refine Inside.bind (inside_u16In (by omega) (by omega)) fun optionalSize isSize => ?_
  have short : optionalSize < 2 ^ 16 := isSize ▸ half_lt _
  refine Inside.bind (inside_sum32 (by omega)) fun optional isOptional => ?_
  refine Inside.bind (Inside.returnIf _) fun _ near => ?_
  refine Inside.bind (Inside.returnIf _) fun _ room => ?_
  refine Inside.bind (inside_u16 (by omega)) fun _ _ => ?_
  refine Inside.bind (Inside.returnIf _) fun _ _ => ?_
  refine Inside.bind (inside_u16In (by omega) (by omega)) fun _ _ => ?_
  refine Inside.bind (Inside.returnIf _) fun _ _ => ?_
  refine Inside.bind (inside_u32In (by omega) (by omega)) fun _ _ => ?_
  refine Inside.bind (Inside.returnIf _) fun _ _ => ?_
  refine Inside.bind (inside_u32In (by omega) (by omega)) fun directoryCount isDirectories => ?_
  refine Inside.bind (Inside.returnIf _) fun _ directories => ?_
  refine Inside.bind (inside_u32In (by omega) (by omega)) fun imageSize isImageSize => ?_
  refine Inside.bind (inside_u32In (by omega) (by omega)) fun headersSize isHeadersSize => ?_
  refine Inside.bind (inside_sum32 (by omega)) fun sectionTable isTable => ?_
  refine Inside.bind (Inside.returnIf _) fun _ sizes => ?_
  refine Inside.bind (inside_sum32 (by omega)) fun _ is => ?_
  refine Inside.bind (inside_u64 (by omega)) fun _ _ => ?_
  refine Inside.bind (Inside.modify _) fun _ _ => ?_
  refine Inside.bind (Inside.returnIf _) fun _ _ => ?_
  generalize isV : (⟨image.length, imageSize, headersSize, sectionTable, sectionCount, optional,
    optionalSize, directoryCount⟩ : ImageView) = v
  have whole : v.span = image.length := by rw [← isV]
  have small : v.imageSize < 2 ^ 32 := by
    rw [← isV]
    dsimp only
    omega
  refine Inside.bind (Inside.returnIf _) fun _ _ => ?_
  refine Inside.bind (inside_forM fun i _ => inside_checkSection whole small i) fun _ sections => ?_
  refine Inside.bind (inside_sectionAt whole 0) fun _ _ => ?_
  refine Inside.bind (Inside.orReturn _) fun _ _ => ?_
  refine Inside.bind (Inside.returnIf _) fun _ _ => Inside.pure ?_
  refine ⟨?_, whole, ?_, small, ?_, ?_, ?_, fun i low => sections i ?_⟩
  all_goals subst isV; dsimp only at *
  · subst isNt isCount isSize isOptional isDirectories isImageSize isHeadersSize isTable
    rfl
  · omega
  · omega
  · omega
  · omega
  · exact List.mem_range.mpr low

structure Qualified (image : Bytes) (v : ImageView) (exeBase : Nat) (found : OculusProfileMatch) :
    Prop where
  imports : ∃ n < word image (v.optional + 124) / 20,
    ImportsEnd image v (word image (v.optional + 120)) n ∧
    ∃ p, (Loads image v (word image (v.optional + 120)) p ∧ p.1 < n) ∧
      (∀ q, Loads image v (word image (v.optional + 120)) q ∧ q.1 < n → q = p) ∧
      slotAt image (word image (v.optional + 120)) p = kLoadLibraryIatRva
  delay : DelayEnds image v
  call : CallsTo image kLoaderCallRva kLoadLibraryIatRva [0xFF, 0x15]
  slot : found.loadLibrarySlot = some (exeBase + kLoadLibraryIatRva)

theorem inside_validateMapped (exeBase : Nat) :
    Inside image (validateMapped exeBase image.length) fun found =>
      Sound image (headersOf image) ∧ Qualified image (headersOf image) exeBase found := by
  unfold validateMapped setStage
  refine Inside.bind (inside_imageView exeBase) fun v viewed => ?_
  obtain ⟨isHeaders, sound⟩ := viewed
  rw [← isHeaders]
  have optional := sound.optional
  have small := sound.optional_small
  have directories := sound.directories
  refine Inside.bind (Inside.modify _) fun _ _ => ?_
  refine Inside.bind (Inside.returnIf _) fun _ _ => ?_
  refine Inside.bind (inside_u32In (by omega) (by omega)) fun importRva isRva => ?_
  refine Inside.bind (inside_u32In (by omega) (by omega)) fun importSize isSize => ?_
  refine Inside.bind (Inside.returnIf _) fun _ _ => ?_
  refine inside_needMapped sound fun here => ?_
  have near := sound.inside here.1
  refine Inside.bind (Inside.returnIf _) fun _ _ => ?_
  refine Inside.bind (Inside.modify _) fun _ _ => ?_
  refine Inside.bind (inside_checkDelay sound) fun _ delay => ?_
  refine Inside.bind (Inside.modify _) fun _ _ => ?_
  have nothing : Counted (slotAt image importRva)
      (fun p => Loads image v importRva p ∧ Reached 0 0 p) {} := by
    refine .none_ fun p met => ?_
    have := met.2
    unfold Reached at this
    omega
  refine Inside.bind (inside_scanImports sound importRva (importSize / 20) 0 {} (by omega) nofun
    nothing) fun r scanned => ?_
  obtain ⟨terminated, load⟩ := r
  refine Inside.bind (Inside.returnIf _) fun _ once => ?_
  refine Inside.bind (Inside.orReturn _) fun loadSlot held => ?_
  refine Inside.bind (inside_checkCode sound exeBase) fun _ _ => ?_
  refine Inside.bind (inside_callTo sound _ _ _) fun b calls => ?_
  refine Inside.bind (Inside.returnIf _) fun _ called => ?_
  refine Inside.bind (inside_bytes sound _ _) fun _ _ => ?_
  refine Inside.bind (Inside.returnIf _) fun _ _ => Inside.pure ⟨sound, ?_⟩
  simp only [not_or, not_not] at once
  obtain ⟨n, lt, ends, counted⟩ := scanned once.1
  have one := once.2
  rw [isSize] at lt
  rw [isRva] at ends counted
  dsimp only at counted held one
  cases counted with
  | none_ _ => cases held
  | one p met only at_ =>
    cases held
    exact ⟨⟨n, by simpa using lt, ends, p, met, only, at_⟩, delay, calls (not_not.mp called), rfl⟩
  | many two => omega

/-- The check of the executable is safe on every image, and what it accepts has the imports
and the call that it promises. -/
theorem validateMapped_exact (exeBase : Nat) (image : Bytes) :
    ∃ answer found, eliteOculusProfileValidateMapped exeBase image.length (viewOf image) =
        some (answer, found) ∧
      (answer = true → Sound image (headersOf image) ∧
        Qualified image (headersOf image) exeBase found) ∧
      (answer = false → found.loadLibrarySlot = none) := by
  have inside : Inside image (validateMapped exeBase image.length) _ := inside_validateMapped exeBase
  have ends := inside.ends .header
  unfold eliteOculusProfileValidateMapped
  generalize validateMapped exeBase image.length (viewOf image) .header = result at ends
  obtain ⟨(_ | _) | found, stage⟩ := result
  · exact ⟨false, _, rfl, nofun, fun _ => rfl⟩
  · exact ends.elim
  · exact ⟨true, found, rfl, fun _ => ends, nofun⟩

def sectionless : Bytes :=
  [0x4D, 0x5A] ++ List.replicate 58 0 ++ [64, 0, 0, 0, 0x50, 0x45, 0, 0] ++ List.replicate 20 0

theorem validateMapped_exact_sectionless : ∃ found,
    eliteOculusProfileValidateMapped kPreferredImageBase sectionless.length (viewOf sectionless) =
        some (false, found) ∧ found.loadLibrarySlot = none := by
  obtain ⟨answer, found, is, -, refused⟩ := validateMapped_exact kPreferredImageBase sectionless
  have header : eliteOculusProfileValidateMapped kPreferredImageBase sectionless.length
      (viewOf sectionless) = some (false, { failureStage := .header }) := by
    decide +kernel
  obtain ⟨rfl, -⟩ := Prod.mk.inj (Option.some.inj (is.symm.trans header))
  exact ⟨found, is, refused rfl⟩

end EdvrPatch.Oculus
