import EdvrPatch.Installer.ParsePe

/-! The walk over the export table stays inside the file. -/
namespace EdvrPatch.Installer.Pe

open Lib Lib.Guarded

variable {bytes : Bytes} {size : UInt32}

/-- The view is of the whole file, which the caller does not let grow over 64 MiB. -/
structure Whole (bytes : Bytes) (size : UInt32) : Prop where
  length : size.toNat = bytes.length
  small : bytes.length ≤ maxImageSize

theorem toNat_plus {a b : UInt64} (small : a.toNat + b.toNat < 2 ^ 64) : (a + b).toNat = a.toNat + b.toNat := by
  exact Nat.mod_eq_of_lt small

theorem toNat_scaled {k : UInt64} {n : Nat} (small : k.toNat * n < 2 ^ 64) (few : n < 2 ^ 64) :
    (k * .ofNat n).toNat = k.toNat * n := by
  rw [UInt64.toNat_mul, UInt64.toNat_ofNat', Nat.mod_eq_of_lt few]
  exact Nat.mod_eq_of_lt small

def Table (bytes : Bytes) (sections : UInt64) (indices : List Nat) : Prop :=
  ∀ i ∈ indices, sections.toNat + 40 * (i + 1) ≤ bytes.length

variable {sections : UInt64} {i : Nat}

theorem inside_sectionAt (small : bytes.length ≤ maxImageSize)
    (there : sections.toNat + 40 * (i + 1) ≤ bytes.length) :
    Inside bytes (sectionAt sections i) fun _ => True := by
  have limit : maxImageSize = 67108864 := rfl
  have scaled : ((40 : UInt64) * .ofNat i).toNat = 40 * i :=
    toNat_scaled (k := 40) (by change 40 * i < _; omega) (by omega)
  have entry : (sections + 40 * .ofNat i).toNat = sections.toNat + 40 * i := by
    rw [toNat_plus (by omega), scaled]
  have field : ∀ d : UInt64, d.toNat + 4 ≤ 40 →
      Inside bytes (wordAt (sections + 40 * .ofNat i + d).toNat : PeReader UInt32) fun _ => True := by
    intro d inside
    refine Inside.wordAt ?_
    rw [toNat_plus (by omega), entry]
    omega
  exact Inside.bind (field 8 (by decide)) fun _ _ => Inside.bind (field 12 (by decide)) fun _ _ =>
    Inside.bind (field 16 (by decide)) fun _ _ => Inside.bind (field 20 (by decide)) fun _ _ =>
      Inside.bind (field 36 (by decide)) fun _ _ => Inside.pure trivial

theorem offsetOf_lt {s : SectionHeader} {rva off : UInt32} (found : s.offsetOf rva size = some off) :
    off < size := by
  unfold SectionHeader.offsetOf at found
  dsimp only at found
  split at found
  · cases found
  split at found
  · cases found
  split at found
  · cases found
  · rename_i below
    cases found
    exact UInt32.not_le.mp below

theorem inside_rvaToOffset (small : bytes.length ≤ maxImageSize) (rva : UInt32)
    {indices : List Nat} (table : Table bytes sections indices) :
    Inside bytes (rvaToOffset sections rva size indices) fun place => ∀ off ∈ place, off < size := by
  induction indices with
  | nil => exact Inside.pure nofun
  | cons i is ih =>
    obtain ⟨here, rest⟩ := List.forall_mem_cons.mp table
    refine Inside.bind (inside_sectionAt small here) fun s _ => ?_
    split
    · exact Inside.pure fun off found => offsetOf_lt found
    · exact ih rest

theorem inside_sectionOf (small : bytes.length ≤ maxImageSize) (rva : UInt32) {indices : List Nat}
    (table : Table bytes sections indices) :
    Inside bytes (sectionOf sections rva indices) fun _ => True := by
  induction indices with
  | nil => exact Inside.pure trivial
  | cons i is ih =>
    obtain ⟨here, rest⟩ := List.forall_mem_cons.mp table
    refine Inside.bind (inside_sectionAt small here) fun s _ => ?_
    split
    · exact Inside.pure trivial
    · exact ih rest

/-! ### Names -/

def Terminated (bytes : Bytes) (i : Nat) : Prop :=
  ∃ z, i ≤ z ∧ bytes[z]? = some 0

theorem inside_memchr {n : Nat} (there : i + n ≤ bytes.length) :
    Inside bytes (memchr i n) fun found => found = true → Terminated bytes i := by
  induction n generalizing i with
  | zero => exact Inside.pure nofun
  | succ n ih =>
    refine Inside.bind (Inside.byteAt (by omega)) fun b is => ?_
    split
    · rename_i zero
      exact Inside.pure fun _ => ⟨i, Nat.le_refl i, by rw [is, zero]⟩
    · refine (ih (by omega)).imp fun found ends => ?_
      intro isFound
      obtain ⟨z, later, zero⟩ := ends isFound
      exact ⟨z, by omega, zero⟩

theorem Terminated.lt (ends : Terminated bytes i) : i < bytes.length := by
  obtain ⟨z, later, zero⟩ := ends
  obtain ⟨inside, -⟩ := List.getElem?_eq_some_iff.mp zero
  omega

theorem Terminated.next {b : UInt8} (ends : Terminated bytes i) (is : bytes[i]? = some b)
    (notEnd : b ≠ 0) : Terminated bytes (i + 1) := by
  obtain ⟨z, later, zero⟩ := ends
  refine ⟨z, Nat.lt_of_le_of_ne later ?_, zero⟩
  rintro rfl
  cases is.symm.trans zero
  exact notEnd rfl

theorem inside_strcmp {cs : Bytes} (solid : ∀ c ∈ cs, c ≠ 0) (ends : Terminated bytes i) :
    Inside bytes (strcmp i cs) fun _ => True := by
  induction cs generalizing i with
  | nil => exact Inside.bind (Inside.byteAt ends.lt) fun _ _ => Inside.pure trivial
  | cons c cs ih =>
    obtain ⟨here, rest⟩ := List.forall_mem_cons.mp solid
    refine Inside.bind (Inside.byteAt ends.lt) fun b is => ?_
    split
    · rename_i same
      exact ih rest (ends.next is (by rw [same]; exact here))
    · exact Inside.pure trivial

theorem inside_strncmp {cs : Bytes} (solid : ∀ c ∈ cs, c ≠ 0) (ends : Terminated bytes i) :
    Inside bytes (strncmp i cs) fun _ => True := by
  induction cs generalizing i with
  | nil => exact Inside.pure trivial
  | cons c cs ih =>
    obtain ⟨here, rest⟩ := List.forall_mem_cons.mp solid
    refine Inside.bind (Inside.byteAt ends.lt) fun b is => ?_
    split
    · rename_i same
      exact ih rest (ends.next is (by rw [same]; exact here))
    · exact Inside.pure trivial

theorem inside_isOneOf {names : List Bytes} (solid : ∀ n ∈ names, ∀ c ∈ n, c ≠ 0)
    (ends : Terminated bytes i) : Inside bytes (isOneOf i names) fun _ => True := by
  induction names with
  | nil => exact Inside.pure trivial
  | cons n names ih =>
    obtain ⟨here, rest⟩ := List.forall_mem_cons.mp solid
    refine Inside.bind (inside_strcmp here ends) fun equal _ => ?_
    split
    · exact Inside.pure trivial
    · exact ih rest

theorem inside_markFound {j : Nat} {counts : Nat → Bool} {names : List Bytes} {found : List Bool}
    (solid : ∀ n ∈ names, ∀ c ∈ n, c ≠ 0) (ends : Terminated bytes i) :
    Inside bytes (markFound i counts names j found) fun _ => True := by
  induction names generalizing j found with
  | nil => exact Inside.pure trivial
  | cons n names ih =>
    obtain ⟨here, rest⟩ := List.forall_mem_cons.mp solid
    cases found with
    | nil => exact Inside.pure trivial
    | cons f found =>
      exact Inside.bind (inside_strcmp here ends) fun _ _ => Inside.bind (ih rest) fun _ _ =>
        Inside.pure trivial

/-! ### The headers -/

namespace Whole

variable (whole : Whole bytes size)
include whole

theorem toNat_size : size.toUInt64.toNat = bytes.length := by
  rw [UInt32.toNat_toUInt64, whole.length]

theorem le_of_not_lt {a : UInt64} (fits : ¬size.toUInt64 < a) : a.toNat ≤ bytes.length := by
  rw [← whole.toNat_size]
  exact UInt64.le_iff_toNat_le.mp (UInt64.not_lt.mp fits)

theorem lt_of_lt {off : UInt32} (inside : off < size) : off.toUInt64.toNat < bytes.length := by
  rw [UInt32.toNat_toUInt64, ← whole.length]
  exact UInt32.lt_iff_toNat_lt.mp inside

end Whole

theorem inside_readHeaders (whole : Whole bytes size) :
    Inside bytes (readHeaders size) fun h => Table bytes h.sections h.indices := by
  have limit : maxImageSize = 67108864 := rfl
  have small := whole.small
  refine Inside.bind (Inside.returnIf _) fun _ dosFits => ?_
  have dosThere : 64 ≤ bytes.length := by
    rw [← whole.length]
    exact UInt32.le_iff_toNat_le.mp (UInt32.not_lt.mp dosFits)
  refine Inside.bind (Inside.halfAt (by omega)) fun dos _ => ?_
  refine Inside.bind (Inside.returnIf _) fun _ _ => ?_
  refine Inside.bind (Inside.wordAt (by omega)) fun lfanew _ => ?_
  refine Inside.bind (Inside.returnIf _) fun _ headersFit => ?_
  have ntThere : lfanew.toUInt64.toNat + 264 ≤ bytes.length := by
    have fits := whole.le_of_not_lt (not_or.mp headersFit).2
    have below := lfanew.toNat_lt
    rw [toNat_plus] at fits
    · exact fits
    · rw [UInt32.toNat_toUInt64]
      change lfanew.toNat + 264 < 2 ^ 64
      omega
  generalize lfanew.toUInt64 = nt at ntThere ⊢
  have place : ∀ d : UInt64, d.toNat + 4 ≤ 264 → (nt + d).toNat = nt.toNat + d.toNat :=
    fun d inside => toNat_plus (by omega)
  have word : ∀ d : UInt64, d.toNat + 4 ≤ 264 →
      Inside bytes (wordAt (nt + d).toNat : PeReader UInt32) fun _ => True :=
    fun d inside => Inside.wordAt (by rw [place d inside]; omega)
  have half : ∀ d : UInt64, d.toNat + 4 ≤ 264 →
      Inside bytes (halfAt (nt + d).toNat : PeReader UInt16) fun _ => True :=
    fun d inside => Inside.halfAt (by rw [place d inside]; omega)
  have either : ∀ (c : Bool) (a b : UInt64), a.toNat + 4 ≤ 264 → b.toNat + 4 ≤ 264 →
      (if c then a else b).toNat + 4 ≤ 264 := by
    intro c a b first second
    split
    · exact first
    · exact second
  refine Inside.bind (Inside.wordAt (by omega)) fun signature _ => ?_
  refine Inside.bind (Inside.returnIf _) fun _ _ => ?_
  refine Inside.bind (half 24 (by decide)) fun magic _ => ?_
  refine Inside.bind (half 4 (by decide)) fun machine _ => ?_
  generalize (magic == 0x20B && machine == 0x8664) = is64
  refine Inside.bind (Inside.returnIf _) fun _ _ => ?_
  refine Inside.bind (word _ (either is64 132 116 (by decide) (by decide))) fun directories _ => ?_
  refine Inside.bind (Inside.returnIf _) fun _ _ => ?_
  refine Inside.bind (word _ (either is64 136 120 (by decide) (by decide))) fun exportAddress _ => ?_
  refine Inside.bind (word _ (either is64 140 124 (by decide) (by decide))) fun exportSize _ => ?_
  refine Inside.bind (Inside.modify _) fun _ _ => ?_
  refine Inside.bind (Inside.returnIf _) fun _ _ => ?_
  refine Inside.bind (half 20 (by decide)) fun optionalSize _ => ?_
  refine Inside.bind (half 6 (by decide)) fun sectionCount _ => ?_
  refine Inside.bind (Inside.returnIf _) fun _ counted => ?_
  refine Inside.bind (Inside.returnIf _) fun _ tableFits => Inside.pure ?_
  -- the table, with at most 96 entries, ends in the file
  have count : sectionCount.toNat ≤ 96 := UInt16.le_iff_toNat_le.mp (UInt16.not_lt.mp (not_or.mp counted).2)
  have table := whole.le_of_not_lt tableFits
  have entries : ((40 : UInt64) * sectionCount.toUInt64).toNat = 40 * sectionCount.toNat := by
    change 40 * sectionCount.toNat % 2 ^ 64 = _
    omega
  have optional := optionalSize.toNat_lt
  have sectionsAt : (nt + 24 + optionalSize.toUInt64).toNat = nt.toNat + 24 + optionalSize.toNat := by
    rw [toNat_plus, place 24 (by decide), UInt16.toNat_toUInt64]
    · rfl
    · rw [place 24 (by decide), UInt16.toNat_toUInt64]
      change nt.toNat + 24 + optionalSize.toNat < _
      omega
  rw [toNat_plus (by omega), entries] at table
  intro i among
  have below : i < sectionCount.toNat := List.mem_range.mp among
  change (nt + 24 + optionalSize.toUInt64).toNat + 40 * (i + 1) ≤ bytes.length
  omega

/-! ### The exports -/

structure ExportsIn (bytes : Bytes) (e : Exports) : Prop where
  directory : e.directory.toNat + 40 ≤ bytes.length
  names : e.names.toNat + 4 * e.nameCount.toNat ≤ bytes.length
  functions : e.functions.toNat + 4 * e.functionCount.toNat ≤ bytes.length
  ordinals : e.ordinals.toNat + 2 * e.nameCount.toNat ≤ bytes.length

theorem Whole.table_fits (whole : Whole bytes size) {off count : UInt32} {k : UInt64} (inside : off < size)
    (fits : ¬(size - off).toUInt64 / k < count.toUInt64) (positive : 0 < k.toNat) :
    off.toUInt64.toNat + k.toNat * count.toNat ≤ bytes.length := by
  have below := UInt32.lt_iff_toNat_lt.mp inside
  have fits := UInt64.le_iff_toNat_le.mp (UInt64.not_lt.mp fits)
  rw [UInt64.toNat_div, UInt32.toNat_toUInt64, UInt32.toNat_toUInt64,
    UInt32.toNat_sub_of_le _ _ (UInt32.le_iff_toNat_le.mpr below.le), whole.length,
    Nat.le_div_iff_mul_le positive, Nat.mul_comm] at fits
  rw [UInt32.toNat_toUInt64]
  rw [whole.length] at below
  omega

theorem inside_readExports (whole : Whole bytes size) {h : Headers}
    (table : Table bytes h.sections h.indices) :
    Inside bytes (readExports size h) fun e => ExportsIn bytes e := by
  have limit : maxImageSize = 67108864 := rfl
  have small := whole.small
  have offset : ∀ rva, Inside bytes (rvaToOffset h.sections rva size h.indices) fun place =>
      ∀ off ∈ place, off < size := fun rva => inside_rvaToOffset small rva table
  refine Inside.bind (offset _) fun place known => ?_
  refine Inside.bind (Inside.orReturn place) fun expOff found => ?_
  have expInside := whole.lt_of_lt (known expOff found)
  refine Inside.bind (Inside.returnIf _) fun _ directoryFits => ?_
  have directory : expOff.toUInt64.toNat + 40 ≤ bytes.length := by
    have fits := whole.le_of_not_lt directoryFits
    rw [toNat_plus] at fits
    · exact fits
    · change expOff.toUInt64.toNat + 40 < _
      omega
  have field : ∀ d : UInt64, d.toNat + 4 ≤ 40 →
      Inside bytes (wordAt (expOff.toUInt64 + d).toNat : PeReader UInt32) fun _ => True := by
    intro d inside
    exact Inside.wordAt (by rw [toNat_plus (by omega)]; omega)
  refine Inside.bind (field 24 (by decide)) fun nameCount _ => ?_
  refine Inside.bind (Inside.returnIf _) fun _ counted => ?_
  refine Inside.bind (field 32 (by decide)) fun addressOfNames _ => ?_
  refine Inside.bind (offset _) fun place known => ?_
  refine Inside.bind (Inside.orReturn place) fun namesOff found => ?_
  have namesInside := whole.lt_of_lt (known namesOff found)
  refine Inside.bind (Inside.returnIf _) fun _ namesFit => ?_
  refine Inside.bind (field 20 (by decide)) fun functionCount _ => ?_
  refine Inside.bind (Inside.returnIf _) fun _ _ => ?_
  refine Inside.bind (field 28 (by decide)) fun addressOfFunctions _ => ?_
  refine Inside.bind (offset _) fun place known => ?_
  refine Inside.bind (Inside.orReturn place) fun functionsOff found => ?_
  have functionsInside := known functionsOff found
  refine Inside.bind (field 36 (by decide)) fun addressOfOrdinals _ => ?_
  refine Inside.bind (offset _) fun place known => ?_
  refine Inside.bind (Inside.orReturn place) fun ordinalsOff found => ?_
  have ordinalsInside := known ordinalsOff found
  refine Inside.bind (Inside.returnIf _) fun _ functionsFit => ?_
  refine Inside.bind (Inside.returnIf _) fun _ ordinalsFit => Inside.pure ?_
  have names : namesOff.toUInt64.toNat + 4 * nameCount.toNat ≤ bytes.length := by
    have few : nameCount.toNat ≤ 65535 := UInt32.le_iff_toNat_le.mp (UInt32.not_lt.mp (not_or.mp counted).2)
    have entries : (nameCount.toUInt64 * 4).toNat = 4 * nameCount.toNat := by
      change nameCount.toNat * 4 % 2 ^ 64 = _
      omega
    have fits := whole.le_of_not_lt namesFit
    rwa [toNat_plus (by omega), entries] at fits
  exact ⟨directory, names, whole.table_fits functionsInside functionsFit (by decide),
    whole.table_fits ordinalsInside ordinalsFit (by decide)⟩

/-! ### The names -/

/-- No character of the text becomes a zero byte. -/
theorem solid_ascii {cs : List Char} (solid : cs.all fun c => c.toNat % 256 != 0) :
    ∀ b ∈ ascii (String.ofList cs), b ≠ 0 := by
  unfold ascii
  rw [String.toList_ofList, List.forall_mem_map]
  intro c among zero
  have byte := congrArg UInt8.toNat zero
  rw [UInt8.toNat_ofNat', UInt8.toNat_zero] at byte
  exact absurd byte (bne_iff_ne.mp (List.all_eq_true.mp solid c among))

theorem solid_providers : ∀ n ∈ providers, ∀ c ∈ n, c ≠ 0 := by
  simp only [providers, List.forall_mem_map, List.forall_mem_cons]
  and_intros
  all_goals first
    | exact solid_ascii (by decide)
    | exact List.forall_mem_nil _

theorem solid_runtimeNames : ∀ n ∈ runtimeNames, ∀ c ∈ n, c ≠ 0 := by
  simp only [runtimeNames, List.forall_mem_map, List.forall_mem_cons]
  and_intros
  all_goals first
    | exact solid_ascii (by decide)
    | exact List.forall_mem_nil _

theorem solid_known : ∀ n ∈ [ascii "edvr", ascii "VR_InitInternal", ascii "VR_GetGenericInterface",
    ascii "D3D11CreateDevice", ascii "xrGetInstanceProcAddr", ascii "edvrConfigureNativeRuntime",
    ascii "edvrNativeStartupRouting"], ∀ c ∈ n, c ≠ 0 := by
  simp only [List.forall_mem_cons]
  and_intros
  all_goals first
    | exact solid_ascii (by decide)
    | exact List.forall_mem_nil _

theorem inside_readMarker (whole : Whole bytes size) {rva functionOff : UInt32} {s : SectionHeader}
    (inside : functionOff < size) :
    Inside bytes (readMarker size rva functionOff s) fun _ => True := by
  unfold readMarker
  dsimp only
  split
  · rename_i fits
    have room := UInt32.le_iff_toNat_le.mp fits.1
    have below := UInt32.lt_iff_toNat_lt.mp inside
    rw [UInt32.toNat_sub_of_le _ _ (UInt32.le_iff_toNat_le.mpr below.le), whole.length] at room
    change 16 ≤ _ at room
    exact Inside.bind (Inside.wordAt (by omega)) fun _ _ => Inside.bind (Inside.wordAt (by omega)) fun _ _ =>
      Inside.bind (Inside.wordAt (by omega)) fun _ _ => Inside.bind (Inside.wordAt (by omega)) fun _ _ =>
        Inside.modify _
  · exact Inside.pure trivial

theorem inside_readName (whole : Whole bytes size) {h : Headers} {e : Exports}
    (table : Table bytes h.sections h.indices) (exports : ExportsIn bytes e) (found : Found)
    (turn : i < e.nameCount.toNat) : Inside bytes (readName size h e found i) fun _ => True := by
  have limit : maxImageSize = 67108864 := rfl
  have small := whole.small
  have names := exports.names
  have ordinals := exports.ordinals
  have functions := exports.functions
  have offset : ∀ rva, Inside bytes (rvaToOffset h.sections rva size h.indices) fun place =>
      ∀ off ∈ place, off < size := fun rva => inside_rvaToOffset small rva table
  have solid := solid_known
  simp only [List.forall_mem_cons] at solid
  obtain ⟨edvr, vrInit, generic, create, loader, configure, marker, -⟩ := solid
  have scaled : ∀ k : UInt64, k.toNat ≤ 4 → (k * .ofNat i).toNat = k.toNat * i := by
    intro k four
    have below : k.toNat * i ≤ 4 * i := Nat.mul_le_mul_right i four
    exact toNat_scaled (by omega) (by omega)
  have nameAt := scaled 4 (by decide)
  change ((4 : UInt64) * .ofNat i).toNat = 4 * i at nameAt
  refine Inside.bind (Inside.wordAt ?_) fun nameRva _ => ?_
  · rw [toNat_plus (by omega), nameAt]
    omega
  refine Inside.bind (offset _) fun place known => ?_
  refine Inside.bind (Inside.orReturn place) fun off isName => ?_
  have nameInside := UInt32.lt_iff_toNat_lt.mp (known off isName)
  refine Inside.bind (inside_memchr ?_) fun terminated ends => ?_
  · rw [UInt32.toNat_sub_of_le _ _ (UInt32.le_iff_toNat_le.mpr nameInside.le), whole.length]
    rw [whole.length] at nameInside
    omega
  refine Inside.bind (Inside.returnIf _) fun _ isTerminated => ?_
  have ends := ends (by simpa using isTerminated)
  have ordinalAt := scaled 2 (by decide)
  change ((2 : UInt64) * .ofNat i).toNat = 2 * i at ordinalAt
  refine Inside.bind (Inside.halfAt ?_) fun ordinal _ => ?_
  · rw [toNat_plus (by omega), ordinalAt]
    omega
  refine Inside.bind (Inside.returnIf _) fun _ known => ?_
  have ordinalBelow := UInt32.lt_iff_toNat_lt.mp (UInt32.not_le.mp known)
  rw [UInt16.toNat_toUInt32] at ordinalBelow
  have functionAt : ((4 : UInt64) * ordinal.toUInt64).toNat = 4 * ordinal.toNat := by
    change 4 * ordinal.toNat % 2 ^ 64 = _
    omega
  refine Inside.bind (Inside.wordAt ?_) fun rva _ => ?_
  · rw [toNat_plus (by omega), functionAt]
    omega
  refine Inside.bind (offset _) fun place known => ?_
  refine Inside.bind (Inside.orReturn place) fun functionOff isFunction => ?_
  have functionInside := known functionOff isFunction
  refine Inside.bind (Inside.returnIf _) fun _ _ => ?_
  refine Inside.bind (inside_sectionOf small rva table) fun place _ => ?_
  refine Inside.bind (Inside.orReturn place) fun s _ => ?_
  refine Inside.bind (inside_strncmp edvr ends) fun _ _ => ?_
  refine Inside.bind (Inside.modify _) fun _ _ => ?_
  refine Inside.bind (inside_isOneOf ?_ ends) fun _ _ => ?_
  · simp only [List.forall_mem_cons]
    exact ⟨vrInit, generic, nofun⟩
  refine Inside.bind (Inside.modify _) fun _ _ => ?_
  refine Inside.bind (inside_strcmp create ends) fun _ _ => ?_
  refine Inside.bind (Inside.modify _) fun _ _ => ?_
  refine Inside.bind (inside_strcmp loader ends) fun _ _ => ?_
  refine Inside.bind (Inside.modify _) fun _ _ => ?_
  refine Inside.bind (inside_strcmp configure ends) fun _ _ => ?_
  refine Inside.bind (Inside.modify _) fun _ _ => ?_
  refine Inside.bind (inside_markFound solid_providers ends) fun _ _ => ?_
  refine Inside.bind (inside_markFound solid_runtimeNames ends) fun _ _ => ?_
  refine Inside.bind (inside_strcmp marker ends) fun isMarker _ => ?_
  split
  · exact Inside.bind (inside_readMarker whole functionInside) fun _ _ => Inside.pure trivial
  · exact Inside.pure trivial

theorem inside_parsePeBody (whole : Whole bytes size) :
    Inside bytes (parsePeBody size) fun _ => True := by
  refine Inside.bind (inside_readHeaders whole) fun h table => ?_
  refine Inside.bind (inside_readExports whole table) fun e exports => ?_
  refine Inside.bind (Inside.foldlM (fun found i among => ?_) _) fun found _ => ?_
  · exact inside_readName whole table exports found (List.mem_range.mp among)
  refine Inside.bind (Inside.modify _) fun _ _ => ?_
  refine Inside.bind (Inside.wordAt ?_) fun base _ => Inside.modify _
  have limit : maxImageSize = 67108864 := rfl
  have small := whole.small
  have directory := exports.directory
  rw [toNat_plus (by change e.directory.toNat + 16 < _; omega)]
  change e.directory.toNat + 16 + 4 ≤ _
  omega

/-- Whatever stands around the file in memory, the walk makes no read outside of it, and its
answer is that of the bytes alone; the guard changes nothing. -/
theorem parsePe_inside {v : View} (small : bytes.length ≤ maxImageSize) (shows : Shows bytes v) :
    (parsePeBody (.ofNat bytes.length) (viewOf bytes) {}).1 ≠ .error .fault ∧
      parsePe v (.ofNat bytes.length) = parsePe (viewOf bytes) (.ofNat bytes.length) ∧
      parsePe v (.ofNat bytes.length) = (parsePeBody (.ofNat bytes.length) v {}).2 := by
  have limit : maxImageSize = 67108864 := rfl
  have whole : Whole bytes (.ofNat bytes.length) := by
    refine ⟨?_, small⟩
    rw [UInt32.toNat_ofNat']
    omega
  have inside := inside_parsePeBody whole
  have same := inside.same v shows {}
  have ends := inside.ends {}
  have safe : (parsePeBody (.ofNat bytes.length) (viewOf bytes) {}).1 ≠ .error .fault := by
    intro fault
    generalize parsePeBody (.ofNat bytes.length) (viewOf bytes) {} = result at ends fault
    obtain ⟨_, s⟩ := result
    cases fault
    exact ends
  refine ⟨safe, ?_, ?_⟩
  · unfold parsePe
    rw [same]
  · unfold parsePe
    rw [same]
    generalize parsePeBody (.ofNat bytes.length) (viewOf bytes) {} = result at safe
    obtain ⟨e | _, s⟩ := result
    · cases e with
      | returned => rfl
      | fault => exact absurd rfl safe
    · rfl

section Sample

/-- An image with one section, whose export table names one function. -/
def sampleImage : Bytes :=
  [0x4D, 0x5A] ++ List.replicate 58 0 ++ wordBytes 64 ++ wordBytes 0x4550 ++ [0x64, 0x86, 1, 0] ++
    List.replicate 12 0 ++ [0xF0, 0, 0, 0] ++ [0x0B, 0x02] ++ List.replicate 106 0 ++
    bytesOf [16, 0x1000, 0x4C] ++ List.replicate 120 0 ++
    -- the section's header, and its data at 368
    List.replicate 8 0 ++ bytesOf [0x50, 0x1000, 0x50, 368, 0, 0, 0, 0x60000020] ++
    bytesOf [0, 0, 0, 0, 1, 1, 1, 0x1028, 0x102C, 0x1030] ++
    bytesOf [0x104C, 0x1034, 0] ++ ascii "xrGetInstanceProcAddr" ++ [0, 0, 0, 0xC3, 0, 0, 0]

def sampleView : View := viewOf (sampleImage ++ [0xFF, 0xFF, 0xFF, 0xFF])

theorem parsePe_inside_sample :
    (parsePeBody (.ofNat sampleImage.length) (viewOf sampleImage) {}).1 ≠ .error .fault ∧
      parsePe sampleView (.ofNat sampleImage.length) =
        parsePe (viewOf sampleImage) (.ofNat sampleImage.length) ∧
      parsePe sampleView (.ofNat sampleImage.length) =
        (parsePeBody (.ofNat sampleImage.length) sampleView {}).2 :=
  parsePe_inside (by decide +kernel) fun _ inside => List.getElem?_append_left inside

example : (parsePe sampleView (.ofNat sampleImage.length)).hasXrGetInstanceProcAddr = true := by
  decide +kernel

end Sample

end EdvrPatch.Installer.Pe
