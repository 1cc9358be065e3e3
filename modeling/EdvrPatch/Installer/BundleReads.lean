import EdvrPatch.Installer.LogBundle

/-! Reading the log bundle back gives the files that were packed. -/
namespace EdvrPatch.Installer.LogBundle

open Lib Lib.Zip

/-! ### The checksum -/

theorem crcTableEntry_eq (k : Nat) (c : UInt32) : crcTableEntry k c = crcBits k c := by
  induction k generalizing c with
  | zero => rfl
  | succ k ih =>
    have low : c &&& 1 ≠ 0 ↔ c.toNat % 2 = 1 := by
      have bit : (c &&& 1).toNat = c.toNat % 2 := by
        exact Nat.and_one_is_mod _
      rw [ne_eq, ← UInt32.toNat_inj, bit, UInt32.toNat_zero]
      omega
    unfold crcTableEntry crcBits crcBit crcPolynomial
    simp only [low, ih]

theorem crcStep_eq (c : UInt32) (b : UInt8) : crcStep c b = crcByte c b := by
  have index : ((c ^^^ b.toUInt32) &&& 0xFF).toNat = (c ^^^ b.toUInt32).toNat % 256 := by
    exact Nat.and_two_pow_sub_one_eq_mod _ 8
  have inside : (c ^^^ b.toUInt32).toNat % 256 < 256 := Nat.mod_lt _ (by decide)
  unfold crcStep crcTable
  rw [crcByte_eq, index, List.getElem?_map, List.getElem?_range inside, Option.map_some,
    Option.getD_some, crcTableEntry_eq]

theorem crc32Of_eq (data : Bytes) : crc32Of data 0 = crc32 data := by
  have steps : crcStep = crcByte := funext fun c => funext fun b => crcStep_eq c b
  unfold crc32Of crc32
  rw [steps]
  rfl

/-! ### The records -/

theorem putLocal_append (zip : Bytes) (e : Entry) (data : Bytes) :
    putLocal zip e data = zip ++ putLocal [] e data := by
  simp only [putLocal, putHeader, put16, put32, List.append_assoc, List.nil_append]

theorem putCentral_append (zip : Bytes) (e : Entry) : putCentral zip e = zip ++ putCentral [] e := by
  simp only [putCentral, putHeader, put16, put32, List.append_assoc, List.nil_append]

theorem putEnd_append (zip : Bytes) (count : Nat) (size offset : UInt32) :
    putEnd zip count size offset = zip ++ putEnd [] count size offset := by
  simp only [putEnd, put16, put32, List.append_assoc, List.nil_append]

def headerOf (e : Entry) : Header where
  flags := e.flags % 2 ^ 16
  method := 0
  time := e.dosTime % 2 ^ 16
  date := e.dosDate % 2 ^ 16
  crc := e.crc
  compressed := e.size
  size := e.size

def Short (e : Entry) : Prop :=
  e.name.length < 2 ^ 16

variable {data : Bytes}

theorem readLocal_putLocal {e : Entry} (short : Short e) (size : e.size.toNat = data.length)
    (rest : Bytes) :
    readLocal (putLocal [] e data ++ rest) = some { header := headerOf e, name := e.name, content := data } := by
  have length : e.name.length % 2 ^ 16 = e.name.length := Nat.mod_eq_of_lt short
  simp only [readLocal, readHeader, putLocal, putHeader, put16, put32, List.nil_append,
    List.append_assoc, takeHalf_halfBytes, takeWord_wordBytes, Option.bind_eq_bind, Option.bind_some,
    length, Nat.zero_mod, takeBytes_zero, takeBytes_append _ rfl, takeBytes_append _ size.symm, guard,
    if_true, Option.pure_def]
  rfl

theorem readCentral_putCentral {e : Entry} (short : Short e) (rest : Bytes) :
    readCentral (putCentral [] e ++ rest) =
      some ({ header := headerOf e, name := e.name, offset := e.offset }, rest) := by
  have length : e.name.length % 2 ^ 16 = e.name.length := Nat.mod_eq_of_lt short
  simp only [readCentral, readHeader, putCentral, putHeader, put16, put32, List.nil_append,
    List.append_assoc, takeHalf_halfBytes, takeWord_wordBytes, Option.bind_eq_bind, Option.bind_some,
    length, Nat.zero_mod, takeBytes_zero, takeBytes_append _ rfl, guard, if_true, Option.pure_def]
  rfl

theorem readEnd_putEnd {count : Nat} (few : count < 2 ^ 16) (size offset : UInt32) :
    readEnd (putEnd [] count size offset) = some { count, size, offset } := by
  have same : count % 2 ^ 16 = count := Nat.mod_eq_of_lt few
  have last := takeHalf_halfBytes 0 []
  rw [List.append_nil] at last
  simp only [readEnd, putEnd, put16, put32, List.nil_append, List.append_assoc, takeHalf_halfBytes,
    takeWord_wordBytes, Option.bind_eq_bind, Option.bind_some, same, last, guard, List.length_nil,
    Nat.zero_mod, if_true, Option.pure_def]

/-! ### The directory -/

def storedOf (packed : Entry × Bytes) : StoredFile where
  name := packed.1.name
  content := packed.2
  crc := packed.1.crc

def StandsIn (archive : Bytes) (packed : Entry × Bytes) : Prop :=
  ∃ rest, archive.drop packed.1.offset.toNat = putLocal [] packed.1 packed.2 ++ rest

/-- The sizes in an entry are those of its name and its content. -/
structure Fits (packed : Entry × Bytes) : Prop where
  short : Short packed.1
  size : packed.1.size.toNat = packed.2.length

theorem readEntry_of_stands {archive : Bytes} {packed : Entry × Bytes} (stands : StandsIn archive packed)
    (fits : Fits packed) :
    readEntry archive { header := headerOf packed.1, name := packed.1.name, offset := packed.1.offset } =
      some (storedOf packed) := by
  obtain ⟨rest, place⟩ := stands
  unfold readEntry
  dsimp only
  rw [place, readLocal_putLocal fits.short fits.size]
  simp [headerOf, guard, storedOf]

def directoryOf (stored : List (Entry × Bytes)) : Bytes :=
  stored.flatMap fun packed => putCentral [] packed.1

variable {stored : List (Entry × Bytes)}

theorem readDirectory_directoryOf {archive : Bytes}
    (all : ∀ packed ∈ stored, StandsIn archive packed ∧ Fits packed) :
    readDirectory archive stored.length (directoryOf stored) = some (stored.map storedOf) := by
  induction stored with
  | nil => rfl
  | cons packed stored ih =>
    obtain ⟨⟨stands, fits⟩, all⟩ := List.forall_mem_cons.mp all
    have next := readCentral_putCentral fits.short (directoryOf stored)
    have entry := readEntry_of_stands stands fits
    change readDirectory archive (stored.length + 1) (putCentral [] packed.1 ++ directoryOf stored) = _
    simp only [readDirectory, next, entry, ih all, Option.bind_eq_bind, Option.bind_some, Option.pure_def,
      List.map_cons]

/-! ### The loop over the files -/

theorem length_putLocal (e : Entry) (data : Bytes) :
    (putLocal [] e data).length = 30 + e.name.length + data.length := by
  simp only [putLocal, putHeader, put16, put32, List.length_append, List.length_nil, length_wordBytes,
    length_halfBytes]

theorem length_putCentral (e : Entry) : (putCentral [] e).length = 46 + e.name.length := by
  simp only [putCentral, putHeader, put16, put32, List.length_append, List.length_nil, length_wordBytes,
    length_halfBytes]

/-- The state of the loop, with the files that are in the archive so far. -/
structure Packed (st : ZipState) (stored : List (Entry × Bytes)) : Prop where
  entries : st.entries = stored.map Prod.fst
  stands : ∀ packed ∈ stored, StandsIn st.zip packed ∧ Fits packed
  size : st.zip.length = (stored.map fun packed => 30 + packed.1.name.length + packed.2.length).sum
  limit : st.zip.length ≤ sizeLimit + 30 + 65535

variable {zip : Bytes}

theorem StandsIn.append {packed : Entry × Bytes} (stands : StandsIn zip packed) (more : Bytes) :
    StandsIn (zip ++ more) packed := by
  obtain ⟨rest, place⟩ := stands
  refine ⟨rest ++ more, ?_⟩
  have inside : packed.1.offset.toNat ≤ zip.length := by
    have length := congrArg List.length place
    rw [List.length_drop, List.length_append, length_putLocal] at length
    omega
  rw [List.drop_append_of_le_length inside, place, List.append_assoc]

def bundled (toUtf8 : Text → Bytes) (item : LogFile × Text) : Option StoredFile :=
  (readWhole item.1).map fun data => { name := toUtf8 item.2, content := data, crc := crc32 data }

variable {toUtf8 : Text → Bytes} {st : ZipState}

theorem addFile_packed {st' : ZipState} {item : LogFile × Text} (packed : Packed st stored)
    (short : (toUtf8 item.2).length < 2 ^ 16) (added : addFile toUtf8 st item.1 item.2 = .ok st') :
    ∃ new, Packed st' (stored ++ new) ∧ (bundled toUtf8 item).toList = new.map storedOf := by
  have top : sizeLimit = 4026531840 := rfl
  unfold addFile at added
  unfold bundled
  cases whole : readWhole item.1 with
  | none =>
    rw [whole] at added
    cases added
    refine ⟨[], ?_, rfl⟩
    rw [List.append_nil]
    exact ⟨packed.entries, packed.stands, packed.size, packed.limit⟩
  | some data =>
    rw [whole] at added
    dsimp only at added
    split at added
    · cases added
    · rename_i room
      cases added
      have offset : (entryOf st.zip (toUtf8 item.2) data item.1.written).offset.toNat = st.zip.length := by
        change (UInt32.ofNat st.zip.length).toNat = _
        rw [UInt32.toNat_ofNat']
        omega
      have size : (entryOf st.zip (toUtf8 item.2) data item.1.written).size.toNat = data.length := by
        change (UInt32.ofNat data.length).toNat = _
        rw [UInt32.toNat_ofNat']
        omega
      have name : (entryOf st.zip (toUtf8 item.2) data item.1.written).name = toUtf8 item.2 := rfl
      have crc : (entryOf st.zip (toUtf8 item.2) data item.1.written).crc = crc32 data := crc32Of_eq data
      generalize entryOf st.zip (toUtf8 item.2) data item.1.written = e at offset size name crc ⊢
      have longer : (putLocal st.zip e data).length = st.zip.length + (30 + e.name.length + data.length) := by
        rw [putLocal_append, List.length_append, length_putLocal]
      refine ⟨[(e, data)], ⟨?_, ?_, ?_, ?_⟩, ?_⟩
      · change st.entries ++ [e] = _
        rw [packed.entries, List.map_append]
        rfl
      · change ∀ other ∈ stored ++ [(e, data)], StandsIn (putLocal st.zip e data) other ∧ Fits other
        rw [putLocal_append]
        intro other among
        rcases List.mem_append.mp among with older | newest
        · obtain ⟨stands, fits⟩ := packed.stands other older
          exact ⟨stands.append _, fits⟩
        · cases List.mem_singleton.mp newest
          refine ⟨⟨[], ?_⟩, ⟨by unfold Short; rw [name]; exact short, size⟩⟩
          rw [offset, List.drop_left, List.append_nil]
      · change (putLocal st.zip e data).length = _
        rw [longer, packed.size, List.map_append, List.sum_append]
        rfl
      · change (putLocal st.zip e data).length ≤ _
        rw [longer, name]
        omega
      · rw [Option.map_some, Option.toList_some, List.map_singleton, storedOf, name, crc]

theorem addFiles_packed {items : List (LogFile × Text)} {st' : ZipState}
    (packed : Packed st stored) (short : ∀ item ∈ items, (toUtf8 item.2).length < 2 ^ 16)
    (added : items.foldlM (fun st item => addFile toUtf8 st item.1 item.2) st = .ok st') :
    ∃ new, Packed st' (stored ++ new) ∧ items.filterMap (bundled toUtf8) = new.map storedOf := by
  induction items generalizing st stored with
  | nil =>
    cases added
    exact ⟨[], by rwa [List.append_nil], rfl⟩
  | cons item items ih =>
    obtain ⟨shortHere, short⟩ := List.forall_mem_cons.mp short
    rw [List.foldlM_cons] at added
    cases step : addFile toUtf8 st item.1 item.2 with
    | error e =>
      rw [step] at added
      cases added
    | ok next =>
      rw [step] at added
      obtain ⟨first, packed, isFirst⟩ := addFile_packed packed shortHere step
      obtain ⟨rest, packed, isRest⟩ := ih packed short added
      refine ⟨first ++ rest, by rwa [← List.append_assoc], ?_⟩
      rw [List.map_append, ← isRest, ← isFirst, List.filterMap_cons]
      cases bundled toUtf8 item <;> rfl

/-! ### The whole archive -/

theorem foldl_putCentral (zip : Bytes) (stored : List (Entry × Bytes)) :
    (stored.map Prod.fst).foldl putCentral zip = zip ++ directoryOf stored := by
  induction stored generalizing zip with
  | nil => exact (List.append_nil zip).symm
  | cons packed stored ih =>
    rw [List.map_cons, List.foldl_cons, ih, putCentral_append, List.append_assoc]
    rfl

theorem length_directoryOf (stored : List (Entry × Bytes)) :
    (directoryOf stored).length ≤
      (stored.map fun packed => 30 + packed.1.name.length + packed.2.length).sum + 16 * stored.length := by
  induction stored with
  | nil => exact Nat.le_refl 0
  | cons packed stored ih =>
    change (putCentral [] packed.1 ++ directoryOf stored).length ≤ _
    rw [List.length_append, length_putCentral, List.map_cons, List.sum_cons, List.length_cons]
    omega

theorem readZip_finish (packed : Packed st stored) (few : stored.length < 2 ^ 16) :
    readZip (finish st) = some (stored.map storedOf) := by
  have top : sizeLimit = 4026531840 := rfl
  have limit := packed.limit
  have directory := length_directoryOf stored
  rw [← packed.size] at directory
  have offset : (UInt32.ofNat st.zip.length).toNat = st.zip.length := by
    rw [UInt32.toNat_ofNat']
    omega
  have size : (UInt32.ofNat (st.zip ++ directoryOf stored).length - UInt32.ofNat st.zip.length).toNat =
      (directoryOf stored).length := by
    rw [UInt32.toNat_sub, offset, UInt32.toNat_ofNat', List.length_append]
    omega
  have count : st.entries.length = stored.length := by rw [packed.entries, List.length_map]
  have whole : finish st = st.zip ++ directoryOf stored ++ putEnd [] stored.length
      (.ofNat (st.zip ++ directoryOf stored).length - .ofNat st.zip.length) (.ofNat st.zip.length) := by
    unfold finish
    rw [count, packed.entries, foldl_putCentral, putEnd_append]
  generalize UInt32.ofNat (st.zip ++ directoryOf stored).length - UInt32.ofNat st.zip.length = dirSize
    at size whole
  generalize UInt32.ofNat st.zip.length = dirOffset at offset whole
  have found := findEnd_append (readEnd_putEnd few dirSize dirOffset) rfl (st.zip ++ directoryOf stored)
  have taken : takeBytes dirSize.toNat ((finish st).drop dirOffset.toNat) =
      some (directoryOf stored, putEnd [] stored.length dirSize dirOffset) := by
    rw [whole, offset, List.append_assoc, List.drop_left]
    exact takeBytes_append _ size.symm
  have read : readDirectory (finish st) stored.length (directoryOf stored) = some (stored.map storedOf) := by
    refine readDirectory_directoryOf fun other among => ?_
    obtain ⟨stands, fits⟩ := packed.stands other among
    rw [whole, List.append_assoc]
    exact ⟨stands.append _, fits⟩
  unfold readZip
  rw [← whole] at found
  simp only [found, taken, read, Option.bind_eq_bind, Option.bind_some]

variable {fuel : Nat}

theorem writeLoop_whole {disk : Disk} {file out : Bytes} (here : file <+: zip)
    (written : writeLoop disk zip fuel file = some out) : out = zip := by
  have done : ∀ {file : Bytes}, file <+: zip → ¬file.length < zip.length → file = zip := by
    intro file here full
    exact here.eq_of_length (Nat.le_antisymm here.length_le (Nat.not_lt.mp full))
  induction fuel generalizing file with
  | zero =>
    unfold writeLoop at written
    split at written
    · cases written
    · rename_i full
      cases written
      exact done here full
  | succ fuel ih =>
    unfold writeLoop at written
    split at written
    · dsimp only at written
      split at written
      · cases written
      · refine ih ?_ written
        obtain ⟨rest, rfl⟩ := here
        rw [List.drop_left]
        exact (List.prefix_append_right_inj file).mpr (List.take_prefix _ _)
    · rename_i full
      cases written
      exact done here full

theorem writeLoop_accepted {disk : Disk} {file : Bytes}
    (accepts : ∀ place, 0 < disk.accepts place) (enough : zip.length ≤ file.length + fuel) :
    ∃ out, writeLoop disk zip fuel file = some out := by
  induction fuel generalizing file with
  | zero =>
    unfold writeLoop
    rw [if_neg (by omega)]
    exact ⟨file, rfl⟩
  | succ fuel ih =>
    unfold writeLoop
    split
    · rename_i short
      have some_ := accepts file.length
      have chunk : chunkSize = 1048576 := rfl
      dsimp only
      split
      · omega
      · rename_i positive
        refine ih ?_
        rw [List.length_append, List.length_take, List.length_drop]
        omega
    · exact ⟨file, rfl⟩

theorem readLoop_whole {file : LogFile} {size : Nat} {out : Bytes} (inside : out.length ≤ size)
    (read : readLoop file size fuel out = some data) : data.length = size := by
  induction fuel generalizing out with
  | zero =>
    unfold readLoop at read
    split at read
    · cases read
    · cases read
      omega
  | succ fuel ih =>
    unfold readLoop at read
    split at read
    · dsimp only at read
      split at read
      · cases read
      · cases read
      · rename_i chunk _ taken
        refine ih ?_ read
        obtain ⟨all, -, rfl⟩ := Option.map_eq_some_iff.mp taken
        rw [List.length_append, List.length_take]
        omega
    · cases read
      omega

theorem readWhole_whole {file : LogFile} (read : readWhole file = some data) :
    file.size = some data.length := by
  unfold readWhole at read
  split at read
  · split at read
    · cases read
    · rename_i size known
      split at read
      · cases read
      · rw [known, readLoop_whole (Nat.zero_le size) read]
  · cases read

/-- The file has the content: what a read gives is what stands there. It may give less
than was asked for, or fail. -/
structure Serves (file : LogFile) (content : Bytes) : Prop where
  size : ∀ n, file.size = some n → n = content.length
  given : ∀ place want chunk, file.read place want = some chunk → chunk.take want <+: content.drop place

structure Readable (file : LogFile) (content : Bytes) : Prop where
  opens : file.opens = true
  size : file.size = some content.length
  given : ∀ place want, place < content.length → 0 < want →
    ∃ chunk, file.read place want = some chunk ∧ chunk ≠ []

theorem readLoop_serves {file : LogFile} {content out : Bytes} (serves : Serves file content)
    (here : out <+: content) (read : readLoop file content.length fuel out = some data) : data = content := by
  have done : ∀ {out : Bytes}, out <+: content → ¬out.length < content.length → out = content := by
    intro out here full
    exact here.eq_of_length (Nat.le_antisymm here.length_le (Nat.not_lt.mp full))
  induction fuel generalizing out with
  | zero =>
    unfold readLoop at read
    split at read
    · cases read
    · rename_i full
      cases read
      exact done here full
  | succ fuel ih =>
    unfold readLoop at read
    split at read
    · dsimp only at read
      split at read
      · cases read
      · cases read
      · rename_i chunk _ taken
        refine ih ?_ read
        obtain ⟨all, isRead, rfl⟩ := Option.map_eq_some_iff.mp taken
        have next := serves.given _ _ _ isRead
        obtain ⟨rest, rfl⟩ := here
        rw [List.drop_left] at next
        exact (List.prefix_append_right_inj out).mpr next
    · rename_i full
      cases read
      exact done here full

theorem readLoop_readable {file : LogFile} {content out : Bytes} (readable : Readable file content)
    (enough : content.length ≤ out.length + fuel) :
    ∃ data, readLoop file content.length fuel out = some data := by
  induction fuel generalizing out with
  | zero =>
    unfold readLoop
    rw [if_neg (by omega)]
    exact ⟨out, rfl⟩
  | succ fuel ih =>
    unfold readLoop
    split
    · rename_i short
      have wanted : 0 < min (content.length - out.length) chunkSize := by
        have chunk : chunkSize = 1048576 := rfl
        omega
      obtain ⟨chunk, isRead, some_⟩ := readable.given out.length _ short wanted
      have length := List.length_pos_iff.mpr some_
      dsimp only
      rw [isRead, Option.map_some]
      split
      · rename_i none_
        cases none_
      · rename_i none_
        have nothing := congrArg List.length (Option.some.inj none_)
        rw [List.length_take, List.length_nil] at nothing
        omega
      · rename_i some_
        rw [← Option.some.inj some_]
        refine ih ?_
        rw [List.length_append, List.length_take]
        omega
    · exact ⟨out, rfl⟩

theorem readWhole_serves {file : LogFile} {content : Bytes} (serves : Serves file content)
    (read : readWhole file = some data) : data = content := by
  have known := readWhole_whole read
  unfold readWhole at read
  split at read
  · rw [known, serves.size _ known] at read
    dsimp only at read
    split at read
    · cases read
    · exact readLoop_serves serves List.nil_prefix read
  · cases read

theorem readWhole_readable {file : LogFile} {content : Bytes} (serves : Serves file content)
    (readable : Readable file content) (fits : content.length ≤ 256 * 2 ^ 20) :
    readWhole file = some content := by
  obtain ⟨data, read⟩ := readLoop_readable readable
    (show content.length ≤ ([] : Bytes).length + _ from Nat.le_add_left ..)
  unfold readWhole
  rw [if_pos readable.opens, readable.size]
  dsimp only
  rw [if_neg (by omega), read, readLoop_serves serves List.nil_prefix read]

def stable (path : Text) (content : Bytes) : LogFile where
  path
  size := some content.length
  read := fun place want => some ((content.drop place).take want)

theorem stable_serves (path : Text) (content : Bytes) : Serves (stable path content) content where
  size _ same := (Option.some.inj same).symm
  given place want chunk same := by
    rw [← Option.some.inj same]
    exact (List.take_prefix _ _).trans (List.take_prefix _ _)

theorem stable_readable (path : Text) (content : Bytes) : Readable (stable path content) content where
  opens := rfl
  size := rfl
  given place want inside positive := by
    refine ⟨_, rfl, fun none_ => ?_⟩
    have nothing := congrArg List.length none_
    rw [List.length_take, List.length_drop, List.length_nil] at nothing
    omega

def roomOf (file : StoredFile) : Nat :=
  30 + file.name.length + file.content.length

theorem addFiles_fit {items : List (LogFile × Text)}
    (room : st.zip.length + ((items.filterMap (bundled toUtf8)).map roomOf).sum ≤ sizeLimit) :
    ∃ st', items.foldlM (fun st item => addFile toUtf8 st item.1 item.2) st = .ok st' := by
  induction items generalizing st with
  | nil => exact ⟨st, rfl⟩
  | cons item items ih =>
    rw [List.foldlM_cons]
    rw [List.filterMap_cons] at room
    unfold addFile
    cases whole : readWhole item.1 with
    | none =>
      have none_ : bundled toUtf8 item = none := by
        unfold bundled
        rw [whole]
        rfl
      rw [none_] at room
      exact ih room
    | some data =>
      have some_ : bundled toUtf8 item =
          some { name := toUtf8 item.2, content := data, crc := crc32 data } := by
        unfold bundled
        rw [whole]
        rfl
      rw [some_] at room
      dsimp only at room ⊢
      rw [List.map_cons, List.sum_cons] at room
      unfold roomOf at room
      dsimp only at room
      rw [if_neg (by omega)]
      refine ih ?_
      rw [putLocal_append, List.length_append, length_putLocal]
      change st.zip.length + (30 + (toUtf8 item.2).length + data.length) + _ ≤ _
      unfold roomOf
      omega

def bundle (toUtf8 : Text → Bytes) (files : List LogFile) (names : List Text) : List StoredFile :=
  (files.zip names).filterMap (bundled toUtf8)

/-- A file that has a content is in the bundle with that content and its checksum, or not
at all. -/
theorem bundle_serves {toUtf8 : Text → Bytes} {files : List LogFile} {names : List Text} {content : LogFile → Bytes}
    (serves : ∀ file ∈ files, Serves file (content file)) :
    bundle toUtf8 files names = ((files.zip names).filter fun item => (readWhole item.1).isSome).map
      fun item => { name := toUtf8 item.2, content := content item.1, crc := crc32 (content item.1) } := by
  unfold bundle
  rw [← List.filterMap_eq_map', List.filterMap_filter]
  refine List.filterMap_congr fun item among => ?_
  unfold bundled
  cases read : readWhole item.1 with
  | none => rfl
  | some data =>
    rw [readWhole_serves (serves _ (List.of_mem_zip among).1) read]
    rfl

/-- What is read back of an archive are the files that could be read, each with its name,
its whole content and the checksum of that; the archive is written where they fit, and the
files that give what is in them are among them. -/
theorem writeZip_reads {toUtf8 : Text → Bytes} (disk : Disk) {files : List LogFile} {names : List Text}
    (few : files.length < 2 ^ 16) (short : ∀ n ∈ names, (toUtf8 n).length < 2 ^ 16) :
    (∀ archive, (writeZip toUtf8 disk files names).archive = .ok archive →
      readZip archive = some (bundle toUtf8 files names)) ∧
    (files.length = names.length → bundle toUtf8 files names ≠ [] →
      ((bundle toUtf8 files names).map roomOf).sum ≤ sizeLimit →
      disk.creates = true → (∀ place, 0 < disk.accepts place) →
      ∃ archive, (writeZip toUtf8 disk files names).archive = .ok archive) ∧
    (∀ file ∈ files, ∀ data, readWhole file = some data → file.size = some data.length) ∧
    (∀ content : LogFile → Bytes, (∀ file ∈ files, Serves file (content file)) →
      bundle toUtf8 files names = ((files.zip names).filter fun item => (readWhole item.1).isSome).map
        fun item => { name := toUtf8 item.2, content := content item.1, crc := crc32 (content item.1) }) ∧
    ∀ file ∈ files, ∀ content, Serves file content → Readable file content →
      content.length ≤ 256 * 2 ^ 20 → readWhole file = some content := by
  have shortItems : ∀ item ∈ files.zip names, (toUtf8 item.2).length < 2 ^ 16 :=
    fun item among => short _ (List.of_mem_zip among).2
  have empty : Packed {} [] := ⟨rfl, nofun, rfl, Nat.zero_le _⟩
  refine ⟨fun archive written => ?_, fun same some_ room creates accepts => ?_,
    fun file _ data read => readWhole_whole read, fun content serves => bundle_serves serves,
    fun file _ content serves readable fits => readWhole_readable serves readable fits⟩
  · unfold writeZip at written
    split at written
    · cases written
    split at written
    · cases written
    rename_i st added
    obtain ⟨stored, packed, is⟩ := addFiles_packed empty shortItems added
    rw [List.nil_append] at packed
    split at written
    · cases written
    split at written
    · split at written
      · cases written
      · rename_i out looped
        cases written
        have count : stored.length < 2 ^ 16 := by
          have length := congrArg List.length is
          have fewer := List.length_filterMap_le (bundled toUtf8) (files.zip names)
          rw [length, List.length_map, List.length_zip] at fewer
          omega
        rw [writeLoop_whole (List.nil_prefix) looped, readZip_finish packed count, ← is]
        rfl
    · cases written
  · have start : ({} : ZipState).zip.length + ((bundle toUtf8 files names).map roomOf).sum ≤ sizeLimit := by
      rwa [List.length_nil, Nat.zero_add]
    obtain ⟨st, added⟩ := addFiles_fit start
    obtain ⟨stored, packed, is⟩ := addFiles_packed empty shortItems added
    rw [List.nil_append] at packed
    have entries : st.entries ≠ [] := by
      intro none
      have entries := packed.entries
      rw [none] at entries
      have nothing := List.map_eq_nil_iff.mp entries.symm
      rw [nothing] at is
      exact some_ is
    obtain ⟨out, looped⟩ : ∃ out, writeLoop disk (finish st) (finish st).length [] = some out :=
      writeLoop_accepted accepts (Nat.le_add_left _ _)
    unfold writeZip
    rw [if_neg (by omega), added]
    dsimp only
    rw [if_neg entries, if_pos creates, looped]
    exact ⟨out, rfl⟩

def longLog : Bytes := List.replicate (chunkSize + 3) 0x45

def longName : Text := ['a', '.', 'l', 'o', 'g']

def cutName : Text := ['b', '.', 'l', 'o', 'g']

def cutLog : LogFile where
  path := cutName
  size := some 4
  read _ _ := some []

def narrow (name : Text) : Bytes := name.map fun c => .ofNat c.toNat

theorem bundle_cut {content : Bytes} (whole : readWhole (stable longName content) = some content) :
    bundle narrow [cutLog, stable longName content] [cutName, longName] =
      [{ name := narrow longName, content, crc := crc32 content }] := by
  have cut : readWhole cutLog = none := by decide +kernel
  simp only [bundle, List.zip_cons_cons, List.zip_nil_right, List.filterMap_cons, List.filterMap_nil, bundled,
    whole, cut, Option.map_some, Option.map_none]

theorem room_longName {content : Bytes} (length : content.length = 1048579) :
    ([{ name := narrow longName, content, crc := crc32 content }].map roomOf).sum ≤ sizeLimit := by
  have top : sizeLimit = 4026531840 := rfl
  have name : (narrow longName).length = 5 := rfl
  rw [List.map_singleton, List.sum_singleton]
  unfold roomOf
  dsimp only
  omega

theorem writeZip_reads_sample :
    ∃ archive, (writeZip narrow { accepts := fun _ => 4096 } [cutLog, stable longName longLog]
        [cutName, longName]).archive = .ok archive ∧
      readZip archive =
        some [{ name := narrow longName, content := longLog, crc := crc32 longLog }] := by
  have length : longLog.length = 1048579 := by
    have chunk : chunkSize = 1048576 := rfl
    unfold longLog
    rw [List.length_replicate, chunk]
  have short : ∀ n ∈ [cutName, longName], (narrow n).length < 2 ^ 16 := by decide
  generalize longLog = content at length ⊢
  have few : [cutLog, stable longName content].length < 2 ^ 16 := show 2 < 2 ^ 16 by decide
  obtain ⟨reads, writes, -, -, whole⟩ := writeZip_reads { accepts := fun _ => 4096 } few short
  have packed := bundle_cut (whole _ (List.mem_cons_of_mem _ (List.mem_singleton_self _)) content
    (stable_serves _ _) (stable_readable _ _) (by omega))
  rw [packed] at reads writes
  obtain ⟨archive, written⟩ := writes rfl (List.cons_ne_nil _ _) (room_longName length) rfl fun _ => Nat.succ_pos _
  exact ⟨archive, written, reads archive written⟩

end EdvrPatch.Installer.LogBundle
