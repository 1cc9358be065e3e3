import EdvrPatch.Dxbc.SignatureRoundTrip

/-! What `makeContainer` lays out, and that `parseContainer` reads it back. -/
namespace EdvrPatch.Dxbc

open Lib

def block (length : Nat) (c : Chunk) : Bytes :=
  padding length ++ (wordBytes c.tag ++ (wordBytes (.ofNat c.bytes.length) ++ c.bytes))

def blocks : Nat → List Chunk → Bytes
  | _, [] => []
  | length, c :: rest => block length c ++ blocks (length + (block length c).length) rest

def offsets : Nat → List Chunk → List UInt32
  | _, [] => []
  | length, c :: rest =>
    .ofNat (length + (padding length).length) :: offsets (length + (block length c).length) rest

theorem length_offsets (length : Nat) (chunks : List Chunk) :
    (offsets length chunks).length = chunks.length := by
  induction chunks generalizing length with
  | nil => rfl
  | cons c rest ih => rw [offsets, List.length_cons, List.length_cons, ih]

theorem blocks_append (length : Nat) (first rest : List Chunk) :
    blocks length (first ++ rest) =
      blocks length first ++ blocks (length + (blocks length first).length) rest := by
  induction first generalizing length with
  | nil => rfl
  | cons c first ih =>
    rw [List.cons_append, blocks, blocks, ih, List.append_assoc, List.length_append, Nat.add_assoc]

theorem offsets_append (length : Nat) (first rest : List Chunk) :
    offsets length (first ++ rest) =
      offsets length first ++ offsets (length + (blocks length first).length) rest := by
  induction first generalizing length with
  | nil => rfl
  | cons c first ih =>
    rw [List.cons_append, offsets, offsets, ih, blocks, List.length_append, Nat.add_assoc,
      List.cons_append]

theorem addChunk_eq {front rest body : Bytes} {i : Nat} {c : Chunk}
    (place : front.length = 32 + i * 4) {length : Nat}
    (size : (front ++ List.replicate 4 0 ++ (rest ++ body)).length = length) :
    addChunk (front ++ List.replicate 4 0 ++ (rest ++ body)) i c =
      .ok (front ++ wordBytes (.ofNat (length + (padding length).length)) ++
        (rest ++ (body ++ block length c))) := by
  have padded : (front ++ List.replicate 4 0 ++ (rest ++ body) ++ padding length).length =
      length + (padding length).length := by
    rw [List.length_append, size]
  unfold addChunk
  dsimp only
  rw [size, padded, List.append_assoc _ (rest ++ body)]
  refine bind_eq_ok.mpr ⟨_, setWord_append place.symm (List.length_replicate ..), ?_⟩
  simp only [put, block, List.append_assoc]
  rfl

theorem addChunks_eq {front body : Bytes} {i : Nat} {chunks : List Chunk}
    (place : front.length = 32 + i * 4) :
    addChunks (front ++ List.replicate (chunks.length * 4) 0 ++ body) i chunks =
      .ok (front ++ bytesOf (offsets (front.length + chunks.length * 4 + body.length) chunks) ++
        (body ++ blocks (front.length + chunks.length * 4 + body.length) chunks)) := by
  induction chunks generalizing front body i with
  | nil => simp [addChunks, offsets, blocks, bytesOf]
  | cons c rest ih =>
    have room : front ++ List.replicate ((c :: rest).length * 4) 0 ++ body =
        front ++ List.replicate 4 0 ++ (List.replicate (rest.length * 4) 0 ++ body) := by
      rw [List.length_cons, Nat.succ_mul, Nat.add_comm, List.replicate_add]
      simp only [List.append_assoc]
    have size : (front ++ List.replicate 4 0 ++
        (List.replicate (rest.length * 4) 0 ++ body) : Bytes).length =
        front.length + (c :: rest).length * 4 + body.length := by
      simp only [List.length_append, List.length_replicate, List.length_cons]
      omega
    generalize total : front.length + (c :: rest).length * 4 + body.length = length at size
    rw [addChunks, room, addChunk_eq place size]
    have filled : (front ++ wordBytes (.ofNat (length + (padding length).length))).length =
        32 + (i + 1) * 4 := by
      rw [List.length_append, length_wordBytes, place]
      omega
    have later := @ih _ (body ++ block length c) _ filled
    have next : 32 + (i + 1) * 4 + rest.length * 4 + (body ++ block length c).length =
        length + (block length c).length := by
      rw [List.length_append, ← total, List.length_cons, place]
      omega
    rw [filled, next] at later
    change addChunks _ (i + 1) rest = _
    rw [← List.append_assoc, later, offsets, blocks, bytesOf_cons]
    simp only [List.append_assoc]

section

variable (computeHashRetail : Bytes → Vector UInt8 16)

def containerBody (chunks : List Chunk) : Bytes :=
  bytesOf ([1, .ofNat (32 + chunks.length * 4 + (blocks (32 + chunks.length * 4) chunks).length),
    .ofNat chunks.length] ++ offsets (32 + chunks.length * 4) chunks) ++
    blocks (32 + chunks.length * 4) chunks

def containerBytes (chunks : List Chunk) : Bytes :=
  magic ++ (computeHashRetail (containerBody chunks)).toList ++ containerBody chunks

variable {chunks : List Chunk}

theorem makeContainer_eq (some_ : chunks ≠ []) (few : chunks.length ≤ 128) :
    makeContainer computeHashRetail chunks = .ok (containerBytes computeHashRetail chunks) := by
  unfold makeContainer
  rw [if_neg (not_or.mpr ⟨some_, by omega⟩)]
  have blank : magic ++ List.replicate (28 + chunks.length * 4) 0 =
      magic ++ List.replicate 16 0 ++ List.replicate 4 0 ++
        (List.replicate 4 0 ++ List.replicate 4 0 ++ List.replicate (chunks.length * 4) 0) := by
    simp only [List.append_assoc, List.replicate_append_replicate]
    congr 2
    omega
  rw [blank]
  refine bind_eq_ok.mpr ⟨_, setWord_append rfl (List.length_replicate ..), ?_⟩
  have counts : magic ++ List.replicate 16 0 ++ wordBytes 1 ++
        (List.replicate 4 0 ++ List.replicate 4 0 ++ List.replicate (chunks.length * 4) 0) =
      magic ++ List.replicate 16 0 ++ wordBytes 1 ++ List.replicate 4 0 ++ List.replicate 4 0 ++
        List.replicate (chunks.length * 4) 0 := by
    simp only [List.append_assoc]
  rw [counts]
  refine bind_eq_ok.mpr ⟨_, setWord_append rfl (List.length_replicate ..), ?_⟩
  have added := @addChunks_eq (magic ++ List.replicate 16 0 ++ wordBytes 1 ++
    List.replicate 4 0 ++ wordBytes (.ofNat chunks.length)) [] 0 chunks rfl
  rw [List.append_nil, List.nil_append] at added
  change addChunks _ 0 chunks = .ok (_ ++ bytesOf (offsets (32 + chunks.length * 4) chunks) ++
    blocks (32 + chunks.length * 4) chunks) at added
  refine bind_eq_ok.mpr ⟨_, added, ?_⟩
  generalize size : (magic ++ List.replicate 16 0 ++ wordBytes 1 ++ List.replicate 4 0 ++
    wordBytes (.ofNat chunks.length) ++ bytesOf (offsets (32 + chunks.length * 4) chunks) ++
    blocks (32 + chunks.length * 4) chunks).length = length
  have total : length = 32 + chunks.length * 4 + (blocks (32 + chunks.length * 4) chunks).length := by
    rw [← size, List.length_append, List.length_append, length_bytesOf, length_offsets]
    change 32 + _ + _ = _
    omega
  have split : magic ++ List.replicate 16 0 ++ wordBytes 1 ++ List.replicate 4 0 ++
      wordBytes (.ofNat chunks.length) ++ bytesOf (offsets (32 + chunks.length * 4) chunks) ++
      blocks (32 + chunks.length * 4) chunks =
      magic ++ List.replicate 16 0 ++ wordBytes 1 ++ List.replicate 4 0 ++
      (wordBytes (.ofNat chunks.length) ++ (bytesOf (offsets (32 + chunks.length * 4) chunks) ++
      blocks (32 + chunks.length * 4) chunks)) := by
    simp only [List.append_assoc]
  rw [split]
  refine bind_eq_ok.mpr ⟨_, setWord_append rfl (List.length_replicate ..), ?_⟩
  have front : magic ++ List.replicate 16 0 ++ wordBytes 1 ++ wordBytes (.ofNat length) ++
      (wordBytes (.ofNat chunks.length) ++ (bytesOf (offsets (32 + chunks.length * 4) chunks) ++
      blocks (32 + chunks.length * 4) chunks)) =
      magic ++ List.replicate 16 0 ++ containerBody chunks := by
    unfold containerBody
    rw [← total]
    simp [bytesOf]
  rw [front]
  rfl

theorem length_containerBytes (chunks : List Chunk) :
    (containerBytes computeHashRetail chunks).length =
      32 + chunks.length * 4 + (blocks (32 + chunks.length * 4) chunks).length := by
  unfold containerBytes containerBody
  rw [List.length_append, List.length_append, Vector.length_toList, List.length_append,
    length_bytesOf, List.length_append, length_offsets]
  change 4 + 16 + (4 * (3 + _) + _) = _
  omega

theorem containerBytes_word (before : List UInt32) (v : UInt32) (after : List UInt32)
    {place : Nat}
    (row : [1, .ofNat (32 + chunks.length * 4 + (blocks (32 + chunks.length * 4) chunks).length), .ofNat chunks.length] ++ offsets (32 + chunks.length * 4) chunks = before ++ v :: after)
    (here : place = 20 + 4 * before.length) :
    word (containerBytes computeHashRetail chunks) place = .ok v := by
  unfold containerBytes containerBody
  rw [row, ← List.append_assoc]
  refine word_in_row before after ?_
  rw [List.length_append, Vector.length_toList]
  exact here

theorem containerBytes_blocks (chunks : List Chunk) :
    ∃ head : Bytes, head.length = 32 + chunks.length * 4 ∧
      containerBytes computeHashRetail chunks =
        head ++ blocks (32 + chunks.length * 4) chunks := by
  refine ⟨_, ?_, (List.append_assoc ..).symm⟩
  rw [List.length_append, List.length_append, Vector.length_toList, length_bytesOf,
    List.length_append, length_offsets]
  change 4 + 16 + 4 * (3 + _) = _
  omega

theorem containerBytes_block {done rest : List Chunk} {c : Chunk}
    (split : chunks = done ++ c :: rest) {length : Nat}
    (here : length = 32 + chunks.length * 4 + (blocks (32 + chunks.length * 4) done).length) :
    ∃ front tail : Bytes, front.length = length + (padding length).length ∧
      containerBytes computeHashRetail chunks =
        front ++ (wordBytes c.tag ++ (wordBytes (.ofNat c.bytes.length) ++ (c.bytes ++ tail))) := by
  obtain ⟨head, size, layout⟩ := containerBytes_blocks computeHashRetail chunks
  have body : blocks (32 + chunks.length * 4) chunks =
      blocks (32 + chunks.length * 4) done ++ (block length c ++ blocks (length +
        (block length c).length) rest) := by
    rw [here]
    conv_lhs => rw [split, blocks_append, blocks, ← split]
  refine ⟨head ++ blocks (32 + chunks.length * 4) done ++ padding length,
    blocks (length + (block length c).length) rest, ?_, ?_⟩
  · rw [List.length_append, List.length_append, size, ← here]
  · rw [layout, body, block]
    simp only [List.append_assoc]

theorem parseChunk_containerBytes {done rest : List Chunk} {c : Chunk}
    (split : chunks = done ++ c :: rest)
    (small : (containerBytes computeHashRetail chunks).length ≤ 1024 * 1024) :
    parseChunk (containerBytes computeHashRetail chunks) done.length = .ok c := by
  obtain ⟨length, here⟩ : ∃ length,
      length = 32 + chunks.length * 4 + (blocks (32 + chunks.length * 4) done).length := ⟨_, rfl⟩
  obtain ⟨front, tail, size, layout⟩ := containerBytes_block computeHashRetail split here
  have listed : word (containerBytes computeHashRetail chunks) (32 + done.length * 4) =
      .ok (.ofNat (length + (padding length).length)) := by
    refine containerBytes_word computeHashRetail ([1, .ofNat (32 + chunks.length * 4 +
      (blocks (32 + chunks.length * 4) chunks).length), .ofNat chunks.length] ++
      offsets (32 + chunks.length * 4) done) _ (offsets (length + (block length c).length) rest)
      ?_ ?_
    · rw [List.append_assoc, here]
      conv_lhs => rw [split, offsets_append, offsets, ← split]
    · rw [List.length_append, length_offsets]
      change _ = 20 + 4 * (3 + done.length)
      omega
  have total : (containerBytes computeHashRetail chunks).length =
      front.length + (8 + (c.bytes.length + tail.length)) := by
    rw [layout]
    simp only [List.length_append, length_wordBytes]
    omega
  have offset : (UInt32.ofNat (length + (padding length).length)).toNat = front.length := by
    rw [UInt32.toNat_ofNat', size]
    exact Nat.mod_eq_of_lt (by omega)
  have bytes : (UInt32.ofNat c.bytes.length).toNat = c.bytes.length := by
    exact Nat.mod_eq_of_lt (by omega)
  have tag : (containerBytes computeHashRetail chunks).drop front.length =
      wordBytes c.tag ++ (wordBytes (.ofNat c.bytes.length) ++ (c.bytes ++ tail)) := by
    rw [layout, List.drop_left]
  have next : (containerBytes computeHashRetail chunks).drop (front.length + 4) =
      wordBytes (.ofNat c.bytes.length) ++ (c.bytes ++ tail) := by
    rw [← List.drop_drop, tag]
    rfl
  have data : (containerBytes computeHashRetail chunks).drop (front.length + 8) =
      c.bytes ++ tail := by
    rw [show front.length + 8 = front.length + 4 + 4 from rfl, ← List.drop_drop, next]
    rfl
  refine bind_eq_ok.mpr ⟨_, listed, ?_⟩
  rw [offset, if_neg (by omega)]
  refine bind_eq_ok.mpr ⟨_, word_of_drop tag, ?_⟩
  refine bind_eq_ok.mpr ⟨_, word_of_drop next, ?_⟩
  rw [bytes, if_neg (by omega), data, List.take_left]
  rfl

end

def readPrograms (expectedProgramType : UInt32) : Bool → List Chunk → Result Bool
  | program, [] => .ok program
  | program, c :: rest => do
    readPrograms expectedProgramType (← readProgram expectedProgramType program c) rest

theorem parseChunks_eq_ok {input : Bytes} {expectedProgramType : UInt32} {l : List Nat}
    {program program' : Bool} {chunks : List Chunk} :
    parseChunks input expectedProgramType l program = .ok (program', chunks) ↔
      l.mapM (parseChunk input) = .ok chunks ∧
        readPrograms expectedProgramType program chunks = .ok program' := by
  induction l generalizing program chunks with
  | nil =>
    constructor
    · intro parsed
      cases parsed
      exact ⟨rfl, rfl⟩
    · rintro ⟨read, known⟩
      cases read
      cases known
      rfl
  | cons i rest ih =>
    rw [List.mapM_cons, parseChunks]
    constructor
    · intro parsed
      obtain ⟨c, here, parsed⟩ := bind_eq_ok.mp parsed
      obtain ⟨now, known, parsed⟩ := bind_eq_ok.mp parsed
      obtain ⟨⟨last, later⟩, read, parsed⟩ := bind_eq_ok.mp parsed
      cases parsed
      obtain ⟨mapped, read⟩ := ih.mp read
      exact ⟨bind_eq_ok.mpr ⟨c, here, bind_eq_ok.mpr ⟨later, mapped, rfl⟩⟩,
        bind_eq_ok.mpr ⟨now, known, read⟩⟩
    · rintro ⟨mapped, read⟩
      obtain ⟨c, here, mapped⟩ := bind_eq_ok.mp mapped
      obtain ⟨later, listed, same⟩ := bind_eq_ok.mp mapped
      cases same
      obtain ⟨now, known, read⟩ := bind_eq_ok.mp read
      exact bind_eq_ok.mpr ⟨c, here, bind_eq_ok.mpr ⟨now, known,
        bind_eq_ok.mpr ⟨_, ih.mpr ⟨listed, read⟩, rfl⟩⟩⟩

section

variable (computeHashRetail : Bytes → Vector UInt8 16)

theorem parseContainer_produces {input : Bytes} {expectedProgramType : UInt32}
    {chunks : List Chunk}
    (parsed : parseContainer computeHashRetail input expectedProgramType = .ok chunks) :
    chunks.length ≤ 128 ∧ readPrograms expectedProgramType false chunks = .ok true := by
  unfold parseContainer at parsed
  obtain ⟨-, parsed⟩ := check_eq_ok.mp parsed
  obtain ⟨-, parsed⟩ := check_eq_ok.mp parsed
  obtain ⟨size, -, parsed⟩ := bind_eq_ok.mp parsed
  obtain ⟨-, parsed⟩ := check_eq_ok.mp parsed
  obtain ⟨count, counted, parsed⟩ := bind_eq_ok.mp parsed
  obtain ⟨few, parsed⟩ := check_eq_ok.mp parsed
  obtain ⟨-, parsed⟩ := check_eq_ok.mp parsed
  obtain ⟨again, same, parsed⟩ := bind_eq_ok.mp parsed
  rw [counted] at same
  cases same
  obtain ⟨-, parsed⟩ := check_eq_ok.mp parsed
  obtain ⟨⟨program, read⟩, parses, parsed⟩ := bind_eq_ok.mp parsed
  obtain ⟨held, parsed⟩ := check_eq_ok.mp parsed
  cases parsed
  obtain ⟨mapped, known⟩ := parseChunks_eq_ok.mp parses
  refine ⟨?_, ?_⟩
  · rw [length_of_mapM mapped, List.length_range]
    exact UInt32.not_lt.mp few
  · rw [known]
    simpa using held

theorem parseContainer_containerBytes {expectedProgramType : UInt32} {chunks : List Chunk}
    (few : chunks.length ≤ 128)
    (program : readPrograms expectedProgramType false chunks = .ok true)
    (small : (containerBytes computeHashRetail chunks).length ≤ 1024 * 1024) :
    parseContainer computeHashRetail (containerBytes computeHashRetail chunks) expectedProgramType =
      .ok chunks := by
  have size := length_containerBytes computeHashRetail chunks
  have length : word (containerBytes computeHashRetail chunks) 24 =
      .ok (.ofNat (containerBytes computeHashRetail chunks).length) := by
    rw [size]
    exact containerBytes_word computeHashRetail [1] _ _ rfl rfl
  have count : word (containerBytes computeHashRetail chunks) 28 = .ok (.ofNat chunks.length) :=
    containerBytes_word computeHashRetail [1, _] _ _ rfl rfl
  have whole : (UInt32.ofNat (containerBytes computeHashRetail chunks).length).toNat =
      (containerBytes computeHashRetail chunks).length := by
    rw [UInt32.toNat_ofNat']
    exact Nat.mod_eq_of_lt (by omega)
  have chunked : (UInt32.ofNat chunks.length).toNat = chunks.length := by
    exact Nat.mod_eq_of_lt (by omega)
  have body : (containerBytes computeHashRetail chunks).drop 20 = containerBody chunks := by
    unfold containerBytes
    rw [List.drop_left']
    rw [List.length_append, Vector.length_toList]
    rfl
  have digest : ((containerBytes computeHashRetail chunks).drop 4).take 16 =
      (computeHashRetail (containerBody chunks)).toList := by
    change List.take 16 ((computeHashRetail (containerBody chunks)).toList ++ _) = _
    rw [List.take_left' (Vector.length_toList ..)]
  have listed : (List.range chunks.length).mapM
      (parseChunk (containerBytes computeHashRetail chunks)) = .ok chunks :=
    mapM_range_eq chunks fun done c rest split =>
      parseChunk_containerBytes computeHashRetail split small
  unfold parseContainer
  refine check_eq_ok.mpr ⟨by omega, check_eq_ok.mpr ⟨not_not.mpr rfl, ?_⟩⟩
  refine bind_eq_ok.mpr ⟨_, length, check_eq_ok.mpr ⟨not_not.mpr whole, ?_⟩⟩
  refine bind_eq_ok.mpr ⟨_, count, check_eq_ok.mpr ⟨?_, ?_⟩⟩
  · rw [UInt32.not_lt, UInt32.le_iff_toNat_le, chunked]
    exact few
  refine check_eq_ok.mpr ⟨by rw [body, digest]; exact not_not.mpr rfl, ?_⟩
  refine bind_eq_ok.mpr ⟨_, count, check_eq_ok.mpr ⟨?_, ?_⟩⟩
  · rw [chunked]
    omega
  rw [chunked]
  exact bind_eq_ok.mpr ⟨_, parseChunks_eq_ok.mpr ⟨listed, program⟩, rfl⟩

/-- Containers read back as they were parsed, and so does every signature that the
encoder takes: it has an element, no name is longer than 255 bytes, and the registers
are below 32. -/
theorem dxbc_round_trip :
    (∀ input expectedProgramType chunks,
      parseContainer computeHashRetail input expectedProgramType = .ok chunks →
      ∃ output, makeContainer computeHashRetail chunks = .ok output ∧
        (output.length ≤ 1024 * 1024 →
          parseContainer computeHashRetail output expectedProgramType = .ok chunks)) ∧
    ∀ bytes elements, parseSignature bytes = .ok elements → elements ≠ [] →
      (∀ e ∈ elements, e.name.length ≤ 255 ∧ e.registerIndex < 32) →
      ∃ output, makeSignature elements = .ok output ∧ parseSignature output = .ok elements := by
  constructor
  · intro input expectedProgramType chunks parsed
    obtain ⟨few, program⟩ := parseContainer_produces computeHashRetail parsed
    have some_ : chunks ≠ [] := by
      rintro rfl
      cases program
    exact ⟨_, makeContainer_eq computeHashRetail some_ few,
      parseContainer_containerBytes computeHashRetail few program⟩
  · intro bytes elements parsed some_ taken
    obtain ⟨few, named⟩ := parseSignature_produces parsed
    have encodable : ∀ e ∈ elements, e.Encodable := fun e member =>
      ⟨(named e member).1, (taken e member).1, (taken e member).2⟩
    exact ⟨_, makeSignature_eq some_ few encodable,
      parseSignature_signatureBytes few encodable fun e member => (named e member).2⟩

end

def smallDigest (_ : Bytes) : Vector UInt8 16 :=
  #v[92, 135, 74, 95, 73, 124, 165, 254, 227, 118, 88, 79, 250, 222, 6, 164]

def smallProgram : Chunk :=
  { tag := kTagShex, bytes := bytesOf [0x00010050, 2] }

def smallContainer : Bytes :=
  magic ++ (smallDigest []).toList ++ bytesOf [1, 52, 1, 36, kTagShex, 8, 0x00010050, 2]

def smallOutput : SignatureElement :=
  { name := [79], componentType := 3, registerIndex := 2, masks := 15 }

theorem dxbc_round_trip_small :
    (∃ output, makeContainer smallDigest [smallProgram] = .ok output ∧
      (output.length ≤ 1024 * 1024 →
        parseContainer smallDigest output 0x00010050 = .ok [smallProgram])) ∧
    ∃ output, makeSignature [smallOutput] = .ok output ∧
      parseSignature output = .ok [smallOutput] :=
  ⟨(dxbc_round_trip smallDigest).1 smallContainer _ _ (by decide +kernel),
    (dxbc_round_trip smallDigest).2 (bytesOf [1, 8, 32, 0, 0, 3, 2, 15] ++ [79, 0])
      [smallOutput] (by decide +kernel) (by decide) (by decide)⟩

/-- The signature of a pixel shader that writes its depth, whose register is not a
number of one: it is parsed, and not encoded. Nor is an empty signature. -/
theorem makeSignature_refuses_parsed :
    parseSignature (bytesOf [1, 8, 32, 0, 0, 3, 0xffffffff, 0x0e01] ++
        [83, 86, 95, 68, 69, 80, 84, 72, 0]) =
      .ok [{ name := [83, 86, 95, 68, 69, 80, 84, 72], componentType := 3,
             registerIndex := 0xffffffff, masks := 0x0e01 }] ∧
    makeSignature [{ name := [83, 86, 95, 68, 69, 80, 84, 72], componentType := 3,
                     registerIndex := 0xffffffff, masks := 0x0e01 }] =
      .error "signature element" ∧
    parseSignature (bytesOf [0, 8]) = .ok [] ∧ makeSignature [] = .error "signature count" := by
  refine ⟨?_, ?_, ?_, ?_⟩ <;> decide +kernel

end EdvrPatch.Dxbc
