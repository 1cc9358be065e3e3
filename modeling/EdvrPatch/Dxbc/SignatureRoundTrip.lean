import EdvrPatch.Dxbc.Container

/-! What `makeSignature` lays out, and that `parseSignature` reads it back. -/
namespace EdvrPatch.Dxbc

open Lib

theorem bind_eq_ok {α β : Type} {x : Result α} {f : α → Result β} {b : β} :
    x >>= f = .ok b ↔ ∃ a, x = .ok a ∧ f a = .ok b := by
  cases x with
  | error e => exact ⟨nofun, fun ⟨_, same, _⟩ => absurd same nofun⟩
  | ok a => exact ⟨fun ran => ⟨a, rfl, ran⟩, fun ⟨_, same, ran⟩ => by cases same; exact ran⟩

theorem check_eq_ok {β : Type} {c : Prop} [Decidable c] {e : String} {next : PUnit → Result β}
    {b : β} : (if c then (throw e : Result PUnit) >>= next else next ⟨⟩) = .ok b ↔
      ¬c ∧ next ⟨⟩ = .ok b := by
  split
  · rename_i failed
    exact ⟨nofun, fun passed => absurd failed passed.1⟩
  · rename_i passed
    exact ⟨fun ran => ⟨passed, ran⟩, fun ran => ran.2⟩

theorem mapM_range_eq {α : Type} {f : Nat → Result α} (l : List α)
    (reads : ∀ done a rest, l = done ++ a :: rest → f done.length = .ok a) :
    (List.range l.length).mapM f = .ok l := by
  induction l using List.reverseRecOn with
  | nil => rfl
  | append_singleton l last ih =>
    have first : (List.range l.length).mapM f = .ok l :=
      ih fun done a rest split => reads done a (rest ++ [last]) (by rw [split]; simp)
    rw [List.length_append, List.length_singleton, List.range_succ, List.mapM_append, first,
      List.mapM_cons, reads l last [] rfl]
    rfl

theorem mem_of_mapM {α β : Type} {f : α → Result β} {l : List α} {r : List β}
    (ran : l.mapM f = .ok r) {b : β} (member : b ∈ r) : ∃ a ∈ l, f a = .ok b := by
  induction l generalizing r with
  | nil =>
    cases ran
    cases member
  | cons a l ih =>
    rw [List.mapM_cons] at ran
    obtain ⟨first, here, ran⟩ := bind_eq_ok.mp ran
    obtain ⟨later, rest, ran⟩ := bind_eq_ok.mp ran
    cases ran
    rcases List.mem_cons.mp member with rfl | member
    · exact ⟨a, List.mem_cons_self, here⟩
    · obtain ⟨c, inside, found⟩ := ih rest member
      exact ⟨c, List.mem_cons_of_mem a inside, found⟩

theorem length_of_mapM {α β : Type} {f : α → Result β} {l : List α} {r : List β}
    (ran : l.mapM f = .ok r) : r.length = l.length := by
  induction l generalizing r with
  | nil =>
    cases ran
    rfl
  | cons a l ih =>
    rw [List.mapM_cons] at ran
    obtain ⟨first, -, ran⟩ := bind_eq_ok.mp ran
    obtain ⟨later, rest, ran⟩ := bind_eq_ok.mp ran
    cases ran
    rw [List.length_cons, List.length_cons, ih rest]

variable {bytes : Bytes}

theorem word_of_drop {rest : Bytes} {offset : Nat} {v : UInt32}
    (here : bytes.drop offset = wordBytes v ++ rest) : word bytes offset = .ok v := by
  unfold word
  rw [wordAt_of_drop here]

variable {front : Bytes}

theorem word_in_row {rest : Bytes} (before : List UInt32) {v : UInt32} (after : List UInt32)
    {offset : Nat} (size : offset = front.length + 4 * before.length) :
    word (front ++ bytesOf (before ++ v :: after) ++ rest) offset = .ok v := by
  refine @word_of_drop _ (bytesOf after ++ rest) _ _ ?_
  rw [bytesOf_append, bytesOf_cons, ← List.append_assoc, ← List.append_assoc, List.append_assoc,
    List.append_assoc, List.drop_left']
  rw [List.length_append, length_bytesOf, size]

def setWords : Bytes → Nat → List UInt32 → Result Bytes
  | bytes, _, [] => pure bytes
  | bytes, offset, v :: rest => do setWords (← setWord bytes offset v) (offset + 4) rest

theorem setWord_append {old rest : Bytes} {v : UInt32} {offset : Nat}
    (size : offset = front.length) (four : old.length = 4) :
    setWord (front ++ old ++ rest) offset v = .ok (front ++ wordBytes v ++ rest) := by
  unfold setWord
  rw [if_neg, write_append size.symm four]
  rw [List.length_append, List.length_append]
  omega

theorem setWords_append {old rest : Bytes} {words : List UInt32} {offset : Nat}
    (size : offset = front.length) (room : old.length = 4 * words.length) :
    setWords (front ++ old ++ rest) offset words = .ok (front ++ bytesOf words ++ rest) := by
  induction words generalizing front old offset with
  | nil =>
    have none_ : old = [] := List.eq_nil_of_length_eq_zero room
    rw [none_]
    rfl
  | cons v words ih =>
    rw [List.length_cons] at room
    have split : front ++ old ++ rest = front ++ old.take 4 ++ (old.drop 4 ++ rest) := by
      rw [List.append_assoc front (old.take 4), ← List.append_assoc (old.take 4),
        List.take_append_drop, List.append_assoc]
    have four : (old.take 4).length = 4 := by
      rw [List.length_take]
      omega
    have later : (old.drop 4).length = 4 * words.length := by
      rw [List.length_drop]
      omega
    rw [setWords, split, setWord_append size four]
    change setWords (front ++ wordBytes v ++ (old.drop 4 ++ rest)) (offset + 4) words = _
    rw [← List.append_assoc, ih (by rw [List.length_append, length_wordBytes, size]) later,
      bytesOf_cons, List.append_assoc front]

structure SignatureElement.Encodable (e : SignatureElement) : Prop where
  named : e.name ≠ []
  short : e.name.length ≤ 255
  register : e.registerIndex < 32

def nameBlock (e : SignatureElement) : Bytes :=
  e.name ++ [0] ++ padding (e.name.length + 1)

def entryWords (offset : Nat) (e : SignatureElement) : List UInt32 :=
  [.ofNat offset, e.semanticIndex, e.systemValue, e.componentType, e.registerIndex, e.masks]

def entries : Nat → List SignatureElement → List UInt32
  | _, [] => []
  | offset, e :: rest => entryWords offset e ++ entries (offset + (nameBlock e).length) rest

def names (elements : List SignatureElement) : Bytes :=
  elements.flatMap nameBlock

theorem names_cons (e : SignatureElement) (rest : List SignatureElement) :
    names (e :: rest) = nameBlock e ++ names rest := rfl

theorem names_append (first rest : List SignatureElement) :
    names (first ++ rest) = names first ++ names rest :=
  List.flatMap_append

theorem length_padding (size : Nat) : (padding size).length = (4 - size % 4) % 4 :=
  List.length_replicate ..

theorem nameBlock_aligned (e : SignatureElement) : (nameBlock e).length % 4 = 0 := by
  unfold nameBlock
  rw [List.length_append, List.length_append, length_padding, List.length_singleton]
  omega

theorem nameBlock_length_le {e : SignatureElement} (encodable : e.Encodable) :
    (nameBlock e).length ≤ 260 := by
  have short := encodable.short
  unfold nameBlock
  rw [List.length_append, List.length_append, length_padding, List.length_singleton]
  omega

theorem names_length_le {elements : List SignatureElement}
    (encodable : ∀ e ∈ elements, e.Encodable) : (names elements).length ≤ 260 * elements.length := by
  induction elements with
  | nil => simp [names]
  | cons e rest ih =>
    have here := nameBlock_length_le (encodable e List.mem_cons_self)
    have later := ih fun other member => encodable other (List.mem_cons_of_mem e member)
    rw [names_cons, List.length_append, List.length_cons]
    omega

theorem length_entries (offset : Nat) (elements : List SignatureElement) :
    (entries offset elements).length = 6 * elements.length := by
  induction elements generalizing offset with
  | nil => rfl
  | cons e rest ih =>
    rw [entries, List.length_append, ih, List.length_cons]
    change 6 + _ = _
    omega

theorem entries_append (offset : Nat) (first rest : List SignatureElement) :
    entries offset (first ++ rest) =
      entries offset first ++ entries (offset + (names first).length) rest := by
  induction first generalizing offset with
  | nil => rfl
  | cons e first ih =>
    rw [List.cons_append, entries, entries, ih, List.append_assoc, names_cons, List.length_append,
      Nat.add_assoc]

theorem addElement_eq {rest named : Bytes} {i : Nat} {e : SignatureElement}
    (place : front.length = 8 + i * 24) (encodable : e.Encodable)
    (aligned : (front ++ List.replicate 24 0 ++ (rest ++ named)).length % 4 = 0) :
    addElement (front ++ List.replicate 24 0 ++ (rest ++ named)) i e =
      .ok (front ++ bytesOf (entryWords (front ++ List.replicate 24 0 ++ (rest ++ named)).length e) ++
        (rest ++ (named ++ nameBlock e))) := by
  unfold addElement
  rw [if_neg]
  swap
  · have short := encodable.short
    have register := encodable.register
    rintro (empty | long | high)
    · exact encodable.named empty
    · omega
    · exact absurd register (UInt32.not_lt.mpr high)
  generalize size : (front ++ List.replicate 24 0 ++ (rest ++ named)).length = length at aligned
  have padded : padding (front ++ List.replicate 24 0 ++ (rest ++ named) ++ e.name ++ [0]).length =
      padding (e.name.length + 1) := by
    unfold padding
    rw [List.length_append, List.length_append, size, List.length_singleton]
    congr 2
    omega
  have moved : front ++ List.replicate 24 0 ++ (rest ++ named) ++ e.name ++ [0] ++
      padding (e.name.length + 1) =
      front ++ List.replicate 24 0 ++ (rest ++ (named ++ nameBlock e)) := by
    simp [nameBlock]
  have written := @setWords_append front (List.replicate 24 0)
    (rest ++ (named ++ nameBlock e)) (entryWords length e) _ place.symm
    (by rw [List.length_replicate]; rfl)
  simp only [entryWords, setWords, Nat.add_assoc, Nat.reduceAdd, bind_pure] at written
  dsimp only
  rw [padded, moved]
  simpa only [entryWords, Nat.add_assoc] using written

theorem addElements_eq {named : Bytes} {i : Nat} {elements : List SignatureElement}
    (place : front.length = 8 + i * 24) (encodable : ∀ e ∈ elements, e.Encodable)
    (aligned : named.length % 4 = 0) :
    addElements (front ++ List.replicate (elements.length * 24) 0 ++ named) i elements =
      .ok (front ++
        bytesOf (entries (front.length + elements.length * 24 + named.length) elements) ++
        (named ++ names elements)) := by
  induction elements generalizing front named i with
  | nil => simp [addElements, entries, names, bytesOf]
  | cons e rest ih =>
    have here := encodable e List.mem_cons_self
    have room : front ++ List.replicate ((e :: rest).length * 24) 0 ++ named =
        front ++ List.replicate 24 0 ++ (List.replicate (rest.length * 24) 0 ++ named) := by
      rw [List.length_cons, Nat.succ_mul, Nat.add_comm, List.replicate_add]
      simp only [List.append_assoc]
    have size : (front ++ List.replicate 24 0 ++
        (List.replicate (rest.length * 24) 0 ++ named) : Bytes).length =
        front.length + (e :: rest).length * 24 + named.length := by
      simp only [List.length_append, List.length_replicate, List.length_cons]
      omega
    have step := @addElement_eq front (List.replicate (rest.length * 24) 0) named i e place here
      (by rw [size]; omega)
    rw [addElements, room, step, size]
    have filled : (front ++
        bytesOf (entryWords (front.length + (e :: rest).length * 24 + named.length) e)).length =
        8 + (i + 1) * 24 := by
      rw [List.length_append, length_bytesOf, place]
      change _ + 4 * 6 = _
      omega
    have later := @ih _ (named ++ nameBlock e) _ filled
      (fun other member => encodable other (List.mem_cons_of_mem e member))
      (by
        have block := nameBlock_aligned e
        rw [List.length_append]
        omega)
    have next : 8 + (i + 1) * 24 + rest.length * 24 + (named ++ nameBlock e).length =
        front.length + (e :: rest).length * 24 + named.length + (nameBlock e).length := by
      rw [List.length_append, List.length_cons, place]
      omega
    rw [filled, next] at later
    change addElements _ (i + 1) rest = _
    rw [← List.append_assoc, later, entries, names_cons, bytesOf_append]
    simp only [List.append_assoc]

def signatureBytes (elements : List SignatureElement) : Bytes :=
  bytesOf [.ofNat elements.length, 8] ++ bytesOf (entries (8 + elements.length * 24) elements) ++
    names elements

theorem makeSignature_eq {elements : List SignatureElement} (some_ : elements ≠ [])
    (few : elements.length ≤ 128) (encodable : ∀ e ∈ elements, e.Encodable) :
    makeSignature elements = .ok (signatureBytes elements) := by
  unfold makeSignature
  rw [if_neg (not_or.mpr ⟨some_, by omega⟩)]
  have made := @addElements_eq (bytesOf [.ofNat elements.length, 8]) [] 0 _ rfl encodable rfl
  rw [List.append_nil, List.nil_append] at made
  exact made

theorem name_reads {rest name : Bytes} (plain : 0 ∉ name) (offset : Nat)
    (size : front.length = offset) :
    ((front ++ (name ++ 0 :: rest)).drop offset).takeWhile (· ≠ 0) = name := by
  rw [List.drop_left' size, List.takeWhile_append_of_pos]
  · simp
  · intro b inside
    simp only [ne_eq, decide_eq_true_eq]
    rintro rfl
    exact plain inside

section

variable {elements done rest : List SignatureElement} {e : SignatureElement}

theorem signatureBytes_entry (split : elements = done ++ e :: rest) :
    signatureBytes elements =
      bytesOf [.ofNat elements.length, 8] ++ bytesOf (entries (8 + elements.length * 24) done) ++
        bytesOf (entryWords (8 + elements.length * 24 + (names done).length) e) ++
        (bytesOf (entries (8 + elements.length * 24 + (names done).length + (nameBlock e).length)
          rest) ++ names elements) := by
  unfold signatureBytes
  conv_lhs => rw [split, entries_append, entries, ← split]
  simp only [bytesOf_append, List.append_assoc]

theorem signatureBytes_name (split : elements = done ++ e :: rest) :
    signatureBytes elements =
      bytesOf [.ofNat elements.length, 8] ++
        bytesOf (entries (8 + elements.length * 24) elements) ++ names done ++
        (e.name ++ 0 :: (padding (e.name.length + 1) ++ names rest)) := by
  unfold signatureBytes
  conv_lhs => rw [split, names_append, names_cons, ← split]
  simp [nameBlock]

theorem parseElement_signatureBytes (split : elements = done ++ e :: rest)
    (few : elements.length ≤ 128) (encodable : ∀ e ∈ elements, e.Encodable) (plain : 0 ∉ e.name) :
    parseElement (signatureBytes elements) done.length = .ok e := by
  have offsets : 8 + elements.length * 24 + (names done).length < 2 ^ 32 := by
    have small := @names_length_le done fun other member =>
      encodable other (by rw [split]; exact List.mem_append_left _ member)
    have shorter : done.length ≤ elements.length := by
      rw [split, List.length_append]
      omega
    omega
  have place : (bytesOf [UInt32.ofNat elements.length, 8] ++
      bytesOf (entries (8 + elements.length * 24) done)).length = 8 + done.length * 24 := by
    rw [List.length_append, length_bytesOf, length_bytesOf, length_entries]
    change 4 * 2 + _ = _
    omega
  have named : (bytesOf [UInt32.ofNat elements.length, 8] ++
      bytesOf (entries (8 + elements.length * 24) elements) ++ names done).length =
      8 + elements.length * 24 + (names done).length := by
    rw [List.length_append, List.length_append, length_bytesOf, length_bytesOf, length_entries]
    change 4 * 2 + _ + _ = _
    omega
  generalize offset : 8 + elements.length * 24 + (names done).length = at_ at offsets named
  have reads (before : List UInt32) (v : UInt32) (after : List UInt32)
      (row : entryWords at_ e = before ++ v :: after) :
      word (signatureBytes elements) (8 + done.length * 24 + 4 * before.length) = .ok v := by
    rw [signatureBytes_entry split, offset, row]
    exact word_in_row before after (by rw [place])
  have pointer : (UInt32.ofNat at_).toNat = at_ := by
    exact Nat.mod_eq_of_lt offsets
  have name := @name_reads _ (padding (e.name.length + 1) ++ names rest) _ plain at_ named
  rw [← signatureBytes_name split] at name
  have size : (signatureBytes elements).length = at_ + e.name.length + 1 +
      (padding (e.name.length + 1) ++ names rest).length := by
    rw [signatureBytes_name split, List.length_append, named, List.length_append, List.length_cons]
    omega
  have nonempty := (encodable e (by rw [split]; simp)).named
  refine bind_eq_ok.mpr ⟨_, reads [] _ _ rfl, check_eq_ok.mpr ⟨?_, check_eq_ok.mpr ⟨?_, ?_⟩⟩⟩
  · rw [pointer]
    omega
  · rw [pointer, name, List.length_drop]
    rintro (whole | empty)
    · omega
    · exact nonempty empty
  rw [pointer, name]
  refine bind_eq_ok.mpr ⟨_, reads [_] e.semanticIndex _ rfl, ?_⟩
  refine bind_eq_ok.mpr ⟨_, reads [_, _] e.systemValue _ rfl, ?_⟩
  refine bind_eq_ok.mpr ⟨_, reads [_, _, _] e.componentType _ rfl, ?_⟩
  refine bind_eq_ok.mpr ⟨_, reads [_, _, _, _] e.registerIndex _ rfl, ?_⟩
  exact bind_eq_ok.mpr ⟨_, reads [_, _, _, _, _] e.masks _ rfl, rfl⟩

end

theorem parseElement_name {i : Nat} {e : SignatureElement} (parsed : parseElement bytes i = .ok e) :
    e.name ≠ [] ∧ 0 ∉ e.name := by
  obtain ⟨offset, -, parsed⟩ := bind_eq_ok.mp parsed
  obtain ⟨-, parsed⟩ := check_eq_ok.mp parsed
  obtain ⟨lawful, parsed⟩ := check_eq_ok.mp parsed
  obtain ⟨semanticIndex, -, parsed⟩ := bind_eq_ok.mp parsed
  obtain ⟨systemValue, -, parsed⟩ := bind_eq_ok.mp parsed
  obtain ⟨componentType, -, parsed⟩ := bind_eq_ok.mp parsed
  obtain ⟨registerIndex, -, parsed⟩ := bind_eq_ok.mp parsed
  obtain ⟨masks, -, parsed⟩ := bind_eq_ok.mp parsed
  cases parsed
  refine ⟨(not_or.mp lawful).2, fun inside => ?_⟩
  have read := List.mem_takeWhile_imp inside
  simp at read

theorem parseSignature_produces {elements : List SignatureElement}
    (parsed : parseSignature bytes = .ok elements) :
    elements.length ≤ 128 ∧ ∀ e ∈ elements, e.name ≠ [] ∧ 0 ∉ e.name := by
  unfold parseSignature at parsed
  obtain ⟨-, parsed⟩ := check_eq_ok.mp parsed
  obtain ⟨header, -, parsed⟩ := bind_eq_ok.mp parsed
  obtain ⟨-, parsed⟩ := check_eq_ok.mp parsed
  obtain ⟨count, -, parsed⟩ := bind_eq_ok.mp parsed
  obtain ⟨lawful, parsed⟩ := check_eq_ok.mp parsed
  refine ⟨?_, fun e member => ?_⟩
  · rw [length_of_mapM parsed, List.length_range]
    exact UInt32.not_lt.mp (not_or.mp lawful).1
  · obtain ⟨i, -, read⟩ := mem_of_mapM parsed member
    exact parseElement_name read

theorem parseSignature_signatureBytes {elements : List SignatureElement}
    (few : elements.length ≤ 128) (encodable : ∀ e ∈ elements, e.Encodable)
    (plain : ∀ e ∈ elements, 0 ∉ e.name) :
    parseSignature (signatureBytes elements) = .ok elements := by
  have count : (UInt32.ofNat elements.length).toNat = elements.length := by
    exact Nat.mod_eq_of_lt (by omega)
  have size : (signatureBytes elements).length = 8 + elements.length * 24 + (names elements).length := by
    unfold signatureBytes
    rw [List.length_append, List.length_append, length_bytesOf, length_bytesOf, length_entries]
    change 4 * 2 + _ + _ = _
    omega
  have header (before : List UInt32) (v : UInt32) (after : List UInt32)
      (row : [.ofNat elements.length, 8] = before ++ v :: after) :
      word (signatureBytes elements) (4 * before.length) = .ok v := by
    unfold signatureBytes
    rw [row, List.append_assoc]
    exact @word_in_row [] _ before _ after _ (by simp)
  unfold parseSignature
  refine check_eq_ok.mpr ⟨by omega, bind_eq_ok.mpr ⟨_, header [_] 8 [] rfl, ?_⟩⟩
  refine check_eq_ok.mpr ⟨not_not.mpr rfl, bind_eq_ok.mpr ⟨_, header [] _ _ rfl, ?_⟩⟩
  refine check_eq_ok.mpr ⟨?_, ?_⟩
  · rw [count, UInt32.lt_iff_toNat_lt, count]
    rintro (many | long)
    · exact absurd few (Nat.not_le.mpr many)
    · omega
  · rw [count]
    exact mapM_range_eq elements fun done e rest split =>
      parseElement_signatureBytes split few encodable (plain e (by rw [split]; simp))

end EdvrPatch.Dxbc
