import Mathlib

/-! What is found in a text that arrives in parts. `look` reads one thing off the front of a text.
An answer it has given stays when more text follows, so a longer text has the things found in the
part that came first, those that begin there and end later, and those of the rest. -/
namespace EdvrPatch.Lib

variable {α β : Type}

/-- Everything that is read off some position of a text, in order. -/
def found (look : List α → Option β) : List α → List β
  | [] => []
  | a :: rest => (look (a :: rest)).toList ++ found look rest

def foundBefore (look : List α → Option β) (rest : List α) : List α → List β
  | [] => []
  | a :: first => (look (a :: first ++ rest)).toList ++ foundBefore look rest first

def spanning (look : List α → Option β) (rest : List α) : List α → List β
  | [] => []
  | a :: first =>
    (if look (a :: first) = none then (look (a :: first ++ rest)).toList else []) ++
      spanning look rest first

variable (look : List α → Option β)

theorem found_append (first rest : List α) :
    found look (first ++ rest) = foundBefore look rest first ++ found look rest := by
  induction first with
  | nil => rfl
  | cons a first ih => simp [found, foundBefore, ih]

theorem mem_found {text : List α} {b : β} (member : b ∈ found look text) :
    ∃ tail, tail <:+ text ∧ look tail = some b := by
  induction text with
  | nil => cases member
  | cons a text ih =>
    rcases List.mem_append.mp member with here | later
    · exact ⟨a :: text, List.suffix_rfl, by simpa using here⟩
    · obtain ⟨tail, inside, read⟩ := ih later
      exact ⟨tail, inside.trans (List.suffix_cons a text), read⟩

theorem spanning_append (first more rest : List α) :
    ∃ before, spanning look rest (first ++ more) = before ++ spanning look rest more ∧
      ∀ b ∈ before, ∃ a tail, a :: tail <:+ first ∧ look (a :: tail ++ more) = none ∧
        look (a :: tail ++ more ++ rest) = some b := by
  induction first with
  | nil => exact ⟨[], rfl, nofun⟩
  | cons a first ih =>
    obtain ⟨before, split, known⟩ := ih
    refine ⟨(if look (a :: first ++ more) = none then (look (a :: first ++ more ++ rest)).toList
      else []) ++ before, ?_, ?_⟩
    · rw [List.cons_append, spanning, split, List.append_assoc]
    · intro b member
      rcases List.mem_append.mp member with here | later
      · split_ifs at here with unread
        · exact ⟨a, first, List.suffix_rfl, unread, by simpa using here⟩
        · cases here
      · obtain ⟨c, tail, inside, read⟩ := known b later
        exact ⟨c, tail, inside.trans (List.suffix_cons a first), read⟩

end EdvrPatch.Lib
