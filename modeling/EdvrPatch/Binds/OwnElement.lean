import EdvrPatch.Binds.EliteBinds

/-! What a lookup in the bindings file knows from its own element: an attribute search that
ends inside the element is settled by it, and where all of them are, so is the answer. -/
namespace EdvrPatch.Binds

open Lib

/-! ### One attribute -/

/-- An attribute search that looks no further than the end of the text; `none` where what
follows the text has a say in it. -/
def settledAttr (text : Text) (i span : Nat) (attr : String) : Option (Option Text) :=
  match find text (needleOf attr) i with
  | none => if i + span < text.length then some none else none
  | some at_ =>
    if i + span < at_ then some none
    else if (find text ['"'] (at_ + (needleOf attr).length)).isSome then some (attrAfter text i span attr)
    else none

section Attribute

variable {pre rest front : Text} {i span : Nat} {attr : String}

theorem needleOf_ne_nil (attr : String) : needleOf attr ≠ [] := by
  simp [needleOf]

theorem not_mem_needleOf (name : '>' ∉ attr.toList) : '>' ∉ needleOf attr := by
  simpa [needleOf] using name

theorem attrAfter_of_settled (ends : pre = front ++ ['>']) (name : '>' ∉ attr.toList) {value : Option Text}
    (settled : settledAttr pre i span attr = some value) :
    attrAfter (pre ++ rest) i span attr = value := by
  unfold settledAttr at settled
  have solid := needleOf_ne_nil attr
  split at settled
  · rename_i missing
    split at settled
    · rename_i short
      cases settled
      unfold attrAfter
      cases found : find (pre ++ rest) (needleOf attr) i with
      | none => rfl
      | some k =>
        have beyond := find_append_of_none ends (not_mem_needleOf name) solid missing found
        dsimp only
        rw [if_pos (by omega)]
    · cases settled
  · rename_i k found
    have foundAll : find (pre ++ rest) (needleOf attr) i = some k := find_append_of_some solid found
    split at settled
    · rename_i far
      cases settled
      unfold attrAfter
      rw [foundAll]
      exact if_pos far
    · rename_i near
      split at settled
      · rename_i quoted
        cases settled
        obtain ⟨stop, quote⟩ := Option.isSome_iff_exists.mp quoted
        have quoteAll : find (pre ++ rest) ['"'] (k + (needleOf attr).length) = some stop :=
          find_append_of_some (by simp) quote
        obtain ⟨later, stands, -⟩ := find_some quote
        have inside : stop + 1 ≤ pre.length := stands.fits (by simp)
        unfold attrAfter
        rw [foundAll, found]
        dsimp only
        rw [if_neg near, quoteAll, quote, Option.map_some, Option.map_some,
          List.drop_append_of_le_length (by omega), List.take_append_of_le_length, if_neg near]
        rw [List.length_drop]
        omega
      · cases settled

theorem attrAfter_settled_iff (ends : pre = front ++ ['>']) (name : '>' ∉ attr.toList) (inside : i ≤ pre.length) :
    (∀ rest rest' : Text, attrAfter (pre ++ rest) i span attr = attrAfter (pre ++ rest') i span attr) ↔
      (settledAttr pre i span attr).isSome := by
  constructor
  · intro same
    have solid := needleOf_ne_nil attr
    unfold settledAttr
    split
    · rename_i missing
      split
      · rfl
      · rename_i long
        -- the attribute right behind the text, and nothing behind it
        have differ := same (needleOf attr ++ ['"']) []
        rw [List.append_nil] at differ
        have here : find (pre ++ (needleOf attr ++ ['"'])) (needleOf attr) i = some pre.length := by
          refine find_eq_some solid ?_ inside fun j later before stands => ?_
          · unfold Stands
            rw [List.drop_left]
            exact List.prefix_append _ _
          · cases found : find (pre ++ (needleOf attr ++ ['"'])) (needleOf attr) i with
            | none => exact find_none found solid j later stands
            | some k =>
              have beyond := find_append_of_none ends (not_mem_needleOf name) solid missing found
              obtain ⟨-, -, first⟩ := find_some found
              exact first j later (by omega) stands
        have quote : find (pre ++ (needleOf attr ++ ['"'])) ['"'] (pre.length + (needleOf attr).length) =
            some (pre.length + (needleOf attr).length) := by
          refine find_eq_some (by simp) ?_ (Nat.le_refl _) fun j later before => by omega
          unfold Stands
          rw [← List.append_assoc, List.drop_left' (by rw [List.length_append])]
        unfold attrAfter at differ
        rw [here, missing] at differ
        dsimp only at differ
        rw [if_neg (by omega), quote] at differ
        cases differ
    · rename_i k found
      split
      · rfl
      · rename_i near
        split
        · rfl
        · rename_i open_
          have missing : find pre ['"'] (k + (needleOf attr).length) = none := by
            simpa using open_
          have differ := same ['"'] []
          have foundAll : ∀ rest, find (pre ++ rest) (needleOf attr) i = some k :=
            fun rest => find_append_of_some solid found
          have late : k + (needleOf attr).length ≤ pre.length := by
            obtain ⟨-, stands, -⟩ := find_some found
            exact stands.fits solid
          have quote : find (pre ++ ['"']) ['"'] (k + (needleOf attr).length) = some pre.length := by
            refine find_eq_some (by simp) ?_ late fun j later before stands => ?_
            · unfold Stands
              rw [List.drop_left]
            · exact find_none missing (by simp) j later ((stands_append before).mp stands)
          unfold attrAfter at differ
          rw [foundAll, foundAll] at differ
          dsimp only at differ
          rw [if_neg near, if_neg near, quote, List.append_nil, missing] at differ
          cases differ
  · intro settled rest rest'
    obtain ⟨value, is⟩ := Option.isSome_iff_exists.mp settled
    rw [attrAfter_of_settled ends name is, attrAfter_of_settled ends name is]

end Attribute

/-! ### A whole lookup -/

/-- A run that stops where it is not settled, and the code's own run: where the first comes
to an end, so does the second, with the same answer. -/
def Follows {α : Type} (x : Option α) (y : Id α) : Prop :=
  ∀ a, x = some a → y = a

namespace Follows

variable {α β : Type}

theorem pure (a : α) : Follows (Pure.pure a) (Pure.pure a) := by
  rintro b ⟨⟩
  rfl

theorem bind {x : Option α} {y : Id α} {f : α → Option β} {g : α → Id β} (first : Follows x y)
    (next : ∀ a, Follows (f a) (g a)) : Follows (x >>= f) (y >>= g) := by
  intro b settled
  obtain ⟨a, known, then_⟩ := Option.bind_eq_some_iff.mp settled
  cases first a known
  exact next _ b then_

end Follows

theorem tagAfter_getD_le (text tag : Text) (i b : Nat) : (tagAfter text tag i (· < b)).getD b ≤ b := by
  cases found : tagAfter text tag i (· < b) with
  | none => exact Nat.le_refl b
  | some k =>
    obtain ⟨-, before⟩ := Option.filter_eq_some_iff.mp found
    exact Nat.le_of_lt (of_decide_eq_true before)

theorem slotEnd_le (text : Text) (s stop : Nat) : slotEnd text s stop ≤ stop :=
  List.foldlRecOn slotTags _ (motive := fun b => b ≤ stop) (Nat.le_refl _) fun b less tag _ =>
    (tagAfter_getD_le text tag (s + 1) b).trans less

/-- The text of an element stands at the end of this one, behind whatever is in front of it. -/
structure OwnElement (pre element : Text) (el stop : Nat) : Prop where
  opened : find pre (openTag element) 0 = some el
  closed : find pre (closeTag element) el = some stop
  last : pre.length = stop + (closeTag element).length

namespace OwnElement

variable {pre element rest : Text} {el stop : Nat} (own : OwnElement pre element el stop)
include own

theorem stop_lt : stop < pre.length := by
  have last := own.last
  rw [closeTag, List.length_append, List.length_cons, List.length_cons] at last
  omega

theorem ends : ∃ front, pre = front ++ ['>'] := by
  obtain ⟨-, ⟨tail, same⟩, -⟩ := find_some own.closed
  have last := own.last
  have empty : tail = [] := by
    have size := congrArg List.length same
    rw [List.length_append, List.length_drop] at size
    exact List.eq_nil_of_length_eq_zero (by omega)
  rw [empty, List.append_nil] at same
  refine ⟨pre.take stop ++ ('<' :: '/' :: element), ?_⟩
  rw [List.append_assoc]
  calc pre = pre.take stop ++ pre.drop stop := (List.take_append_drop _ _).symm
    _ = _ := by rw [← same]; rfl

theorem boundsOf_append : boundsOf (pre ++ rest) element = some (el, stop) := by
  have opened : find (pre ++ rest) (openTag element) 0 = some el :=
    find_append_of_some (by simp [openTag]) own.opened
  have closed : find (pre ++ rest) (closeTag element) el = some stop :=
    find_append_of_some (by simp [closeTag]) own.closed
  unfold boundsOf
  rw [opened, Option.map_some, closed, Option.getD_some]

theorem boundsOf_self : boundsOf pre element = some (el, stop) := by
  have whole : boundsOf (pre ++ []) element = some (el, stop) := own.boundsOf_append
  rwa [List.append_nil] at whole

theorem tagAfter_append {tag : Text} (known : tag ∈ modifierTag :: slotTags) (i : Nat) {p : Nat → Bool}
    (below : ∀ k, stop < k → p k = false) : tagAfter (pre ++ rest) tag i p = tagAfter pre tag i p := by
  obtain ⟨front, ends⟩ := own.ends
  have plain : ∀ tag ∈ modifierTag :: slotTags, '>' ∉ tag ∧ tag ≠ [] := by decide
  obtain ⟨without, solid⟩ := plain tag known
  exact filter_find_append ends without solid p fun k late => below k (own.stop_lt.trans_le late)

theorem follows_attr (i span : Nat) {attr : String} (name : '>' ∉ attr.toList) :
    Follows (settledAttr pre i span attr) (attrAfter (pre ++ rest) i span attr) := by
  obtain ⟨front, ends⟩ := own.ends
  exact fun value settled => attrAfter_of_settled ends name settled

theorem follows_modifierAt (mod : Nat) :
    Follows (modifierAt (settledAttr pre) mod) (modifierAt (m := Id) (attrAfter (pre ++ rest)) mod) := by
  refine Follows.bind (own.follows_attr _ _ (by decide)) fun device => ?_
  cases device with
  | none => exact Follows.pure _
  | some device =>
    dsimp only
    split
    · refine Follows.bind (own.follows_attr _ _ (by decide)) fun key => ?_
      cases key with
      | none => exact Follows.pure _
      | some key => exact Follows.pure _
    · exact Follows.pure _

theorem follows_modifiers {bound : Nat} (inside : bound ≤ stop) (guard i : Nat) :
    Follows (modifiers (settledAttr pre) pre bound guard i)
      (modifiers (m := Id) (attrAfter (pre ++ rest)) (pre ++ rest) bound guard i) := by
  induction guard generalizing i with
  | zero => exact Follows.pure _
  | succ guard ih =>
    unfold modifiers
    rw [own.tagAfter_append (by simp) i fun k late => decide_eq_false (by omega)]
    cases tagAfter pre modifierTag i (· ≤ bound) with
    | none => exact Follows.pure _
    | some mod =>
      exact Follows.bind (own.follows_modifierAt mod) fun own' => Follows.bind (ih _) fun rest' =>
        Follows.pure _

variable {slots : List Text}

theorem follows_elementSlots (outLen rawKbLen : Nat) (known : slots ⊆ slotTags) (rawKb : Text) :
    Follows (elementSlots (settledAttr pre) pre el stop outLen rawKbLen slots rawKb)
      (elementSlots (m := Id) (attrAfter (pre ++ rest)) (pre ++ rest) el stop outLen rawKbLen slots rawKb) := by
  induction slots generalizing rawKb with
  | nil => exact Follows.pure _
  | cons slot slots ih =>
    obtain ⟨isSlot, known⟩ := List.cons_subset.mp known
    have later := ih known
    unfold elementSlots
    rw [own.tagAfter_append (List.mem_cons_of_mem _ isSlot) el fun k late => decide_eq_false (by omega)]
    cases tagAfter pre slot el (· ≤ stop) with
    | none => exact later _
    | some s =>
      refine Follows.bind (own.follows_attr _ _ (by decide)) fun device => ?_
      cases device with
      | none => exact later _
      | some device =>
        dsimp only
        split
        · refine Follows.bind (own.follows_attr _ _ (by decide)) fun key => ?_
          cases key with
          | none => exact later _
          | some key =>
            dsimp only
            split
            · exact later _
            · exact Follows.bind (own.follows_modifiers (Nat.le_refl _) _ _) fun _ => Follows.pure _
        · exact later _

theorem follows_element (outLen rawKbLen : Nat) :
    Follows (parseElementWith (settledAttr pre) pre element outLen rawKbLen)
      (parseElementIn (pre ++ rest) element outLen rawKbLen) := by
  unfold parseElementIn parseElementWith
  rw [own.boundsOf_self, own.boundsOf_append]
  exact Follows.bind (own.follows_elementSlots _ _ (List.Subset.refl _) _) fun _ => Follows.pure _

theorem slotEnd_append (s : Nat) : slotEnd (pre ++ rest) s stop = slotEnd pre s stop := by
  have turn : ∀ b, b ≤ stop → ∀ tags ⊆ slotTags,
      tags.foldl (fun b other => (tagAfter (pre ++ rest) other (s + 1) (· < b)).getD b) b =
        tags.foldl (fun b other => (tagAfter pre other (s + 1) (· < b)).getD b) b := by
    intro b less tags known
    induction tags generalizing b with
    | nil => rfl
    | cons tag tags ih =>
      obtain ⟨isTag, known⟩ := List.cons_subset.mp known
      rw [List.foldl_cons, List.foldl_cons,
        own.tagAfter_append (List.mem_cons_of_mem _ isTag) _ fun k late => decide_eq_false (by omega)]
      exact ih _ ((tagAfter_getD_le pre tag (s + 1) b).trans less) known
  exact turn stop (Nat.le_refl _) slotTags (List.Subset.refl _)

theorem follows_allSlots (allow : Bool) (known : slots ⊆ slotTags) :
    Follows (allSlots (settledAttr pre) pre el stop allow slots)
      (allSlots (m := Id) (attrAfter (pre ++ rest)) (pre ++ rest) el stop allow slots) := by
  induction slots with
  | nil => exact Follows.pure _
  | cons slot slots ih =>
    obtain ⟨isSlot, known⟩ := List.cons_subset.mp known
    have later := ih known
    unfold allSlots
    rw [own.tagAfter_append (List.mem_cons_of_mem _ isSlot) el fun k late => decide_eq_false (by omega)]
    cases tagAfter pre slot el (· ≤ stop) with
    | none => exact later
    | some s =>
      refine Follows.bind (own.follows_attr _ _ (by decide)) fun device => ?_
      cases device with
      | none => exact later
      | some device =>
        refine Follows.bind (own.follows_attr _ _ (by decide)) fun key => ?_
        cases key with
        | none => exact later
        | some key =>
          dsimp only
          split
          · exact later
          · rw [own.slotEnd_append]
            exact Follows.bind (own.follows_modifiers (slotEnd_le pre s stop) _ _) fun _ =>
              Follows.bind later fun _ => Follows.pure _

theorem follows_slots (allow : Bool) :
    Follows (parseElementSlotsWith (settledAttr pre) pre element allow)
      (parseElementSlotsIn (pre ++ rest) element allow) := by
  unfold parseElementSlotsIn parseElementSlotsWith
  rw [own.boundsOf_self, own.boundsOf_append]
  exact Follows.bind (own.follows_allSlots _ (List.Subset.refl _)) fun _ => Follows.pure _

theorem follows_padSlots (outLen : Nat) (modLen : Option Nat) (known : slots ⊆ slotTags) :
    Follows (padSlots (settledAttr pre) pre el stop outLen modLen slots)
      (padSlots (m := Id) (attrAfter (pre ++ rest)) (pre ++ rest) el stop outLen modLen slots) := by
  induction slots with
  | nil => exact Follows.pure _
  | cons slot slots ih =>
    obtain ⟨isSlot, known⟩ := List.cons_subset.mp known
    have later := ih known
    unfold padSlots
    rw [own.tagAfter_append (List.mem_cons_of_mem _ isSlot) el fun k late => decide_eq_false (by omega)]
    cases tagAfter pre slot el (· ≤ stop) with
    | none => exact later
    | some s =>
      refine Follows.bind (own.follows_attr _ _ (by decide)) fun device => ?_
      cases device with
      | none => exact later
      | some device =>
        dsimp only
        split
        · refine Follows.bind (own.follows_attr _ _ (by decide)) fun key => ?_
          cases key with
          | none => exact later
          | some key =>
            dsimp only
            have bound := slotEnd_le pre s stop
            rw [own.slotEnd_append,
              own.tagAfter_append (by simp) s fun k late => decide_eq_false (by omega)]
            cases tagAfter pre modifierTag s (· < slotEnd pre s stop) with
            | none =>
              cases modLen with
              | none => exact Follows.pure _
              | some modLen => exact later
            | some mod =>
              cases modLen with
              | none => exact later
              | some modLen =>
                refine Follows.bind (own.follows_attr _ _ (by decide)) fun modKey => ?_
                cases modKey with
                | none => exact later
                | some modKey => exact Follows.pure _
        · exact later

theorem follows_pad (outLen : Nat) (modLen : Option Nat) :
    Follows (parsePadWith (settledAttr pre) pre element outLen modLen)
      (parsePadIn (pre ++ rest) element outLen modLen) := by
  unfold parsePadIn parsePadWith
  rw [own.boundsOf_self, own.boundsOf_append]
  exact Follows.bind (own.follows_padSlots _ _ (List.Subset.refl _)) fun _ => Follows.pure _

end OwnElement

def uptoClose (text element : Text) (stop : Nat) : Text :=
  text.take (stop + (closeTag element).length)

theorem ownElement_uptoClose {text element : Text} {el stop : Nat}
    (opened : find text (openTag element) 0 = some el) (closed : find text (closeTag element) el = some stop) :
    OwnElement (uptoClose text element stop) element el stop := by
  obtain ⟨later, stands, -⟩ := find_some closed
  have solid : closeTag element ≠ [] := by simp [closeTag]
  have fits := stands.fits solid
  refine ⟨find_take (by simp [openTag]) opened ?_, find_take solid closed (Nat.le_refl _), ?_⟩
  · simp only [openTag, closeTag, List.length_append, List.length_cons, List.length_nil]
    omega
  · rw [uptoClose, List.length_take]
    omega

/-- Where no attribute search of a parser leaves its element, the answer is the element's own;
and what a single search finds is so exactly where it does not leave it. -/
theorem lookup_own_element {text element : Text} {el stop : Nat}
    (opened : find text (openTag element) 0 = some el) (closed : find text (closeTag element) el = some stop)
    (rest : Text) :
    let pre := uptoClose text element stop
    (∀ outLen rawKbLen, (parseElementWith (settledAttr pre) pre element outLen rawKbLen).isSome →
      parseElementIn (pre ++ rest) element outLen rawKbLen = parseElementIn text element outLen rawKbLen) ∧
    (∀ allow, (parseElementSlotsWith (settledAttr pre) pre element allow).isSome →
      parseElementSlotsIn (pre ++ rest) element allow = parseElementSlotsIn text element allow) ∧
    (∀ outLen modLen, (parsePadWith (settledAttr pre) pre element outLen modLen).isSome →
      parsePadIn (pre ++ rest) element outLen modLen = parsePadIn text element outLen modLen) ∧
    ∀ i ≤ pre.length, ∀ span, ∀ attr : String, '>' ∉ attr.toList →
      ((∀ rest rest' : Text, attrAfter (pre ++ rest) i span attr = attrAfter (pre ++ rest') i span attr) ↔
        (settledAttr pre i span attr).isSome) := by
  intro pre
  have own : OwnElement pre element el stop := ownElement_uptoClose opened closed
  have whole : pre ++ text.drop (stop + (closeTag element).length) = text := List.take_append_drop _ _
  refine ⟨fun outLen rawKbLen settled => ?_, fun allow settled => ?_, fun outLen modLen settled => ?_,
    fun i inside span attr name => ?_⟩
  · obtain ⟨answer, is⟩ := Option.isSome_iff_exists.mp settled
    rw [← whole, own.follows_element _ _ _ is, own.follows_element _ _ _ is]
  · obtain ⟨answer, is⟩ := Option.isSome_iff_exists.mp settled
    rw [← whole, own.follows_slots _ _ is, own.follows_slots _ _ is]
  · obtain ⟨answer, is⟩ := Option.isSome_iff_exists.mp settled
    rw [← whole, own.follows_pad _ _ _ is, own.follows_pad _ _ _ is]
  · obtain ⟨front, ends⟩ := own.ends
    exact attrAfter_settled_iff ends name inside

section Samples

def sampleWhole : Text :=
  "<A><Primary Device=\"Keyboard\" Key=\"Key_G\"/></A>".toList

def sampleKeyless : Text :=
  "<A><Primary Device=\"Keyboard\"/></A><B Key=\"Key_G\"/>".toList

theorem lookup_own_element_whole :
    parseElementIn (uptoClose sampleWhole ['A'] 43 ++ "Device=\"".toList) ['A'] 32 32 =
      parseElementIn sampleWhole ['A'] 32 32 :=
  (@lookup_own_element _ _ 0 _ (by decide +kernel) (by decide +kernel) _).1 32 32 (by decide +kernel)

/-- The element that has no key answers with the one of its neighbour. -/
theorem lookup_borrows_key :
    ¬∀ (text element rest : Text) (el stop : Nat), find text (openTag element) 0 = some el →
      find text (closeTag element) el = some stop →
      parseElementIn (uptoClose text element stop ++ rest) element 32 32 = parseElementIn text element 32 32 := by
  intro own
  have same := own sampleKeyless ['A'] [] 0 31 (by decide +kernel) (by decide +kernel)
  revert same
  decide +kernel

end Samples

end EdvrPatch.Binds
