import Mathlib

/-! Finite maps as association lists: a lookup, an update and a removal, with
the equations that say what a lookup sees afterwards. -/
namespace EdvrPatch.Lib

abbrev Store (κ ν : Type) := List (κ × ν)

namespace Store

variable {κ ν : Type} [DecidableEq κ]

def get (store : Store κ ν) (k : κ) : Option ν :=
  (store.find? fun entry => entry.1 = k).map Prod.snd

def erase (store : Store κ ν) (k : κ) : Store κ ν :=
  store.filter fun entry => entry.1 ≠ k

def set (store : Store κ ν) (k : κ) (v : ν) : Store κ ν :=
  (k, v) :: store.erase k

def adjust (store : Store κ ν) (k : κ) (f : ν → ν) : Store κ ν :=
  store.map fun entry => if entry.1 = k then (entry.1, f entry.2) else entry

@[simp] theorem get_nil (k : κ) : get ([] : Store κ ν) k = none := rfl

theorem get_erase (store : Store κ ν) (k j : κ) :
    (store.erase k).get j = if j = k then none else store.get j := by
  induction store with
  | nil => simp [erase, get]
  | cons entry rest ih =>
    obtain ⟨key, value⟩ := entry
    unfold erase get at ih ⊢
    by_cases hk : key = k
    · by_cases hj : j = k
      · simp_all
      · have : key ≠ j := fun h => hj (h.symm.trans hk)
        simp_all
    · by_cases hj : j = k
      · have : key ≠ j := fun h => hk (h.trans hj)
        simp_all
      · by_cases same : key = j
        · simp_all
        · simp_all

theorem get_set (store : Store κ ν) (k j : κ) (v : ν) :
    (store.set k v).get j = if j = k then some v else store.get j := by
  by_cases h : j = k
  · subst h
    simp [set, get]
  · have erased := get_erase store k j
    rw [if_neg h] at erased ⊢
    rw [← erased]
    have : k ≠ j := fun same => h same.symm
    simp [set, get, this]

@[simp] theorem get_set_self (store : Store κ ν) (k : κ) (v : ν) :
    (store.set k v).get k = some v := by
  simp [get_set]

theorem get_set_of_ne {store : Store κ ν} {k j : κ} {v : ν} (h : j ≠ k) :
    (store.set k v).get j = store.get j := by
  simp [get_set, h]

theorem get_adjust (store : Store κ ν) (k j : κ) (f : ν → ν) :
    (store.adjust k f).get j = if j = k then (store.get k).map f else store.get j := by
  induction store with
  | nil => simp [adjust, get]
  | cons entry rest ih =>
    obtain ⟨key, value⟩ := entry
    unfold adjust get at ih ⊢
    by_cases hk : key = k
    · by_cases hj : j = k
      · simp_all
      · have : key ≠ j := fun h => hj (h.symm.trans hk)
        simp_all
    · by_cases hj : j = k
      · have : key ≠ j := fun h => hk (h.trans hj)
        simp_all
      · by_cases same : key = j <;> simp_all

theorem keys_adjust (store : Store κ ν) (k : κ) (f : ν → ν) :
    (store.adjust k f).map Prod.fst = store.map Prod.fst := by
  unfold adjust
  rw [List.map_map]
  congr 1
  funext entry
  simp only [Function.comp]
  split <;> rfl

theorem mem_keys_iff {store : Store κ ν} {k : κ} :
    k ∈ store.map Prod.fst ↔ ∃ v, store.get k = some v := by
  unfold get
  rw [← Option.isSome_iff_exists, Option.isSome_map, List.find?_isSome, List.mem_map]
  simp

end Store

end EdvrPatch.Lib
