import EdvrPatch.Installer.FileSystem

/-! Paths of files: a folder and a name. -/
namespace EdvrPatch.Installer

def dirPrefix (dir : Text) : Text :=
  if dir = [] then []
  else if (dir.getLast?.map isSlash).getD false then dir
  else dir ++ ['\\']

structure FileName (name : Text) : Prop where
  ne_nil : name ≠ []
  noSlash : ∀ c ∈ name, isSlash c = false

instance (name : Text) : Decidable (FileName name) :=
  decidable_of_iff (name ≠ [] ∧ ∀ c ∈ name, isSlash c = false)
    ⟨fun h => ⟨h.1, h.2⟩, fun h => ⟨h.1, h.2⟩⟩

variable {name : Text}

theorem joinPath_eq (dir : Text) (ne : name ≠ []) : joinPath dir name = dirPrefix dir ++ name := by
  unfold joinPath dirPrefix
  by_cases empty : dir = []
  · rw [if_pos empty, if_pos empty, List.nil_append]
  · rw [if_neg empty, if_neg empty, if_neg ne]
    split
    · rfl
    · simp

theorem toLower_slash {c d : Char} (slash : d = '\\' ∨ d = '/') : c.toLower = d ↔ c = d := by
  constructor
  · apply eq_of_toLower_eq
    rcases slash with rfl | rfl <;> decide
  · rintro rfl
    rcases slash with rfl | rfl <;> rfl

theorem isSlash_toLower (c : Char) : isSlash c.toLower = isSlash c := by
  have back := @toLower_slash c '\\' (.inl rfl)
  have fore := @toLower_slash c '/' (.inr rfl)
  rw [Bool.eq_iff_iff]
  simp [isSlash, back, fore]

theorem leafOf_lower (path : Text) : leafOf (lower path) = lower (leafOf path) := by
  have front (s : Text) : (lower s).takeWhile (fun c => !isSlash c) =
      lower (s.takeWhile fun c => !isSlash c) := by
    induction s with
    | nil => rfl
    | cons c s ih =>
      rw [lower_cons]
      by_cases slash : isSlash c = true
      · rw [List.takeWhile_cons_of_neg (by simp [isSlash_toLower, slash]),
          List.takeWhile_cons_of_neg (by simp [slash])]
        rfl
      · rw [List.takeWhile_cons_of_pos (by simpa [isSlash_toLower] using slash),
          List.takeWhile_cons_of_pos (by simpa using slash), lower_cons, ih]
  have reverse (s : Text) : (lower s).reverse = lower s.reverse := (List.map_reverse).symm
  unfold leafOf List.rtakeWhile
  rw [reverse, front, reverse]

theorem FileSystem.SameFile.leaf {p q : Text} (same : FileSystem.SameFile p q) :
    lower (leafOf p) = lower (leafOf q) := by
  rw [← leafOf_lower, ← leafOf_lower, show lower p = lower q from same]

theorem leafOf_joinPath (dir : Text) (isName : FileName name) :
    leafOf (joinPath dir name) = name := by
  have all : ∀ c ∈ name.reverse, (!isSlash c) = true := by
    intro c member
    simpa using isName.noSlash c (List.mem_reverse.mp member)
  have stop : ((dirPrefix dir).reverse.takeWhile fun c => !isSlash c) = [] := by
    unfold dirPrefix
    split
    · rfl
    · rename_i ne
      obtain ⟨init, last, rfl⟩ := (List.eq_nil_or_concat dir).resolve_left ne
      split
      · rename_i slash
        have slash : isSlash last = true := by simpa using slash
        simp [slash]
      · simp [isSlash]
  unfold leafOf List.rtakeWhile
  rw [joinPath_eq dir isName.ne_nil, List.reverse_append, List.takeWhile_append_of_pos all, stop,
    List.append_nil, List.reverse_reverse]

theorem sameFile_joinPath {dir dir' name' : Text} (isName : FileName name)
    (isName' : FileName name') :
    FileSystem.SameFile (joinPath dir name) (joinPath dir' name') ↔
      lower (dirPrefix dir) = lower (dirPrefix dir') ∧ lower name = lower name' := by
  constructor
  · intro same
    have leaf := same.leaf
    rw [leafOf_joinPath dir isName, leafOf_joinPath dir' isName'] at leaf
    have whole : lower (joinPath dir name) = lower (joinPath dir' name') := same
    rw [joinPath_eq dir isName.ne_nil, joinPath_eq dir' isName'.ne_nil, lower_append, lower_append,
      leaf] at whole
    exact ⟨List.append_cancel_right whole, leaf⟩
  · rintro ⟨dirs, names⟩
    change lower (joinPath dir name) = lower (joinPath dir' name')
    rw [joinPath_eq dir isName.ne_nil, joinPath_eq dir' isName'.ne_nil, lower_append, lower_append,
      dirs, names]

theorem not_sameFile_of_name {dir dir' name' : Text} (isName : FileName name)
    (isName' : FileName name') (ne : lower name ≠ lower name') :
    ¬FileSystem.SameFile (joinPath dir name) (joinPath dir' name') :=
  fun same => ne ((sameFile_joinPath isName isName').mp same).2

theorem dirPrefix_joinPath_of_solid (dir : Text) {init : Text} {last : Char}
    (whole : name = init ++ [last]) (solid : isSlash last = false) :
    dirPrefix (joinPath dir name) = dirPrefix dir ++ name ++ ['\\'] := by
  rw [joinPath_eq dir (by simp [whole])]
  unfold dirPrefix
  rw [if_neg (by simp [whole]), if_neg (by simp [whole, solid])]

theorem dirPrefix_joinPath (dir : Text) (isName : FileName name) :
    dirPrefix (joinPath dir name) = dirPrefix dir ++ name ++ ['\\'] := by
  obtain ⟨init, last, whole⟩ := (List.eq_nil_or_concat name).resolve_left isName.ne_nil
  rw [List.concat_eq_append] at whole
  exact dirPrefix_joinPath_of_solid dir whole (isName.noSlash last (by simp [whole]))

end EdvrPatch.Installer
