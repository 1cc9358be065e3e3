import EdvrPatch.Headset.RoundTrip

/-! A per-headset list is a map from keys to values, with the runtime as a fallback: an
edit of the list is the edit of the map. -/
namespace EdvrPatch.Headset

variable {range : ValueRange} {rt sys rt' sys' : Text} {value : Nat} {entries : List HeadsetEntry}

def exactValue (entries : List HeadsetEntry) (rt sys : Text) : Option Nat :=
  (entries.find? (·.isKeyed rt sys)).map (·.value)

def resolvedKey (entries : List HeadsetEntry) (rt sys : Text) : Option (Text × Text) :=
  match (resolveHeadsetValue entries rt sys).2 with
  | 1 => some (rt, sys)
  | 2 => some (rt, [])
  | _ => none

theorem resolveHeadsetValue_eq (named : rt ≠ []) :
    resolveHeadsetValue entries rt sys =
      match if sys = [] then none else exactValue entries rt sys with
      | some v => (v, 1)
      | none =>
        match exactValue entries rt [] with
        | some v => (v, 2)
        | none => (0, 0) := by
  unfold resolveHeadsetValue exactValue
  rw [if_neg named]
  by_cases bare : sys = []
  · rw [if_pos bare, if_pos bare]
    cases entries.find? (·.isKeyed rt []) <;> rfl
  · rw [if_neg bare, if_neg bare]
    cases entries.find? (·.isKeyed rt sys) with
    | some e => rfl
    | none => cases entries.find? (·.isKeyed rt []) <;> rfl

theorem isKeyed_iff {e : HeadsetEntry} : e.isKeyed rt sys = true ↔ e.runtime = rt ∧ e.system = sys := by
  simp [HeadsetEntry.isKeyed]

theorem isKeyed_other (other : (rt', sys') ≠ (rt, sys)) {e : HeadsetEntry} (keyed : e.isKeyed rt sys = true) :
    e.isKeyed rt' sys' = false := by
  by_contra both
  obtain ⟨rfl, rfl⟩ := isKeyed_iff.mp keyed
  obtain ⟨rfl, rfl⟩ := isKeyed_iff.mp (by simpa using both)
  exact other rfl

/-- What the loop of the merge keeps: every other key as it was, its own key with the new
value once it was placed, and nothing that is not well formed. -/
structure Merged (range : ValueRange) (rt sys : Text) (value : Nat) (old : List HeadsetEntry)
    (state : List HeadsetEntry × Bool) : Prop where
  others : ∀ rt' sys', (rt', sys') ≠ (rt, sys) → exactValue state.1 rt' sys' = exactValue old rt' sys'
  placed : state.2 = true → exactValue state.1 rt sys = some value
  open_ : state.2 = false → exactValue state.1 rt sys = none
  wellFormed : ∀ e ∈ state.1, WellFormed range e
  few : state.1.length ≤ old.length

theorem exactValue_concat (entries : List HeadsetEntry) (e : HeadsetEntry) :
    exactValue (entries ++ [e]) rt sys =
      (exactValue entries rt sys).or (if e.isKeyed rt sys then some e.value else none) := by
  unfold exactValue
  rw [List.find?_append, List.find?_singleton]
  cases entries.find? (·.isKeyed rt sys) with
  | some k => rfl
  | none =>
    rw [Option.none_or]
    split <;> rfl

theorem Merged.step {old : List HeadsetEntry} {state : List HeadsetEntry × Bool}
    (merged : Merged range rt sys value old state) (low : range.min ≤ value) (high : value ≤ range.max) {e : HeadsetEntry}
    (isEntry : WellFormed range e) : Merged range rt sys value (old ++ [e]) (mergeStep rt sys value state e) := by
  have longer : old.length ≤ (old ++ [e]).length := by simp
  unfold mergeStep
  split
  · rename_i keyed
    have skipped : ∀ rt' sys', (rt', sys') ≠ (rt, sys) → exactValue (old ++ [e]) rt' sys' = exactValue old rt' sys' := by
      intro rt' sys' other
      rw [exactValue_concat, isKeyed_other other keyed]
      exact Option.or_none
    split
    · refine { merged with others := fun rt' sys' other => ?_, few := Nat.le_trans merged.few longer }
      rw [skipped rt' sys' other]
      exact merged.others rt' sys' other
    · rename_i unplaced
      have isNew : HeadsetEntry.isKeyed { e with value := value } rt sys = true := keyed
      refine ⟨fun rt' sys' other => ?_, fun _ => ?_, nofun, fun k mem => ?_, ?_⟩
      · rw [skipped rt' sys' other, exactValue_concat, isKeyed_other other isNew, merged.others rt' sys' other]
        exact Option.or_none
      · rw [exactValue_concat, merged.open_ (by simpa using unplaced), isNew]
        rfl
      · rcases List.mem_append.mp mem with before | new
        · exact merged.wellFormed k before
        · rw [List.mem_singleton.mp new]
          exact ⟨isEntry.runtime, isEntry.named, isEntry.system, low, high⟩
      · simpa using merged.few
  · rename_i other
    have unkeyed : e.isKeyed rt sys = false := by simpa using other
    refine ⟨fun rt' sys' other => ?_, fun isPlaced => ?_, fun isOpen => ?_, fun k mem => ?_, ?_⟩
    · rw [exactValue_concat, exactValue_concat, merged.others rt' sys' other]
    · rw [exactValue_concat, merged.placed isPlaced]
      rfl
    · rw [exactValue_concat, merged.open_ isOpen, unkeyed]
      rfl
    · rcases List.mem_append.mp mem with before | new
      · exact merged.wellFormed k before
      · rw [List.mem_singleton.mp new]
        exact isEntry
    · simpa using merged.few

theorem Merged.foldl (low : range.min ≤ value) (high : value ≤ range.max)
    (wellFormed : ∀ e ∈ entries, WellFormed range e) :
    Merged range rt sys value entries (entries.foldl (mergeStep rt sys value) ([], false)) := by
  induction entries using List.reverseRecOn with
  | nil => exact ⟨fun _ _ _ => rfl, nofun, fun _ => rfl, nofun, Nat.le_refl _⟩
  | append_singleton entries e ih =>
    rw [List.foldl_append, List.foldl_cons, List.foldl_nil]
    exact (ih fun k mem => wellFormed k (List.mem_append_left _ mem)).step low high (wellFormed e (by simp))

theorem mergeHeadsetEntry_spec (isRuntime : IsToken rt) (isSystem : IsToken sys) (list out : Text) :
    (mergeHeadsetEntry range list rt sys value out = (false, out)) ∨
      rt ≠ [] ∧ ∃ text, mergeHeadsetEntry range list rt sys value out = (true, text) ∧
        exactValue (parseHeadsetEntries range text).1 rt sys = some value ∧
        ∀ rt' sys', (rt', sys') ≠ (rt, sys) →
          exactValue (parseHeadsetEntries range text).1 rt' sys' =
            exactValue (parseHeadsetEntries range list).1 rt' sys' := by
  unfold mergeHeadsetEntry
  dsimp only
  split
  · exact .inl rfl
  rename_i fine
  simp only [not_or, Nat.not_lt] at fine
  obtain ⟨named, low, high⟩ := fine
  obtain ⟨wellFormed, few⟩ := parseHeadsetEntries_wellFormed range list
  have merged : Merged range rt sys value _ _ := Merged.foldl low high wellFormed
  generalize (parseHeadsetEntries range list).1.foldl (mergeStep rt sys value) ([], false) = state at merged ⊢
  split
  · rename_i placed
    refine .inr ⟨named, _, rfl, ?_, ?_⟩ <;>
      rw [parseHeadsetEntries_format merged.wellFormed (Nat.le_trans merged.few few)]
    · exact merged.placed placed
    · exact merged.others
  · rename_i unplaced
    split
    · exact .inl rfl
    · rename_i room
      have isNew : HeadsetEntry.isKeyed ⟨rt, sys, value⟩ rt sys = true := isKeyed_iff.mpr ⟨rfl, rfl⟩
      have readBack : parseHeadsetEntries range (formatHeadsetEntries (state.1 ++ [⟨rt, sys, value⟩])) =
          (state.1 ++ [⟨rt, sys, value⟩], []) := by
        refine parseHeadsetEntries_format (fun k mem => ?_) ?_
        · rcases List.mem_append.mp mem with before | new
          · exact merged.wellFormed k before
          · rw [List.mem_singleton.mp new]
            exact ⟨isRuntime, named, isSystem, low, high⟩
        · rw [List.length_append]
          exact Nat.lt_of_not_le room
      refine .inr ⟨named, _, rfl, ?_, ?_⟩ <;> rw [readBack]
      · rw [exactValue_concat, merged.open_ (by simpa using unplaced), isNew]
        rfl
      · intro rt' sys' other
        rw [exactValue_concat, isKeyed_other other isNew, merged.others rt' sys' other]
        exact Option.or_none

theorem removeHeadsetEntry_spec (range : ValueRange) (list rt sys : Text) :
    exactValue (parseHeadsetEntries range (removeHeadsetEntry range list rt sys)).1 rt sys = none ∧
      ∀ rt' sys', (rt', sys') ≠ (rt, sys) →
        exactValue (parseHeadsetEntries range (removeHeadsetEntry range list rt sys)).1 rt' sys' =
          exactValue (parseHeadsetEntries range list).1 rt' sys' := by
  obtain ⟨wellFormed, few⟩ := parseHeadsetEntries_wellFormed range list
  unfold removeHeadsetEntry
  rw [parseHeadsetEntries_format (fun e mem => wellFormed e (List.mem_of_mem_filter mem))
    (Nat.le_trans (List.length_filter_le ..) few)]
  generalize (parseHeadsetEntries range list).1 = entries
  unfold exactValue
  refine ⟨?_, fun rt' sys' other => ?_⟩
  · rw [List.find?_eq_none.mpr fun e mem => ?_]
    · rfl
    · simpa using (List.mem_filter.mp mem).2
  · rw [List.find?_filter]
    congr 2
    funext e
    cases keyed : e.isKeyed rt sys with
    | false => simp
    | true => simp [isKeyed_other other keyed]

theorem resolveHeadsetValue_unnamed (entries : List HeadsetEntry) (sys : Text) :
    resolveHeadsetValue entries [] sys = (0, 0) :=
  if_pos rfl

theorem resolveHeadsetValue_congr {other : List HeadsetEntry}
    (same : sys ≠ [] → exactValue other rt sys = exactValue entries rt sys)
    (fallback : sys ≠ [] ∧ (exactValue entries rt sys).isSome ∨ exactValue other rt [] = exactValue entries rt []) :
    resolveHeadsetValue other rt sys = resolveHeadsetValue entries rt sys := by
  by_cases named : rt = []
  · rw [named, resolveHeadsetValue_unnamed, resolveHeadsetValue_unnamed]
  rw [resolveHeadsetValue_eq named, resolveHeadsetValue_eq named]
  rcases fallback with ⟨paired, isSome⟩ | equal
  · obtain ⟨v, isValue⟩ := Option.isSome_iff_exists.mp isSome
    rw [if_neg paired, if_neg paired, same paired, isValue]
  · rw [equal]
    by_cases bare : sys = []
    · rw [if_pos bare, if_pos bare]
    · rw [if_neg bare, if_neg bare, same bare]

/-- What the two edits do to a list, for the key `rt`/`sys`. After a merge the pair has
the value by its own key, and another pair that was not resolved through that key is
resolved as before; but where the key is a bare runtime, it becomes the fallback of a pair
that was resolved to nothing. A merge that returns false leaves `out` alone. After a
removal the pair is not resolved by the key, and every other key has the value it had. -/
structure EditsAsMap (range : ValueRange) (list rt sys out : Text) (value : Nat) : Prop where
  refused : (mergeHeadsetEntry range list rt sys value out).1 = false →
    (mergeHeadsetEntry range list rt sys value out).2 = out
  merged : (mergeHeadsetEntry range list rt sys value out).1 = true →
    resolveHeadsetValue (parseHeadsetEntries range (mergeHeadsetEntry range list rt sys value out).2).1 rt sys =
      (value, if sys = [] then 2 else 1)
  others : (mergeHeadsetEntry range list rt sys value out).1 = true → ∀ rt' sys', (rt', sys') ≠ (rt, sys) →
    resolvedKey (parseHeadsetEntries range list).1 rt' sys' ≠ some (rt, sys) →
    ¬(sys = [] ∧ rt' = rt ∧ resolvedKey (parseHeadsetEntries range list).1 rt' sys' = none) →
    resolveHeadsetValue (parseHeadsetEntries range (mergeHeadsetEntry range list rt sys value out).2).1 rt' sys' =
      resolveHeadsetValue (parseHeadsetEntries range list).1 rt' sys'
  fallback : (mergeHeadsetEntry range list rt sys value out).1 = true → sys = [] → ∀ sys',
    resolvedKey (parseHeadsetEntries range list).1 rt sys' = none →
    resolveHeadsetValue (parseHeadsetEntries range (mergeHeadsetEntry range list rt sys value out).2).1 rt sys' =
      (value, 2)
  removed : resolvedKey (parseHeadsetEntries range (removeHeadsetEntry range list rt sys)).1 rt sys ≠ some (rt, sys)
  kept : ∀ rt' sys', (rt', sys') ≠ (rt, sys) →
    exactValue (parseHeadsetEntries range (removeHeadsetEntry range list rt sys)).1 rt' sys' =
      exactValue (parseHeadsetEntries range list).1 rt' sys'

theorem exactValue_of_unresolved (named : rt ≠ []) (none_ : resolvedKey entries rt sys = none) :
    (sys ≠ [] → exactValue entries rt sys = none) ∧ exactValue entries rt [] = none := by
  unfold resolvedKey at none_
  rw [resolveHeadsetValue_eq named] at none_
  by_cases bare : sys = []
  · refine ⟨fun paired => absurd bare paired, ?_⟩
    rw [if_pos bare] at none_
    cases isValue : exactValue entries rt [] with
    | none => rfl
    | some v => simp [isValue] at none_
  · rw [if_neg bare] at none_
    cases isValue : exactValue entries rt sys with
    | some v => simp [isValue] at none_
    | none =>
      cases isFallback : exactValue entries rt [] with
      | some v => simp [isValue, isFallback] at none_
      | none => exact ⟨fun _ => rfl, rfl⟩

theorem exactValue_of_resolved (named : rt ≠ []) (some_ : resolvedKey entries rt sys ≠ none)
    (other : resolvedKey entries rt sys ≠ some (rt, [])) : sys ≠ [] ∧ (exactValue entries rt sys).isSome := by
  unfold resolvedKey at some_ other
  rw [resolveHeadsetValue_eq named] at some_ other
  by_cases bare : sys = []
  · rw [if_pos bare] at some_ other
    cases isValue : exactValue entries rt [] with
    | none => simp [isValue] at some_
    | some v => simp [isValue] at other
  · refine ⟨bare, ?_⟩
    cases isValue : exactValue entries rt sys with
    | some v => rfl
    | none =>
      cases isFallback : exactValue entries rt [] with
      | some v => simp [isValue, isFallback] at other
      | none => simp [isValue, isFallback] at some_

theorem resolvedKey_ne_of_exactValue (none_ : exactValue entries rt sys = none) :
    resolvedKey entries rt sys ≠ some (rt, sys) := by
  unfold resolvedKey
  by_cases named : rt = []
  · rw [named, resolveHeadsetValue_unnamed]
    nofun
  rw [resolveHeadsetValue_eq named, none_]
  by_cases bare : sys = []
  · rw [if_pos bare, ← bare, none_]
    nofun
  · rw [if_neg bare]
    cases exactValue entries rt [] with
    | none => nofun
    | some v =>
      intro isKey
      exact bare (Prod.mk.inj (Option.some.inj isKey)).2.symm

structure OneKeySet (old new : List HeadsetEntry) (rt sys : Text) (value : Nat) : Prop where
  named : rt ≠ []
  own : exactValue new rt sys = some value
  rest : ∀ rt' sys', (rt', sys') ≠ (rt, sys) → exactValue new rt' sys' = exactValue old rt' sys'

namespace OneKeySet

variable {old new : List HeadsetEntry}

theorem resolve_own (set : OneKeySet old new rt sys value) :
    resolveHeadsetValue new rt sys = (value, if sys = [] then 2 else 1) := by
  rw [resolveHeadsetValue_eq set.named]
  by_cases bare : sys = []
  · rw [if_pos bare, if_pos bare, ← bare, set.own]
  · rw [if_neg bare, if_neg bare, set.own]

theorem resolve_other (set : OneKeySet old new rt sys value) (other : (rt', sys') ≠ (rt, sys))
    (notThrough : resolvedKey old rt' sys' ≠ some (rt, sys))
    (notNew : ¬(sys = [] ∧ rt' = rt ∧ resolvedKey old rt' sys' = none)) :
    resolveHeadsetValue new rt' sys' = resolveHeadsetValue old rt' sys' := by
  refine resolveHeadsetValue_congr (fun _ => set.rest rt' sys' other) ?_
  by_cases bare : (rt', ([] : Text)) = (rt, sys)
  · obtain ⟨rfl, rfl⟩ := Prod.mk.inj bare
    exact .inl (exactValue_of_resolved set.named (fun none_ => notNew ⟨rfl, rfl, none_⟩) notThrough)
  · exact .inr (set.rest rt' [] bare)

theorem resolve_fallback (set : OneKeySet old new rt [] value) (none_ : resolvedKey old rt sys' = none) :
    resolveHeadsetValue new rt sys' = (value, 2) := by
  rw [resolveHeadsetValue_eq set.named, set.own]
  by_cases bare : sys' = []
  · rw [if_pos bare]
  · rw [if_neg bare, set.rest rt sys' fun same => bare (Prod.mk.inj same).2,
      (exactValue_of_unresolved set.named none_).1 bare]

end OneKeySet

/-- Lists are edited as maps, whatever the list's text, the names the runtime reports and
the value. -/
theorem headset_lists_edit_as_maps (range : ValueRange) (list runtime system out : Text) (value : Nat) :
    EditsAsMap range list (headsetToken runtime) (headsetToken system) out value := by
  have isRuntime := headsetToken_isToken runtime
  have isSystem := headsetToken_isToken system
  generalize headsetToken runtime = rt at isRuntime ⊢
  generalize headsetToken system = sys at isSystem ⊢
  obtain ⟨gone, kept⟩ := removeHeadsetEntry_spec range list rt sys
  have removed := resolvedKey_ne_of_exactValue gone
  rcases @mergeHeadsetEntry_spec range rt sys value isRuntime isSystem list out with fails |
    ⟨named, text, succeeds, own, rest⟩
  · have failed : (mergeHeadsetEntry range list rt sys value out).1 ≠ true := by
      rw [fails]
      nofun
    exact ⟨fun _ => by rw [fails], fun on => absurd on failed, fun on => absurd on failed, fun on => absurd on failed,
      removed, kept⟩
  · have set : OneKeySet (parseHeadsetEntries range list).1 (parseHeadsetEntries range text).1 rt sys value :=
      ⟨named, own, rest⟩
    have written : (mergeHeadsetEntry range list rt sys value out).2 = text := by rw [succeeds]
    refine ⟨fun off => ?_, fun _ => ?_, fun _ rt' sys' other notThrough notNew => ?_, fun _ bare sys' none_ => ?_,
      removed, kept⟩
    · rw [succeeds] at off
      cases off
    · rw [written]
      exact set.resolve_own
    · rw [written]
      exact set.resolve_other other notThrough notNew
    · subst bare
      rw [written]
      exact set.resolve_fallback none_

/-- A runtime-only entry that is new changes what a pair of that runtime is resolved to. -/
theorem new_runtime_entry_is_fallback :
    ¬∀ (list runtime system out : Text) (value : Nat) (rt' sys' : Text),
      (mergeHeadsetEntry resolutionWidths list (headsetToken runtime) (headsetToken system) value out).1 = true →
      (rt', sys') ≠ (headsetToken runtime, headsetToken system) →
      resolvedKey (parseHeadsetEntries resolutionWidths list).1 rt' sys' ≠
        some (headsetToken runtime, headsetToken system) →
      resolveHeadsetValue (parseHeadsetEntries resolutionWidths
          (mergeHeadsetEntry resolutionWidths list (headsetToken runtime) (headsetToken system) value out).2).1 rt' sys' =
        resolveHeadsetValue (parseHeadsetEntries resolutionWidths list).1 rt' sys' := by
  intro unchanged
  have here := unchanged [] "Oculus".toList [] [] 3283 "oculus".toList "meta-quest-3".toList (by decide +kernel)
    (by decide +kernel) (by decide +kernel)
  revert here
  decide +kernel

end EdvrPatch.Headset
