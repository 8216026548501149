import LineShell.Proofs.ByteOrder
import LineShell.Proofs.Provenance

/-!
# LastWrite — what an environment keeps of its changes

An environment has no memory of its own past. Still, what it answers about a name can be read off
the list of all changes so far: the value is that of the last change that wrote the name, unless the
name was removed since, and the name counts as exported if it was exported since. The values and the
two sets of names are collections of their own, and it is the changes that keep them in step.

* `Change.Writes`, `Change.Exports`, `Change.Provides` — what one change does to a name;
* `Present`, `Exported`, `LastWrite` — what all changes have done to it;
* `Change.value_effect_iff` — the value after one change;
* `Standing.Sound`, `Change.sound_effect` — the sets of names hold no name without a value;
* `get?_after_iff`, `isExported_after_iff` — the answers after all changes;
* `pairwise_pairs` — variables are listed in the order of the bytes of their names;
* `environment_is_its_history` — all of it.
-/

namespace LineShell
namespace Environment

namespace Change

/-- The change gives the name the value, whatever was known of the name before. -/
def Writes (name value : String) (c : Change) : Prop :=
  (∃ values, c = .collect values ∧ lastOf name values = some value) ∨
    c = .set name value ∨ c = .exportName name (some value) ∨ c.Loads name value

def Exports (name : String) (c : Change) : Prop :=
  ∃ value, c = .exportName name value

/-- The change leaves the name with a value. -/
def Provides (name : String) (c : Change) : Prop :=
  (∃ value, c.Writes name value) ∨ c.Exports name

end Change

/-- The name was given a value, and it was not removed since. -/
def Present (changes : List Change) (name : String) : Prop :=
  Since (fun _ c => c.Provides name) (fun c => ¬ c.Removes name) changes

/-- The name was exported, and it was not removed since. -/
def Exported (changes : List Change) (name : String) : Prop :=
  Since (fun _ c => c.Exports name) (fun c => ¬ c.Removes name) changes

/-- The last change that wrote the name wrote this value, and the name was not removed since.
Exporting a name without a value writes the empty text, but only if the name is not present. -/
def LastWrite (changes : List Change) (name value : String) : Prop :=
  Since (fun before c => c.Writes name value ∨ c = .exportName name none ∧ value = "" ∧
    ¬ Present before name) (Change.Spares name) changes

section Steps

variable {name value : String} {c : Change} {known : Standing}

/-- A name has a value after a change that provides it, or that leaves the value it had. -/
theorem Change.isSome_effect :
    (c.effect name known).value.isSome = true ↔ c.Provides name ∨ known.value.isSome = true ∧
    ¬ c.Removes name := by
  cases c with
  | collect values =>
      rw [effect]
      cases h : lastOf name values <;> simp [Provides, Writes, Exports, Loads, Removes, h]
  | set changed written =>
      rw [effect]
      split
      · next h => simp [Provides, Writes, h]
      · next h => simp [Provides, Writes, Exports, Loads, Removes, h]
  | exportName changed written =>
      rw [effect]
      split
      · next h => simp [Provides, Exports, h]
      · next h => simp [Provides, Writes, Exports, Loads, Removes, h]
  | unset removed =>
      rw [effect]
      split
      · next h => simp [Provides, Writes, Exports, Loads, Removes, h]
      · next h => simp [Provides, Writes, Exports, Loads, Removes, h]
  | load assignments =>
      rw [effect]
      cases h : lastOf name assignments <;> simp [Provides, Writes, Exports, Loads, Removes, h]

/-- Exporting puts the mark up, and only removing takes it down. -/
theorem Change.exported_effect :
    (c.effect name known).exported = true ↔ c.Exports name ∨ known.exported = true ∧
    ¬ c.Removes name := by
  cases c with
  | collect values => simp [effect, Exports, Removes]
  | set changed written =>
      rw [effect]
      split <;> simp [Exports, Removes]
  | exportName changed written =>
      rw [effect]
      split
      · next h => simp [Exports, h]
      · next h => simp [Exports, Removes, h]
  | unset removed =>
      rw [effect]
      split
      · next h => simp [Exports, Removes, h]
      · next h => simp [Exports, Removes, h]
  | load assignments =>
      rw [effect]
      cases lastOf name assignments <;> simp [Exports, Removes]

theorem Change.Writes.value_effect (h : c.Writes name value) :
    (c.effect name known).value = some value := by
  rcases h with ⟨values, rfl, hlast⟩ | rfl | rfl | hloads
  · rw [effect, hlast]
  · rw [effect, if_pos rfl]
  · rw [effect, if_pos rfl]
    rfl
  · exact hloads.value_effect

/-- A change that leaves a name with a value and writes none spares the name. -/
theorem Change.spares_of_not_writes (hsome : (c.effect name known).value.isSome = true)
    (hwrites : ∀ value, ¬ c.Writes name value) : c.Spares name := by
  refine ⟨?_, ?_, ?_⟩
  · rintro (rfl | ⟨values, rfl⟩)
    · simp [effect] at hsome
    · obtain ⟨value, hvalue⟩ := Option.isSome_iff_exists.1 hsome
      exact hwrites value (.inl ⟨values, rfl, hvalue⟩)
  · rintro ⟨value, rfl | rfl⟩
    · exact hwrites value (.inr (.inl rfl))
    · exact hwrites value (.inr (.inr (.inl rfl)))
  · intro value hloads
    exact hwrites value (.inr (.inr (.inr hloads)))

/-- The value after a change is the one that the change wrote, or else the one from before. -/
theorem Change.value_effect_iff :
    (c.effect name known).value = some value ↔
      (c.Writes name value ∨ c = .exportName name none ∧ value = "" ∧ known.value = none) ∨
        known.value = some value ∧ c.Spares name := by
  constructor
  · intro hvalue
    by_cases hwrites : c.Writes name value
    · exact .inl (.inl hwrites)
    have hsome : (c.effect name known).value.isSome = true := by
      rw [hvalue]
      rfl
    -- Had the change written another value, then that one would be there.
    have hnone : ∀ written, ¬ c.Writes name written := by
      intro written h
      have hsame : some value = some written := hvalue.symm.trans h.value_effect
      cases hsame
      exact hwrites h
    cases hbefore : known.value with
    | some before =>
        have hspares := spares_of_not_writes hsome hnone
        have hkept := hspares.value_effect hbefore
        exact .inr ⟨hkept.symm.trans hvalue, hspares⟩
    | none =>
        -- Nothing was there, and only an export without a value provides one without writing it.
        rcases isSome_effect.1 hsome with (⟨written, h⟩ | ⟨_ | written, rfl⟩) | ⟨h, -⟩
        · exact (hnone written h).elim
        · rw [effect, if_pos rfl, hbefore] at hvalue
          cases hvalue
          exact .inl (.inr ⟨rfl, rfl, rfl⟩)
        · exact (hnone written (.inr (.inr (.inl rfl)))).elim
        · rw [hbefore] at h
          cases h
  · rintro ((hwrites | ⟨rfl, rfl, habsent⟩) | ⟨hbefore, hspares⟩)
    · exact hwrites.value_effect
    · rw [effect, if_pos rfl, habsent]
      rfl
    · exact hspares.value_effect hbefore

end Steps

/-! ## Marks and values -/

/-- Only a name that is set has marks. -/
def Standing.Sound (known : Standing) : Prop :=
  known.loaded = true ∨ known.exported = true → known.value.isSome = true

/-- A change keeps marks off names that are not set: whatever puts one up gives the name a value,
and what takes the value takes both marks. -/
theorem Change.sound_effect {known : Standing} (name : String) (c : Change)
    (h : Standing.Sound known) :
    Standing.Sound (c.effect name known) := by
  intro hmark
  rw [isSome_effect]
  rcases hmark with hloaded | hexported
  · rcases loaded_effect.1 hloaded with ⟨value, hloads⟩ | ⟨hbefore, hkeeps⟩
    · exact .inl (.inl ⟨value, .inr (.inr (.inr hloads))⟩)
    · exact .inr ⟨h (.inl hbefore), hkeeps⟩
  · rcases exported_effect.1 hexported with hexports | ⟨hbefore, hkeeps⟩
    · exact .inl (.inr hexports)
    · exact .inr ⟨h (.inr hbefore), hkeeps⟩

/-! ## All changes -/

section Changes

variable (changes : List Change) (name : String)

/-- The values and the two sets of names are kept in step. -/
theorem sound_after : Standing.Sound ((after changes).standing name) := by
  induction changes using List.reverseRecOn with
  | nil => simp [after, Standing.Sound]
  | append_singleton changes c ih =>
      rw [standing_after_concat]
      exact c.sound_effect name ih

/-- A name is set after changes if the last that bears on it provides it. -/
theorem contains_after_iff : (after changes).contains name = true ↔ Present changes name := by
  induction changes using List.reverseRecOn with
  | nil => simp [contains, get?, after, Present, since_nil]
  | append_singleton changes c ih =>
      rw [contains, get?_eq_value, standing_after_concat, Change.isSome_effect, Present,
        since_concat]
      exact or_congr_right (and_congr_left fun _ => ih)

/-- A name is exported after changes if the last that bears on its mark is an export. -/
theorem isExported_after_iff : (after changes).isExported name = true ↔ Exported changes name := by
  induction changes using List.reverseRecOn with
  | nil => simp [isExported, after, Exported, since_nil]
  | append_singleton changes c ih =>
      rw [isExported_eq_exported, standing_after_concat, Change.exported_effect, Exported,
        since_concat]
      exact or_congr_right (and_congr_left fun _ => ih)

/-- The value of a name is the last that was written. -/
theorem get?_after_iff (value : String) :
    (after changes).get? name = some value ↔ LastWrite changes name value := by
  induction changes using List.reverseRecOn with
  | nil => simp [get?, after, LastWrite, since_nil]
  | append_singleton changes c ih =>
      have habsent : ((after changes).standing name).value = none ↔ ¬ Present changes name := by
        rw [← contains_after_iff, contains, Bool.not_eq_true, Option.isSome_eq_false_iff,
          Option.isNone_iff_eq_none, get?_eq_value]
      rw [get?_eq_value, standing_after_concat, Change.value_effect_iff, LastWrite, since_concat,
        habsent]
      exact or_congr_right (and_congr_left fun _ => ih)

end Changes

/-! ## Listing and removing -/

section Listing

variable (e : Environment)

theorem mem_pairs_iff (name value : String) :
    (name, value) ∈ e.pairs ↔ e.get? name = some value := by
  rw [pairs, get?, Std.TreeMap.mem_toList_iff_getElem?_eq_some]

/-- No name is listed twice, and the bytes of the names go up. -/
theorem pairwise_pairs :
    (e.pairs.map Prod.fst).Pairwise fun a b => Utf8.encode a < Utf8.encode b := by
  rw [pairs, List.pairwise_map]
  refine Std.TreeMap.ordered_keys_toList.imp ?_
  intro a b hlt
  exact Utf8.encode_lt_encode hlt

end Listing

/-- After any changes, of which the first may start from given values. A name has the value of the
last change that wrote it since it was last removed, and none if there is no such change. It is
exported if and only if it was exported since it was last removed. Only names that are set have
marks. All variables are listed, each once, in the order of the bytes of their names. To remove a
name tells whether it had a value, and leaves every other name as it was, with its marks. -/
theorem environment_is_its_history (changes : List Change) :
    (∀ name value, (after changes).get? name = some value ↔ LastWrite changes name value) ∧
    (∀ name, (after changes).isExported name = true ↔ Exported changes name) ∧
    (∀ name, (after changes).isExported name = true ∨ (after changes).isLoaded name = true →
      (after changes).contains name = true) ∧
    ((after changes).pairs.map Prod.fst).Pairwise (fun a b => Utf8.encode a < Utf8.encode b) ∧
    (∀ name value, (name, value) ∈ (after changes).pairs ↔ (after changes).get? name = some value) ∧
    ∀ name wasSet rest, (after changes).remove name = (wasSet, rest) →
      (wasSet = true ↔ ∃ value, LastWrite changes name value) ∧ rest.standing name = {} ∧
        ∀ other, other ≠ name → rest.standing other = (after changes).standing other := by
  refine ⟨get?_after_iff changes, isExported_after_iff changes, fun name hmark => ?_,
    pairwise_pairs _, mem_pairs_iff _, ?_⟩
  · exact sound_after changes name hmark.symm
  rintro name wasSet rest ⟨⟩
  refine ⟨?_, ?_, ?_⟩
  · have hvalue : (after changes).contains name = true ↔ ∃ value, (after changes).get? name =
      some value := by
      rw [contains, ← Option.isSome_iff_exists]
    rw [hvalue]
    exact exists_congr (get?_after_iff changes name)
  · rw [standing_unset, if_pos rfl]
  · intro other hother
    rw [standing_unset, if_neg (Ne.symm hother)]

end Environment
end LineShell
