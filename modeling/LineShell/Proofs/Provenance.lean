import Mathlib.Data.List.Induction
import LineShell.Environment

/-!
# Provenance — which values come from a dotenv file

Every change of an environment treats each name on its own, so the story of one name can be told
without the others. The mark of a dotenv file is put up by loading, and taken down only together
with the variable: a value that is written over a loaded one keeps the mark.

* `Change` — the changes of an environment, and `after`, what they come to;
* `Change.effect`, `standing_after_concat` — the story of one name;
* `Marked`, `Stems`, `Stale` — a file wrote the name; the value is still that of the file; it is
  not;
* `isLoaded_after_iff` — the mark tells that a file wrote the name since it was last removed;
* `mark_is_true_iff_not_stale` — the mark tells the truth about the value, unless the name is stale;
* `overwritten_value_keeps_mark` — it is stale after a value is set.
-/

namespace LineShell
namespace Environment

/-! ## Changes -/

/-- A change of an environment. -/
inductive Change where
  /-- Starts anew with the given values. -/
  | collect (values : List (String × String))
  | set (name value : String)
  | exportName (name : String) (value : Option String)
  | unset (name : String)
  /-- Loads the assignments of a dotenv file; a file that is missing has none. -/
  | load (assignments : List Dotenv.Assignment)
  deriving DecidableEq, Repr

/-- An environment after a change. -/
def apply (e : Environment) : Change → Environment
  | .collect values => ofList values
  | .set name value => e.set name value
  | .exportName name value => e.exportName name value
  | .unset name => e.unset name
  | .load assignments => e.load assignments

/-- The environment that changes come to, from an empty one on. -/
def after (changes : List Change) : Environment :=
  changes.foldl apply {}

def lastOf (name : String) (pairs : List (String × String)) : Option String :=
  pairs.reverse.lookup name

namespace Change

/-- What a change makes of what is known of a name. -/
def effect (name : String) (known : Standing) : Change → Standing
  | .collect values => { value := lastOf name values }
  | .set changed value => if changed = name then { known with value := some value } else known
  | .exportName changed value =>
      if changed = name then
        { known with value := some (value.getD (known.value.getD "")), exported := true }
      else known
  | .unset removed => if removed = name then {} else known
  | .load assignments =>
      match lastOf name assignments with
      | some value => { known with value := some value, loaded := true }
      | none => known

/-- The change loads a file in which the last value of the name is the given one. -/
def Loads (name value : String) (c : Change) : Prop :=
  ∃ assignments, c = .load assignments ∧ lastOf name assignments = some value

/-- The change writes a value over that of the name, and the value is not from a file. -/
def Overwrites (name : String) (c : Change) : Prop :=
  ∃ value, c = .set name value ∨ c = .exportName name (some value)

/-- The change removes what was known of the name. -/
def Removes (name : String) (c : Change) : Prop :=
  c = .unset name ∨ ∃ values, c = .collect values

/-- The change leaves the value of the name as it is, if it has one. -/
def Spares (name : String) (c : Change) : Prop :=
  ¬ c.Removes name ∧ ¬ c.Overwrites name ∧ ∀ value, ¬ c.Loads name value

end Change

/-! ## The story of one name -/

/-- The last pair for a name is among the later ones if any is. -/
theorem lastOf_cons (name : String) (pair : String × String) (pairs : List (String × String)) :
    lastOf name (pair :: pairs) =
      (lastOf name pairs).or (if pair.1 = name then some pair.2 else none) := by
  rcases pair with ⟨key, value⟩
  rw [lastOf, List.reverse_cons, List.lookup_append, List.lookup_cons, lastOf]
  by_cases h : name = key
  · simp [h]
  · rw [beq_false_of_ne h, if_neg (Ne.symm h)]
    rfl

/-- A load has the effect of a load on the standing of each name. -/
theorem standing_load (e : Environment) (assignments : List Dotenv.Assignment) (name : String) :
    (e.load assignments).standing name = (Change.load assignments).effect name
    (e.standing name) := by
  induction assignments generalizing e with
  | nil => rfl
  | cons a rest ih =>
      have hload : e.load (a :: rest) = (e.assign a).load rest := rfl
      rw [hload, ih, Change.effect, Change.effect, lastOf_cons, standing_assign]
      by_cases h : a.1 = name
      · cases lastOf name rest <;> simp [h]
      · cases lastOf name rest <;> simp [h]

/-- Settings in turn leave the value of the last one, and no mark. -/
theorem standing_foldl_set (e : Environment) (values : List (String × String)) (name : String) :
    (values.foldl (fun e v => e.set v.1 v.2) e).standing name =
      { e.standing name with value := (lastOf name values).or (e.get? name) } := by
  induction values generalizing e with
  | nil => rfl
  | cons v rest ih =>
      have hvalue : (e.set v.1 v.2).get? name = ((e.set v.1 v.2).standing name).value := rfl
      rw [List.foldl_cons, ih, lastOf_cons, hvalue, standing_set]
      by_cases h : v.1 = name
      · cases lastOf name rest <;> simp [h]
      · cases lastOf name rest <;> simp [h, standing]

/-- Every change treats a name by what is known of it alone. -/
theorem standing_apply (e : Environment) (c : Change) (name : String) :
    (e.apply c).standing name = c.effect name (e.standing name) := by
  cases c with
  | collect values =>
      rw [apply, ofList, standing_foldl_set, Change.effect]
      cases lastOf name values <;> simp [get?]
  | set changed value => exact standing_set e changed name value
  | exportName changed value => exact standing_exportName e changed name value
  | unset removed => exact standing_unset e removed name
  | load assignments => exact standing_load e assignments name

/-- One change more has its effect on the standing so far. -/
theorem standing_after_concat (changes : List Change) (c : Change) (name : String) :
    (after (changes ++ [c])).standing name = c.effect name ((after changes).standing name) := by
  rw [after, List.foldl_append, List.foldl_cons, List.foldl_nil, standing_apply]
  rfl

/-- Any answer about a name is an answer about its standing. -/
theorem get?_eq_value (e : Environment) (name : String) :
    e.get? name = (e.standing name).value := rfl

theorem isLoaded_eq_loaded (e : Environment) (name : String) :
    e.isLoaded name = (e.standing name).loaded := rfl

theorem isExported_eq_exported (e : Environment) (name : String) :
    e.isExported name = (e.standing name).exported := rfl

/-! ## Since -/

/-- In a list of events something was the case at one of them, given those before it, and all events
behind it are of a kind. -/
def Since {α : Type} (P : List α → α → Prop) (Q : α → Prop) (events : List α) : Prop :=
  ∃ front x back, events = front ++ x :: back ∧ P front x ∧ ∀ y ∈ back, Q y

theorem since_nil {α : Type} {P : List α → α → Prop} {Q : α → Prop} : ¬ Since P Q [] := by
  rintro ⟨front, x, back, h, -⟩
  simp at h

/-- One more event: it is the one, or it is of the kind and the one came before it. -/
theorem since_concat {α : Type} {P : List α → α → Prop} {Q : α → Prop} {events : List α} {x : α} :
    Since P Q (events ++ [x]) ↔ P events x ∨ Since P Q events ∧ Q x := by
  constructor
  · rintro ⟨front, y, back, h, hy, hback⟩
    rcases List.eq_nil_or_concat back with rfl | ⟨back, z, rfl⟩
    · rcases List.append_inj' h rfl with ⟨rfl, hx⟩
      cases hx
      exact .inl hy
    · rw [List.concat_eq_append] at h hback
      rw [← List.cons_append, ← List.append_assoc] at h
      rcases List.append_inj' h rfl with ⟨rfl, hx⟩
      cases hx
      exact .inr ⟨⟨front, y, back, rfl, hy, fun w hw => hback w (by simp [hw])⟩, hback x (by simp)⟩
  · rintro (hx | ⟨⟨front, y, back, rfl, hy, hback⟩, hx⟩)
    · exact ⟨events, x, [], rfl, hx, by simp⟩
    · refine ⟨front, y, back ++ [x], by simp, hy, ?_⟩
      intro w hw
      rcases List.mem_append.1 hw with hw | hw
      · exact hback w hw
      · rw [List.mem_singleton.1 hw]
        exact hx

/-- A file wrote the name, and it was not removed since. -/
def Marked (changes : List Change) (name : String) : Prop :=
  Since (fun _ c => ∃ value, c.Loads name value) (fun c => ¬ c.Removes name) changes

/-- A file wrote the value of the name, and nothing has touched that since. -/
def Stems (changes : List Change) (name value : String) : Prop :=
  Since (fun _ c => c.Loads name value) (Change.Spares name) changes

/-- A value was written over a name that a file had written, and nothing has touched that since. -/
def Stale (changes : List Change) (name : String) : Prop :=
  Since (fun before c => Marked before name ∧ c.Overwrites name) (Change.Spares name) changes

/-! ## One change -/

section Steps

variable {name value : String} {c : Change} {known : Standing}

theorem Change.Overwrites.not_removes (h : c.Overwrites name) : ¬ c.Removes name := by
  rcases h with ⟨value, rfl | rfl⟩ <;> simp [Removes]

/-- What overwrites a value does not load it. -/
theorem Change.Overwrites.not_loads (h : c.Overwrites name) : ¬ c.Loads name value := by
  rcases h with ⟨value, rfl | rfl⟩ <;> simp [Loads]

/-- Loading puts the mark up, and only removing takes it down. -/
theorem Change.loaded_effect :
    (c.effect name known).loaded = true ↔
      (∃ value, c.Loads name value) ∨ known.loaded = true ∧ ¬ c.Removes name := by
  cases c with
  | collect values => simp [effect, Loads, Removes]
  | set changed value =>
      rw [effect]
      split <;> simp [Loads, Removes]
  | exportName changed value =>
      rw [effect]
      split <;> simp [Loads, Removes]
  | unset removed =>
      rw [effect]
      split
      · next h => simp [Loads, Removes, h]
      · next h => simp [Loads, Removes, h]
  | load assignments =>
      rw [effect]
      cases h : lastOf name assignments <;> simp [Loads, Removes, h]

/-- A value that is loaded is the one that stands. -/
theorem Change.Loads.value_effect (h : c.Loads name value) :
    (c.effect name known).value = some value := by
  rcases h with ⟨assignments, rfl, hlast⟩
  rw [effect, hlast]

/-- A change that spares a name leaves its value alone. Exporting a name without a value gives it an
empty one, but only if it has none. -/
theorem Change.Spares.value_effect (h : c.Spares name) (hv : known.value = some value) :
    (c.effect name known).value = some value := by
  -- Each kind of change either is about another name or is ruled out.
  rcases h with ⟨hremoves, hoverwrites, hloads⟩
  cases c with
  | collect values => exact (hremoves (.inr ⟨values, rfl⟩)).elim
  | set changed written =>
      rw [effect, if_neg]
      · exact hv
      · rintro rfl
        exact hoverwrites ⟨written, .inl rfl⟩
  | exportName changed written =>
      rw [effect]
      split
      · next hname =>
        cases written with
        | some written => exact (hoverwrites ⟨written, .inr (by rw [hname])⟩).elim
        | none => simp [hv]
      · exact hv
  | unset removed =>
      rw [effect, if_neg]
      · exact hv
      · rintro rfl
        exact hremoves (.inl rfl)
  | load assignments =>
      rw [effect]
      cases hlast : lastOf name assignments with
      | none => exact hv
      | some written => exact (hloads written ⟨assignments, rfl, hlast⟩).elim

end Steps

/-! ## All changes -/

section Changes

variable (changes : List Change) (name : String)

/-- The mark of a dotenv file tells that such a file wrote the name since it was last removed. -/
theorem isLoaded_after_iff : (after changes).isLoaded name = true ↔ Marked changes name := by
  induction changes using List.reverseRecOn with
  | nil => simp [isLoaded, after, Marked, since_nil]
  | append_singleton changes c ih =>
      rw [isLoaded_eq_loaded, standing_after_concat, Change.loaded_effect, Marked, since_concat]
      exact or_congr_right (and_congr_left fun _ => ih)

/-- The value that stems from a file is the present value. -/
theorem get?_after_of_stems {value : String} (h : Stems changes name value) :
    (after changes).get? name = some value := by
  induction changes using List.reverseRecOn with
  | nil => exact (since_nil h).elim
  | append_singleton changes c ih =>
      rw [get?_eq_value, standing_after_concat]
      rcases since_concat.1 h with hloads | ⟨hstems, hspares⟩
      · exact hloads.value_effect
      · exact hspares.value_effect (ih hstems)

/-- A name that a file wrote has its value from the file still, or it is stale. -/
theorem marked_iff :
    Marked changes name ↔ (∃ value, Stems changes name value) ∨ Stale changes name := by
  induction changes using List.reverseRecOn with
  | nil => simp [Marked, Stems, Stale, since_nil]
  | append_singleton changes c ih =>
      simp only [Marked, Stems, Stale, since_concat]
      constructor
      · rintro (⟨value, hloads⟩ | ⟨hmarked, hkeeps⟩)
        · exact .inl ⟨value, .inl hloads⟩
        -- What does not remove the name loads it, overwrites it or spares it.
        · by_cases hloads : ∃ value, c.Loads name value
          · rcases hloads with ⟨value, hloads⟩
            exact .inl ⟨value, .inl hloads⟩
          by_cases hover : c.Overwrites name
          · exact .inr (.inl ⟨hmarked, hover⟩)
          have hspares : c.Spares name := ⟨hkeeps, hover, fun value h => hloads ⟨value, h⟩⟩
          rcases ih.1 hmarked with ⟨value, hstems⟩ | hstale
          · exact .inl ⟨value, .inr ⟨hstems, hspares⟩⟩
          · exact .inr (.inr ⟨hstale, hspares⟩)
      · rintro (⟨value, hloads | ⟨hstems, hspares⟩⟩ | ⟨hmarked, hover⟩ | ⟨hstale, hspares⟩)
        · exact .inl ⟨value, hloads⟩
        · exact .inr ⟨ih.2 (.inl ⟨value, hstems⟩), hspares.1⟩
        · exact .inr ⟨hmarked, hover.not_removes⟩
        · exact .inr ⟨ih.2 (.inr hstale), hspares.1⟩

/-- A stale mark does not stem from the value it stands at. -/
theorem not_stems_of_stale {value : String} (h : Stale changes name) :
    ¬ Stems changes name value := by
  induction changes using List.reverseRecOn with
  | nil => exact since_nil
  | append_singleton changes c ih =>
      rw [Stems, since_concat]
      rcases since_concat.1 h with ⟨-, hover⟩ | ⟨hstale, hspares⟩
      · rintro (hloads | ⟨-, hspares⟩)
        · exact hover.not_loads hloads
        · exact hspares.2.1 hover
      · rintro (hloads | ⟨hstems, -⟩)
        · exact hspares.2.2 value hloads
        · exact ih hstale hstems

/-- After any changes, the mark of a dotenv file is up if and only if a file wrote the name since it
was last removed. It tells the truth, that the name is set and its value is the one that a file
wrote, unless the name is stale: a value was set or exported over that of a file, and nothing has
touched the name since. -/
theorem mark_is_true_iff_not_stale :
    ((after changes).isLoaded name = true ↔ Marked changes name) ∧
    (((after changes).isLoaded name = true ↔
        ∃ value, (after changes).get? name = some value ∧ Stems changes name value) ↔
      ¬ Stale changes name) := by
  have htruth : (∃ value, (after changes).get? name = some value ∧ Stems changes name value) ↔
      ∃ value, Stems changes name value :=
    exists_congr fun value => and_iff_right_of_imp (get?_after_of_stems changes name)
  refine ⟨isLoaded_after_iff changes name, ?_⟩
  rw [htruth, isLoaded_after_iff, marked_iff]
  constructor
  · intro hiff hstale
    rcases hiff.1 (.inr hstale) with ⟨value, hstems⟩
    exact not_stems_of_stale changes name hstale hstems
  · intro hfresh
    exact or_iff_left hfresh

end Changes

/-- Loading a file that sets `A`. -/
def loading : List Change :=
  [.load (Dotenv.parse "A=1\n")]

/-- A value that is set over a loaded one keeps the mark. -/
theorem overwritten_value_keeps_mark :
    (after (loading ++ [.set "A" "2"])).isLoaded "A" = true ∧
      (after (loading ++ [.set "A" "2"])).get? "A" = some "2" ∧
      ¬ ∃ value, (after (loading ++ [.set "A" "2"])).get? "A" = some value ∧
        Stems (loading ++ [.set "A" "2"]) "A" value := by
  have hparse : Dotenv.parse "A=1\n" = [("A", "1")] := by decide
  have hloads : (Change.load (Dotenv.parse "A=1\n")).Loads "A" "1" := ⟨_, rfl, by rw [hparse]; rfl⟩
  have hmarked : Marked loading "A" := ⟨[], _, [], rfl, ⟨"1", hloads⟩, by simp⟩
  have hstale : Stale (loading ++ [.set "A" "2"]) "A" :=
    since_concat.2 (.inl ⟨hmarked, "2", .inl rfl⟩)
  refine ⟨?_, ?_, ?_⟩
  · exact (isLoaded_after_iff _ _).2 ((marked_iff _ _).2 (.inr hstale))
  · rw [get?_eq_value, standing_after_concat, Change.effect, if_pos rfl]
  · rintro ⟨value, -, hstems⟩
    exact not_stems_of_stale _ _ hstale hstems

end Environment
end LineShell
