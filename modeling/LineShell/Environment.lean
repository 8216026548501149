import Std.Data.TreeMap
import Std.Data.TreeSet
import LineShell.Dotenv

/-!
# Environment — the variables of a session

An environment keeps the values of its variables and, apart from them, two sets of names: those that
a dotenv file wrote, and those that were exported during the session. Each operation keeps the three
in step by itself.

- `Environment` : values and names, in the order of the names
- `Standing`    : all that an environment knows of a name
- `standing_set`, `standing_unset`, … : what each operation makes of the standing of a name
-/

namespace LineShell

/-- The variables of a session and where they came from. -/
structure Environment where
  values : Std.TreeMap String String compare := ∅
  /-- The names that a dotenv file wrote. -/
  loaded : Std.TreeSet String compare := ∅
  /-- The names that were exported during the session. -/
  exported : Std.TreeSet String compare := ∅

/-- All that an environment knows of a name. -/
structure Standing where
  value : Option String := none
  loaded : Bool := false
  exported : Bool := false
  deriving DecidableEq, Repr

namespace Environment

/-! ## Looking up -/

def get? (e : Environment) (name : String) : Option String :=
  e.values[name]?

def contains (e : Environment) (name : String) : Bool :=
  (e.get? name).isSome

def isExported (e : Environment) (name : String) : Bool :=
  e.exported.contains name

def isLoaded (e : Environment) (name : String) : Bool :=
  e.loaded.contains name

def standing (e : Environment) (name : String) : Standing :=
  ⟨e.get? name, e.isLoaded name, e.isExported name⟩

def pairs (e : Environment) : List (String × String) :=
  e.values.toList

def size (e : Environment) : Nat :=
  e.values.size

/-! ## Changing -/

def set (e : Environment) (name value : String) : Environment :=
  { e with values := e.values.insert name value }

/-- Exports a name. With a value it is overwritten, without one it is created empty if it is
missing. -/
def exportName (e : Environment) (name : String) (value : Option String) : Environment :=
  { e with
    values :=
      match value with
      | some value => e.values.insert name value
      | none => e.values.insertIfNew name ""
    exported := e.exported.insert name }

def unset (e : Environment) (name : String) : Environment :=
  { values := e.values.erase name, loaded := e.loaded.erase name,
    exported := e.exported.erase name }

def remove (e : Environment) (name : String) : Bool × Environment :=
  (e.contains name, e.unset name)

def assign (e : Environment) (a : Dotenv.Assignment) : Environment :=
  { e with loaded := e.loaded.insert a.1, values := e.values.insert a.1 a.2 }

/-- The assignments of a dotenv file, in order. They override what is set. -/
def load (e : Environment) (assignments : List Dotenv.Assignment) : Environment :=
  assignments.foldl assign e

/-- An environment of the given values; of two values for a name the later counts. -/
def ofList (values : List (String × String)) : Environment :=
  values.foldl (fun e v => e.set v.1 v.2) {}

/-! ## Looking up after a change -/

section Lookup

variable (e : Environment) (changed name value : String)

@[simp] theorem standing_empty : ({} : Environment).standing name = {} := by
  simp [standing, get?, isLoaded, isExported]

/-- A value that is set leaves the marks of its name alone, and all other names. -/
theorem standing_set :
    (e.set changed value).standing name =
      if changed = name then { e.standing name with value := some value } else e.standing name := by
  simp only [standing, get?, isLoaded, isExported, set, Std.TreeMap.getElem?_insert,
    Std.LawfulEqCmp.compare_eq_iff_eq]
  split <;> rfl

/-- A name that gets a mark gets an empty value with it, unless it has one. -/
theorem get?_insertIfNew (values : Std.TreeMap String String compare) :
    (values.insertIfNew changed "")[name]? =
      if changed = name then some (values[name]?.getD "") else values[name]? := by
  simp only [Std.TreeMap.getElem?_insertIfNew, Std.LawfulEqCmp.compare_eq_iff_eq]
  by_cases h : changed = name
  · subst h
    have hmem : changed ∈ values ↔ (values[changed]?).isSome = true :=
      Std.TreeMap.mem_iff_isSome_getElem?
    cases hvalue : values[changed]? <;> simp_all
  · simp [h]

/-- Exporting a name marks it, and gives it a value if it has none. -/
theorem standing_exportName (given : Option String) :
    (e.exportName changed given).standing name =
      if changed = name then
        { e.standing name with
          value := some (given.getD ((e.get? name).getD "")), exported := true }
      else e.standing name := by
  cases given with
  | some value =>
      simp only [standing, get?, isLoaded, isExported, exportName, Std.TreeMap.getElem?_insert,
        Std.TreeSet.contains_insert, Std.LawfulEqCmp.compare_eq_iff_eq]
      split <;> simp_all
  | none =>
      simp only [standing, get?, isLoaded, isExported, exportName, get?_insertIfNew,
        Std.TreeSet.contains_insert]
      split <;> simp_all

/-- Of a name that is removed nothing is known. -/
theorem standing_unset :
    (e.unset changed).standing name = if changed = name then {} else e.standing name := by
  simp only [standing, get?, isLoaded, isExported, unset, Std.TreeMap.getElem?_erase,
    Std.TreeSet.contains_erase, Std.LawfulEqCmp.compare_eq_iff_eq]
  split <;> simp_all

/-- An assignment sets the value of its name and marks it as loaded, and leaves all other names. -/
theorem standing_assign (assigned : String) :
    (e.assign (changed, assigned)).standing name =
      if changed = name then { e.standing name with value := some assigned, loaded := true }
      else e.standing name := by
  simp only [standing, get?, isLoaded, isExported, assign, Std.TreeMap.getElem?_insert,
    Std.TreeSet.contains_insert, Std.LawfulEqCmp.compare_eq_iff_eq]
  split <;> simp_all

end Lookup

end Environment

end LineShell
