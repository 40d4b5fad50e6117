import SnapshotLedger.Entries
import SnapshotLedger.Text.Ascii

/-!
# Variables from the environment

An environment variable whose name is a stem followed by a name in upper case gives the variable of that name.
Listing them all gives their names in lower case, and of several variables that differ in case alone the last
one is listed. Looking one up goes by the name in upper case, and it goes over the entries as they are written,
`NAME=value`: a name that has `=` in it is found where an entry begins with it and another `=`. Main statement:
other names are found among the names (`find?_eq_lookup`).
-/

namespace SnapshotLedger

/-- The variables of an environment in their order. -/
abbrev Environment := List (String × String)

namespace Environment

/-- The stem used when no other is given. -/
def usualStem : String := "RFS_VAR_"

/-- The name behind the stem, unless there is nothing behind it. -/
def nameBehind? (stem name : String) : Option String :=
  if stem.toList.isPrefixOf name.toList && stem.length < name.length then
    some (String.ofList (name.toList.drop stem.length))
  else none

/-- All variables that the environment gives, in order of their names. -/
def bindings (stem : String) (env : Environment) : List (String × String) :=
  Entries.ofList (env.filterMap fun e => (nameBehind? stem e.1).map fun name => (Text.lower name, e.2))

/-- An entry as it is written. -/
def entryChars (entry : String × String) : List Char := entry.1.toList ++ '=' :: entry.2.toList

/-- What stands behind a name and `=` in an entry. -/
def valueIn? (name : List Char) (entry : String × String) : Option String :=
  if (name ++ ['=']).isPrefixOf (entryChars entry) then some (String.ofList ((entryChars entry).drop (name.length + 1)))
  else none

/-- The value in the first entry with a name, which must not be empty. -/
def find? (env : Environment) (name : String) : Option String :=
  if name.isEmpty then none else env.findSome? (valueIn? name.toList)

/-- An entry begins with a name and `=` exactly when that is its name, if neither has `=` in it. -/
theorem isPrefixOf_entry {name key : List Char} (value : List Char) (hn : '=' ∉ name) (hk : '=' ∉ key) :
    (name ++ ['=']).isPrefixOf (key ++ '=' :: value) = true ↔ name = key := by
  induction name generalizing key with
  | nil =>
    cases key with
    | nil => simp
    | cons k ks =>
      have : k ≠ '=' := fun h => hk (h ▸ List.mem_cons_self)
      simp [List.isPrefixOf, this.symm]
  | cons n ns ih =>
    cases key with
    | nil =>
      have : n ≠ '=' := fun h => hn (h ▸ List.mem_cons_self)
      simp [List.isPrefixOf, this]
    | cons k ks =>
      simp only [List.cons_append, List.isPrefixOf, Bool.and_eq_true, beq_iff_eq, List.cons.injEq,
        ih (fun h => hn (List.mem_cons_of_mem _ h)) fun h => hk (List.mem_cons_of_mem _ h)]

/-- A name without `=` is found in the entry of that name. -/
theorem valueIn?_eq {name : String} {entry : String × String} (hn : '=' ∉ name.toList) (hk : '=' ∉ entry.1.toList) :
    valueIn? name.toList entry = if name = entry.1 then some entry.2 else none := by
  have h := isPrefixOf_entry entry.2.toList hn hk
  by_cases hne : name = entry.1
  · subst hne
    simp [valueIn?, entryChars, h.2 rfl]
  · have : name.toList ≠ entry.1.toList := fun e => hne (String.toList_inj.1 e)
    simp [valueIn?, entryChars, h, hne, this]

/-- A name without `=` is looked up among the names, as long as none of these has `=` in it either. -/
theorem find?_eq_lookup {env : Environment} {name : String} (hn : '=' ∉ name.toList) (hne : name ≠ "")
    (henv : ∀ entry ∈ env, '=' ∉ entry.1.toList) : env.find? name = env.lookup name := by
  have hempty : name.isEmpty = false := by simpa using hne
  simp only [find?, hempty, Bool.false_eq_true, if_false]
  induction env with
  | nil => rfl
  | cons e es ih =>
    have tail := ih fun entry h => henv entry (List.mem_cons_of_mem _ h)
    rw [List.findSome?_cons, valueIn?_eq hn (henv e List.mem_cons_self), tail]
    obtain ⟨k, v⟩ := e
    by_cases h : name = k
    · subst h
      simp
    · have : (name == k) = false := beq_false_of_ne h
      simp [List.lookup_cons, h, this]

/-- The variable of a name. -/
def valueOf? (stem : String) (env : Environment) (name : String) : Option String :=
  env.find? (stem ++ Text.upper name)

end Environment

end SnapshotLedger
