/-!
# Tables of names

A finite map from names, held as a list of entries with one entry per name.
-/
namespace Scriptlet

structure Table (α : Type) where
  entries : List (String × α)
  deriving Repr

namespace Table

variable {α : Type}

def empty : Table α := ⟨[]⟩

instance : EmptyCollection (Table α) := ⟨empty⟩

instance : Inhabited (Table α) := ⟨empty⟩

def findIn (name : String) : List (String × α) → Option α
  | [] => none
  | (key, value) :: rest => if key = name then some value else findIn name rest

/-- Replaces the entry of a name, or adds one at the end. -/
def insertIn (name : String) (value : α) : List (String × α) → List (String × α)
  | [] => [(name, value)]
  | (key, old) :: rest =>
    if key = name then (name, value) :: rest else (key, old) :: insertIn name value rest

def find? (t : Table α) (name : String) : Option α := findIn name t.entries

def contains (t : Table α) (name : String) : Bool := (t.find? name).isSome

def insert (t : Table α) (name : String) (value : α) : Table α := ⟨insertIn name value t.entries⟩

def erase (t : Table α) (name : String) : Table α := ⟨t.entries.filter (·.1 ≠ name)⟩

def ofList (entries : List (String × α)) : Table α :=
  entries.foldl (fun t (name, value) => t.insert name value) empty

@[simp]
theorem find?_empty (name : String) : (empty : Table α).find? name = none := rfl

theorem findIn_insertIn (name other : String) (value : α) (entries : List (String × α)) :
    findIn other (insertIn name value entries) = if name = other then some value else findIn other entries := by
  induction entries with
  | nil => simp [insertIn, findIn]
  | cons entry rest ih =>
    obtain ⟨key, old⟩ := entry
    by_cases hk : key = name
    · subst hk
      by_cases h : key = other <;> simp [insertIn, findIn, h]
    · by_cases h : key = other
      · subst h
        simp [insertIn, findIn, hk, Ne.symm hk]
      · simp [insertIn, findIn, hk, h, ih]

@[simp]
theorem find?_insert (t : Table α) (name other : String) (value : α) :
    (t.insert name value).find? other = if name = other then some value else t.find? other :=
  findIn_insertIn name other value t.entries

theorem insertIn_insertIn (name : String) (value value' : α) (entries : List (String × α)) :
    insertIn name value' (insertIn name value entries) = insertIn name value' entries := by
  induction entries with
  | nil => simp [insertIn]
  | cons entry rest ih =>
    obtain ⟨key, old⟩ := entry
    by_cases hk : key = name <;> simp [insertIn, hk, ih]

theorem insert_insert (t : Table α) (name : String) (value value' : α) :
    (t.insert name value).insert name value' = t.insert name value' :=
  congrArg Table.mk (insertIn_insertIn name value value' t.entries)

@[simp]
theorem find?_erase (t : Table α) (name other : String) :
    (t.erase name).find? other = if name = other then none else t.find? other := by
  obtain ⟨entries⟩ := t
  simp only [erase, find?]
  induction entries with
  | nil => simp [findIn]
  | cons entry rest ih =>
    obtain ⟨key, old⟩ := entry
    by_cases hk : key = name
    · subst hk
      by_cases h : key = other
      · simpa [findIn, h] using ih
      · simpa [findIn, h] using ih
    · by_cases h : key = other
      · subst h
        simp [findIn, hk, Ne.symm hk]
      · simpa [findIn, hk, h] using ih

end Table

end Scriptlet
