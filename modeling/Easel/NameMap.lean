/-!
# Maps from names

Finite maps from names, as lists of entries in increasing order of their names. Main statement:
after an insertion, the name inserted has the new value and every other name what it had
(`NameMap.find?_insert`).
-/

namespace Easel

/-- A finite map from names. -/
structure NameMap (α : Type) where
  entries : List (String × α)
deriving DecidableEq, Repr

namespace NameMap

variable {α : Type}

/-- The map without entries. -/
def empty : NameMap α := ⟨[]⟩

instance : Inhabited (NameMap α) := ⟨empty⟩

/-- The value of the first entry with the given name. -/
def lookup? (name : String) : List (String × α) → Option α
  | [] => none
  | (other, a) :: rest => if name = other then some a else lookup? name rest

/-- What a name is mapped to. -/
def find? (m : NameMap α) (name : String) : Option α :=
  lookup? name m.entries

/-- Whether a name is mapped to anything. -/
def contains (m : NameMap α) (name : String) : Bool :=
  (m.find? name).isSome

/-- Puts an entry before the first one with a greater name, in place of one with the same name. -/
def insertEntry (name : String) (a : α) : List (String × α) → List (String × α)
  | [] => [(name, a)]
  | (other, b) :: rest =>
    if name < other then (name, a) :: (other, b) :: rest
    else if name = other then (name, a) :: rest
    else (other, b) :: insertEntry name a rest

/-- Maps a name to a value, whatever it was mapped to before. -/
def insert (m : NameMap α) (name : String) (a : α) : NameMap α :=
  ⟨insertEntry name a m.entries⟩

/-- The entries in increasing order of their names. -/
def toList (m : NameMap α) : List (String × α) := m.entries

/-- An empty map holds no name. -/
@[simp]
theorem find?_empty (name : String) : (empty : NameMap α).find? name = none := rfl

/-- A name that is put into a map is found there, and all others as before. -/
theorem lookup?_insertEntry (name other : String) (a : α) (entries : List (String × α)) :
    lookup? other (insertEntry name a entries) =
      if other = name then some a else lookup? other entries := by
  induction entries with
  | nil => simp [insertEntry, lookup?]
  | cons entry rest ih =>
    simp only [insertEntry]
    grind [lookup?]

/-- An insertion changes what its name is mapped to, and nothing else. -/
theorem find?_insert (m : NameMap α) (name other : String) (a : α) :
    (m.insert name a).find? other = if other = name then some a else m.find? other :=
  lookup?_insertEntry name other a m.entries

end NameMap

end Easel
