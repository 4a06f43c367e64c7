/-!
# Names

A finite map from names, kept in the order of the names.
-/

namespace Hosted

/-- A map from names, each name once, in order. -/
structure Names (α : Type) where
  entries : List (String × α) := []

namespace Names

variable {α : Type}

/-- Puts an entry in its place among ordered entries. -/
def insertInto (name : String) (a : α) : List (String × α) → List (String × α)
  | [] => [(name, a)]
  | (other, b) :: rest =>
    if name < other then (name, a) :: (other, b) :: rest
    else if name = other then (name, a) :: rest
    else (other, b) :: insertInto name a rest

/-- What a name stands for. -/
def find? (m : Names α) (name : String) : Option α :=
  (m.entries.find? (·.1 = name)).map (·.2)

/-- Lets a name stand for `a`. -/
def put (m : Names α) (name : String) (a : α) : Names α := ⟨insertInto name a m.entries⟩

/-- Takes a name away. -/
def erase (m : Names α) (name : String) : Names α := ⟨m.entries.filter (·.1 ≠ name)⟩

/-- The names of what satisfies `p`, in order. -/
def namesOf (m : Names α) (p : α → Bool) : List String :=
  (m.entries.filter fun e => p e.2).map (·.1)

/-- What the names stand for, in the order of the names. -/
def values (m : Names α) : List α := m.entries.map (·.2)

end Names

end Hosted
