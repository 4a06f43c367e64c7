/-!
# Shared objects

A store of objects with a count of the references to each. An object is destroyed
when its last reference is released; its number is never used again.
-/

namespace Hosted

/-- An object and the number of references to it; without references it has been
destroyed. -/
structure Counted (α : Type) where
  refs : Nat
  body : α
  deriving DecidableEq, Repr

/-- Shared objects by number. -/
structure Shared (α : Type) where
  objects : List (Counted α) := []

namespace Shared

variable {α : Type}

/-- The number of references to an object. -/
def refs (s : Shared α) (id : Nat) : Nat :=
  match s.objects[id]? with
  | some o => o.refs
  | none => 0

/-- An object that has not been destroyed. -/
def get? (s : Shared α) (id : Nat) : Option α :=
  match s.objects[id]? with
  | some o => if o.refs = 0 then none else some o.body
  | none => none

/-- Stores a new object with one reference. -/
def insert (s : Shared α) (body : α) : Shared α × Nat :=
  (⟨s.objects ++ [⟨1, body⟩]⟩, s.objects.length)

/-- Adds a reference to an object. -/
def retain (s : Shared α) (id : Nat) : Shared α :=
  ⟨s.objects.modify id fun o => { o with refs := o.refs + 1 }⟩

/-- Gives up a reference. Answers with the object if that destroys it. -/
def release (s : Shared α) (id : Nat) : Shared α × Option α :=
  match s.objects[id]? with
  | some o =>
    (⟨s.objects.set id { o with refs := o.refs - 1 }⟩, if o.refs = 1 then some o.body else none)
  | none => (s, none)

/-- The objects that have not been destroyed. -/
def live (s : Shared α) : List α :=
  s.objects.filterMap fun o => if o.refs = 0 then none else some o.body

end Shared

end Hosted
