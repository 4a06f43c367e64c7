import Hosted.Shared
import Hosted.Slot.Locals
import Hosted.World.Notice

/-!
# The state of the environment

All objects of a process and the references between them, what has been counted,
and the notices not yet collected.
-/

namespace Hosted

abbrev LocaleId := Nat
abbrev FacetId := Nat
abbrev TableId := Nat

/-- A locale. Its facets stand at their indices. -/
structure Locale where
  name : String
  categories : Category
  facets : List (Option FacetId)
  transparent : Bool
  classic : Bool
  deriving DecidableEq, Repr

namespace Locale

/-- The facet at an index. -/
def facetAt? (l : Locale) (index : Nat) : Option FacetId := l.facets[index]?.join

/-- The number of facets in a locale. -/
def facetCount (l : Locale) : Nat := (l.facets.filterMap id).length

/-- Puts a facet at an index, growing the row as far as needed. -/
def place (facets : List (Option FacetId)) (index : Nat) (f : FacetId) :
    List (Option FacetId) :=
  if index < facets.length then facets.set index (some f)
  else facets ++ List.replicate (index - facets.length) none ++ [some f]

end Locale

/-- The content of a thread local's cell: a tagged value, or a thread's locale in
one registry. -/
inductive Payload where
  | tracked (text : String)
  | setting (locale : Option LocaleId)
  deriving DecidableEq, Repr

/-- A registry: its classic and its global locale, the facets created on demand by
index, the facets kept until teardown (oldest first), and the thread local that holds each
thread's locale. -/
structure Registry where
  classic : Option LocaleId := none
  global : Option LocaleId := none
  /-- The teardown has been queued, as far as the registry knows. -/
  teardownQueued : Bool := false
  lazy : List (Nat × FacetId) := []
  entries : List FacetId := []
  threadLocale : LocalId
  exits : TableId
  deriving DecidableEq, Repr

/-- The state of a process. -/
structure World where
  settings : Settings := {}
  locales : Shared Locale := {}
  facets : Shared Facet := {}
  indices : FacetIndices := {}
  locals : Locals Payload
  exits : List (ExitTable Handler) := []
  registries : List Registry := []
  /-- The registry of the process, once it has been made. -/
  processRegistry : Option RegistryId := none
  started : Bool := false
  counters : Counters := {}
  notices : List Notice := []

namespace World

/-- Gives a notice. -/
def notify (w : World) (n : Notice) : World := { w with notices := w.notices ++ [n] }

/-- Reports to the log. -/
def log (w : World) (o : Occurrence) : World := w.notify (.logged o)

/-- Adds `n` to a counter. -/
def count (w : World) (which : Counter) (n : Nat) : World :=
  { w with counters := w.counters.add which n.toUInt64 }

/-- Counts one operation. -/
def tally (w : World) (which : Counter) : World :=
  { w with counters := w.counters.increment which }

/-- Records a fault that ends the calling path. -/
def raise (w : World) (f : Fault) : World := (w.tally .fatalErrors).log (.fatal f)

/-- An exit table; unknown numbers stand for an empty table. -/
def exitTable (w : World) (t : TableId) : ExitTable Handler := w.exits[t]?.getD {}

def setExitTable (w : World) (t : TableId) (table : ExitTable Handler) : World :=
  { w with exits := w.exits.set t table }

theorem exitTable_setExitTable (w : World) {t : TableId} (ht : t < w.exits.length)
    (table : ExitTable Handler) (t' : TableId) :
    (w.setExitTable t table).exitTable t' = if t' = t then table else w.exitTable t' := by
  unfold exitTable setExitTable
  by_cases htt : t' = t
  · subst htt
    simp [ht]
  · simp [htt, Ne.symm htt]

/-- A table that has given out its handlers. -/
theorem ran_setExitTable {w : World} {t : TableId} (ht : t < w.exits.length) :
    ((w.setExitTable t { handlers := [], ran := true }).exitTable t).ran = true := by
  rw [exitTable_setExitTable w ht, if_pos rfl]

/-- Adds an exit table. -/
def addExitTable (w : World) : World × TableId :=
  ({ w with exits := w.exits ++ [{}] }, w.exits.length)

/-- Registers a handler with an exit table. One that the table refuses is discarded. -/
def register (w : World) (t : TableId) (h : Handler) : World × Except Fault Unit :=
  match (w.exitTable t).register h with
  | .ok table => (w.setExitTable t table, .ok ())
  | .error f => (w.notify (.discarded h), .error f)

theorem register_of_ran {w : World} {t : TableId} (hran : (w.exitTable t).ran = true)
    (h : Handler) : w.register t h = (w.notify (.discarded h), .error .exitTableClosed) := by
  rw [register, ExitTable.register, if_pos hran]

theorem register_of_not_ran {w : World} {t : TableId} (hran : (w.exitTable t).ran = false)
    (h : Handler) :
    w.register t h = (w.setExitTable t ⟨(w.exitTable t).handlers ++ [h], false⟩, .ok ()) := by
  simp only [register, ExitTable.register, hran, Bool.false_eq_true, if_false]

/-- A handler is either put into its table or discarded. -/
theorem register_induction {R : World → World → Prop}
    (htable : ∀ w t table, R w (w.setExitTable t table))
    (hdiscard : ∀ w h, R w (w.notify (.discarded h))) (w : World) (t : TableId) (h : Handler) :
    R w (w.register t h).1 := by
  unfold register
  split
  · exact htable w t _
  · exact hdiscard w h

theorem locals_register (w : World) (t : TableId) (h : Handler) :
    (w.register t h).1.locals = w.locals :=
  register_induction (R := fun w w' => w'.locals = w.locals) (fun _ _ _ => rfl) (fun _ _ => rfl)
    w t h

def registry? (w : World) (r : RegistryId) : Option Registry := w.registries[r]?

def modifyRegistry (w : World) (r : RegistryId) (f : Registry → Registry) : World :=
  { w with registries := w.registries.modify r f }

/-- The index of a kind of facet, given out now if it has none. -/
def indexOf (w : World) (kind : FacetKind) : World × Nat :=
  let (indices, i) := w.indices.assign (.kind kind.indexOwner)
  ({ w with indices }, i)

end World

end Hosted
