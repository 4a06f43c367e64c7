import Hosted.Text.Decimal

/-!
# Counters

One count for each kind of operation. They are for diagnosis only; all wrap at
`2 ^ 64`.
-/

namespace Hosted

/-- The operations that are counted. -/
inductive Counter where
  | localesConstructed | localesDestroyed
  | facetsRegistered | facetsReleased | lazyFacetsCreated
  | slotsAllocated | slotsReleased
  | valuesBound | valuesFreed
  | exitHandlersRun | fatalErrors
  deriving DecidableEq, Repr

namespace Counter

/-- The counters in the order a snapshot lists them. -/
def all : List Counter :=
  [.localesConstructed, .localesDestroyed, .facetsRegistered, .facetsReleased,
    .lazyFacetsCreated, .slotsAllocated, .slotsReleased, .valuesBound, .valuesFreed,
    .exitHandlersRun, .fatalErrors]

/-- The name of a counter in a snapshot. -/
def name : Counter → String
  | localesConstructed => "locales_constructed"
  | localesDestroyed => "locales_destroyed"
  | facetsRegistered => "facets_registered"
  | facetsReleased => "facets_released"
  | lazyFacetsCreated => "lazy_facets_created"
  | slotsAllocated => "tls_slots_allocated"
  | slotsReleased => "tls_slots_released"
  | valuesBound => "tls_values_bound"
  | valuesFreed => "tls_values_freed"
  | exitHandlersRun => "exit_handlers_run"
  | fatalErrors => "fatal_errors"

/-- The counter of a given name. -/
def ofName? (name : String) : Option Counter := all.find? (·.name == name)

end Counter

/-- The state of all counters. -/
structure Counters where
  localesConstructed : UInt64 := 0
  localesDestroyed : UInt64 := 0
  facetsRegistered : UInt64 := 0
  facetsReleased : UInt64 := 0
  lazyFacetsCreated : UInt64 := 0
  slotsAllocated : UInt64 := 0
  slotsReleased : UInt64 := 0
  valuesBound : UInt64 := 0
  valuesFreed : UInt64 := 0
  exitHandlersRun : UInt64 := 0
  fatalErrors : UInt64 := 0
  deriving DecidableEq, Repr

namespace Counters

/-- The value of one counter. -/
def get (c : Counters) : Counter → UInt64
  | .localesConstructed => c.localesConstructed
  | .localesDestroyed => c.localesDestroyed
  | .facetsRegistered => c.facetsRegistered
  | .facetsReleased => c.facetsReleased
  | .lazyFacetsCreated => c.lazyFacetsCreated
  | .slotsAllocated => c.slotsAllocated
  | .slotsReleased => c.slotsReleased
  | .valuesBound => c.valuesBound
  | .valuesFreed => c.valuesFreed
  | .exitHandlersRun => c.exitHandlersRun
  | .fatalErrors => c.fatalErrors

/-- Adds `n` to one counter. -/
def add (c : Counters) (which : Counter) (n : UInt64) : Counters :=
  match which with
  | .localesConstructed => { c with localesConstructed := c.localesConstructed + n }
  | .localesDestroyed => { c with localesDestroyed := c.localesDestroyed + n }
  | .facetsRegistered => { c with facetsRegistered := c.facetsRegistered + n }
  | .facetsReleased => { c with facetsReleased := c.facetsReleased + n }
  | .lazyFacetsCreated => { c with lazyFacetsCreated := c.lazyFacetsCreated + n }
  | .slotsAllocated => { c with slotsAllocated := c.slotsAllocated + n }
  | .slotsReleased => { c with slotsReleased := c.slotsReleased + n }
  | .valuesBound => { c with valuesBound := c.valuesBound + n }
  | .valuesFreed => { c with valuesFreed := c.valuesFreed + n }
  | .exitHandlersRun => { c with exitHandlersRun := c.exitHandlersRun + n }
  | .fatalErrors => { c with fatalErrors := c.fatalErrors + n }

/-- Counts one operation. -/
def increment (c : Counters) (which : Counter) : Counters := c.add which 1

theorem get_add (c : Counters) (which other : Counter) (n : UInt64) :
    (c.add which n).get other = if other = which then c.get other + n else c.get other := by
  cases which <;> cases other <;> simp [add, get]

/-- Every counter with its name, in the order of a snapshot. -/
def snapshot (c : Counters) : List (String × UInt64) :=
  Counter.all.map fun which => (which.name, c.get which)

end Counters

end Hosted
