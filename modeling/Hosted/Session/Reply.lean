import Hosted.World.State

/-!
# Replies

What the steps of a session answer with. Objects are shown by their properties, by
the number of references to them, and by the names under which they are already
known.
-/

namespace Hosted

/-- A locale handed out by a step. -/
structure LocaleView where
  name : String
  /-- The references to the locale, with the one handed out. -/
  refs : Nat
  /-- The names that already stood for the locale. -/
  same : List String
  deriving DecidableEq, Repr

/-- A facet handed out by a step. -/
structure FacetView where
  facet : Facet
  refs : Nat
  same : List String
  deriving DecidableEq, Repr

/-- The answer of a step that succeeds. -/
inductive Reply where
  | nothing
  | truth (value : Bool)
  | number (value : Int)
  | text (value : String)
  /-- A slot handle, numbered from the start of the session. -/
  | slot (handle : SlotHandle)
  | slotTable (limit inUse : Nat)
  | exitTable (length : Nat) (hasRun : Bool)
  | locale (view : LocaleView)
  | localeInfo (locale : Locale) (refs : Nat)
  /-- The texts of a handle to a locale and of the locale itself. -/
  | localeTexts (handle body : String)
  | localesCompared (equal same : Bool)
  | facet (view : FacetView)
  | facetInfo (facet : Facet) (refs : Nat)
  | facetIndex (index : Option Nat)
  | facetList (length : Nat)
  /-- The text of a registry and the number of its entries. -/
  | registry (text : String) (entries : Nat)
  | teardown (report : TeardownReport)
  /-- A thread's value. -/
  | value (text : Option String) (bound : Bool)
  /-- The values of all threads, and how many values are bound. -/
  | values (count : Nat) (texts : List String)
  | counters (counters : Counters)
  | settings (settings : Settings)
  | levels (enabled : List Log.Level)
  | emitter (previous : Bool)
  /-- A raw handle, by the names of the handles to the same locale. -/
  | handle (same : List String)
  /-- The length of a name and, if there was one, the buffer it was copied to. -/
  | nameCopy (length : Nat) (buffer : Option (List UInt8))
  deriving DecidableEq, Repr

/-- How a step ends. -/
inductive Outcome where
  | reply (reply : Reply)
  /-- The step was refused. -/
  | refused (fault : Fault)
  /-- The step ended in a fault its caller could not handle. -/
  | fatal (fault : Fault)
  /-- An output had no room left. -/
  | outputFull
  /-- A name that stands for nothing. -/
  | unknown (name : String)
  /-- The whole process ended. -/
  | aborted
  deriving DecidableEq, Repr

namespace Outcome

/-- The outcome of an operation that may be refused. -/
def ofExcept {α : Type} (reply : α → Reply) : Except Fault α → Outcome
  | .ok a => .reply (reply a)
  | .error f => .refused f

/-- The outcome of an operation whose faults are fatal. -/
def ofFatal {α : Type} (reply : α → Reply) : Except Fault α → Outcome
  | .ok a => .reply (reply a)
  | .error f => .fatal f

/-- The outcome for a caller in C. A fatal fault cannot be passed on to it and ends the
process. -/
def forC : Outcome → Outcome
  | .fatal _ => .aborted
  | o => o

end Outcome

end Hosted
