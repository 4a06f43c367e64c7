import Hosted.Json.Printer
import Hosted.Log.Level

/-!
# Log entries

An entry is written as one JSON object on one line. Four fields are always there;
the others are left out when they have no value.
-/

namespace Hosted.Log

/-- A log entry. -/
structure Entry where
  timestamp : String
  traceId : String
  level : Level
  event : String
  component : Option String := none
  locale : Option String := none
  facetId : Option UInt64 := none
  slot : Option UInt64 := none
  message : Option String := none
  details : Option Json.Value := none

namespace Entry

/-- Equality of entries, decided field by field. -/
def beq (a b : Entry) : Bool :=
  a.timestamp == b.timestamp && a.traceId == b.traceId && a.level == b.level &&
    a.event == b.event && a.component == b.component && a.locale == b.locale &&
    a.facetId == b.facetId && a.slot == b.slot && a.message == b.message &&
    a.details == b.details

instance : BEq Entry := ⟨beq⟩

/-- An index as a JSON number. -/
def indexValue (i : UInt64) : Json.Value := .nat i.toNat

/-- An optional field, if it is there. -/
def optionalField {α : Type} (name : String) (toValue : α → Json.Value) :
    Option α → List (String × Json.Value)
  | none => []
  | some a => [(name, toValue a)]

/-- The fields of an entry in the order they are written. -/
def fields (e : Entry) : List (String × Json.Value) :=
  [("timestamp", .string e.timestamp), ("trace_id", .string e.traceId),
    ("level", .string e.level.name), ("event", .string e.event)] ++
  optionalField "component" .string e.component ++
  optionalField "locale" .string e.locale ++
  optionalField "facet_id" indexValue e.facetId ++
  optionalField "slot" indexValue e.slot ++
  optionalField "message" .string e.message ++
  optionalField "details" id e.details

/-- The line of an entry, without a line feed. -/
def line (e : Entry) : List Char := (Json.Value.object e.fields).render

end Entry

end Hosted.Log
