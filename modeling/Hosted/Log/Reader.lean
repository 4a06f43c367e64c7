import Hosted.Json.Reader
import Hosted.Log.Entry

/-!
# Reading log lines

An entry may be an object with its fields in any order, or an array of four to ten
values in the order of the fields. Unknown fields are read over. A field with the
value `null` is absent, and the four fields that every entry has cannot be absent.
-/

namespace Hosted.Log

open Json

/-- The fields of an entry. -/
inductive Field where
  | timestamp | traceId | level | event
  | component | locale | facetId | slot | message | details
  deriving DecidableEq, Repr

namespace Field

/-- The fields in the order they are written. -/
def all : List Field :=
  [.timestamp, .traceId, .level, .event, .component, .locale, .facetId, .slot, .message,
    .details]

/-- The name of a field in a log line. -/
def name : Field → String
  | timestamp => "timestamp"
  | traceId => "trace_id"
  | level => "level"
  | event => "event"
  | component => "component"
  | locale => "locale"
  | facetId => "facet_id"
  | slot => "slot"
  | message => "message"
  | details => "details"

/-- The field of a given name. -/
def ofName? (name : String) : Option Field := all.find? (·.name == name)

end Field

/-- What has been read of an entry: an outer `none` is a field not met yet. -/
structure Draft where
  timestamp : Option String := none
  traceId : Option String := none
  level : Option Level := none
  event : Option String := none
  component : Option (Option String) := none
  locale : Option (Option String) := none
  facetId : Option (Option UInt64) := none
  slot : Option (Option UInt64) := none
  message : Option (Option String) := none
  details : Option (Option Value) := none

namespace Draft

/-- The field has been read. -/
def has (d : Draft) : Field → Bool
  | .timestamp => d.timestamp.isSome
  | .traceId => d.traceId.isSome
  | .level => d.level.isSome
  | .event => d.event.isSome
  | .component => d.component.isSome
  | .locale => d.locale.isSome
  | .facetId => d.facetId.isSome
  | .slot => d.slot.isSome
  | .message => d.message.isSome
  | .details => d.details.isSome

/-- The entry, if the fields that every entry has were met. -/
def entry? (d : Draft) : Option Entry :=
  match d.timestamp, d.traceId, d.level, d.event with
  | some timestamp, some traceId, some level, some event =>
    some
      { timestamp, traceId, level, event
        component := d.component.join
        locale := d.locale.join
        facetId := d.facetId.join
        slot := d.slot.join
        message := d.message.join
        details := d.details.join }
  | _, _, _, _ => none

end Draft

/-- The defect of a value at the head of `cs` that has the wrong type. A scalar is
read first, since it may be malformed itself. -/
def wrongType (cs : List Char) : Defect :=
  match cs with
  | [] => .cutShort
  | c :: rest =>
    let defect {α : Type} (r : Except Defect α) : Defect :=
      match r with
      | .ok _ => .mistyped
      | .error d => d
    if c = 'n' then defect (dropWord ['u', 'l', 'l'] rest)
    else if c = 't' then defect (dropWord ['r', 'u', 'e'] rest)
    else if c = 'f' then defect (dropWord ['a', 'l', 's', 'e'] rest)
    else if c = '-' then defect (readNumber true rest)
    else if isDigit c then defect (readNumber false cs)
    else if c = '"' then defect (readString rest)
    else if c = '[' || c = '{' then .mistyped
    else .malformed

/-- A string value. -/
def readText (cs : List Char) : Reading String :=
  match skipSpace cs with
  | '"' :: rest => readString rest
  | other => .error (wrongType other)

/-- A non-negative integer below `2 ^ 64`. -/
def readIndex (cs : List Char) : Reading UInt64 :=
  match skipSpace cs with
  | [] => .error .cutShort
  | c :: rest =>
    if c = '-' || isDigit c then
      match readNumber (c = '-') (if c = '-' then rest else c :: rest) with
      | .ok (.integer (.ofNat n), rest) => .ok (n.toUInt64, rest)
      | .ok _ => .error .mistyped
      | .error d => .error d
    else .error (wrongType (c :: rest))

/-- A value, or nothing for `null`. -/
def readOptional {α : Type} (read : List Char → Reading α) (cs : List Char) :
    Reading (Option α) :=
  match skipSpace cs with
  | 'n' :: rest => (dropWord ['u', 'l', 'l'] rest).map fun r => (none, r)
  | _ => (read cs).map some

/-- The level a string names. -/
def readLevelName (cs : List Char) : Reading Level :=
  match readText cs with
  | .error d => .error d
  | .ok (name, rest) =>
    match Level.ofName? name with
    | some level => .ok (level, rest)
    | none => .error .mistyped

/-- What follows the name of a level in an object: `null` and the closing brace. -/
def readLevelClose (cs : List Char) : Except Defect (List Char) :=
  match dropColon cs with
  | .error d => .error d
  | .ok rest =>
    match skipSpace rest with
    | 'n' :: rest =>
      match dropWord ['u', 'l', 'l'] rest with
      | .error d => .error d
      | .ok rest =>
        match skipSpace rest with
        | [] => .error .cutShort
        | '}' :: rest => .ok rest
        | _ => .error .malformed
    | other => .error (wrongType other)

/-- A level: its name, or an object with its name and `null`. Whatever else stands in the
place of the name in an object is malformed, not mistyped. -/
def readLevel (cs : List Char) : Reading Level :=
  match skipSpace cs with
  | [] => .error .cutShort
  | '"' :: rest => readLevelName ('"' :: rest)
  | '{' :: rest =>
    match skipSpace rest with
    | [] => .error .cutShort
    | '"' :: rest =>
      match readLevelName ('"' :: rest) with
      | .error d => .error d
      | .ok (level, rest) => (readLevelClose rest).map fun rest => (level, rest)
    | _ => .error .malformed
  | _ => .error .malformed

/-- Reads one field into a draft. The entry itself is one of the containers around
the details. -/
def readField (d : Draft) (field : Field) (cs : List Char) : Reading Draft :=
  match field with
  | .timestamp => (readText cs).map fun v => { d with timestamp := some v }
  | .traceId => (readText cs).map fun v => { d with traceId := some v }
  | .level => (readLevel cs).map fun v => { d with level := some v }
  | .event => (readText cs).map fun v => { d with event := some v }
  | .component => (readOptional readText cs).map fun v => { d with component := some v }
  | .locale => (readOptional readText cs).map fun v => { d with locale := some v }
  | .facetId => (readOptional readIndex cs).map fun v => { d with facetId := some v }
  | .slot => (readOptional readIndex cs).map fun v => { d with slot := some v }
  | .message => (readOptional readText cs).map fun v => { d with message := some v }
  | .details =>
    (readOptional (readValue (maxDepth - 1)) cs).map fun v => { d with details := some v }

/-- The fields of an object up to its closing brace, bounded in number by a text no
shorter than the one left. A known field that comes a second time is an error as soon
as its name is read. -/
def readObject : List Char → Bool → Draft → List Char → Reading Draft
  | [], _, _, _ => .error .cutShort
  | _ :: bound, first, d, cs =>
    match nextField first cs with
    | .error e => .error e
    | .ok (false, rest) => .ok (d, rest)
    | .ok (true, rest) =>
      match readString rest with
      | .error e => .error e
      | .ok (name, rest) =>
        match Field.ofName? name with
        | some field =>
          if d.has field then .error .mistyped
          else
            match dropColon rest with
            | .error e => .error e
            | .ok rest =>
              match readField d field rest with
              | .error e => .error e
              | .ok (d, rest) => readObject bound false d rest
        | none =>
          match dropColon rest with
          | .error e => .error e
          | .ok rest =>
            match skipValue rest rest with
            | .error e => .error e
            | .ok (_, rest) => readObject bound false d rest

/-- The closing bracket after all ten values of an array. -/
def closeArray (cs : List Char) : Except Defect (List Char) :=
  match skipSpace cs with
  | [] => .error .cutShort
  | ']' :: rest => .ok rest
  | _ => .error .malformed

/-- The values of an array for the given fields, up to its closing bracket. -/
def readArray : List Field → Bool → Draft → List Char → Reading Draft
  | [], _, d, cs => (closeArray cs).map fun rest => (d, rest)
  | field :: fields, first, d, cs =>
    match nextItem first cs with
    | .error e => .error e
    | .ok (false, rest) => .ok (d, rest)
    | .ok (true, rest) =>
      match readField d field rest with
      | .error e => .error e
      | .ok (d, rest) => readArray fields false d rest

/-- The entry at the head of a text. -/
def readEntry (cs : List Char) : Reading Entry :=
  let finish : Reading Draft → Reading Entry
    | .error e => .error e
    | .ok (d, rest) =>
      match d.entry? with
      | some e => .ok (e, rest)
      | none => .error .mistyped
  match skipSpace cs with
  | '{' :: rest => finish (readObject rest true {} rest)
  | '[' :: rest => finish (readArray Field.all true {} rest)
  | other => .error (wrongType other)

/-- The entry that a line holds. -/
def Entry.ofLine (cs : List Char) : Except Defect Entry :=
  match readEntry cs with
  | .error e => .error e
  | .ok (e, rest) => if skipSpace rest = [] then .ok e else .error .malformed

end Hosted.Log
