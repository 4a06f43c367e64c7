import Hosted.Session.Slots
import Hosted.Text.Quoted

/-!
# Steps on thread locals

A thread local lives as long as its name or an access that waits for the end of a
thread. Whatever lets go of it last drops it, on the thread it runs on.
-/

namespace Hosted.Session

/-- A step on a thread local. Where `fatal` holds, a refusal is fatal. -/
inductive LocalStep where
  /-- Makes a thread local with a value for the step's thread. -/
  | make (name tag : String) (fatal : Bool)
  | get (name : String)
  /-- Answers with the thread's value; without one, a new value is bound. -/
  | getOr (name tag : String) (fatal : Bool)
  /-- Answers with the thread's value, which has to be there. -/
  | deref (name : String)
  | each (name : String)
  /-- Appends `suffix` and the number of the visit to each value. -/
  | extend (name suffix : String)
  | handle (name : String) (keep : Option String)
  | drop (name : String)
  | text (name : String)
  /-- Puts an access off to the end of the step's thread. -/
  | atExit (name : String) (kind : AccessKind) (tag : String)
  deriving DecidableEq, Repr

/-- The text of a tagged value. -/
def payloadText : Payload → String
  | .tracked text => text
  | .setting _ => ""

/-- A value with a text appended. -/
def extendPayload (suffix : String) (visit : Nat) : Payload → Payload
  | .tracked text => .tracked (text ++ suffix ++ numeral visit)
  | v => v

/-- Something keeps the thread local alive. -/
def isHeld (s : Session) (id : LocalId) : Bool :=
  s.locals.values.contains id ||
    (s.main :: s.threads.values).any (·.accesses.any (·.target = id))

/-- Drops a thread local on a thread unless something keeps it alive. -/
def letGo (s : Session) (t : ThreadId) (id : LocalId) : Session :=
  if s.isHeld id then s else s.onWorld (·.dropLocal t id)

/-- The slot of a thread local. -/
def slotOf (s : Session) (id : LocalId) : SlotHandle :=
  ((s.world.locals.local? id).map (·.handle)).getD ⟨0, 0⟩

/-- The text of a slot handle. -/
def slotText (h : SlotHandle) : String :=
  recordText "SlotHandle" [("index", numeral h.index), ("seq", numeral h.seq)]

/-- The text of a thread local as a thread sees it. -/
def localText (h : SlotHandle) (value : Option String) (bound : Nat) : String :=
  recordText "ThreadLocal"
    [("handle", slotText h),
      ("local", optionText (value.map fun v => "Tracked(" ++ quoted v ++ ")")),
      ("bound", numeral bound)]

/-- A thread's value as text. -/
def valueOf (s : Session) (t : ThreadId) (id : LocalId) : Session × Option String :=
  let (s, v) := s.perform (·.getLocal t id)
  (s, v.map payloadText)

/-- Gives a name to a new thread local and lets go of the one before. -/
def keepLocal (s : Session) (t : ThreadId) (name : String) (id : LocalId) : Session :=
  let before := s.locals.find? name
  let s := { s with locals := s.locals.put name id }
  before.elim s (s.letGo t)

/-- A new value under a tag, for a thread that has none. -/
def initialValue (tag : String) (w : World) : World × Payload :=
  (w.notify (.initialized tag), .tracked tag)

/-- The outcome of a step whose refusal may be fatal. -/
def refusal (fatal : Bool) (f : Fault) : Outcome := if fatal then .fatal f else .refused f

/-- Puts an access off to the end of a step's thread. The first one notes whether the
thread has used a slot before. -/
def putOff (s : Session) (on : Option String) (access : Access) : Session :=
  let add (run : ThreadRun) : ThreadRun :=
    let first := if run.accesses.isEmpty then s.world.locals.thread run.id = .untouched
      else run.accessesFirst
    { run with accesses := run.accesses ++ [access], accessesFirst := first }
  match on with
  | none => { s with main := add s.main }
  | some name =>
    match s.threads.find? name with
    | some run => { s with threads := s.threads.put name (add run) }
    | none => s

/-- Performs a step on a thread local, on the thread `t` named `on`. -/
def localStep (s : Session) (on : Option String) (t : ThreadId) : LocalStep → Session × Outcome
  | .make name tag fatal =>
    let make (w : World) := if fatal then w.newLocal t (.tracked tag)
      else w.tryNewLocal t (.tracked tag)
    match s.perform make with
    | (s, .error f) => (s, refusal fatal f)
    | (s, .ok id) =>
      let shown := s.shownSlot (s.slotOf id)
      (s.keepLocal t name id, .reply (.slot shown))
  | .get name =>
    s.withNamed s.locals name fun id =>
      let (s, value) := s.valueOf t id
      (s, .reply (.value value (s.world.locals.isBound t id)))
  | .getOr name tag fatal =>
    s.withNamed s.locals name fun id =>
      let get (w : World) := if fatal then w.getOr t id (initialValue tag)
        else w.tryGetOr t id (initialValue tag)
      match s.perform get with
      | (s, .ok v) => (s, .reply (.text (payloadText v)))
      | (s, .error f) => (s, refusal fatal f)
  | .deref name =>
    s.withNamed s.locals name fun id =>
      let (s, found) := s.perform (·.deref t id)
      (s, .ofFatal (fun v => .text (payloadText v)) found)
  | .each name =>
    s.withNamed s.locals name fun id =>
      (s, .reply (.values (s.world.locals.boundCount id)
        ((s.world.locals.valuesOf id).map payloadText)))
  | .extend name suffix =>
    s.withNamed s.locals name fun id =>
      let extend (w : World) : World :=
        { w with locals := w.locals.modifyAll id (extendPayload suffix) }
      (s.onWorld extend, .reply (.number (s.world.locals.boundCount id)))
  | .handle name keep =>
    s.withNamed s.locals name fun id => s.answerSlot keep (s.slotOf id)
  | .drop name =>
    s.withNamed s.locals name fun id =>
      ({ s with locals := s.locals.erase name }.letGo t id, .reply .nothing)
  | .text name =>
    s.withNamed s.locals name fun id =>
      let (s, value) := s.valueOf t id
      let bound := s.world.locals.boundCount id
      (s, .reply (.text (localText (s.shownSlot (s.slotOf id)) value bound)))
  | .atExit name kind tag =>
    s.withNamed s.locals name fun id => (s.putOff on ⟨kind, id, tag⟩, .reply .nothing)

end Hosted.Session
