import Hosted.World.Locales

/-!
# Thread locals of a process

The operations on slots and thread locals with their counters, their reports and
what becomes of the values they free.
-/

namespace Hosted.World

/-- Takes a slot of the process. -/
def takeSlot (w : World) : World × Except Fault SlotHandle :=
  match w.locals.allocate with
  | (locals, .ok h) => (({ w with locals }.tally .slotsAllocated).log (.slotTaken h.index), .ok h)
  | (locals, .error f) => ({ w with locals }.log (.slotRefused f), .error f)

/-- Gives a slot of the process back. -/
def giveSlot (w : World) (h : SlotHandle) : World × Bool :=
  let (locals, released) := w.locals.release h
  let w := { w with locals }
  (if released then w.tally .slotsReleased else w, released)

/-- Frees a value that is in no cell any more. -/
def discard (w : World) (v : Payload) : World :=
  match v with
  | .tracked tag => w.notify (.freed tag)
  | .setting (some l) => w.releaseLocale l
  | .setting none => w

/-- Binds a value for a thread. If that is refused, the value is freed. -/
def bindValue (w : World) (t : ThreadId) (id : LocalId) (v : Payload) :
    World × Except Fault Unit :=
  match w.locals.bind t id v with
  | (locals, .ok _) => ({ w with locals }.tally .valuesBound, .ok ())
  | (locals, .error f) =>
    let w := { w with locals }.discard v
    (match f with
      | .bindFailed index => w.log (.bindRefused index)
      | _ => w, .error f)

/-- Drops a thread local on a thread: its values are freed and its slot is given
back. -/
def dropLocal (w : World) (t : ThreadId) (id : LocalId) : World :=
  match w.locals.detach t id with
  | (_, none) => w
  | (locals, some (values, h)) =>
    let w := values.foldl discard { w with locals }
    ((w.count .valuesFreed values.length).giveSlot h).1

/-- Makes a thread local with a value for the calling thread. If that fails, the
value is freed. -/
def tryNewLocal (w : World) (t : ThreadId) (v : Payload) : World × Except Fault LocalId :=
  match w.takeSlot with
  | (w, .error f) => (w.discard v, .error f)
  | (w, .ok h) =>
    let (locals, id) := w.locals.create h
    match { w with locals }.bindValue t id v with
    | (w, .ok _) => (w, .ok id)
    | (w, .error f) => (w.dropLocal t id, .error f)

/-- As `tryNewLocal`; a failure is fatal. -/
def newLocal (w : World) (t : ThreadId) (v : Payload) : World × Except Fault LocalId :=
  match w.tryNewLocal t v with
  | (w, .ok id) => (w, .ok id)
  | (w, .error f) => (w.raise f, .error f)

/-- The calling thread's value. -/
def getLocal (w : World) (t : ThreadId) (id : LocalId) : World × Option Payload :=
  ({ w with locals := w.locals.touch t }, w.locals.get? t id)

/-- The calling thread's value; if it has none, the one that `init` makes is bound. -/
def tryGetOr (w : World) (t : ThreadId) (id : LocalId) (init : World → World × Payload) :
    World × Except Fault Payload :=
  match w.getLocal t id with
  | (w, some v) => (w, .ok v)
  | (w, none) =>
    let (w, v) := init w
    match w.bindValue t id v with
    | (w, .ok _) => (w, .ok v)
    | (w, .error f) => (w, .error f)

/-- As `tryGetOr`; a failure is fatal. -/
def getOr (w : World) (t : ThreadId) (id : LocalId) (init : World → World × Payload) :
    World × Except Fault Payload :=
  match w.tryGetOr t id init with
  | (w, .ok v) => (w, .ok v)
  | (w, .error f) => (w.raise f, .error f)

/-- The calling thread's value; to have none is fatal. -/
def deref (w : World) (t : ThreadId) (id : LocalId) : World × Except Fault Payload :=
  match w.getLocal t id with
  | (w, some v) => (w, .ok v)
  | (w, none) =>
    let f := Fault.unbound (((w.locals.local? id).map (·.handle.index)).getD 0)
    (w.raise f, .error f)

/-- Ends a thread. The values it has bound are freed one by one. -/
def endThread (w : World) (t : ThreadId) : World :=
  let (locals, freed) := w.locals.endThread t
  let w := freed.foldl (fun w v => (w.discard v).tally .valuesFreed) { w with locals }
  if freed.isEmpty then w else w.log (.threadEnded freed.length)

end Hosted.World
