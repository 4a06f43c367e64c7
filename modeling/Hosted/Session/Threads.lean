import Hosted.Session.ThreadLocals

/-!
# The end of a thread

The accesses put off to the end of a thread are made while its values are still
bound, unless the first of them was registered before the thread ever used a slot:
then the values are reclaimed first, and the accesses find nothing and can bind
nothing.
-/

namespace Hosted.Session

/-- Makes one access on a thread that is ending. -/
def access (w : World) (t : ThreadId) (a : Access) : World :=
  match a.kind with
  | .get =>
    let (w, v) := w.getLocal t a.target
    w.notify (.exitGet (v.map payloadText) (w.locals.isBound t a.target))
  | .getOr =>
    let (w, got) := w.tryGetOr t a.target fun w => (w, .tracked a.tag)
    w.notify (.exitGetOr (got.map payloadText))
  | .make =>
    match w.tryNewLocal t (.tracked a.tag) with
    | (w, .ok id) => (w.dropLocal t id).notify (.exitNew (.ok ()))
    | (w, .error f) => w.notify (.exitNew (.error f))

/-- Makes the accesses that a named thread has put off, one after the other. Each
lets go of its thread local once it has been made. -/
def makeAccesses (s : Session) (name : String) (t : ThreadId) : List Access → Session
  | [] => s
  | a :: rest =>
    let s := s.onWorld fun w => access w t a
    let s := { s with threads := s.threads.put name { id := t, accesses := rest } }
    (s.letGo t a.target).makeAccesses name t rest

/-- Ends a named thread. Answers whether there was one. -/
def endThread (s : Session) (name : String) : Session × Bool :=
  match s.threads.find? name with
  | none => (s, false)
  | some run =>
    let reclaimFirst := run.accessesFirst && s.world.locals.thread run.id ≠ .untouched
    let s := if reclaimFirst then
        (s.onWorld (·.endThread run.id)).makeAccesses name run.id run.accesses
      else (s.makeAccesses name run.id run.accesses).onWorld (·.endThread run.id)
    ({ s with threads := s.threads.erase name }, true)

end Hosted.Session
