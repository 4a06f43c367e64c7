import Hosted.Session.State

/-!
# Steps on slots

Slot handles are written with the sequence numbers of the session, which begin at
one; the number 0 is the mark of a free index and stays what it is.
-/

namespace Hosted.Session

/-- A handle by its name, or written out. -/
inductive SlotRef where
  | named (name : String)
  | written (handle : SlotHandle)
  deriving DecidableEq, Repr

/-- A step on slots. A result is kept under the name `keep`, if there is one. -/
inductive SlotStep where
  /-- Makes a table, with the limit of the settings unless one is given. -/
  | makeTable (table : String) (limit : Option Nat)
  | allocateIn (table : String) (keep : Option String)
  | releaseIn (table : String) (handle : SlotRef)
  | isLiveIn (table : String) (handle : SlotRef)
  | inspectTable (table : String)
  /-- Takes a slot of the process. -/
  | take (keep : Option String)
  /-- Gives a slot of the process back. -/
  | give (handle : SlotRef)
  /-- Counts the slots of the process that are held. -/
  | inUse
  deriving DecidableEq, Repr

/-- A handle as the session shows it. -/
def shownSlot (s : Session) (h : SlotHandle) : SlotHandle := { h with seq := h.seq - s.seqBase }

/-- The handle that is written as `h` in the session. -/
def writtenSlot (s : Session) (h : SlotHandle) : SlotHandle :=
  if h.seq = 0 then h else { h with seq := h.seq + s.seqBase }

/-- Goes on with a handle. -/
def withSlot (s : Session) (h : SlotRef) (f : SlotHandle → Session × Outcome) :
    Session × Outcome :=
  match h with
  | .named name => s.withNamed s.slots name f
  | .written handle => f (s.writtenSlot handle)

/-- Answers with a handle, which is kept under a name if there is one. -/
def answerSlot (s : Session) (keep : Option String) (h : SlotHandle) : Session × Outcome :=
  let s := keep.elim s fun name => { s with slots := s.slots.put name h }
  (s, .reply (.slot (s.shownSlot h)))

/-- Replaces a table. -/
def putTable (s : Session) (name : String) (table : SlotTable) : Session :=
  { s with slotTables := s.slotTables.put name table }

/-- Uses up a sequence number. -/
def useSeq (s : Session) : Session :=
  s.onWorld fun w => { w with locals := { w.locals with nextSeq := w.locals.nextSeq + 1 } }

/-- Performs a step on slots. -/
def slotStep (s : Session) : SlotStep → Session × Outcome
  | .makeTable table limit =>
    (s.putTable table { limit := limit.getD s.world.settings.slotLimit }, .reply .nothing)
  | .allocateIn table keep =>
    s.withNamed s.slotTables table fun body =>
      match body.allocate s.world.locals.nextSeq with
      | .ok (h, body) => (s.useSeq.putTable table body).answerSlot keep h
      | .error f => (s, .refused f)
  | .releaseIn table handle =>
    s.withNamed s.slotTables table fun body =>
      s.withSlot handle fun h =>
        let (body, released) := body.release h
        (s.putTable table body, .reply (.truth released))
  | .isLiveIn table handle =>
    s.withNamed s.slotTables table fun body =>
      s.withSlot handle fun h => (s, .reply (.truth (body.isLive h)))
  | .inspectTable table =>
    s.withNamed s.slotTables table fun body => (s, .reply (.slotTable body.limit body.inUse))
  | .take keep =>
    match s.perform World.takeSlot with
    | (s, .ok h) => s.answerSlot keep h
    | (s, .error f) => (s, .refused f)
  | .give handle =>
    s.withSlot handle fun h =>
      let (s, released) := s.perform (·.giveSlot h)
      (s, .reply (.truth released))
  | .inUse => (s, .reply (.number s.world.locals.table.inUse))

end Hosted.Session
