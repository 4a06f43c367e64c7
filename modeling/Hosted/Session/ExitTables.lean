import Hosted.Session.State

/-!
# Steps on exit tables
-/

namespace Hosted.Session

/-- A step on an exit table. -/
inductive ExitStep where
  /-- Makes a table. -/
  | make (table : String)
  /-- Registers a handler that reports its tag and then performs `actions`. -/
  | register (table : Ref) (tag : String) (actions : List HandlerAction)
  | run (table : Ref)
  | inspect (table : Ref)
  deriving DecidableEq, Repr

/-- Performs a step on an exit table. -/
def exitStep (s : Session) : ExitStep → Session × Outcome
  | .make table =>
    let (s, id) := s.perform World.addExitTable
    ({ s with exitTables := s.exitTables.put table id }, .reply .nothing)
  | .register table tag actions =>
    s.withTable table fun id =>
      match s.perform (·.register id (.report tag actions)) with
      | (s, .ok _) => (s, .reply .nothing)
      | (s, .error f) => (s, .refused f)
  | .run table =>
    s.withTable table fun id =>
      let (s, n) := s.perform (·.runTable id)
      (s, .reply (.number n))
  | .inspect table =>
    s.withTable table fun id =>
      let t := s.world.exitTable id
      (s, .reply (.exitTable t.length t.ran))

end Hosted.Session
