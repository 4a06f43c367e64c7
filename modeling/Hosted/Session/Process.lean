import Hosted.Session.State

/-!
# Steps on the process

Start, stop, counters, settings and fatal faults.
-/

namespace Hosted.Session

/-- A step on the process. -/
inductive ProcessStep where
  | start
  | isStarted
  | stop
  /-- As `start` and `stop`, for a caller in C, for whom a fatal fault ends the process. -/
  | startForC
  | stopForC
  | settings
  | counters
  /-- Raises a fault. -/
  | raise (fault : Fault)
  /-- Memory for something could not be had. -/
  | outOfMemory (what : String) (size : Nat)
  deriving DecidableEq, Repr

/-- The largest number that stopping answers a caller in C: the largest `int`. -/
def greatestInt : Nat := 0x7FFFFFFF

/-- Performs a step on the process. -/
def processStep (s : Session) (t : ThreadId) : ProcessStep → Session × Outcome
  | .start =>
    let (s, first) := s.perform (·.start t)
    (s, .ofFatal .truth first)
  | .isStarted => (s, .reply (.truth s.world.started))
  | .stop =>
    let (s, n) := s.perform World.stop
    (s, .reply (.number n))
  | .startForC =>
    let (s, first) := s.perform (·.start t)
    (s, (Outcome.ofFatal (fun b => .number (if b then 1 else 0)) first).forC)
  | .stopForC =>
    let (s, n) := s.perform World.stop
    (s, .reply (.number (min n greatestInt)))
  | .settings => (s, .reply (.settings s.world.settings))
  | .counters => (s, .reply (.counters s.world.counters))
  | .raise fault => (s.onWorld (·.raise fault), .fatal fault)
  | .outOfMemory what size => (s.onWorld (·.raise (.allocationFailed what size)), .aborted)

end Hosted.Session
