import Hosted.World.Exits

/-!
# Start and stop

A process has one exit table and one registry of its own. The registry is made on
first use, by whatever thread comes first.
-/

namespace Hosted.World

/-- The exit table of the process. -/
def processTable : TableId := 0

/-- A process at its beginning. -/
def fresh (settings : Settings) : World :=
  { settings, locals := { table := { limit := settings.slotLimit } }, exits := [{}] }

/-- The registry of the process. Without a slot for it, its making is fatal. -/
def ownRegistry (w : World) (t : ThreadId) : World × Except Fault RegistryId :=
  match w.processRegistry with
  | some r => (w, .ok r)
  | none =>
    match w.addRegistry t processTable with
    | (w, .ok r) => ({ w with processRegistry := some r }, .ok r)
    | (w, .error f) => (w, .error f)

/-- Starts the environment. Only the first call does so, and it counts as the first
even if it fails. -/
def start (w : World) (t : ThreadId) : World × Except Fault Bool :=
  if w.started then (w, .ok false)
  else
    match { w with started := true }.ownRegistry t with
    | (w, .error f) => (w, .error f)
    | (w, .ok r) => ((w.ensureLocales r).log (.started w.settings), .ok true)

/-- Stops the environment by running the exit table of the process. Answers with the
number of handlers that ran. -/
def stop (w : World) : World × Nat :=
  let (w, n) := w.runTable processTable
  (if 0 < n then w.log (.stopped w.counters) else w, n)

end Hosted.World
