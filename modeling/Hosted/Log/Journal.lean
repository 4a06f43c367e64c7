import Hosted.Log.Emitter
import Hosted.Settings

/-!
# The journal of a process

The emitter that is installed, the level from which on entries pass, and all
outputs. Until something is installed, removed or configured, the first entry (or
the first question about a level) configures the journal from the settings.
-/

namespace Hosted.Log

/-- From which level on entries are written. -/
inductive Threshold where
  | unconfigured
  | off
  | atLeast (level : Level)
  deriving DecidableEq, Repr

namespace Threshold

/-- The threshold of an optional level; without one nothing passes. -/
def ofLevel : Option Level → Threshold
  | none => off
  | some level => atLeast level

/-- Entries of the given level pass. -/
def passes : Threshold → Level → Bool
  | atLeast least, level => least.rank ≤ level.rank
  | _, _ => false

end Threshold

/-- The longest name a file can have, in bytes. -/
def longestFileName : Nat := 255

/-- The longest path a file can be opened by, in bytes. -/
def longestPath : Nat := 4095

/-- A file can have this name. -/
def isFileName (name : String) : Bool :=
  name ≠ "" && name ≠ "." && name ≠ ".." && !name.toList.contains '\x00' &&
    (Utf8.encode name.toList).length ≤ longestFileName

/-- The devices that can be opened and keep nothing. -/
def deviceNames : List String := ["full", "null", "zero"]

/-- The output that a path leads to: a file of the working directory, which has no other
directories in it, or a device. A step `.` and an empty step stay in place. A path that is
too long leads nowhere, and nothing else outside the working directory can be opened. -/
def pathOutput? (path : String) : Option OutputKind :=
  match (path.splitOn "/").reverse with
  | [] => none
  | name :: way =>
    let moves := way.filter fun step => step ≠ "." ∧ step ≠ ""
    if longestPath < (Utf8.encode path.toList).length || !isFileName name then none
    else if way.getLast? = some "" then
      if moves = ["dev"] ∧ deviceNames.contains name then some .device else none
    else if moves = [] then some (.file name)
    else none

/-- The log of a process. -/
structure Journal where
  threshold : Threshold := .unconfigured
  emitter : Option Emitter := none
  outputs : List Output := []

namespace Journal

/-- The number of the output of the given kind, which is opened if there is none. -/
def openOutput (j : Journal) (kind : OutputKind) : Journal × Nat :=
  match j.outputs.findIdx? (·.kind = kind) with
  | some i => (j, i)
  | none => ({ j with outputs := j.outputs ++ [{ kind }] }, j.outputs.length)

/-- Adds an output in memory, with its number. -/
def addMemory (j : Journal) (room : Option Nat) : Journal × Nat :=
  ({ j with outputs := j.outputs ++ [{ kind := .memory, room }] }, j.outputs.length)

/-- Installs an emitter. Answers with the one installed before. -/
def install (j : Journal) (emitter : Emitter) (level : Option Level) :
    Journal × Option Emitter :=
  ({ j with emitter := some emitter, threshold := .ofLevel level }, j.emitter)

/-- Removes the emitter and turns logging off. -/
def uninstall (j : Journal) : Journal × Option Emitter :=
  ({ j with emitter := none, threshold := .off }, j.emitter)

/-- The output that settings ask for: the log file if it can be opened, else
standard error. -/
def settingsOutput (settings : Settings) : OutputKind :=
  (settings.logFile.bind pathOutput?).getD .standardError

/-- Applies settings to a journal that is not configured yet. -/
def configure (j : Journal) (settings : Settings) : Journal :=
  match j.threshold with
  | .unconfigured =>
    let j :=
      if settings.logLevel.isSome ∧ j.emitter.isNone then
        let (j, output) := j.openOutput (settingsOutput settings)
        { j with emitter := some { output, runId := "runtime" } }
      else j
    { j with threshold := .ofLevel settings.logLevel }
  | _ => j

/-- Entries of the given level are written. -/
def isEnabled (j : Journal) (level : Level) : Bool := j.threshold.passes level

/-- Writes an entry through the installed emitter if its level passes. Entries that
cannot be written are lost. -/
def emit (j : Journal) (settings : Settings) (entry : Entry) : Journal :=
  let j := j.configure settings
  if j.isEnabled entry.level then
    match j.emitter with
    | none => j
    | some e =>
      let (e, outputs, _) := e.emit j.outputs entry
      { j with emitter := some e, outputs }
  else j

end Journal

end Hosted.Log
