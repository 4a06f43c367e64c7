import Hosted.Log.Level
import Hosted.Text.Decimal

/-!
# Settings

The settings of a process, read from three environment variables. A variable that
is not set, or whose value does not make sense, leaves its setting at the default.
-/

namespace Hosted

/-- The slots every host offers and those of the expansion table. -/
def defaultSlotLimit : Nat := 64 + 1024

/-- The settings of a process. -/
structure Settings where
  /-- The number of slots that may be in use at once. -/
  slotLimit : Nat := defaultSlotLimit
  /-- The least level that is logged; nothing is logged without one. -/
  logLevel : Option Log.Level := none
  /-- The file that log lines are appended to. -/
  logFile : Option String := none
  deriving DecidableEq, Repr

namespace Settings

/-- The variable that sets the slot limit. -/
def slotLimitVariable : String := "KCRT_TLS_SLOTS"

/-- The variable that sets the log level. -/
def logLevelVariable : String := "KCRT_LOG_LEVEL"

/-- The variable that names the log file. -/
def logFileVariable : String := "KCRT_LOG_FILE"

/-- The slot limit that a value of its variable sets: a positive number, with
white space around it and a plus sign allowed. -/
def slotLimit? (value : String) : Option Nat :=
  match readWord? (trimBlank value.toList) with
  | some n => if 0 < n then some n else none
  | none => none

/-- The log file that a value of its variable names, unless it is blank. -/
def logFile? (value : String) : Option String :=
  if trimBlank value.toList = [] then none else some value

/-- The settings under an environment. -/
def ofLookup (lookup : String → Option String) : Settings where
  slotLimit := ((lookup slotLimitVariable).bind slotLimit?).getD defaultSlotLimit
  logLevel := (lookup logLevelVariable).bind Log.Level.ofSetting?
  logFile := (lookup logFileVariable).bind logFile?

end Settings

end Hosted
