import Hosted.Text.Quoted
import Hosted.World.Notice

/-!
# Events

The text of what happened during a step, as far as it is part of an answer. Reports
to the log are not; they go to the journal.
-/

namespace Hosted

namespace Notice

/-- A fault by its wording, success as `done`. -/
def resultText {α : Type} (done : α → String) : Except Fault α → String
  | .ok a => done a
  | .error f => f.message

/-- The text of a notice. A report to the log has none, nor has the end of a handler that
never ran. -/
def event? : Notice → Option String
  | .freed tag => some ("free:" ++ tag)
  | .initialized tag => some ("init:" ++ tag)
  | .dropped kind tag => some ("drop:" ++ kind.name ++ ":" ++ tag)
  | .created kind localeName => some ("create:" ++ kind.name ++ ":" ++ localeName)
  | .handlerRan tag => some ("run:" ++ tag)
  | .tableSeen length hasRun =>
    some ("len:" ++ numeral length ++ " has_run:" ++ boolText hasRun)
  | .nestedRun count => some ("nested:" ++ numeral count)
  | .registration (.ok _) => some "registered"
  | .registration (.error f) => some ("rejected:" ++ f.kind)
  | .exitGet value bound =>
    some ("exit get:" ++ optionText (value.map quoted) ++ " " ++ boolText bound)
  | .exitGetOr result => some ("exit get_or:" ++ resultText id result)
  | .exitNew result => some ("exit new:" ++ resultText (fun _ => "ok") result)
  | .discarded _ | .logged _ => none

end Notice

/-- The texts of notices, in order. -/
def eventsOf (notices : List Notice) : List String := notices.filterMap Notice.event?

end Hosted
