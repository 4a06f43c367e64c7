import Hosted.Text.Blank

/-!
# Log levels
-/

namespace Hosted.Log

/-- The severity of a log entry, least severe first. -/
inductive Level where
  | trace | debug | info | warn | error | fatal
  deriving DecidableEq, Repr

namespace Level

/-- The levels from the least to the most severe. -/
def all : List Level := [.trace, .debug, .info, .warn, .error, .fatal]

/-- The place of a level in the order of severity, counted from one. -/
def rank : Level → Nat
  | trace => 1
  | debug => 2
  | info => 3
  | warn => 4
  | error => 5
  | fatal => 6

/-- The name of a level in a log line. -/
def name : Level → String
  | trace => "trace"
  | debug => "debug"
  | info => "info"
  | warn => "warn"
  | error => "error"
  | fatal => "fatal"

/-- The level of a given name. -/
def ofName? (name : String) : Option Level := all.find? (·.name == name)

/-- The order of severity. -/
def order (a b : Level) : Ordering := compare a.rank b.rank

/-- The more severe of two levels. -/
def worse (a b : Level) : Level := if a.rank ≤ b.rank then b else a

/-- The level that a setting names: white space around it and the case of ASCII
letters do not count, and `warning` is `warn`. -/
def ofSetting? (setting : String) : Option Level :=
  let word := String.ofList ((trimBlank setting.toList).map Char.toLower)
  if word = "warning" then some warn else ofName? word

end Level

end Hosted.Log
