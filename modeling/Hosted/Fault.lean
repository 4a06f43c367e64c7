import Hosted.Text.Decimal

/-!
# Faults

What can go wrong while the environment works, and how it is worded.
-/

namespace Hosted

/-- The causes of failure. -/
inductive Fault where
  | slotsExhausted (limit : Nat)
  | bindFailed (index : Nat)
  | unbound (index : Nat)
  | exitTableClosed
  | allocationFailed (what : String) (size : Nat)
  deriving DecidableEq, Repr

namespace Fault

/-- The name of the kind of fault. -/
def kind : Fault → String
  | slotsExhausted _ => "slots_exhausted"
  | bindFailed _ => "bind_failed"
  | unbound _ => "unbound"
  | exitTableClosed => "exit_table_closed"
  | allocationFailed _ _ => "allocation_failed"

/-- The wording of a fault. -/
def message : Fault → String
  | slotsExhausted limit => "thread-local slots exhausted (limit " ++ numeral limit ++ ")"
  | bindFailed index =>
    "failed to bind thread-local slot " ++ numeral index ++ " for the calling thread"
  | unbound index =>
    "thread-local slot " ++ numeral index ++ " has no value bound for the calling thread"
  | exitTableClosed => "exit table already ran; handler not registered"
  | allocationFailed what size =>
    "allocation of " ++ numeral size ++ " bytes failed while constructing " ++ what

/-- What is said when a fault ends the calling path. -/
def fatalMessage (f : Fault) : String := "kcrt fatal: " ++ f.message

end Fault

end Hosted
