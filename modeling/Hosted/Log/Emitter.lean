import Hosted.Log.Output

/-!
# Emitters

An emitter writes entries to one output and gives a trace identifier to those that
have none.
-/

namespace Hosted.Log

/-- An emitter: the number of its output among all outputs, the run it belongs to
and how many identifiers it has given. -/
structure Emitter where
  output : Nat
  runId : String
  assigned : Nat := 0
  deriving DecidableEq, Repr

namespace Emitter

/-- The identifier numbered `n` in a run, for an entry of the given component. -/
def traceId (runId : String) (component : Option String) (n : Nat) : String :=
  "kcrt::" ++ runId ++ "::" ++ component.getD "core" ++ "::" ++ paddedNumeral 6 n

/-- Gives an entry an identifier if it has none. The number is used up whether or
not the entry can be written. -/
def label (e : Emitter) (entry : Entry) : Emitter × Entry :=
  if entry.traceId = "" then
    let n := e.assigned + 1
    ({ e with assigned := n }, { entry with traceId := traceId e.runId entry.component n })
  else (e, entry)

/-- Writes an entry on a line of its own. Answers whether it was written whole. -/
def emit (e : Emitter) (outputs : List Output) (entry : Entry) :
    Emitter × List Output × Bool :=
  let (e, entry) := e.label entry
  match outputs[e.output]? with
  | none => (e, outputs, false)
  | some o =>
    let (o, written) := o.write (Utf8.encode (entry.line ++ ['\n']))
    (e, outputs.set e.output o, written)

end Emitter

end Hosted.Log
