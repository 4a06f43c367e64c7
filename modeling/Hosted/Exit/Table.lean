import Hosted.Fault

/-!
# Exit tables

A table collects handlers and runs them once, the newest first. From the moment it
starts to run it is empty and accepts no more.
-/

namespace Hosted

/-- Registries are numbered in the order they are made. -/
abbrev RegistryId := Nat

/-- What a reporting handler does after saying that it runs. -/
inductive HandlerAction where
  /-- Looks at the length and the state of its table. -/
  | look
  /-- Runs its table. -/
  | run
  /-- Registers a handler with the given tag. -/
  | register (tag : String)
  deriving DecidableEq, Repr

/-- A handler of an exit table: one that reports, or the teardown of a registry. -/
inductive Handler where
  | report (tag : String) (actions : List HandlerAction)
  | teardown (registry : RegistryId)
  deriving DecidableEq, Repr

/-- Handlers in the order they were registered, and whether they have been run. -/
structure ExitTable (H : Type) where
  handlers : List H := []
  ran : Bool := false
  deriving DecidableEq, Repr

namespace ExitTable

variable {H : Type}

/-- Adds a handler, unless the table has started to run. -/
def register (t : ExitTable H) (h : H) : Except Fault (ExitTable H) :=
  if t.ran then .error .exitTableClosed else .ok { t with handlers := t.handlers ++ [h] }

/-- The number of handlers waiting. -/
def length (t : ExitTable H) : Nat := t.handlers.length

/-- Takes all handlers for running, in the order they are to run. Nothing is given
out a second time. -/
def start (t : ExitTable H) : ExitTable H × Option (List H) :=
  if t.ran then (t, none) else ({ handlers := [], ran := true }, some t.handlers.reverse)

end ExitTable

end Hosted
