import Hosted.World.Registries

/-!
# Running exit tables

Handlers may look at the table that is running them, run it again or register with
it. A table gives its handlers out once, so runs nest no deeper than there are
tables.
-/

namespace Hosted.World

/-- Performs one action of a reporting handler of table `t`. A nested run goes
through `run`. -/
def perform (run : World → TableId → World × Nat) (t : TableId) (w : World) :
    HandlerAction → World
  | .look => w.notify (.tableSeen (w.exitTable t).length (w.exitTable t).ran)
  | .run =>
    let (w, n) := run w t
    w.notify (.nestedRun n)
  | .register tag =>
    let (w, result) := w.register t (.report tag [])
    w.notify (.registration result)

/-- Runs one handler of table `t`. -/
def runHandler (run : World → TableId → World × Nat) (t : TableId) (w : World) :
    Handler → World
  | .report tag actions => actions.foldl (perform run t) (w.notify (.handlerRan tag))
  | .teardown r => (w.teardown r).1

/-- Runs a table, with runs nested at most `depth` deep. -/
def runTableWithin : Nat → World → TableId → World × Nat
  | 0, w, _ => (w, 0)
  | depth + 1, w, t =>
    match (w.exitTable t).start with
    | (_, none) => (w, 0)
    | (table, some handlers) =>
      let step (w : World) (h : Handler) : World :=
        (runHandler (runTableWithin depth) t w h).tally .exitHandlersRun
      let w := handlers.foldl step (w.setExitTable t table)
      (w.log (.handlersRan handlers.length), handlers.length)

/-- Runs a table. Answers with the number of handlers that ran. -/
def runTable (w : World) (t : TableId) : World × Nat := runTableWithin w.exits.length w t

end Hosted.World
