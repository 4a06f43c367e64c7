import Hosted.Session.Events
import Hosted.Session.ExitTables
import Hosted.Session.Facets
import Hosted.Session.Handles
import Hosted.Session.Locales
import Hosted.Session.Logs
import Hosted.Session.Process
import Hosted.Session.Threads

/-!
# Running a session

A session runs its steps one after the other, each on its thread. With the outcome of
a step goes what happened during it and the lines that the watched output got.
-/

namespace Hosted

/-- A step of a session. -/
inductive Step where
  | exit (step : Session.ExitStep)
  | registry (step : Session.RegistryStep)
  | locale (step : Session.LocaleStep)
  | facet (step : Session.FacetStep)
  | slot (step : Session.SlotStep)
  | threadLocal (step : Session.LocalStep)
  | log (step : Session.LogStep)
  | handle (step : Session.HandleStep)
  | process (step : Session.ProcessStep)
  /-- Ends the thread that the step names. -/
  | endThread

/-- A step and the named thread it runs on; without a name it is the main thread. -/
structure Command where
  on : Option String := none
  step : Step

/-- What a step answers with. -/
structure Answer where
  outcome : Outcome
  events : List String := []
  lines : List (List Char) := []
  deriving DecidableEq, Repr

namespace Session

/-- Performs a step on a thread. -/
def performStep (s : Session) (on : Option String) (t : ThreadId) : Step → Session × Outcome
  | .exit step => s.exitStep step
  | .registry step => s.registryStep t step
  | .locale step => s.localeStep step
  | .facet step => s.facetStep step
  | .slot step => s.slotStep step
  | .threadLocal step => s.localStep on t step
  | .log step => s.logStep step
  | .handle step => s.handleStep t step
  | .process step => s.processStep t step
  | .endThread =>
    let (s, ended) := s.endThread (on.getD "")
    (s, .reply (.truth ended))

/-- Performs a command. Ending a thread starts none. -/
def perform? (s : Session) (c : Command) : Session × Outcome :=
  match c.step with
  | .endThread => s.performStep c.on s.main.id .endThread
  | step =>
    let (s, t) := s.threadOf c.on
    s.performStep c.on t step

/-- Writes what the notices report to the journal. -/
def journalNotices (s : Session) (notices : List Notice) : Session :=
  let write (j : Log.Journal) : Notice → Log.Journal
    | .logged o => j.emit s.world.settings (o.entry s.timestamp)
    | _ => j
  { s with journal := notices.foldl write s.journal }

/-- Collects the notices given since the last step. -/
def collect (s : Session) : Session × List String :=
  let notices := s.world.notices
  ((s.onWorld ({ · with notices := [] })).journalNotices notices, eventsOf notices)

/-- Collects the lines written to the watched output since the last step. -/
def newLines (s : Session) : Session × List (List Char) :=
  match s.watched with
  | none => (s, [])
  | some watched =>
    match s.journal.outputs[watched.output]? with
    | none => (s, [])
    | some o =>
      ({ s with watched := some { watched with reported := o.writes.length } },
        Hosted.lines (Utf8.decodeLossy (o.bytesAfter watched.reported)))

/-- Performs a command and collects what goes with its outcome. -/
def answer (s : Session) (c : Command) : Session × Answer :=
  let (s, outcome) := s.perform? c
  let (s, events) := s.collect
  let (s, lines) := s.newLines
  (s, { outcome, events, lines })

/-- Performs commands one after the other until one ends the process. -/
def run (s : Session) : List Command → Session × List Answer
  | [] => (s, [])
  | c :: rest =>
    match s.answer c with
    | (s, { outcome := .aborted, events, lines }) => (s, [{ outcome := .aborted, events, lines }])
    | (s, a) =>
      let (s, answers) := s.run rest
      (s, a :: answers)

/-! ## Beginnings -/

/-- Watches a new output, to which the journal writes entries from the given level
on. -/
def watch (s : Session) (level : Option Log.Level) : Session :=
  match level with
  | none => s
  | some _ =>
    let (journal, output) := s.journal.addMemory none
    let (journal, _) := journal.install { output, runId := "s" } level
    { s with journal, watched := some { output } }

/-- The facet indices that are given out when a session is opened in a process. -/
def knownKinds : List FacetKind :=
  [.charClass, .numPunct, .collation, .transcoder, .probe0, .probe1, .probe2]

/-- The state of a process in which a session is opened: its registry has been made,
by another thread, but nothing has been published, and the teardown of the registry
is taken to be queued. -/
def openedWorld : World :=
  let w := ((World.fresh {}).ownRegistry 0).1
  let w := knownKinds.foldl (fun w kind => (w.indexOf kind).1) w
  let w := match w.processRegistry with
    | some r => w.modifyRegistry r ({ · with teardownQueued := true })
    | none => w
  { w with counters := {}, notices := [] }

/-- A session opened in a process that has been running, with no log but the watched
one. -/
def opened (timestamp : String) (level : Option Log.Level) : Session :=
  { world := openedWorld, journal := { threshold := .off }, timestamp, seqBase := 1
    main := { id := 1 }, nextThread := 2 : Session }.watch level

/-- A session in a process of its own. -/
def alone (settings : Settings) (timestamp : String) (level : Option Log.Level) : Session :=
  { world := World.fresh settings, timestamp : Session }.watch level

/-- The answers of a session opened in a running process. -/
def answers (timestamp : String) (level : Option Log.Level) (commands : List Command) :
    List Answer :=
  ((opened timestamp level).run commands).2

end Session

/-- What a process leaves behind. -/
structure ProcessReport where
  /-- The answers of all steps that came to an end. -/
  answers : List Answer
  aborted : Bool
  /-- The lines on standard error. -/
  errorLines : List (List Char)
  /-- The files written, with their lines. -/
  files : List (String × List (List Char))
  deriving DecidableEq, Repr

namespace ProcessReport

/-- What a session in a process of its own leaves behind. -/
def ofRun (s : Session) (answers : List Answer) : ProcessReport :=
  let outputs := s.journal.outputs
  { answers := answers.filter (·.outcome ≠ .aborted)
    aborted := answers.any (·.outcome = .aborted)
    errorLines := (outputs.filter (·.kind = .standardError)).flatMap (·.lines)
    files := outputs.filterMap fun o =>
      match o.kind with
      | .file name => some (name, o.lines)
      | _ => none }

/-- Runs commands in a process of its own. -/
def ofCommands (settings : Settings) (timestamp : String) (level : Option Log.Level)
    (commands : List Command) : ProcessReport :=
  let (s, answers) := (Session.alone settings timestamp level).run commands
  ofRun s answers

end ProcessReport

end Hosted
