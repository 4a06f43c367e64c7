import Hosted.Session.State

/-!
# Steps on emitters and the journal
-/

namespace Hosted.Session

/-- A step on the log. -/
inductive LogStep where
  /-- Makes an emitter over a new output, which has room for a limited number of
  bytes if `room` is given. -/
  | makeEmitter (emitter runId : String) (room : Option Nat)
  | emit (emitter : String) (entry : Log.Entry)
  | flush (emitter : String)
  /-- Answers with the text written to an output. -/
  | output (output : String)
  /-- Moves an emitter into the journal; the one before is kept under a name. -/
  | install (emitter : String) (level : Option Log.Level) (keep : Option String)
  | uninstall (keep : Option String)
  | report (entry : Log.Entry)
  /-- Answers with the levels that pass. -/
  | enabled
  | configure (settings : Settings)

/-- An entry at the time of the session. -/
def stamped (s : Session) (entry : Log.Entry) : Log.Entry :=
  { entry with timestamp := s.timestamp }

/-- Answers whether there was an emitter, which is kept under a name if there is one. -/
def answerEmitter (s : Session) (keep : Option String) (e : Option Log.Emitter) :
    Session × Outcome :=
  let s := match keep, e with
    | some name, some e => { s with emitters := s.emitters.put name e }
    | _, _ => s
  (s, .reply (.emitter e.isSome))

/-- Performs a step on the log. -/
def logStep (s : Session) : LogStep → Session × Outcome
  | .makeEmitter emitter runId room =>
    let (journal, output) := s.journal.addMemory room
    ({ s with
        journal, emitters := s.emitters.put emitter { output, runId }
        outputs := s.outputs.put emitter output },
      .reply .nothing)
  | .emit emitter entry =>
    s.withNamed s.emitters emitter fun e =>
      let (e, outputs, written) := e.emit s.journal.outputs (s.stamped entry)
      ({ s with
          emitters := s.emitters.put emitter e, journal := { s.journal with outputs } },
        if written then .reply .nothing else .outputFull)
  | .flush emitter =>
    s.withNamed s.emitters emitter fun e =>
      match s.journal.outputs[e.output]? with
      | some o => (s, if o.canFlush then .reply .nothing else .outputFull)
      | none => (s, .unknown emitter)
  | .output output =>
    s.withNamed s.outputs output fun i =>
      match s.journal.outputs[i]? with
      | some o => (s, .reply (.text (String.ofList o.text)))
      | none => (s, .unknown output)
  | .install emitter level keep =>
    s.withNamed s.emitters emitter fun e =>
      let (journal, before) := s.journal.install e level
      { s with journal, emitters := s.emitters.erase emitter }.answerEmitter keep before
  | .uninstall keep =>
    let (journal, before) := s.journal.uninstall
    { s with journal }.answerEmitter keep before
  | .report entry =>
    ({ s with journal := s.journal.emit s.world.settings (s.stamped entry) }, .reply .nothing)
  | .enabled =>
    let journal := s.journal.configure s.world.settings
    ({ s with journal }, .reply (.levels (Log.Level.all.filter journal.isEnabled)))
  | .configure settings =>
    ({ s with journal := s.journal.configure settings }, .reply .nothing)

end Hosted.Session
