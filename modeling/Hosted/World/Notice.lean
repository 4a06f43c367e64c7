import Hosted.Counters
import Hosted.Exit.Table
import Hosted.Facet.Kind
import Hosted.Fault
import Hosted.Log.Calendar
import Hosted.Log.Entry
import Hosted.Settings

/-!
# Notices

What can be observed of the environment besides the answers of its operations: the
fate of values, facets and handlers, and what is reported to the log. Nothing the
environment does depends on a notice once it has been given.
-/

namespace Hosted

/-- What the teardown of a registry released. -/
structure TeardownReport where
  releasedClassic : Bool := false
  releasedGlobal : Bool := false
  threadLocales : Nat := 0
  lazyFacets : Nat := 0
  facetsTornDown : Nat := 0
  deriving DecidableEq, Repr

/-- What is reported to the log. -/
inductive Occurrence where
  | slotTaken (index : Nat)
  | slotRefused (fault : Fault)
  | bindRefused (index : Nat)
  | threadEnded (released : Nat)
  | handlersRan (count : Nat)
  | fatal (fault : Fault)
  | localeBuilt (name : String)
  | localeDestroyed (name : String)
  | classicPublished
  | globalReplaced (name : String)
  | teardownRefused (fault : Fault)
  | facetRecorded (index : Option Nat) (entries : Nat)
  | facetCreated (localeName : String) (index : Nat)
  | facetsReleased (count : Nat)
  | tornDown (report : TeardownReport)
  | started (settings : Settings)
  | stopped (counters : Counters)
  deriving DecidableEq, Repr

namespace Occurrence

open Json (Value)
open Log (Level)

/-- An object with one count in it. -/
def countDetails (name : String) (n : Nat) : Value := .object [(name, .nat n)]

def reportDetails (r : TeardownReport) : Value :=
  Value.ofFields
    [("released_classic", .bool r.releasedClassic), ("released_global", .bool r.releasedGlobal),
      ("thread_locales", .nat r.threadLocales), ("lazy_facets", .nat r.lazyFacets),
      ("facets_torn_down", .nat r.facetsTornDown)]

def settingsDetails (s : Settings) : Value :=
  Value.ofFields
    [("tls_slot_limit", .nat s.slotLimit),
      ("log_file", match s.logFile with
        | some name => .string name
        | none => .null)]

def countersDetails (c : Counters) : Value :=
  Value.ofFields (c.snapshot.map fun f => (f.1, .nat f.2.toNat))

/-- The log entry of an occurrence at the given time. -/
def entry (timestamp : String) (o : Occurrence) : Log.Entry :=
  let make (level : Level) (event component : String) : Log.Entry :=
    { timestamp, traceId := "", level, event, component := some component }
  match o with
  | slotTaken index => { make .trace "tls.slot_alloc" "tls" with slot := some index.toUInt64 }
  | slotRefused fault =>
    { make .error "tls.slot_exhausted" "tls" with message := some fault.message }
  | bindRefused index => { make .error "tls.bind_failed" "tls" with slot := some index.toUInt64 }
  | threadEnded n =>
    { make .trace "tls.thread_exit" "tls" with details := some (countDetails "released" n) }
  | handlersRan n =>
    { make .debug "onexit.run" "onexit" with details := some (countDetails "handlers" n) }
  | fatal fault =>
    { make .fatal ("fatal." ++ fault.kind) "runtime" with message := some fault.message }
  | localeBuilt name => { make .trace "locale.construct" "locale" with locale := some name }
  | localeDestroyed name => { make .trace "locale.destroy" "locale" with locale := some name }
  | classicPublished =>
    { make .debug "locale.classic_init" "locale_registry" with locale := some classicName }
  | globalReplaced name =>
    { make .debug "locale.set_global" "locale_registry" with locale := some name }
  | teardownRefused fault =>
    { make .warn "locale.teardown_unregistered" "locale_registry" with
      message := some fault.message }
  | facetRecorded index n =>
    { make .trace "facet.register" "facet_registry" with
      facetId := index.map Nat.toUInt64, details := some (countDetails "entries" n) }
  | facetCreated name index =>
    { make .debug "facet.lazy_create" "locale_registry" with
      locale := some name, facetId := some index.toUInt64 }
  | facetsReleased n =>
    { make .debug "facet.teardown" "facet_registry" with
      details := some (countDetails "released" n) }
  | tornDown report =>
    { make .info "locale.teardown" "locale_registry" with details := some (reportDetails report) }
  | started settings =>
    { make .info "runtime.start" "runtime" with details := some (settingsDetails settings) }
  | stopped counters =>
    { make .info "runtime.shutdown" "runtime" with details := some (countersDetails counters) }

end Occurrence

/-- Something that happened. -/
inductive Notice where
  /-- A value of a thread local was freed. -/
  | freed (tag : String)
  /-- An initializer of a thread local ran. -/
  | initialized (tag : String)
  /-- A probe was destroyed. -/
  | dropped (kind : FacetKind) (tag : String)
  /-- A probe was created on demand for the locale of a name. -/
  | created (kind : FacetKind) (localeName : String)
  /-- A handler ran. -/
  | handlerRan (tag : String)
  /-- A handler was released without having run. -/
  | discarded (handler : Handler)
  /-- A running handler looked at its table. -/
  | tableSeen (length : Nat) (hasRun : Bool)
  /-- A running handler ran its table. -/
  | nestedRun (count : Nat)
  /-- A running handler registered another one, or was refused. -/
  | registration (result : Except Fault Unit)
  /-- An access at the end of a thread looked for a value. -/
  | exitGet (value : Option String) (bound : Bool)
  /-- An access at the end of a thread asked for a value, to be bound if need be. -/
  | exitGetOr (result : Except Fault String)
  /-- An access at the end of a thread made a thread local. -/
  | exitNew (result : Except Fault Unit)
  /-- Something was reported to the log. -/
  | logged (occurrence : Occurrence)

end Hosted
