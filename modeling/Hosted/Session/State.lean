import Hosted.Log.Journal
import Hosted.Names
import Hosted.Session.Reply
import Hosted.World.Startup

/-!
# Sessions

A session drives an environment by steps and gives names to the objects that the
steps answer with. A named object is held by one reference. When a name is given to
another object, the reference to the object before is given up after the new object
has its name.
-/

namespace Hosted

/-- What an access at the end of a thread does. -/
inductive AccessKind where
  /-- Looks for the thread's value. -/
  | get
  /-- Asks for the thread's value, to be bound if there is none. -/
  | getOr
  /-- Makes a thread local and drops it. -/
  | make
  deriving DecidableEq, Repr

/-- An access to a thread local that waits for the end of a thread. Until it has
been made it keeps the thread local alive. -/
structure Access where
  kind : AccessKind
  target : LocalId
  tag : String
  deriving DecidableEq, Repr

/-- A thread of a session. -/
structure ThreadRun where
  id : ThreadId
  /-- The accesses to be made at its end, in order. -/
  accesses : List Access := []
  /-- The first access came before the thread used any slot. -/
  accessesFirst : Bool := false
  deriving DecidableEq, Repr

/-- The references to a locale that are held through one raw handle. -/
structure RawHandle where
  locale : LocaleId
  held : Nat
  deriving DecidableEq, Repr

/-- An output and the number of writes to it that have been reported. -/
structure Watched where
  output : Nat
  reported : Nat := 0
  deriving DecidableEq, Repr

/-- A session. -/
structure Session where
  world : World
  journal : Log.Journal := {}
  /-- The time of everything that happens in the session. -/
  timestamp : String
  /-- How many sequence numbers had been given out before the session. -/
  seqBase : Nat := 0
  /-- The thread of the steps that name none. It outlives the session. -/
  main : ThreadRun := { id := 0 }
  nextThread : ThreadId := 1
  threads : Names ThreadRun := {}
  exitTables : Names TableId := {}
  registries : Names RegistryId := {}
  locales : Names LocaleId := {}
  facets : Names FacetId := {}
  facetLists : Names (List FacetId) := {}
  slotTables : Names SlotTable := {}
  slots : Names SlotHandle := {}
  locals : Names LocalId := {}
  handles : Names RawHandle := {}
  emitters : Names Log.Emitter := {}
  outputs : Names Nat := {}
  /-- The output whose lines are part of the answers. -/
  watched : Option Watched := none

/-- An object of the process itself, or a named one. -/
inductive Ref where
  | own
  | named (name : String)
  deriving DecidableEq, Repr

namespace Session

/-- Changes the environment. -/
def onWorld (s : Session) (f : World → World) : Session := { s with world := f s.world }

/-- Performs an operation of the environment. -/
def perform {α : Type} (s : Session) (f : World → World × α) : Session × α :=
  let (world, a) := f s.world
  ({ s with world }, a)

/-- Goes on with what a name stands for. -/
def withNamed {α : Type} (s : Session) (names : Names α) (name : String)
    (f : α → Session × Outcome) : Session × Outcome :=
  match names.find? name with
  | some a => f a
  | none => (s, .unknown name)

/-! ## Threads -/

/-- The thread that a step runs on. A named thread starts with its first step. -/
def threadOf (s : Session) : Option String → Session × ThreadId
  | none => (s, s.main.id)
  | some name =>
    match s.threads.find? name with
    | some run => (s, run.id)
    | none =>
      ({ s with
          threads := s.threads.put name { id := s.nextThread }, nextThread := s.nextThread + 1 },
        s.nextThread)

/-! ## Named objects -/

/-- Keeps a locale under a name; without one its reference is given up. -/
def keepLocale (s : Session) (keep : Option String) (l : LocaleId) : Session :=
  match keep with
  | none => s.onWorld (·.releaseLocale l)
  | some name =>
    let before := s.locales.find? name
    let s := { s with locales := s.locales.put name l }
    before.elim s fun old => s.onWorld (·.releaseLocale old)

/-- Answers with a locale, taking over the reference to it. -/
def answerLocale (s : Session) (keep : Option String) (l : LocaleId) : Session × Outcome :=
  let view : LocaleView :=
    { name := s.world.localeName l, refs := s.world.locales.refs l
      same := s.locales.namesOf (· = l) }
  (s.keepLocale keep l, .reply (.locale view))

/-- Answers with a locale if there is one. -/
def answerLocale? (s : Session) (keep : Option String) (l : Option LocaleId) :
    Session × Outcome :=
  l.elim (s, .reply .nothing) (s.answerLocale keep)

/-- Keeps a facet under a name; without one its reference is given up. -/
def keepFacet (s : Session) (keep : Option String) (f : FacetId) : Session :=
  match keep with
  | none => s.onWorld (·.releaseFacet f)
  | some name =>
    let before := s.facets.find? name
    let s := { s with facets := s.facets.put name f }
    before.elim s fun old => s.onWorld (·.releaseFacet old)

/-- Answers with a facet, taking over the reference to it. -/
def answerFacet (s : Session) (keep : Option String) (f : FacetId) : Session × Outcome :=
  match s.world.facets.get? f with
  | none => (s, .reply .nothing)
  | some facet =>
    let view : FacetView :=
      { facet, refs := s.world.facets.refs f, same := s.facets.namesOf (· = f) }
    (s.keepFacet keep f, .reply (.facet view))

/-- Answers with a facet if there is one. -/
def answerFacet? (s : Session) (keep : Option String) (f : Option FacetId) : Session × Outcome :=
  f.elim (s, .reply .nothing) (s.answerFacet keep)

/-- Goes on with a registry; that of the process is made if need be. -/
def withRegistry (s : Session) (t : ThreadId) (r : Ref)
    (f : Session → RegistryId → Session × Outcome) : Session × Outcome :=
  match r with
  | .named name => s.withNamed s.registries name (f s)
  | .own =>
    match s.perform (·.ownRegistry t) with
    | (s, .ok r) => f s r
    | (s, .error fault) => (s, .fatal fault)

/-- Goes on with an exit table. -/
def withTable (s : Session) (t : Ref) (f : TableId → Session × Outcome) : Session × Outcome :=
  match t with
  | .named name => s.withNamed s.exitTables name f
  | .own => f World.processTable

end Session

end Hosted
