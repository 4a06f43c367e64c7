import Hosted.Session.State
import Hosted.Text.Quoted

/-!
# Steps on locale registries
-/

namespace Hosted.Session

/-- A step on a registry. A result is kept under the name `keep`, if there is one. -/
inductive RegistryStep where
  /-- Makes a registry whose teardown goes to the given exit table. -/
  | make (registry : String) (table : Ref)
  | classic (registry : Ref) (keep : Option String)
  /-- Publishes the locales and answers with the global one. -/
  | global (registry : Ref) (keep : Option String)
  | empty (registry : Ref) (keep : Option String)
  /-- Answers with the locale of the step's thread. -/
  | ofThread (registry : Ref) (keep : Option String)
  /-- Answers with the global locale, if it has been published. -/
  | global? (registry : Ref) (keep : Option String)
  /-- Publishes the locales. -/
  | ensure (registry : Ref)
  | isReady (registry : Ref)
  | replaceGlobal (registry : Ref) (locale : String) (keep : Option String)
  | setThread (registry : Ref) (locale keep : Option String)
  | findFacet (registry : Ref) (locale : String) (kind : FacetKind) (keep : Option String)
  | useFacet (registry : Ref) (locale : String) (kind : FacetKind) (keep : Option String)
  | recordFacet (registry : Ref) (facet : String)
  /-- Releases the facets recorded in a registry. -/
  | releaseRecorded (registry : Ref)
  | teardown (registry : Ref)
  | inspect (registry : Ref)
  deriving DecidableEq, Repr

/-- The text of a list of recorded facets. -/
def entriesText (count : Nat) : String := recordText "FacetRegistry" [("entries", numeral count)]

/-- The text of a registry. -/
def registryText (ready : Bool) (entries : Nat) : String :=
  recordText "LocaleRegistry" [("initialized", boolText ready), ("facets", entriesText entries)]

/-- Sets the locale of a thread, or takes its setting away. -/
def setThreadStep (s : Session) (t : ThreadId) (r : RegistryId) (l : Option LocaleId)
    (keep : Option String) : Session × Outcome :=
  let s := l.elim s fun l => s.onWorld (·.retainLocale l)
  match s.perform (·.setThreadLocale r t l) with
  | (s, .ok before) => s.answerLocale? keep before
  | (s, .error f) => (s, .fatal f)

/-- Performs a step on a registry. -/
def registryStep (s : Session) (t : ThreadId) : RegistryStep → Session × Outcome
  | .make registry table =>
    s.withTable table fun exits =>
      match s.perform (·.addRegistry t exits) with
      | (s, .ok r) => ({ s with registries := s.registries.put registry r }, .reply .nothing)
      | (s, .error f) => (s, .fatal f)
  | .classic registry keep =>
    s.withRegistry t registry fun s r =>
      let (s, l) := s.perform (·.classicLocale r)
      s.answerLocale keep l
  | .global registry keep =>
    s.withRegistry t registry fun s r =>
      let (s, l) := s.perform (·.globalLocale r)
      s.answerLocale keep l
  | .empty registry keep =>
    s.withRegistry t registry fun s r =>
      let (s, l) := s.perform (·.emptyLocale r)
      s.answerLocale keep l
  | .ofThread registry keep =>
    s.withRegistry t registry fun s r =>
      let (s, l) := s.perform (·.threadLocale r t)
      s.answerLocale keep l
  | .global? registry keep =>
    s.withRegistry t registry fun s r =>
      let (s, l) := s.perform (·.globalLocale? r)
      s.answerLocale? keep l
  | .ensure registry =>
    s.withRegistry t registry fun s r => (s.onWorld (·.ensureLocales r), .reply .nothing)
  | .isReady registry =>
    s.withRegistry t registry fun s r => (s, .reply (.truth (s.world.isReady r)))
  | .replaceGlobal registry locale keep =>
    s.withRegistry t registry fun s r =>
      s.withNamed s.locales locale fun l =>
        let (s, before) := s.perform (·.replaceGlobal r l)
        s.answerLocale keep before
  | .setThread registry none keep =>
    s.withRegistry t registry fun s r => s.setThreadStep t r none keep
  | .setThread registry (some locale) keep =>
    s.withRegistry t registry fun s r =>
      s.withNamed s.locales locale fun l => s.setThreadStep t r (some l) keep
  | .findFacet registry locale kind keep =>
    s.withRegistry t registry fun s r =>
      s.withNamed s.locales locale fun l =>
        let (s, f) := s.perform (·.findFacet r l kind)
        s.answerFacet? keep f
  | .useFacet registry locale kind keep =>
    s.withRegistry t registry fun s r =>
      s.withNamed s.locales locale fun l =>
        let (s, f) := s.perform (·.useFacet r l kind)
        s.answerFacet keep f
  | .recordFacet registry facet =>
    s.withRegistry t registry fun s r =>
      s.withNamed s.facets facet fun f =>
        let s := s.onWorld fun w => (w.retainFacet f).recordFacet r none f
        (s, .reply (.number (s.world.entryCount r)))
  | .releaseRecorded registry =>
    s.withRegistry t registry fun s r =>
      let (s, n) := s.perform (·.releaseRecorded r)
      (s, .reply (.number n))
  | .teardown registry =>
    s.withRegistry t registry fun s r =>
      let (s, report) := s.perform (·.teardown r)
      (s, .reply (.teardown report))
  | .inspect registry =>
    s.withRegistry t registry fun s r =>
      let entries := s.world.entryCount r
      (s, .reply (.registry (registryText (s.world.isReady r) entries) entries))

end Hosted.Session
