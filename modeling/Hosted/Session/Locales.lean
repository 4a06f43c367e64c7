import Hosted.Session.State
import Hosted.Text.Quoted

/-!
# Steps on locales
-/

namespace Hosted.Session

/-- The facet that a new locale gets: one known by name, or a new one. -/
inductive FacetSource where
  | stored (facet : String)
  | fresh (facet : Facet)
  deriving DecidableEq, Repr

/-- A step on a locale. A result is kept under the name `keep`, if there is one. -/
inductive LocaleStep where
  | inspect (locale : String)
  /-- Answers with the texts of the handle and of the locale. -/
  | texts (locale : String)
  | holdsIndex (locale : String) (kind : FacetKind)
  | facet (locale : String) (kind : FacetKind) (keep : Option String)
  | clone (locale : String) (keep : Option String)
  /-- Gives the named reference up. -/
  | drop (locale : String)
  | withFacet (locale : String) (kind : FacetKind) (source : FacetSource) (keep : Option String)
  | compare (first second : String)
  | covers (locale : String) (categories : Category)
  deriving DecidableEq, Repr

/-- The text of a handle to a locale. -/
def handleText (l : Locale) (refs : Nat) : String :=
  recordText "Locale"
    [("name", quoted l.name), ("transparent", boolText l.transparent), ("refs", numeral refs)]

/-- The text of a locale. -/
def localeText (l : Locale) : String :=
  recordText "LocaleImpl"
    [("name", quoted l.name), ("categories", l.categories.text),
      ("facets", numeral l.facetCount), ("transparent", boolText l.transparent),
      ("classic", boolText l.classic)]

/-- Goes on with a named locale and what it consists of. -/
def withLocale (s : Session) (name : String) (f : LocaleId → Locale → Session × Outcome) :
    Session × Outcome :=
  s.withNamed s.locales name fun l =>
    match s.world.locale? l with
    | some body => f l body
    | none => (s, .unknown name)

/-- A facet of a given kind, with a reference for the caller. -/
def takeFacet (s : Session) (kind : FacetKind) : FacetSource → Session × Option FacetId
  | .fresh facet =>
    let (s, f) := s.perform (·.addFacet facet)
    (s, some f)
  | .stored name =>
    match s.facets.find? name with
    | none => (s, none)
    | some f =>
      if (s.world.facets.get? f).any (·.kind = kind) then
        (s.onWorld (·.retainFacet f), some f)
      else (s, none)

/-- Performs a step on a locale. -/
def localeStep (s : Session) : LocaleStep → Session × Outcome
  | .inspect locale =>
    s.withLocale locale fun l body => (s, .reply (.localeInfo body (s.world.locales.refs l)))
  | .texts locale =>
    s.withLocale locale fun l body =>
      (s, .reply (.localeTexts (handleText body (s.world.locales.refs l)) (localeText body)))
  | .holdsIndex locale kind =>
    s.withNamed s.locales locale fun l =>
      let (s, holds) := s.perform (·.holdsIndex l kind)
      (s, .reply (.truth holds))
  | .facet locale kind keep =>
    s.withNamed s.locales locale fun l =>
      let (s, found) := s.perform (·.ownFacet l kind)
      let s := found.elim s fun f => s.onWorld (·.retainFacet f)
      s.answerFacet? keep found
  | .clone locale keep =>
    s.withNamed s.locales locale fun l => (s.onWorld (·.retainLocale l)).answerLocale keep l
  | .drop locale =>
    s.withNamed s.locales locale fun l =>
      let left := s.world.locales.refs l - 1
      ({ s with locales := s.locales.erase locale }.onWorld (·.releaseLocale l),
        .reply (.number left))
  | .withFacet locale kind source keep =>
    s.withNamed s.locales locale fun l =>
      match s.takeFacet kind source with
      | (s, none) => (s, .unknown kind.name)
      | (s, some f) =>
        let (s, made) := s.perform (·.withFacet l kind f)
        s.answerLocale keep made
  | .compare first second =>
    s.withNamed s.locales first fun a =>
      s.withNamed s.locales second fun b =>
        (s, .reply (.localesCompared (s.world.localesEqual a b) (a = b)))
  | .covers locale categories =>
    s.withLocale locale fun _ body =>
      (s, .reply (.truth (body.categories.contains categories)))

end Hosted.Session
