import Hosted.World.State

/-!
# Facets and locales

Every holder of a facet or a locale has one reference to it. A locale holds its
facets; when it is destroyed it releases them in the order of their indices.
-/

namespace Hosted.World

/-! ## Facets -/

/-- A new facet, with one reference. -/
def addFacet (w : World) (f : Facet) : World × FacetId :=
  let (facets, id) := w.facets.insert f
  ({ w with facets }, id)

def retainFacet (w : World) (f : FacetId) : World := { w with facets := w.facets.retain f }

/-- Gives up a reference to a facet. The destruction of a probe is noticed. -/
def releaseFacet (w : World) (f : FacetId) : World :=
  let (facets, destroyed) := w.facets.release f
  let w := { w with facets }
  match destroyed with
  | some (.probe kind tag) => w.notify (.dropped kind tag)
  | _ => w

/-- Gives up references to facets, in order. -/
def releaseFacets (w : World) (fs : List FacetId) : World := fs.foldl releaseFacet w

/-! ## Locales -/

/-- The locale of a number, until it is destroyed. -/
def locale? (w : World) (l : LocaleId) : Option Locale := w.locales.get? l

/-- The name of a locale. -/
def localeName (w : World) (l : LocaleId) : String :=
  match w.locale? l with
  | some locale => locale.name
  | none => ""

/-- A new locale, with one reference. It takes over the references to its facets. -/
def addLocale (w : World) (locale : Locale) : World × LocaleId :=
  let w := (w.tally .localesConstructed).log (.localeBuilt locale.name)
  let (locales, id) := w.locales.insert locale
  ({ w with locales }, id)

def retainLocale (w : World) (l : LocaleId) : World := { w with locales := w.locales.retain l }

/-- Gives up a reference to a locale. -/
def releaseLocale (w : World) (l : LocaleId) : World :=
  let (locales, destroyed) := w.locales.release l
  let w := { w with locales }
  match destroyed with
  | some locale =>
    ((w.tally .localesDestroyed).log (.localeDestroyed locale.name)).releaseFacets
      (locale.facets.filterMap id)
  | none => w

/-- Gives up references to locales, in order. -/
def releaseLocales (w : World) (ls : List LocaleId) : World := ls.foldl releaseLocale w

/-- A new facet in its place. -/
def placeNew (w : World) (facets : List (Option FacetId)) (f : Facet) :
    World × List (Option FacetId) :=
  let (w, index) := w.indexOf f.kind
  let (w, id) := w.addFacet f
  (w, Locale.place facets index id)

/-- A new classic locale, which holds a character class, a numeric punctuation and a
collation. -/
def addClassic (w : World) : World × LocaleId :=
  let (w, facets) := w.placeNew [] .charClass
  let (w, facets) := w.placeNew facets (.numPunct .classic)
  let (w, facets) := w.placeNew facets .collation
  w.addLocale ⟨classicName, .all, facets, false, true⟩

/-- A new transparent locale, which holds no facet and stands for the global one. -/
def addTransparent (w : World) : World × LocaleId :=
  w.addLocale ⟨unnamed, .empty, [], true, false⟩

/-- The facet of a kind that a locale itself holds. A facet of another kind at the
same index does not count. -/
def ownFacet (w : World) (l : LocaleId) (kind : FacetKind) : World × Option FacetId :=
  let (w, index) := w.indexOf kind
  let found := ((w.locale? l).bind (·.facetAt? index)).filter fun f =>
    (w.facets.get? f).any (·.kind = kind)
  (w, found)

/-- The locale holds some facet at the index of a kind. -/
def holdsIndex (w : World) (l : LocaleId) (kind : FacetKind) : World × Bool :=
  let (w, index) := w.indexOf kind
  (w, ((w.locale? l).bind (·.facetAt? index)).isSome)

/-- A new unnamed locale that agrees with `l` but for the facet `f`, a reference to
which it takes over. -/
def withFacet (w : World) (l : LocaleId) (kind : FacetKind) (f : FacetId) : World × LocaleId :=
  let base := (w.locale? l).getD ⟨unnamed, .empty, [], false, false⟩
  let w := base.facets.foldl (fun w o => o.elim w w.retainFacet) w
  let (w, index) := w.indexOf kind
  let replaced := base.facetAt? index
  let w := replaced.elim w w.releaseFacet
  w.addLocale
    { base with
      name := unnamed, facets := Locale.place base.facets index f
      transparent := false, classic := false }

/-- Two handles are equal if they are handles to one locale, or the locales have the
same name of their own. -/
def localesEqual (w : World) (a b : LocaleId) : Bool :=
  a = b || (w.localeName a != unnamed && w.localeName a == w.localeName b)

end Hosted.World
