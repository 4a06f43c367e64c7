import Hosted.Session.Registries

/-!
# Steps on facets, their indices and lists of recorded facets
-/

namespace Hosted.Session

/-- A step on facets. A result is kept under the name `keep`, if there is one. -/
inductive FacetStep where
  | make (facet : Facet) (keep : Option String)
  | inspect (facet : String)
  /-- Gives the named reference up. -/
  | drop (facet : String)
  /-- Answers with the index of a kind, which gets one if need be. -/
  | indexOfKind (kind : FacetKind)
  /-- Looks at the index of a kind. -/
  | inspectKind (kind : FacetKind)
  /-- Makes an identity without an index. -/
  | newIdentity (identity : String)
  /-- Answers with the index of an identity, which gets one if need be. -/
  | indexOfIdentity (identity : String)
  /-- Looks at the index of an identity. -/
  | inspectIdentity (identity : String)
  /-- Makes an empty list of recorded facets. -/
  | newList (list : String)
  /-- Records a facet, by its kind if that is given. -/
  | record (list facet : String) (kind : Option FacetKind)
  | teardownList (list : String)
  | inspectList (list : String)
  deriving DecidableEq, Repr

/-- The index of an identity or a kind, which gets one if need be. -/
def indexStep (s : Session) (key : Indexed) : Session × Outcome :=
  let (indices, i) := s.world.indices.assign key
  (s.onWorld ({ · with indices }), .reply (.number i))

/-- Replaces the facets of a list. -/
def putList (s : Session) (list : String) (facets : List FacetId) : Session :=
  { s with facetLists := s.facetLists.put list facets }

/-- Performs a step on facets. -/
def facetStep (s : Session) : FacetStep → Session × Outcome
  | .make facet keep =>
    let (s, f) := s.perform (·.addFacet facet)
    s.answerFacet keep f
  | .inspect facet =>
    s.withNamed s.facets facet fun f =>
      match s.world.facets.get? f with
      | some body => (s, .reply (.facetInfo body (s.world.facets.refs f)))
      | none => (s, .unknown facet)
  | .drop facet =>
    s.withNamed s.facets facet fun f =>
      let left := s.world.facets.refs f - 1
      ({ s with facets := s.facets.erase facet }.onWorld (·.releaseFacet f),
        .reply (.number left))
  | .indexOfKind kind => s.indexStep (.kind kind.indexOwner)
  | .inspectKind kind =>
    (s, .reply (.facetIndex (s.world.indices.find? (.kind kind.indexOwner))))
  | .newIdentity identity =>
    (s.onWorld fun w => { w with indices := w.indices.forget (.identity identity) },
      .reply .nothing)
  | .indexOfIdentity identity => s.indexStep (.identity identity)
  | .inspectIdentity identity =>
    (s, .reply (.facetIndex (s.world.indices.find? (.identity identity))))
  | .newList list =>
    let before := (s.facetLists.find? list).getD []
    ((s.putList list []).onWorld (·.releaseFacets before), .reply .nothing)
  | .record list facet kind =>
    s.withNamed s.facetLists list fun facets =>
      s.withNamed s.facets facet fun f =>
        let (s, index) := s.perform fun w => (w.retainFacet f).recordedIndex kind
        let count := facets.length + 1
        ((s.putList list (facets ++ [f])).onWorld (·.reportRecorded index count),
          .reply (.number count))
  | .teardownList list =>
    s.withNamed s.facetLists list fun facets =>
      ((s.putList list []).onWorld (·.releaseEntries facets),
        .reply (.number facets.length))
  | .inspectList list =>
    s.withNamed s.facetLists list fun facets => (s, .reply (.facetList facets.length))

end Hosted.Session
