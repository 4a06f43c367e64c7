import Hosted.Facet.NumPunct
import Hosted.Facet.Transcoder

/-!
# Facets

A facet is one aspect of a locale. Each kind of facet has an index in every locale,
given out when the kind is first looked up. Two kinds may share one index, and then
a locale holds only one of them.
-/

namespace Hosted

/-- The kinds of facets. A probe carries a tag, and the alias probe has the index
of the first one. Programs may add kinds of their own, which are probes too. -/
inductive FacetKind where
  | charClass | numPunct | collation | transcoder
  | probe0 | probe1 | probe2 | alias0
  /-- A kind with an index of its own. -/
  | own (name : String)
  /-- A kind that has one index with all kinds of its group. -/
  | grouped (group name : String)
  deriving DecidableEq, Repr

namespace FacetKind

/-- The kinds that are known everywhere, in the order they are listed. -/
def all : List FacetKind :=
  [.charClass, .numPunct, .collation, .transcoder, .probe0, .probe1, .probe2, .alias0]

/-- The name of a kind. -/
def name : FacetKind → String
  | charClass => "ctype"
  | numPunct => "numpunct"
  | collation => "collate"
  | transcoder => "codecvt"
  | probe0 => "p0"
  | probe1 => "p1"
  | probe2 => "p2"
  | alias0 => "alias0"
  | own name => name
  | grouped _ name => name

/-- The known kind of a given name. -/
def ofName? (name : String) : Option FacetKind := all.find? (·.name == name)

/-- The kind whose index a kind has. -/
def indexOwner : FacetKind → FacetKind
  | alias0 => probe0
  | grouped group _ => grouped group ""
  | kind => kind

/-- The kind is a probe, whose creation and destruction are reported. -/
def isProbe : FacetKind → Bool
  | charClass | numPunct | collation | transcoder => false
  | _ => true

end FacetKind

/-- A facet. -/
inductive Facet where
  | charClass
  | numPunct (value : NumPunct)
  | collation
  | transcoder (value : Transcoder)
  | probe (kind : FacetKind) (tag : String)
  deriving DecidableEq, Repr

namespace Facet

/-- The kind of a facet. -/
def kind : Facet → FacetKind
  | charClass => .charClass
  | numPunct _ => .numPunct
  | collation => .collation
  | transcoder _ => .transcoder
  | probe kind _ => kind

/-- The facet that a kind creates on demand for the locale of a given name. -/
def createFor (kind : FacetKind) (localeName : String) : Facet :=
  match kind with
  | .charClass => .charClass
  | .numPunct => .numPunct .classic
  | .collation => .collation
  | .transcoder => .transcoder ⟨localeName⟩
  | other => .probe other ("lazy(" ++ localeName ++ ")")

end Facet

/-- What an index can be given to: a kind of facet, or an identity made on its own. -/
inductive Indexed where
  | kind (kind : FacetKind)
  | identity (name : String)
  deriving DecidableEq, Repr

/-- The indices given out so far. -/
structure FacetIndices where
  assigned : List (Indexed × Nat) := []
  next : Nat := 0
  deriving DecidableEq, Repr

namespace FacetIndices

/-- The index of `key`, if it has one. -/
def find? (s : FacetIndices) (key : Indexed) : Option Nat :=
  (s.assigned.find? (·.1 = key)).map (·.2)

/-- The index of `key`, which gets the next one if it has none. -/
def assign (s : FacetIndices) (key : Indexed) : FacetIndices × Nat :=
  match s.find? key with
  | some i => (s, i)
  | none => ({ assigned := s.assigned ++ [(key, s.next)], next := s.next + 1 }, s.next)

/-- Forgets the index of `key`. -/
def forget (s : FacetIndices) (key : Indexed) : FacetIndices :=
  { s with assigned := s.assigned.filter (·.1 ≠ key) }

/-- The text of an identity: its index once it has one. -/
def text : Option Nat → String
  | some i => "FacetId(" ++ toString i ++ ")"
  | none => "FacetId(unassigned)"

end FacetIndices

end Hosted
