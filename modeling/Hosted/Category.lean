import Hosted.Flags

/-!
# Locale categories

The set of categories a locale covers, and the numbers by which C names them.
-/

namespace Hosted

/-- A set of locale categories. Bits that belong to no category may occur. -/
structure Category where
  bits : UInt32
  deriving DecidableEq, Repr

namespace Category

/-- The categories in the order they are shown. -/
def flags : List Flag :=
  [⟨"COLLATE", 1⟩, ⟨"CTYPE", 2⟩, ⟨"MONETARY", 4⟩, ⟨"NUMERIC", 8⟩, ⟨"TIME", 16⟩, ⟨"MESSAGES", 32⟩]

def empty : Category := ⟨0⟩

/-- Every known category. -/
def all : Category := ⟨63⟩

/-- `a.contains b`: every bit of `b` is in `a`. -/
def contains (a b : Category) : Bool := a.bits &&& b.bits = b.bits

def intersects (a b : Category) : Bool := a.bits &&& b.bits ≠ 0

def union (a b : Category) : Category := ⟨a.bits ||| b.bits⟩

/-- The bits of `a` that are not in `b`. -/
def difference (a b : Category) : Category := ⟨a.bits &&& ~~~ b.bits⟩

/-- The known categories that are not in `a`. -/
def complement (a : Category) : Category := all.difference a

/-- `a` without the bits that belong to no category. -/
def truncate (a : Category) : Category := ⟨a.bits &&& all.bits⟩

/-- No bit of `a` lies outside the known categories. -/
def isKnown (a : Category) : Bool := all.contains a

def isEmpty (a : Category) : Bool := a.bits = 0

def isAll (a : Category) : Bool := a.contains all

/-- The text `Category(COLLATE | CTYPE)`. -/
def text (a : Category) : String := Flag.setText "Category" flags a.bits.toNat

/-- The categories behind a C category number, if there are any. -/
def ofNumber? (number : Int) : Option Category :=
  if number = 0 then some all
  else if number = 1 then some ⟨1⟩
  else if number = 2 then some ⟨2⟩
  else if number = 3 then some ⟨4⟩
  else if number = 4 then some ⟨8⟩
  else if number = 5 then some ⟨16⟩
  else none

end Category

/-- The name of the classic locale. -/
def classicName : String := "C"

/-- The name of every locale that has no name of its own. -/
def unnamed : String := "*"

/-- The two names under which the classic locale is known. -/
def isClassicName (name : String) : Bool := name == "C" || name == "POSIX"

end Hosted
