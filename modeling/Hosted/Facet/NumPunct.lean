/-!
# Numeric punctuation
-/

namespace Hosted

/-- The punctuation of numbers and the spelling of truth values. -/
structure NumPunct where
  decimalPoint : Char
  thousandsSep : Char
  /-- Sizes of digit groups, innermost first; none means no grouping. -/
  grouping : List UInt8
  trueName : String
  falseName : String
  deriving DecidableEq, Repr

namespace NumPunct

/-- The punctuation of the classic locale. -/
def classic : NumPunct := ⟨'.', ',', [], "true", "false"⟩

/-- The spelling of a truth value. -/
def boolName (p : NumPunct) (value : Bool) : String :=
  if value then p.trueName else p.falseName

end NumPunct

end Hosted
