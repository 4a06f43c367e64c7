/-!
# Decimal numerals

Writing natural numbers with a least number of digits, and reading the numerals
of the settings: an optional `+`, then digits.
-/

namespace Hosted

/-- The ten ASCII digits. -/
def isDigit (c : Char) : Bool := '0' ≤ c && c ≤ '9'

/-- The decimal digits of `n`, without leading zeros. -/
def digits (n : Nat) : List Char := Nat.toDigits 10 n

/-- The digits of `n` after as many zeros as make `width` characters. -/
def paddedDigits (width n : Nat) : List Char :=
  List.replicate (width - (digits n).length) '0' ++ digits n

/-- The number that a row of digits denotes. -/
def digitsValue (ds : List Char) : Nat := Nat.ofDigitChars 10 ds 0

/-- The number that an optional `+` and one or more digits denote, if it is
below `2 ^ 64`. -/
def readWord? (text : List Char) : Option Nat :=
  let ds := match text with
    | '+' :: rest => rest
    | _ => text
  if ds.isEmpty || !ds.all isDigit then none
  else if digitsValue ds < UInt64.size then some (digitsValue ds)
  else none

/-- The text of a number. -/
def numeral (n : Nat) : String := String.ofList (digits n)

/-- The text of a number with at least `width` digits. -/
def paddedNumeral (width n : Nat) : String := String.ofList (paddedDigits width n)

end Hosted
