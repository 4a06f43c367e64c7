import Hosted.Text.Decimal

/-!
# Floating-point numbers as text

A finite double is written with the fewest digits that read back as itself, and
of those with the digits nearest to it. Positional notation reaches from `1e-5`
up to `1e+16`; it always shows a decimal point. An exponent always shows its sign.

Reading a numeral collects as many digits as fit 64 bits and scales the result
by one power of ten.
-/

namespace Hosted.Json.Double

/-- Whether the number lies below zero, or is the negative zero. -/
def isNegative (bits : UInt64) : Bool := bits >>> 63 = 1

/-- The exponent field. -/
def exponentField (bits : UInt64) : Nat := ((bits >>> 52) &&& 0x7FF).toNat

/-- The fraction field. -/
def fractionField (bits : UInt64) : Nat := (bits &&& 0xFFFFFFFFFFFFF).toNat

/-- The leading bit of a mantissa, which is left out of the fraction field. -/
def leadingBit : Nat := 0x10000000000000

/-- The integer `m` of the magnitude `m * 2 ^ q`. -/
def mantissa (bits : UInt64) : Nat :=
  if exponentField bits = 0 then fractionField bits else leadingBit + fractionField bits

/-- The exponent `q` of the magnitude `m * 2 ^ q`. -/
def binaryExponent (bits : UInt64) : Int :=
  if exponentField bits = 0 then -1074 else (exponentField bits : Int) - 1075

/-- Scales a natural number by a power of `base` to a fraction. -/
def scaled (base : Nat) (n : Nat) (exponent : Int) : Nat × Nat :=
  if 0 ≤ exponent then (n * Nat.pow base exponent.toNat, 1)
  else (n, Nat.pow base (-exponent).toNat)

/-- Order of two fractions with positive denominators. -/
def fractionLe (a b : Nat × Nat) : Bool := a.1 * b.2 ≤ b.1 * a.2

/-- The decimal exponent of the leading digit of a positive fraction. -/
def leadingExponent (v : Nat × Nat) : Int :=
  if v.2 ≤ v.1 then ((digits (v.1 / v.2)).length : Int) - 1
  else
    match (List.range 400).find? fun j => v.2 ≤ v.1 * Nat.pow 10 j with
    | some j => -(j : Int)
    | none => 0

/-- `d * 10 ^ k` reads back as the double `m * 2 ^ q`: it lies between the
midpoints to its neighbours, which count when `m` is even. -/
def readsBack (m : Nat) (q : Int) (d : Nat) (k : Int) : Bool :=
  let below := if m = leadingBit ∧ -1074 < q then 4 * m - 1 else 4 * m - 2
  let lower := scaled 2 below (q - 2)
  let upper := scaled 2 (4 * m + 2) (q - 2)
  let x := scaled 10 d k
  if m % 2 = 0 then fractionLe lower x && fractionLe x upper
  else !fractionLe x lower && !fractionLe upper x

/-- The nearer of the neighbours `d` and `d + 1` of a fraction on its decimal
grid; a tie goes to the even one. -/
def nearer (v : Nat × Nat) (d : Nat) (k : Int) : Nat :=
  let x := scaled 10 (2 * d + 1) k
  let twice := (2 * v.1, v.2)
  if fractionLe twice x then
    if fractionLe x twice then (if d % 2 = 0 then d else d + 1) else d
  else d + 1

/-- The candidate with `n` digits, if one of them reads back. -/
def candidate? (m : Nat) (q : Int) (n : Nat) : Option (Nat × Int) :=
  let v := scaled 2 m q
  let k := leadingExponent v - (n : Int) + 1
  let grid := scaled 10 1 k
  let d := v.1 * grid.2 / (v.2 * grid.1)
  match readsBack m q d k, readsBack m q (d + 1) k with
  | true, true => some (nearer v d k, k)
  | true, false => some (d, k)
  | false, true => some (d + 1, k)
  | false, false => none

/-- Removes trailing zeros from a digit string, raising the exponent. -/
def stripZeros (d : Nat) (k : Int) : Nat × Int :=
  let zeros := ((digits d).reverse.takeWhile (· = '0')).length
  (d / Nat.pow 10 zeros, k + (zeros : Int))

/-- The shortest digits `d` and exponent `k` with `d * 10 ^ k` reading back as the
positive double `m * 2 ^ q`. -/
def shortest (m : Nat) (q : Int) : Nat × Int :=
  match (List.range 17).findSome? fun i => candidate? m q (i + 1) with
  | some (d, k) => stripZeros d k
  | none => (m, q)

/-- Writes `d * 10 ^ k`, where `d` has `ds` as digits. -/
def layout (ds : List Char) (k : Int) : List Char :=
  let point : Int := (ds.length : Int) + k
  if 0 ≤ k ∧ point ≤ 16 then ds ++ List.replicate k.toNat '0' ++ ['.', '0']
  else if 0 < point ∧ point ≤ 16 then ds.take point.toNat ++ '.' :: ds.drop point.toNat
  else if -5 < point ∧ point ≤ 0 then
    '0' :: '.' :: List.replicate (-point).toNat '0' ++ ds
  else
    let e := point - 1
    let power := if e < 0 then '-' :: digits (-e).toNat else '+' :: digits e.toNat
    (match ds with
      | [d] => [d]
      | d :: rest => d :: '.' :: rest
      | [] => ['0']) ++ 'e' :: power

/-- The text of a finite double. -/
def text (bits : UInt64) : List Char :=
  let m := mantissa bits
  let unsigned :=
    if m = 0 then ['0', '.', '0']
    else
      let s := shortest m (binaryExponent bits)
      layout (digits s.1) s.2
  if isNegative bits then '-' :: unsigned else unsigned

/-- The power of ten nearest to `10 ^ n`, for `n` up to 308. -/
def powerOfTen (n : Nat) : Float := Float.ofScientific 1 false n

/-- Scales `f` by `10 ^ exponent`, at most 308 powers at a time; nothing when the
result is too large. Each round but the last lowers a negative exponent's size,
and `rounds` bounds their number. -/
def scaleFloat : Nat → Float → Int → Option Float
  | 0, _, _ => none
  | rounds + 1, f, exponent =>
    if exponent.natAbs ≤ 308 then
      if 0 ≤ exponent then
        let r := f * powerOfTen exponent.toNat
        if r.isInf then none else some r
      else some (f / powerOfTen exponent.natAbs)
    else if f == 0.0 then some f
    else if 0 ≤ exponent then none
    else scaleFloat rounds (f / powerOfTen 308) (exponent + 308)

/-- The double nearest to a significand, scaled by a power of ten and signed;
nothing when it is too large. -/
def ofParts? (negative : Bool) (significand : Nat) (exponent : Int) : Option UInt64 :=
  (scaleFloat 8 significand.toUInt64.toFloat exponent).map fun f =>
    (if negative then -f else f).toBits

end Hosted.Json.Double
