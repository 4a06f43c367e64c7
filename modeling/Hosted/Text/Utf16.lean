/-!
# UTF-16

Characters above `U+FFFF` are a high surrogate followed by a low one. Decoding
stops at the first surrogate that is not part of such a pair.
-/

namespace Hosted.Utf16

/-- High surrogates are `0xD800` to `0xDBFF`. -/
def isHigh (u : UInt16) : Bool := 0xD800 ≤ u && u ≤ 0xDBFF

/-- Low surrogates are `0xDC00` to `0xDFFF`. -/
def isLow (u : UInt16) : Bool := 0xDC00 ≤ u && u ≤ 0xDFFF

/-- The character that a surrogate pair stands for. -/
def pair (high low : UInt16) : Char :=
  Char.ofNat (0x10000 + (high.toNat - 0xD800) * 1024 + (low.toNat - 0xDC00))

/-- The UTF-16 form of one character. -/
def encodeChar (c : Char) : List UInt16 :=
  let n := c.toNat
  if n < 0x10000 then [n.toUInt16]
  else [(0xD800 + (n - 0x10000) / 1024).toUInt16, (0xDC00 + (n - 0x10000) % 1024).toUInt16]

/-- The UTF-16 form of a text. -/
def encode (text : List Char) : List UInt16 := text.flatMap encodeChar

@[simp] theorem encode_nil : encode [] = [] := rfl

@[simp] theorem encode_cons (c : Char) (text : List Char) :
    encode (c :: text) = encodeChar c ++ encode text := rfl

/-- The text of `units`, which begin `position` units into the whole, or the
position of the first surrogate without its partner. -/
def decodeFrom (position : Nat) : List UInt16 → Except Nat (List Char)
  | [] => .ok []
  | [u] =>
    if isHigh u || isLow u then .error position else .ok [Char.ofNat u.toNat]
  | u :: v :: rest =>
    if isHigh u then
      if isLow v then (decodeFrom (position + 2) rest).map (pair u v :: ·)
      else .error position
    else if isLow u then .error position
    else (decodeFrom (position + 1) (v :: rest)).map (Char.ofNat u.toNat :: ·)

/-- The text that `units` encode; otherwise the length of the well-formed text
they begin with. -/
def decode (units : List UInt16) : Except Nat (List Char) := decodeFrom 0 units

end Hosted.Utf16
