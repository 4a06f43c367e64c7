/-!
# UTF-8

A byte string is cut into *parts*: well-formed characters, and maximal runs that
no character can begin with. Strict decoding, its error position and lossy
decoding are three readings of this one cut.
-/

namespace Hosted.Utf8

/-- A piece of a byte string: a character with its width in bytes, or a run of
`width` bytes that stops being UTF-8 at its end. -/
inductive Part where
  | char (c : Char) (width : Nat)
  | junk (width : Nat)
  deriving DecidableEq, Repr

/-- The number of bytes a part covers. -/
def Part.width : Part → Nat
  | .char _ n => n
  | .junk n => n

/-- Continuation bytes are `0x80` to `0xBF`. -/
def isContinuation (b : UInt8) : Bool := 0x80 ≤ b && b ≤ 0xBF

/-- The second bytes that may follow the lead byte `lead`: no overlong form, no
surrogate, nothing above `U+10FFFF`. -/
def isSecond (lead b : UInt8) : Bool :=
  if lead = 0xE0 then 0xA0 ≤ b && b ≤ 0xBF
  else if lead = 0xED then 0x80 ≤ b && b ≤ 0x9F
  else if lead = 0xF0 then 0x90 ≤ b && b ≤ 0xBF
  else if lead = 0xF4 then 0x80 ≤ b && b ≤ 0x8F
  else isContinuation b

/-- The payload of a continuation byte. -/
def low (b : UInt8) : Nat := b.toNat - 0x80

/-- The part at the head of `b :: rest`. -/
def firstPart (b : UInt8) (rest : List UInt8) : Part :=
  if b < 0x80 then .char (Char.ofNat b.toNat) 1
  else if 0xC2 ≤ b ∧ b ≤ 0xDF then
    match rest with
    | b₁ :: _ =>
      if isContinuation b₁ then .char (Char.ofNat ((b.toNat - 0xC0) * 64 + low b₁)) 2
      else .junk 1
    | [] => .junk 1
  else if 0xE0 ≤ b ∧ b ≤ 0xEF then
    match rest with
    | b₁ :: b₂ :: _ =>
      if isSecond b b₁ then
        if isContinuation b₂ then
          .char (Char.ofNat ((b.toNat - 0xE0) * 4096 + low b₁ * 64 + low b₂)) 3
        else .junk 2
      else .junk 1
    | [b₁] => if isSecond b b₁ then .junk 2 else .junk 1
    | [] => .junk 1
  else if 0xF0 ≤ b ∧ b ≤ 0xF4 then
    match rest with
    | b₁ :: b₂ :: b₃ :: _ =>
      if isSecond b b₁ then
        if isContinuation b₂ then
          if isContinuation b₃ then
            .char (Char.ofNat
              ((b.toNat - 0xF0) * 262144 + low b₁ * 4096 + low b₂ * 64 + low b₃)) 4
          else .junk 3
        else .junk 2
      else .junk 1
    | [b₁, b₂] =>
      if isSecond b b₁ then if isContinuation b₂ then .junk 3 else .junk 2 else .junk 1
    | [b₁] => if isSecond b b₁ then .junk 2 else .junk 1
    | [] => .junk 1
  else .junk 1

/-- The parts of a byte string, `skip` bytes of which belong to a part already
listed. -/
def partsAfter : Nat → List UInt8 → List Part
  | _, [] => []
  | skip + 1, _ :: rest => partsAfter skip rest
  | 0, b :: rest => firstPart b rest :: partsAfter ((firstPart b rest).width - 1) rest

/-- The parts of a byte string, in order. -/
def parts (bytes : List UInt8) : List Part := partsAfter 0 bytes

/-- The characters of `parts`, or the number of bytes before the first junk. -/
def charsOf : Nat → List Part → Except Nat (List Char)
  | _, [] => .ok []
  | position, .char c n :: rest => (charsOf (position + n) rest).map (c :: ·)
  | position, .junk _ :: _ => .error position

/-- The text that `bytes` encode; otherwise the length of the well-formed text
they begin with. -/
def decode (bytes : List UInt8) : Except Nat (List Char) := charsOf 0 (parts bytes)

/-- The text that `bytes` encode, with one replacement character for each junk
part. -/
def decodeLossy (bytes : List UInt8) : List Char :=
  (parts bytes).map fun
    | .char c _ => c
    | .junk _ => '\uFFFD'

/-- The UTF-8 form of one character. -/
def encodeChar (c : Char) : List UInt8 :=
  let n := c.toNat
  if n < 0x80 then [n.toUInt8]
  else if n < 0x800 then [(0xC0 + n / 64).toUInt8, (0x80 + n % 64).toUInt8]
  else if n < 0x10000 then
    [(0xE0 + n / 4096).toUInt8, (0x80 + n / 64 % 64).toUInt8, (0x80 + n % 64).toUInt8]
  else
    [(0xF0 + n / 262144).toUInt8, (0x80 + n / 4096 % 64).toUInt8,
      (0x80 + n / 64 % 64).toUInt8, (0x80 + n % 64).toUInt8]

/-- The UTF-8 form of a text. -/
def encode (text : List Char) : List UInt8 := text.flatMap encodeChar

@[simp] theorem encode_nil : encode [] = [] := rfl

@[simp] theorem encode_cons (c : Char) (text : List Char) :
    encode (c :: text) = encodeChar c ++ encode text := rfl

theorem encode_append (s t : List Char) : encode (s ++ t) = encode s ++ encode t := by
  simp [encode]

/-- The number of bytes of a character's UTF-8 form. -/
def charWidth (c : Char) : Nat := (encodeChar c).length

end Hosted.Utf8
