import Hosted.Flags

/-!
# Character classes

The classic classification of bytes, which knows ASCII only, and the conversions
between bytes and 16-bit units.
-/

namespace Hosted

/-- A set of character classes. Bits that belong to no class may occur. -/
structure ClassMask where
  bits : UInt16
  deriving DecidableEq, Repr

namespace ClassMask

/-- The single classes in the order they are shown. -/
def flags : List Flag :=
  [⟨"UPPER", 0x1⟩, ⟨"LOWER", 0x2⟩, ⟨"DIGIT", 0x4⟩, ⟨"SPACE", 0x8⟩, ⟨"PUNCT", 0x10⟩,
    ⟨"CNTRL", 0x20⟩, ⟨"BLANK", 0x40⟩, ⟨"XDIGIT", 0x80⟩, ⟨"ALPHA", 0x100⟩, ⟨"PRINT", 0x200⟩]

/-- The bits that belong to a class. -/
def known : ClassMask := ⟨0x3FF⟩

def intersects (a b : ClassMask) : Bool := a.bits &&& b.bits ≠ 0

/-- The set without the bits that belong to no class. -/
def truncate (a : ClassMask) : ClassMask := ⟨a.bits &&& known.bits⟩

def isKnown (a : ClassMask) : Bool := a.bits &&& known.bits = a.bits

/-- The text `CTypeMask(UPPER | ALPHA)`. -/
def text (a : ClassMask) : String := Flag.setText "CTypeMask" flags a.bits.toNat

/-- The set that holds `bits` if `holds`, and nothing otherwise. -/
def only (holds : Bool) (bits : UInt16) : UInt16 := if holds then bits else 0

end ClassMask

namespace CharClass

def isUpper (b : UInt8) : Bool := 0x41 ≤ b && b ≤ 0x5A
def isLower (b : UInt8) : Bool := 0x61 ≤ b && b ≤ 0x7A
def isDecimal (b : UInt8) : Bool := 0x30 ≤ b && b ≤ 0x39

/-- Decimal digits and the letters `a` to `f` in either case. -/
def isHex (b : UInt8) : Bool :=
  isDecimal b || (0x41 ≤ b && b ≤ 0x46) || (0x61 ≤ b && b ≤ 0x66)

/-- The blank and the controls from tab to carriage return. -/
def isSpace (b : UInt8) : Bool := b = 0x20 || (0x09 ≤ b && b ≤ 0x0D)

def isBlankOrTab (b : UInt8) : Bool := b = 0x20 || b = 0x09

/-- Every graphic ASCII byte that is neither a letter nor a digit. -/
def isPunct (b : UInt8) : Bool :=
  (0x21 ≤ b && b ≤ 0x2F) || (0x3A ≤ b && b ≤ 0x40) || (0x5B ≤ b && b ≤ 0x60) ||
    (0x7B ≤ b && b ≤ 0x7E)

def isControl (b : UInt8) : Bool := b < 0x20 || b = 0x7F

def isPrintable (b : UInt8) : Bool := 0x20 ≤ b && b ≤ 0x7E

/-- The classes of a byte; bytes above ASCII have none. -/
def mask (b : UInt8) : ClassMask :=
  ⟨ClassMask.only (isUpper b) 0x101 ||| ClassMask.only (isLower b) 0x102 |||
    ClassMask.only (isDecimal b) 0x4 ||| ClassMask.only (isHex b) 0x80 |||
    ClassMask.only (isSpace b) 0x8 ||| ClassMask.only (isBlankOrTab b) 0x40 |||
    ClassMask.only (isPunct b) 0x10 ||| ClassMask.only (isControl b) 0x20 |||
    ClassMask.only (isPrintable b) 0x200⟩

/-- The byte is in one of the classes. -/
def isIn (classes : ClassMask) (b : UInt8) : Bool := (mask b).intersects classes

/-- The index of the first byte in one of the classes. -/
def firstIn? (classes : ClassMask) (s : List UInt8) : Option Nat := s.findIdx? (isIn classes)

/-- The index of the first byte in none of the classes. -/
def firstNotIn? (classes : ClassMask) (s : List UInt8) : Option Nat :=
  s.findIdx? fun b => !isIn classes b

def toUpper (b : UInt8) : UInt8 := if isLower b then b - 0x20 else b

def toLower (b : UInt8) : UInt8 := if isUpper b then b + 0x20 else b

/-- The wide unit of a byte. -/
def widen (b : UInt8) : UInt16 := b.toUInt16

/-- The byte of a wide unit; `default` stands for units above `0xFF`. -/
def narrow (u : UInt16) (default : UInt8) : UInt8 := if u < 0x100 then u.toUInt8 else default

end CharClass

end Hosted
