import Hosted.Text.Decimal

/-!
# Flag sets

The text of a set of flags: the names of the flags it holds in the order they are
declared, then any bits that belong to no flag in hexadecimal.
-/

namespace Hosted

/-- A named single bit. -/
structure Flag where
  name : String
  bit : Nat
  deriving DecidableEq, Repr

/-- All bits that have a name. -/
def Flag.allBits (flags : List Flag) : Nat := flags.foldl (fun bits f => bits ||| f.bit) 0

/-- The text of a number in lower-case hexadecimal. -/
def hexNumeral (n : Nat) : String := "0x" ++ String.ofList (Nat.toDigits 16 n)

/-- The members of a flag set, each in the form it is shown. -/
def Flag.members (flags : List Flag) (bits : Nat) : List String :=
  let named := (flags.filter fun f => bits &&& f.bit = f.bit).map Flag.name
  let rest := bits ^^^ (bits &&& Flag.allBits flags)
  named ++ if rest = 0 then [] else [hexNumeral rest]

/-- The text `Type(A | B | 0x40)` of a flag set; `Type(0x0)` for the empty one. -/
def Flag.setText (type : String) (flags : List Flag) (bits : Nat) : String :=
  let members := match Flag.members flags bits with
    | [] => [hexNumeral 0]
    | shown => shown
  type ++ "(" ++ " | ".intercalate members ++ ")"

end Hosted
