import Hosted.Json.Value
import Hosted.Json.Double
import Hosted.Text.Utf8

/-!
# Reading JSON text

Each reader takes the characters that are left and answers with what it read and
the characters after it, or with the first defect met from left to right. The
containers around a value are bounded in number; the bound is the recursion.
-/

namespace Hosted.Json

/-- What is wrong with a text: it ends too early, it is not JSON, or it is JSON of
another shape than asked for. -/
inductive Defect where
  | cutShort
  | malformed
  | mistyped
  deriving DecidableEq, Repr

/-- The result of a reader. -/
abbrev Reading (α : Type) := Except Defect (α × List Char)

/-- The four characters that JSON allows between tokens. -/
def isSpace (c : Char) : Bool := c = ' ' || c = '\n' || c = '\t' || c = '\r'

/-- Drops white space. -/
def skipSpace (cs : List Char) : List Char := cs.dropWhile isSpace

/-- Drops the characters of `word`. -/
def dropWord : List Char → List Char → Except Defect (List Char)
  | [], cs => .ok cs
  | _ :: _, [] => .error .cutShort
  | w :: word, c :: cs => if c = w then dropWord word cs else .error .malformed

/-- Applies `f` to what was read. -/
def Reading.map {α β : Type} (f : α → β) (r : Reading α) : Reading β :=
  match r with
  | .ok (a, rest) => .ok (f a, rest)
  | .error d => .error d

/-! ## Strings -/

/-- The value of a hexadecimal digit. -/
def hexValue? (c : Char) : Option Nat :=
  if '0' ≤ c ∧ c ≤ '9' then some (c.toNat - 48)
  else if 'a' ≤ c ∧ c ≤ 'f' then some (c.toNat - 87)
  else if 'A' ≤ c ∧ c ≤ 'F' then some (c.toNat - 55)
  else none

/-- At least four bytes are left. -/
def hasFourBytes (cs : List Char) : Bool :=
  4 ≤ (cs.take 4).foldl (fun n c => n + Utf8.charWidth c) 0

/-- The number that four hexadecimal digits denote. A text with fewer than four
bytes left is cut short, whatever they are. -/
def hexUnit (cs : List Char) : Except Defect Nat :=
  if hasFourBytes cs then
    match cs with
    | a :: b :: c :: d :: _ =>
      match hexValue? a, hexValue? b, hexValue? c, hexValue? d with
      | some a, some b, some c, some d => .ok (((a * 16 + b) * 16 + c) * 16 + d)
      | _, _, _, _ => .error .malformed
    | _ => .error .malformed
  else .error .cutShort

/-- The character of the unit `high`, a high surrogate, and the escaped low one
that has to follow. -/
def lowHalf (high : Nat) (cs : List Char) : Except Defect Char :=
  match cs with
  | [] => .error .cutShort
  | '\\' :: [] => .error .cutShort
  | '\\' :: 'u' :: rest =>
    match hexUnit rest with
    | .ok low =>
      if 0xDC00 ≤ low ∧ low ≤ 0xDFFF then
        .ok (Char.ofNat (0x10000 + (high - 0xD800) * 1024 + (low - 0xDC00)))
      else .error .malformed
    | .error d => .error d
  | _ => .error .malformed

/-- The character of the escape whose text after the backslash begins `cs`, and how
many characters of `cs` it takes. -/
def readEscape : List Char → Except Defect (Char × Nat)
  | [] => .error .cutShort
  | '"' :: _ => .ok ('"', 1)
  | '\\' :: _ => .ok ('\\', 1)
  | '/' :: _ => .ok ('/', 1)
  | 'b' :: _ => .ok ('\x08', 1)
  | 'f' :: _ => .ok ('\x0c', 1)
  | 'n' :: _ => .ok ('\n', 1)
  | 'r' :: _ => .ok ('\r', 1)
  | 't' :: _ => .ok ('\t', 1)
  | 'u' :: rest =>
    match hexUnit rest with
    | .ok n =>
      if 0xDC00 ≤ n ∧ n ≤ 0xDFFF then .error .malformed
      else if 0xD800 ≤ n ∧ n ≤ 0xDBFF then
        (lowHalf n (rest.drop 4)).map fun c => (c, 11)
      else .ok (Char.ofNat n, 5)
    | .error d => .error d
  | _ => .error .malformed

/-- As `readEscape` for a string whose characters do not matter: a unit need not
be a character. -/
def skipEscape : List Char → Except Defect (Char × Nat)
  | 'u' :: rest => (hexUnit rest).map fun _ => ('u', 5)
  | cs => readEscape cs

/-- The characters up to the closing quote; `skip` characters belong to an escape
already read. -/
def readCharsAfter (escape : List Char → Except Defect (Char × Nat)) :
    Nat → List Char → Reading (List Char)
  | _, [] => .error .cutShort
  | skip + 1, _ :: rest => readCharsAfter escape skip rest
  | 0, c :: rest =>
    if c = '"' then .ok ([], rest)
    else if c = '\\' then
      match escape rest with
      | .ok (d, n) => (readCharsAfter escape n rest).map (d :: ·)
      | .error e => .error e
    else if c.toNat < 0x20 then .error .malformed
    else (readCharsAfter escape 0 rest).map (c :: ·)

/-- The string whose opening quote has been read. -/
def readString (cs : List Char) : Reading String :=
  (readCharsAfter readEscape 0 cs).map String.ofList

/-- Reads over a string whose opening quote has been read. -/
def skipString (cs : List Char) : Reading Unit :=
  (readCharsAfter skipEscape 0 cs).map fun _ => ()

/-! ## Numbers -/

/-- The parts of a numeral after its sign: digits before the point, digits after
it, and the exponent with its sign. -/
structure Numeral where
  whole : List Char
  fraction : List Char := []
  exponent : Option (Bool × List Char) := none
  deriving DecidableEq, Repr

/-- The digits before the point: no leading zero, at least one digit. -/
def readWhole (cs : List Char) : Reading (List Char) :=
  match cs with
  | [] => .error .cutShort
  | '0' :: rest =>
    match rest with
    | d :: _ => if isDigit d then .error .malformed else .ok (['0'], rest)
    | [] => .ok (['0'], rest)
  | c :: _ =>
    if isDigit c then .ok (cs.takeWhile isDigit, cs.dropWhile isDigit)
    else .error .malformed

/-- At least one digit. -/
def readDigits (cs : List Char) : Reading (List Char) :=
  match cs with
  | [] => .error .cutShort
  | c :: _ =>
    if isDigit c then .ok (cs.takeWhile isDigit, cs.dropWhile isDigit)
    else .error .malformed

/-- The digits after a point, if there is one. -/
def readFraction (cs : List Char) : Reading (List Char) :=
  match cs with
  | '.' :: rest => readDigits rest
  | _ => .ok ([], cs)

/-- The exponent, if there is one, with `true` for a negative one. -/
def readExponent (cs : List Char) : Reading (Option (Bool × List Char)) :=
  let signed (rest : List Char) : Reading (Option (Bool × List Char)) :=
    match rest with
    | '+' :: ds => (readDigits ds).map fun e => some (false, e)
    | '-' :: ds => (readDigits ds).map fun e => some (true, e)
    | ds => (readDigits ds).map fun e => some (false, e)
  match cs with
  | 'e' :: rest => signed rest
  | 'E' :: rest => signed rest
  | _ => .ok (none, cs)

/-- The numeral at the head of `cs`, after any sign. -/
def readNumeral (cs : List Char) : Reading Numeral :=
  match readWhole cs with
  | .error d => .error d
  | .ok (whole, cs) =>
    match readFraction cs with
    | .error d => .error d
    | .ok (fraction, cs) =>
      (readExponent cs).map fun exponent => ⟨whole, fraction, exponent⟩

/-- Collects digits into `n` while the number stays below `2 ^ 64`; answers with
the digits left over. -/
def collectDigits (n : Nat) : List Char → Nat × List Char
  | [] => (n, [])
  | c :: cs =>
    let next := n * 10 + (c.toNat - 48)
    if next < UInt64.size then collectDigits next cs else (n, c :: cs)

/-- The greatest exponent that is counted. -/
def exponentLimit : Int := 0x7FFFFFFF

/-- An exponent kept within 32 bits. -/
def clampExponent (e : Int) : Int :=
  if exponentLimit < e then exponentLimit
  else if e < -exponentLimit then -exponentLimit - 1
  else e

/-- The double of a numeral. -/
def Numeral.double? (negative : Bool) (n : Numeral) : Option UInt64 :=
  let whole := collectDigits 0 n.whole
  let fraction := collectDigits whole.1 n.fraction
  let scale : Int := (whole.2.length : Int) - ((n.fraction.length : Int) - fraction.2.length)
  match n.exponent with
  | none => Double.ofParts? negative fraction.1 scale
  | some (down, ds) =>
    if exponentLimit < digitsValue ds then
      if fraction.1 ≠ 0 ∧ !down then none else Double.ofParts? negative 0 0
    else
      let e : Int := if down then -(digitsValue ds : Int) else digitsValue ds
      Double.ofParts? negative fraction.1 (clampExponent (scale + e))

/-- The number of a numeral: an integer if it is written as one and fits. -/
def Numeral.number? (negative : Bool) (n : Numeral) : Option Number :=
  let whole := collectDigits 0 n.whole
  if n.fraction = [] ∧ n.exponent = none ∧ whole.2 = [] ∧
      (!negative ∨ (0 < whole.1 ∧ whole.1 ≤ UInt64.size / 2)) then
    some (.integer (if negative then -(whole.1 : Int) else whole.1))
  else (n.double? negative).map .double

/-- The number at the head of `cs`, after any minus sign. One that is too large is
malformed. -/
def readNumber (negative : Bool) (cs : List Char) : Reading Number :=
  match readNumeral cs with
  | .error d => .error d
  | .ok (n, rest) =>
    match n.number? negative with
    | some value => .ok (value, rest)
    | none => .error .malformed

/-- Reads over a number. Here a numeral that breaks off is malformed. -/
def skipNumber (cs : List Char) : Reading Unit :=
  match readNumeral cs with
  | .ok (_, rest) => .ok ((), rest)
  | .error _ => .error .malformed

/-! ## Containers -/

/-- Looks for the next item of an array after the opening bracket (`first`) or an
item: nothing at the closing bracket, which is dropped. -/
def nextItem (first : Bool) (cs : List Char) : Except Defect (Bool × List Char) :=
  match skipSpace cs with
  | [] => .error .cutShort
  | ']' :: rest => .ok (false, rest)
  | c :: rest =>
    if first then .ok (true, c :: rest)
    else if c = ',' then
      match skipSpace rest with
      | [] => .error .cutShort
      | ']' :: _ => .error .malformed
      | next => .ok (true, next)
    else .error .malformed

/-- Looks for the name of the next field of an object; its opening quote is
dropped. Nothing at the closing brace, which is dropped. -/
def nextField (first : Bool) (cs : List Char) : Except Defect (Bool × List Char) :=
  match skipSpace cs with
  | [] => .error .cutShort
  | '}' :: rest => .ok (false, rest)
  | c :: rest =>
    if first then if c = '"' then .ok (true, rest) else .error .malformed
    else if c = ',' then
      match skipSpace rest with
      | [] => .error .cutShort
      | '"' :: next => .ok (true, next)
      | _ => .error .malformed
    else .error .malformed

/-- Drops the colon between a name and its value. -/
def dropColon (cs : List Char) : Except Defect (List Char) :=
  match skipSpace cs with
  | [] => .error .cutShort
  | ':' :: rest => .ok rest
  | _ => .error .malformed

/-- The items of an array up to its closing bracket. Every item takes a character, so
a text no shorter than the one left bounds their number. -/
def readItems {α : Type} (item : List Char → Reading α) :
    List Char → Bool → List Char → Reading (List α)
  | [], _, _ => .error .cutShort
  | _ :: bound, first, cs =>
    match nextItem first cs with
    | .error d => .error d
    | .ok (false, rest) => .ok ([], rest)
    | .ok (true, rest) =>
      match item rest with
      | .error d => .error d
      | .ok (a, rest) => (readItems item bound false rest).map (a :: ·)

/-- The fields of an object up to its closing brace, bounded in the same way. -/
def readFields {α β : Type} (name : List Char → Reading α) (item : List Char → Reading β) :
    List Char → Bool → List Char → Reading (List (α × β))
  | [], _, _ => .error .cutShort
  | _ :: bound, first, cs =>
    match nextField first cs with
    | .error d => .error d
    | .ok (false, rest) => .ok ([], rest)
    | .ok (true, rest) =>
      match name rest with
      | .error d => .error d
      | .ok (a, rest) =>
        match dropColon rest with
        | .error d => .error d
        | .ok rest =>
          match item rest with
          | .error d => .error d
          | .ok (b, rest) => (readFields name item bound false rest).map ((a, b) :: ·)

/-- The value at the head of `cs`, inside which containers may nest `depth` deep. -/
def readValue : Nat → List Char → Reading Value
  | depth, cs =>
    match skipSpace cs with
    | [] => .error .cutShort
    | c :: rest =>
      if c = 'n' then (dropWord ['u', 'l', 'l'] rest).map fun r => (.null, r)
      else if c = 't' then (dropWord ['r', 'u', 'e'] rest).map fun r => (.bool true, r)
      else if c = 'f' then (dropWord ['a', 'l', 's', 'e'] rest).map fun r => (.bool false, r)
      else if c = '-' then (readNumber true rest).map .number
      else if isDigit c then (readNumber false (c :: rest)).map .number
      else if c = '"' then (readString rest).map .string
      else if c = '[' then
        match depth with
        | 0 => .error .malformed
        | depth + 1 =>
          (readItems (readValue depth) rest true rest).map .array
      else if c = '{' then
        match depth with
        | 0 => .error .malformed
        | depth + 1 =>
          (readFields readString (readValue depth) rest true rest).map Value.ofFields
      else .error .malformed

/-- Reads over a value: its nesting is not bounded but by a text no shorter than the
one left, its numbers may be of any size, and its strings need not be well-formed
text. -/
def skipValue : List Char → List Char → Reading Unit
  | [], _ => .error .cutShort
  | _ :: bound, cs =>
    match skipSpace cs with
    | [] => .error .cutShort
    | c :: rest =>
      if c = 'n' then (dropWord ['u', 'l', 'l'] rest).map fun r => ((), r)
      else if c = 't' then (dropWord ['r', 'u', 'e'] rest).map fun r => ((), r)
      else if c = 'f' then (dropWord ['a', 'l', 's', 'e'] rest).map fun r => ((), r)
      else if c = '-' then skipNumber rest
      else if isDigit c then skipNumber (c :: rest)
      else if c = '"' then skipString rest
      else if c = '[' then
        (readItems (skipValue bound) rest true rest).map fun _ => ()
      else if c = '{' then
        (readFields skipString (skipValue bound) rest true rest).map fun _ => ()
      else .error .malformed

/-- The containers that may enclose one another in a text. -/
def maxDepth : Nat := 127

/-- The value that a whole text denotes. -/
def parse (cs : List Char) : Except Defect Value :=
  match readValue maxDepth cs with
  | .error d => .error d
  | .ok (v, rest) => if skipSpace rest = [] then .ok v else .error .malformed

end Hosted.Json
