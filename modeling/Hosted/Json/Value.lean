/-!
# JSON values

Integers keep their own form beside floating-point numbers, which are given by
their bits. The fields of an object stand in the order of their names, each name
once.
-/

namespace Hosted.Json

/-- A JSON number. Integers lie between `-2 ^ 63` and `2 ^ 64`. -/
inductive Number where
  | integer (value : Int)
  | double (bits : UInt64)
  deriving DecidableEq, Repr

/-- A JSON value. -/
inductive Value where
  | null
  | bool (value : Bool)
  | number (value : Number)
  | string (value : String)
  | array (items : List Value)
  | object (fields : List (String × Value))
  deriving Repr

namespace Value

/-- A non-negative integer. -/
def nat (n : Nat) : Value := .number (.integer n)

/-- Puts a field in its place among ordered fields; a field of that name is
replaced. -/
def putField (name : String) (value : Value) : List (String × Value) → List (String × Value)
  | [] => [(name, value)]
  | (other, kept) :: rest =>
    if name < other then (name, value) :: (other, kept) :: rest
    else if name = other then (name, value) :: rest
    else (other, kept) :: putField name value rest

/-- The object with the given fields; of several fields with one name the last
counts. -/
def ofFields (fields : List (String × Value)) : Value :=
  .object (fields.foldl (fun ordered f => putField f.1 f.2 ordered) [])

/-- The value of a field of an object. -/
def field? (name : String) : Value → Option Value
  | .object fields => (fields.find? (·.1 == name)).map (·.2)
  | _ => none

mutual

/-- Equality of values, decided part by part. -/
def beq : Value → Value → Bool
  | .null, .null => true
  | .bool a, .bool b => a == b
  | .number a, .number b => a == b
  | .string a, .string b => a == b
  | .array a, .array b => beqItems a b
  | .object a, .object b => beqFields a b
  | _, _ => false

def beqItems : List Value → List Value → Bool
  | [], [] => true
  | a :: as, b :: bs => beq a b && beqItems as bs
  | _, _ => false

def beqFields : List (String × Value) → List (String × Value) → Bool
  | [], [] => true
  | (n, a) :: as, (m, b) :: bs => n == m && beq a b && beqFields as bs
  | _, _ => false

end

instance : BEq Value := ⟨beq⟩

end Value

end Hosted.Json
