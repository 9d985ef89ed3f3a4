import Anchored.Decimal.Written

/-!
# JSON values
-/

namespace Anchored.Json

/-- A number: whole, if it is written without fraction and exponent and fits 64 bits, and else a
double, given by its bits. -/
inductive Number where
  | natural (n : Nat)
  /-- A whole number below zero. -/
  | negative (n : Int)
  | double (bits : UInt64)
  deriving DecidableEq, Repr

/-- A JSON value. The members of an object stay in the order in which they were read. -/
inductive Value where
  | null
  | bool (b : Bool)
  | number (n : Number)
  | string (s : String)
  | array (items : List Value)
  | object (members : List (String × Value))

/-- The number of a natural number. -/
def Value.ofNat (n : Nat) : Value :=
  .number (.natural n)

/-- The number of an integer. -/
def Value.ofInt (n : Int) : Value :=
  .number (if n < 0 then .negative n else .natural n.toNat)

/-- Null for nothing. -/
def Value.ofOption (encode : α → Value) : Option α → Value
  | none => .null
  | some a => encode a

/-- The member of an object with a name. -/
def Value.member? (name : String) : Value → Option Value
  | .object members => (members.find? (·.1 == name)).map (·.2)
  | _ => none

/-- How doubles are written: exponents have a sign. -/
def doubleLayout : Decimal.Layout :=
  ⟨['+']⟩

end Anchored.Json
