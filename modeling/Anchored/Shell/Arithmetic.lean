import Anchored.Shell.Machine

/-!
# Arithmetic

An arithmetic expression is computed with numbers of 64 bits that wrap around, while it is read. In
a part of it that does not count, no parameter is looked at or set.
-/

namespace Anchored.Shell

/-! ## Numbers -/

/-- The smallest and the largest number. -/
def leastNumber : Int :=
  -Nat.pow 2 63

/-- The largest number. -/
def greatestNumber : Int :=
  Nat.pow 2 63 - 1

/-- The value of a digit in the bases up to sixteen. -/
def digitValue (c : Char) : Nat :=
  if c.isDigit then c.toNat - '0'.toNat
  else if 'a' ≤ c ∧ c ≤ 'f' then c.toNat - 'a'.toNat + 10
  else if 'A' ≤ c ∧ c ≤ 'F' then c.toNat - 'A'.toNat + 10
  else 16

/-- The number of the digits at the start of a text, if there are any, and what follows them. -/
def digitsAt (base : Nat) (t : List Char) : Option (Nat × List Char) :=
  let digits := t.takeWhile fun c => digitValue c < base
  if digits.isEmpty then none
  else some (digits.foldl (fun n c => n * base + digitValue c) 0, t.drop digits.length)

/-- The number at the start of a text without a sign; the way it starts tells its base. -/
def magnitudeAt (t : List Char) : Option (Nat × List Char) :=
  let hex := match t with
    | '0' :: x :: rest => if x = 'x' ∨ x = 'X' then digitsAt 16 rest else none
    | _ => none
  hex <|> digitsAt (if t.head? == some '0' then 8 else 10) t

/-- The number at the start of a text, behind blanks, and what follows it. With `decimal`, a zero
in front does not change the base. -/
def numberAt (decimal : Bool) (t : List Char) : Option (Int × List Char) :=
  let t := t.dropWhile isSpace
  let (negative, t) := match t with
    | '-' :: t => (true, t)
    | '+' :: t => (false, t)
    | t => (false, t)
  (if decimal then digitsAt 10 t else magnitudeAt t).map fun (n, rest) =>
    (if negative then -(n : Int) else n, rest)

/-- The number that a text is, blanks aside. -/
def number? (decimal : Bool) (text : String) : Option Int :=
  match numberAt decimal text.toList with
  | some (n, rest) =>
    if rest.all isSpace ∧ leastNumber ≤ n ∧ n ≤ greatestNumber then some n else none
  | none => none

/-- The number that a text has to be. -/
def number (decimal : Bool) (text : String) : ShellM Int :=
  match number? decimal text with
  | some n => return n
  | none => fail ("Illegal number: " ++ text)

/-- The number that a text has to be, which counts something. -/
def count (text : String) : ShellM Nat := do
  let n ← number true text
  if n < 0 ∨ Nat.pow 2 31 ≤ n then fail ("Illegal number: " ++ text)
  return n.toNat

/-! ## Operators -/

/-- An operator between two numbers. -/
inductive Operator where
  | bitOr
  | bitXor
  | bitAnd
  | equal
  | unequal
  | less
  | greater
  | atMost
  | atLeast
  | shiftLeft
  | shiftRight
  | plus
  | minus
  | times
  | quotient
  | remainder
  deriving DecidableEq, Repr

namespace Operator

/-- How loosely an operator binds. -/
def looseness : Operator → Nat
  | times | quotient | remainder => 0
  | plus | minus => 1
  | shiftLeft | shiftRight => 2
  | less | greater | atMost | atLeast => 3
  | equal | unequal => 4
  | bitAnd => 5
  | bitXor => 6
  | bitOr => 7

/-- The number one or zero. -/
def truth (b : Bool) : Int64 :=
  if b then 1 else 0

/-- The value of two numbers. There is none for a division by zero. -/
def apply (op : Operator) (a b : Int64) : Option Int64 :=
  match op with
  | bitOr => some (a ||| b)
  | bitXor => some (a ^^^ b)
  | bitAnd => some (a &&& b)
  | equal => some (truth (a = b))
  | unequal => some (truth (a ≠ b))
  | less => some (truth (a < b))
  | greater => some (truth (a > b))
  | atMost => some (truth (a ≤ b))
  | atLeast => some (truth (a ≥ b))
  | shiftLeft => some (a <<< (b &&& 63))
  | shiftRight => some (a >>> (b &&& 63))
  | plus => some (a + b)
  | minus => some (a - b)
  | times => some (a * b)
  | quotient => if b = 0 then none else some (a / b)
  | remainder => if b = 0 then none else some (a % b)

end Operator

/-- A sign in an expression. -/
inductive Term where
  | number (n : Int64)
  | name (name : String)
  | operator (op : Operator)
  /-- Sets a parameter, to a value or to what an operator gives. -/
  | sets (op : Option Operator)
  | negation
  | complement
  | both
  | either
  | question
  | colon
  | opening
  | closing
  | ending
  /-- No sign of an expression. -/
  | unknown
  deriving DecidableEq, Repr

/-- The signs, of which one is taken where no longer one stands. -/
def termSigns : List (String × Term) :=
  [("<<=", .sets (some .shiftLeft)), (">>=", .sets (some .shiftRight)),
    ("<<", .operator .shiftLeft), (">>", .operator .shiftRight),
    ("<=", .operator .atMost), (">=", .operator .atLeast),
    ("==", .operator .equal), ("!=", .operator .unequal), ("&&", .both), ("||", .either),
    ("&=", .sets (some .bitAnd)), ("|=", .sets (some .bitOr)), ("^=", .sets (some .bitXor)),
    ("+=", .sets (some .plus)), ("-=", .sets (some .minus)), ("*=", .sets (some .times)),
    ("/=", .sets (some .quotient)), ("%=", .sets (some .remainder)), ("=", .sets none),
    ("<", .operator .less), (">", .operator .greater), ("&", .operator .bitAnd),
    ("|", .operator .bitOr), ("^", .operator .bitXor), ("+", .operator .plus),
    ("-", .operator .minus), ("*", .operator .times), ("/", .operator .quotient),
    ("%", .operator .remainder), ("!", .negation), ("~", .complement), ("?", .question),
    (":", .colon), ("(", .opening), (")", .closing)]

/-- The signs of an expression. -/
def terms : Nat → List Char → List Term
  | 0, _ => []
  | fuel + 1, t =>
    match t with
    | [] => []
    | c :: rest =>
      if c = ' ' ∨ c = '\t' ∨ c = '\n' then terms fuel rest
      else if c.isDigit then
        match magnitudeAt t with
        | some (n, rest) => .number (Int64.ofInt (min (n : Int) greatestNumber)) :: terms fuel rest
        | none => [.unknown]
      else if startsName c then
        let name := t.takeWhile inName
        .name (String.ofList name) :: terms fuel (t.drop name.length)
      else
        match termSigns.find? fun (sign, _) => sign.toList.isPrefixOf t with
        | some (sign, term) => term :: terms fuel (t.drop sign.length)
        | none => [.unknown]

/-! ## Values -/

/-- What is left of an expression: the sign that was read last, and the ones behind it. -/
structure Computation where
  expression : String
  last : Term
  rest : List Term

/-- Computes while reading an expression. -/
abbrev Compute := StateT Computation ShellM

namespace Compute

/-- The expression makes no sense. -/
def complain (what : String) : Compute α := do
  let c ← get
  fail ("arithmetic expression: " ++ what ++ ": \"" ++ c.expression ++ "\"")

/-- Takes the next sign. -/
def next : Compute Term := do
  let c ← get
  match c.rest with
  | [] => return .ending
  | t :: rest =>
    set { c with rest }
    return t

/-- Takes the next sign as the last one. -/
def advance : Compute Unit := do
  let last ← next
  modify fun c => { c with last }

/-- The number that a parameter holds. -/
def valueOf (name : String) : ShellM Int64 := do
  match (← env).value? name with
  | none | some "" => return 0
  | some text => return Int64.ofInt (← number false text)

/-- The value of two numbers. -/
def apply (op : Operator) (a b : Int64) : Compute Int64 :=
  match op.apply a b with
  | some c => return c
  | none => complain "division by zero"

mutual

/-- Computes an operand that starts with the sign `t`, where `counts` holds for what counts. The
sign behind it is the last one then. -/
def operand (counts : Bool) : Nat → Term → Compute Int64
  | 0, _ => complain "expecting primary"
  | fuel + 1, t => do
    match t with
    | .opening =>
      let a ← setting counts fuel (← next)
      if (← get).last ≠ .closing then complain "expecting ')'"
      advance
      return a
    | .number n =>
      advance
      return n
    | .name name =>
      advance
      if counts then valueOf name else return 0
    | .operator .plus => operand counts fuel (← next)
    | .operator .minus => return -(← operand counts fuel (← next))
    | .negation => return Operator.truth ((← operand counts fuel (← next)) = 0)
    | .complement => return ~~~(← operand counts fuel (← next))
    | _ => complain "expecting primary"

/-- Computes operators that bind tighter than `bound`, the first of them `op`, behind a value. -/
def operators (counts : Bool) : Nat → Int64 → Operator → Nat → Compute Int64
  | 0, a, _, _ => return a
  | fuel + 1, a, op, bound => do
    let b ← operand counts fuel (← next)
    let b ← match (← get).last with
      | .operator op2 =>
        if op2.looseness < op.looseness then operators counts fuel b op2 op.looseness else pure b
      | _ => pure b
    let a ← if counts then apply op a b else pure b
    match (← get).last with
    | .operator op2 =>
      if op2.looseness < bound then operators counts fuel a op2 bound else return a
    | _ => return a

/-- Computes operands with operators between them. -/
def binary (counts : Bool) : Nat → Term → Compute Int64
  | 0, _ => complain "expecting primary"
  | fuel + 1, t => do
    let a ← operand counts fuel t
    match (← get).last with
    | .operator op => operators counts fuel a op 8
    | _ => return a

/-- Computes what has to hold together. -/
def both (counts : Bool) : Nat → Term → Compute Int64
  | 0, _ => complain "expecting primary"
  | fuel + 1, t => do
    let a ← binary counts fuel t
    if (← get).last ≠ .both then return a
    let b ← both (counts && a != 0) fuel (← next)
    return Operator.truth (a ≠ 0 ∧ b ≠ 0)

/-- Computes what has to hold in part. -/
def either (counts : Bool) : Nat → Term → Compute Int64
  | 0, _ => complain "expecting primary"
  | fuel + 1, t => do
    let a ← both counts fuel t
    if (← get).last ≠ .either then return a
    let b ← either (counts && a == 0) fuel (← next)
    return Operator.truth (a ≠ 0 ∨ b ≠ 0)

/-- Computes a choice. -/
def choice (counts : Bool) : Nat → Term → Compute Int64
  | 0, _ => complain "expecting primary"
  | fuel + 1, t => do
    let a ← either counts fuel t
    if (← get).last ≠ .question then return a
    let b ← setting (counts && a != 0) fuel (← next)
    if (← get).last ≠ .colon then complain "expecting ':'"
    let c ← choice (counts && a == 0) fuel (← next)
    return if a ≠ 0 then b else c

/-- Computes an expression that may set a parameter. -/
def setting (counts : Bool) : Nat → Term → Compute Int64
  | 0, _ => complain "expecting primary"
  | fuel + 1, t => do
    match t, (← get).rest.head? with
    | .name name, some (.sets op) =>
      let _ ← next
      let b ← setting counts fuel (← next)
      if ! counts then return b
      let value ← match op with
        | none => pure b
        | some op => apply op (← valueOf name) b
      assign name (toString value.toInt)
      return value
    | t, _ => choice counts fuel t

end

end Compute

/-- The value of an expression. -/
def arithmetic (expression : String) : ShellM Int64 := do
  let list := terms (expression.length + 1) expression.toList
  let compute : Compute Int64 := do
    let value ← Compute.setting true (16 * (list.length + 2)) (← Compute.next)
    if (← get).last ≠ .ending then Compute.complain "expecting EOF"
    return value
  return (← compute.run ⟨expression, .ending, list⟩).1

end Anchored.Shell
