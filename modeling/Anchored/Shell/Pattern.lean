import Anchored.Shell.Raw

/-!
# Patterns

A pattern matches texts. It is a text itself, in which a star stands for any text, a question mark
for a byte, brackets for one of a set of bytes, and a backslash for the byte behind it.
-/

namespace Anchored.Shell

/-- Classes of bytes that have a name. -/
inductive ByteClass where
  | alnum
  | alpha
  | blank
  | cntrl
  | digit
  | graph
  | lower
  | print
  | punct
  | space
  | upper
  | xdigit
  deriving DecidableEq, Repr

namespace ByteClass

/-- The classes with their names. -/
def names : List (String × ByteClass) :=
  [("alnum", alnum), ("alpha", alpha), ("blank", blank), ("cntrl", cntrl), ("digit", digit),
    ("graph", graph), ("lower", lower), ("print", print), ("punct", punct), ("space", space),
    ("upper", upper), ("xdigit", xdigit)]

/-- The byte is of the class. -/
def contains (k : ByteClass) (c : Char) : Bool :=
  let graphic := '!' ≤ c && c ≤ '~'
  match k with
  | alnum => c.isAlphanum
  | alpha => c.isAlpha
  | blank => c == ' ' || c == '\t'
  | cntrl => c < ' ' || c == '\x7f'
  | digit => c.isDigit
  | graph => graphic
  | lower => c.isLower
  | print => graphic || c == ' '
  | punct => graphic && ! c.isAlphanum
  | space => isSpace c
  | upper => c.isUpper
  | xdigit => c.isDigit || ('a' ≤ c && c ≤ 'f') || ('A' ≤ c && c ≤ 'F')

end ByteClass

/-- A member of a set of bytes. -/
inductive SetItem where
  | range (low high : Char)
  | byteClass (k : ByteClass)
  deriving DecidableEq, Repr

/-- The number of a byte of which the first bit is a sign. -/
def signedByte (c : Char) : Int :=
  if c.toNat < 128 then c.toNat else (c.toNat : Int) - 256

/-- The byte belongs to the member. -/
def SetItem.contains (c : Char) : SetItem → Bool
  | .range low high => signedByte low ≤ signedByte c && signedByte c ≤ signedByte high
  | .byteClass k => k.contains c

/-- What a pattern is made of. -/
inductive Atom where
  | byte (c : Char)
  | one
  | many
  | set (negated : Bool) (items : List SetItem)
  deriving DecidableEq, Repr

/-- The class that is named behind an opening bracket, and what follows it. -/
def class? (t : List Char) : Option (ByteClass × List Char) :=
  ByteClass.names.findSome? fun (name, k) =>
    let sign := (":" ++ name ++ ":]").toList
    if sign.isPrefixOf t then some (k, t.drop sign.length) else none

/-- The members of a set, and what follows its closing bracket. One that comes first is a member. -/
def setItems : Nat → Bool → List Char → Option (List SetItem × List Char)
  | 0, _, _ => none
  | fuel + 1, first, t =>
    let go (item : SetItem) (rest : List Char) : Option (List SetItem × List Char) :=
      (setItems fuel false rest).map fun (items, rest) => (item :: items, rest)
    let member (c : Char) (rest : List Char) : Option (List SetItem × List Char) :=
      match rest with
      | '-' :: d :: more =>
        if d = ']' then go (.range c c) rest
        else if d = '\\' then
          match more with
          | e :: more => go (.range c e) more
          | [] => none
        else go (.range c d) more
      | _ => go (.range c c) rest
    match t with
    | [] => none
    | c :: rest =>
      if c = ']' ∧ ! first then some ([], rest)
      else if c = '[' then
        match class? rest with
        | some (k, rest) => go (.byteClass k) rest
        | none => member c rest
      else if c = '\\' then
        match rest with
        | d :: rest => member d rest
        | [] => none
      else member c rest

/-- The atoms of a pattern. A bracket without a closing one stands for itself. -/
def atoms : Nat → List Char → List Atom
  | 0, _ => []
  | _, [] => []
  | fuel + 1, c :: rest =>
    match c, rest with
    | '*', _ => .many :: atoms fuel rest
    | '?', _ => .one :: atoms fuel rest
    | '\\', d :: more => .byte d :: atoms fuel more
    | '[', _ =>
      let (negated, inside) := match rest with
        | '!' :: inside => (true, inside)
        | _ => (false, rest)
      match setItems (rest.length + 1) true inside with
      | some (items, after) => .set negated items :: atoms fuel after
      | none => .byte c :: atoms fuel rest
    | _, _ => .byte c :: atoms fuel rest

/-- The byte is one that the atom stands for. -/
def Atom.contains (c : Char) : Atom → Bool
  | .byte d => c == d
  | .one | .many => true
  | .set negated items => (items.any (·.contains c)) != negated

/-- A pattern. -/
abbrev Pattern := List Atom

namespace Pattern

/-- The pattern that a text writes. -/
def ofText (t : List Char) : Pattern :=
  atoms t.length t

/-- A text and what is left of it behind each of its bytes. -/
def suffixes : List Char → List (List Char)
  | [] => [[]]
  | c :: t => (c :: t) :: suffixes t

/-- What can be left of a text behind what the pattern matches, given what can be left of it in
front of that. The longest rest comes first. -/
def rests : Pattern → List (List Char) → List (List Char)
  | [], found => found
  | .many :: p, found => rests p ((found.head?.map suffixes).getD [])
  | a :: p, found =>
    rests p (found.filterMap fun
      | [] => none
      | c :: t => if a.contains c then some t else none)

/-- The pattern matches a text. -/
def accepts (p : Pattern) (t : List Char) : Bool :=
  (p.rests [t]).any List.isEmpty

/-- The text without what the pattern matches at its front, as little of it as possible or as
much. -/
def stripFront (p : Pattern) (longest : Bool) (t : List Char) : List Char :=
  let found := p.rests [t]
  (if longest then found.getLast? else found.head?).getD t

/-- The text without what the pattern matches at its front or end. -/
def strip (p : Pattern) (front longest : Bool) (t : List Char) : List Char :=
  if front then p.stripFront longest t
  else (stripFront p.reverse longest t.reverse).reverse

/-- The pattern can match a text that it is not. -/
def isProper (p : Pattern) : Bool :=
  p.any fun
    | .byte _ => false
    | _ => true

end Pattern

end Anchored.Shell
