import Anchored.Shell.Raw

/-!
# Quoted names

Programs show a name as a shell would have to be given it: as it is if that is possible, between
double quotes if only an apostrophe is in the way, and else between apostrophes, with what cannot be
printed as escapes. Other words are shown between apostrophes with backslashes.
-/

namespace Anchored.Shell

/-- The letter of the escape of a control character. -/
def escapeLetter? (c : Char) : Option Char :=
  match c with
  | '\x07' => some 'a'
  | '\x08' => some 'b'
  | '\t' => some 't'
  | '\n' => some 'n'
  | '\x0b' => some 'v'
  | '\x0c' => some 'f'
  | '\r' => some 'r'
  | _ => none

/-- The character can be printed. -/
def isPrinted (c : Char) : Bool :=
  ' ' ≤ c && c ≤ '~'

/-- The escape of a character that cannot be printed. -/
def escapeOf (c : Char) : List Char :=
  match escapeLetter? c with
  | some letter => ['\\', letter]
  | none =>
    let n := c.toNat
    let digit (k : Nat) : Char := Char.ofNat ('0'.toNat + k)
    ['\\', digit (n / 64), digit (n / 8 % 8), digit (n % 8)]

/-- A word between apostrophes. -/
def quotedWord (text : String) : String :=
  let letters := text.toList.flatMap fun c =>
    if c = '\'' ∨ c = '\\' then ['\\', c] else if isPrinted c then [c] else escapeOf c
  String.ofList ('\'' :: letters ++ ['\''])

/-- The characters that stand for themselves anywhere. -/
def isHarmless (c : Char) : Bool :=
  c.isAlphanum || ['%', '+', ',', '-', '.', '/', ']', '_', '@', '\x7b', '\x7d', '~', '#'].contains c

/-- A name stands for itself. -/
def isBare (name : List Char) : Bool :=
  match name with
  | [] => false
  | ['\x7b'] | ['\x7d'] => false
  | c :: _ => c != '~' && c != '#' && name.all isHarmless

/-- A name can stand between double quotes. -/
def isSimple : List Char → Bool
  | [] => true
  | c :: rest =>
    (c.isAlphanum || ['~', '#'].contains c || [' ', '\'', '%', '+', ',', '-', '.', '/', ':', ']',
      '_'].contains c) &&
    rest.all fun c => c.isAlphanum ||
      [' ', '\'', '%', '+', ',', '-', '.', '/', ':', ']', '_'].contains c

/-- What stands between the apostrophes around a name, and whether an escape is open at its end;
`inside` holds if one is open at its start. -/
def betweenQuotes (inside : Bool) : List Char → List Char × Bool
  | [] => ([], inside)
  | c :: rest =>
    if c = '\'' then
      let (more, last) := betweenQuotes false rest
      let closing := if inside then ['\'', '\''] else []
      (closing ++ ['\'', '\\', '\'', '\''] ++ more, last)
    else if isPrinted c then
      let (more, last) := betweenQuotes false rest
      let closing := if inside then ['\'', '\''] else []
      (closing ++ c :: more, last)
    else
      let (more, last) := betweenQuotes true rest
      let start := if inside then [] else ['\'', '$', '\'']
      (start ++ escapeOf c ++ more, last)

/-- A name as a shell would have to be given it. A name with an apostrophe that ends with an escape
starts as if one were open. -/
def quotedName (name : String) : String :=
  let letters := name.toList
  if isBare letters then name
  else if letters.contains '\'' ∧ isSimple letters then "\"" ++ name ++ "\""
  else
    let (text, isOpen) := betweenQuotes false letters
    let text := if letters.contains '\'' ∧ isOpen then (betweenQuotes true letters).1 else text
    String.ofList ('\'' :: text ++ ['\''])

end Anchored.Shell
