import Anchored.Decimal.Rounded
import Anchored.Shell.Arithmetic

/-!
# Formatted output

A format is written as often as there are arguments left for it. A directive in it takes an
argument and writes it in a field; a backslash starts an escape.
-/

namespace Anchored.Shell

/-! ## Escapes -/

/-- What a letter stands for behind a backslash. -/
def escape? (c : Char) : Option Char :=
  match c with
  | 'a' => some '\x07'
  | 'b' => some '\x08'
  | 'e' => some '\x1b'
  | 'f' => some '\x0c'
  | 'n' => some '\n'
  | 'r' => some '\r'
  | 't' => some '\t'
  | 'v' => some '\x0b'
  | '\\' => some '\\'
  | _ => none

/-- The byte that up to `size` octal digits at the start of a text stand for, and what follows
them. -/
def octalByte (size : Nat) (t : List Char) : Char × List Char :=
  let digits := (t.take size).takeWhile fun c => '0' ≤ c && c ≤ '7'
  let n := digits.foldl (fun n c => n * 8 + digitValue c) 0
  (Char.ofNat (n % 256), t.drop digits.length)

/-- What an escape stands for, behind its backslash, and what follows it. -/
def escaped (t : List Char) : Char × List Char :=
  match t with
  | [] => ('\\', [])
  | c :: rest =>
    if '0' ≤ c ∧ c ≤ '7' then octalByte 3 t
    else
      match escape? c with
      | some c => (c, rest)
      | none => ('\\', t)

/-- What is written for a text with escapes, behind `shown`, the last letter of which comes first;
and whether one of them ended all output. -/
def unescape : Nat → List Char → List Char → List Char × Bool
  | 0, shown, _ | _, shown, [] => (shown.reverse, false)
  | fuel + 1, shown, '\\' :: rest =>
    match rest with
    | 'c' :: _ => (shown.reverse, true)
    | '0' :: rest =>
      let (c, rest) := octalByte 3 rest
      unescape fuel (c :: shown) rest
    | rest =>
      let (c, rest) := escaped rest
      unescape fuel (c :: shown) rest
  | fuel + 1, shown, c :: rest => unescape fuel (c :: shown) rest

/-- A text with its escapes carried out, up to the one that ends all output, and whether there is
one. -/
def unescapeText (text : String) : List Char × Bool :=
  unescape (text.length + 1) [] text.toList

/-! ## Directives -/

/-- How an argument is written. -/
structure Layout where
  left : Bool
  plus : Bool
  space : Bool
  sharp : Bool
  zero : Bool
  width : Nat
  precision : Option Nat
  deriving DecidableEq, Repr

namespace Layout

/-- A text in a field. -/
def pad (l : Layout) (text : List Char) : List Char :=
  let blanks := List.replicate (l.width - text.length) ' '
  if l.left then text ++ blanks else blanks ++ text

/-- The sign or the mark of a base, and digits, in a field. -/
def padNumber (l : Layout) (zeros : Bool) (sign digits : List Char) : List Char :=
  if zeros ∧ l.zero ∧ ! l.left then
    let size := sign.length + digits.length
    sign ++ List.replicate (l.width - size) '0' ++ digits
  else l.pad (sign ++ digits)

/-- The sign of a number. -/
def sign (l : Layout) (negative : Bool) : List Char :=
  if negative then ['-'] else if l.plus then ['+'] else if l.space then [' '] else []

/-- Digits with as many zeros in front as are asked for. -/
def filled (l : Layout) (digits : List Char) : List Char :=
  match l.precision with
  | some p =>
    let digits := if digits = ['0'] ∧ p = 0 then [] else digits
    List.replicate (p - digits.length) '0' ++ digits
  | none => digits

/-- A whole number with a sign. -/
def signed (l : Layout) (n : Int) : List Char :=
  l.padNumber l.precision.isNone (l.sign (n < 0)) (l.filled (toString n.natAbs).toList)

/-- A whole number without a sign, in a base. -/
def unsigned (l : Layout) (base : Nat) (n : Nat) : List Char :=
  let digits := l.filled (Nat.toDigits base n)
  let digits := if base = 8 ∧ l.sharp ∧ digits.head? ≠ some '0' then '0' :: digits else digits
  let mark := if base = 16 ∧ l.sharp ∧ n ≠ 0 then ['0', 'x'] else []
  l.padNumber l.precision.isNone mark digits

/-- A text, or the start of it. -/
def text (l : Layout) (t : List Char) : List Char :=
  l.pad (match l.precision with
    | some p => t.take p
    | none => t)

/-- A double in one of its forms. -/
def double (l : Layout) (form : Char) (bits : UInt64) : List Char :=
  let sign := l.sign (bits >>> 63 == 1)
  let exponent := (bits >>> 52) &&& 0x7FF
  let fraction := bits &&& 0xFFFFFFFFFFFFF
  if exponent = 0x7FF then
    l.padNumber false sign (if fraction = 0 then "inf" else "nan").toList
  else
    let (m, q) := (Decimal.decode bits).getD (0, 0)
    let places := l.precision.getD 6
    let digits := match form with
      | 'f' => Decimal.fixedPoint places l.sharp m q
      | 'e' => Decimal.scientific places l.sharp m q
      | 'g' => Decimal.general places l.sharp m q
      | _ => Decimal.hexadecimal l.precision l.sharp m q
    let (sign, digits) := if form = 'a' then (sign ++ ['0', 'x'], (digits.drop 2).toString)
      else (sign, digits)
    l.padNumber true sign digits.toList

end Layout

/-- A text in capitals. -/
def capitals (t : List Char) : List Char :=
  t.map Char.toUpper

/-! ## Numbers of arguments -/

/-- A number that an argument stands for: its value, whether it is out of range, and what is left of
the argument behind it. -/
structure Parsed (α : Type) where
  value : α
  tooLarge : Bool
  rest : List Char

/-- The whole number at the start of a text. -/
def Parsed.whole (signed : Bool) (t : List Char) : Parsed Int :=
  match numberAt false t with
  | none => ⟨0, false, t⟩
  | some (n, rest) =>
    if signed then
      if greatestNumber < n then ⟨greatestNumber, true, rest⟩
      else if n < leastNumber then ⟨leastNumber, true, rest⟩
      else ⟨n, false, rest⟩
    else
      let limit : Int := Nat.pow 2 64
      if n ≤ -limit ∨ limit ≤ n then ⟨limit - 1, true, rest⟩
      else ⟨if n < 0 then n + limit else n, false, rest⟩

/-- Whether there is a minus at the start of a text, and the text without a sign. -/
def withoutSign : List Char → Bool × List Char
  | '-' :: t => (true, t)
  | '+' :: t => (false, t)
  | t => (false, t)

/-- The exponent at the start of a text and what follows it; if there is none, zero and `rest`. -/
def exponentAt (t rest : List Char) : Int × List Char :=
  let (negative, digits) := withoutSign t
  match digitsAt 10 digits with
  | some (n, rest) => (if negative then -(n : Int) else n, rest)
  | none => (0, rest)

/-- The decimal digits, the fraction and the exponent of a double at the start of a text. -/
def decimalAt (t : List Char) : Option (Float × List Char) :=
  let whole := t.takeWhile Char.isDigit
  let rest := t.drop whole.length
  let (fraction, rest) := match rest with
    | '.' :: more =>
      let fraction := more.takeWhile Char.isDigit
      if whole.isEmpty ∧ fraction.isEmpty then ([], rest) else (fraction, more.drop fraction.length)
    | rest => ([], rest)
  if whole.isEmpty ∧ fraction.isEmpty then none
  else
    let mantissa := (whole ++ fraction).foldl (fun n c => n * 10 + digitValue c) 0
    let (exponent, rest) : Int × List Char := match rest with
      | e :: more =>
        if e = 'e' ∨ e = 'E' then exponentAt more rest else (0, rest)
      | [] => (0, rest)
    let power := exponent - fraction.length
    let value := if mantissa = 0 ∨ power < -100000 then 0
      else if 100000 < power then Float.ofScientific 1 false 400
      else Float.ofScientific mantissa (power < 0) power.natAbs
    some (value, rest)

/-- A double in hexadecimal digits at the start of a text. -/
def hexadecimalAt (t : List Char) : Option (Float × List Char) :=
  match t with
  | '0' :: x :: t =>
    if x ≠ 'x' ∧ x ≠ 'X' then none
    else
      let isDigit (c : Char) : Bool := digitValue c < 16
      let whole := t.takeWhile isDigit
      let rest := t.drop whole.length
      let (fraction, rest) := match rest with
        | '.' :: more =>
          let fraction := more.takeWhile isDigit
          (fraction, more.drop fraction.length)
        | rest => ([], rest)
      if whole.isEmpty ∧ fraction.isEmpty then none
      else
        let mantissa := (whole ++ fraction).foldl (fun n c => n * 16 + digitValue c) 0
        let (exponent, rest) : Int × List Char := match rest with
          | p :: more =>
            if p = 'p' ∨ p = 'P' then exponentAt more rest else (0, rest)
          | [] => (0, rest)
        some ((Float.ofNat mantissa).scaleB (exponent - 4 * fraction.length), rest)
  | _ => none

/-- The words for doubles that are not numbers or not finite, at the start of a text. -/
def namedAt (t : List Char) : Option (Float × List Char) :=
  let starts (name : String) : Bool :=
    name.toList.isPrefixOf ((t.take name.length).map Char.toLower)
  let infinite := Float.ofScientific 1 false 400
  if starts "infinity" then some (infinite, t.drop 8)
  else if starts "inf" then some (infinite, t.drop 3)
  else if starts "nan" then some (0.0 / 0.0, t.drop 3)
  else none

/-- The double at the start of a text. -/
def Parsed.double (t : List Char) : Parsed Float :=
  let inside := t.dropWhile isSpace
  let (negative, digits) := withoutSign inside
  match namedAt digits, hexadecimalAt digits <|> decimalAt digits with
  | some (v, rest), _ => ⟨if negative then -v else v, false, rest⟩
  | none, some (v, rest) =>
    let nonzero := (digits.take (digits.length - rest.length)).any fun c => '1' ≤ c && c ≤ '9'
    ⟨if negative then -v else v, v.isInf || (v == 0 && nonzero), rest⟩
  | none, none => ⟨0, false, t⟩

/-! ## Formats -/

/-- What is left to write, and what was written. -/
structure Formatting where
  args : List String
  /-- The letters written, last first. -/
  out : List Char
  /-- An argument was no number. -/
  faulty : Bool
  /-- All output ends. -/
  stopped : Bool

/-- Writes while formatting. -/
abbrev Formatter := StateT Formatting ShellM

namespace Formatter

/-- Writes letters. -/
def emit (t : List Char) : Formatter Unit :=
  modify fun f => { f with out := t.reverse ++ f.out }

/-- Gives up. What was written so far stays. -/
def abandon (what : String) : Formatter α := do
  let _ ← write 1 (String.ofList (← get).out.reverse)
  fail what

/-- Takes an argument. -/
def take : Formatter (Option String) := do
  let f ← get
  match f.args with
  | [] => return none
  | a :: args =>
    set { f with args }
    return some a

/-- The number that an argument stands for. A letter behind a quotation mark stands for its byte. -/
def numeric (read : List Char → Parsed α) (ofByte : Nat → α) : Formatter α := do
  match ← take with
  | none => return ofByte 0
  | some text =>
    match text.toList with
    | '"' :: rest | '\'' :: rest => return ofByte ((rest.head?.map Char.toNat).getD 0)
    | t =>
      let parsed := read t
      let complain (what : String) : Formatter Unit := do
        warn (text ++ ": " ++ what)
        modify fun f => { f with faulty := true }
      if ! parsed.rest.isEmpty then
        complain (if parsed.rest.length = t.length then "expected numeric value"
          else "not completely converted")
      else if parsed.tooLarge then complain "Numerical result out of range"
      return parsed.value

/-- The whole number with a sign that an argument stands for. -/
def integer : Formatter Int :=
  numeric (Parsed.whole true) Int.ofNat

/-- The number in a format, or the one that an argument stands for. -/
def size (t : List Char) : Formatter (Option Int × List Char) := do
  match t with
  | '*' :: rest => return (some (← integer), rest)
  | t =>
    match digitsAt 10 t with
    | some (n, rest) => return (some n, rest)
    | none => return (none, t)

/-- Writes an argument as a directive says, behind the percent sign. Returns what follows it. -/
def directive (t : List Char) : Formatter (List Char) := do
  let flags := t.takeWhile ['#', '-', '+', ' ', '0'].contains
  let (width, rest) ← size (t.drop flags.length)
  let (precision, rest) ← match rest with
    | '.' :: rest => do
      let (n, rest) ← size rest
      pure (some (n.getD 0), rest)
    | rest => pure (none, rest)
  let width := width.getD 0
  let layout : Layout :=
    { left := flags.contains '-' || width < 0
      plus := flags.contains '+'
      space := flags.contains ' '
      sharp := flags.contains '#'
      zero := flags.contains '0'
      width := width.natAbs
      precision := precision.bind fun p => if p < 0 then none else some p.toNat }
  spendOn (layout.width + layout.precision.getD 0)
  match rest with
  | [] => abandon "missing format character"
  | c :: after =>
    let asText (t : List Char) : Formatter Unit := emit (layout.text t)
    match c with
    | 'b' =>
      let (text, stopped) := unescapeText ((← take).getD "")
      asText text
      modify fun f => { f with stopped }
    | 'c' => emit ({ layout with precision := none }.text
        [((← take).bind (·.toList.head?)).getD '\x00'])
    | 's' => asText ((← take).getD "").toList
    | 'd' | 'i' => emit (layout.signed (← integer))
    | 'o' | 'u' | 'x' | 'X' =>
      let n ← numeric (Parsed.whole false) Int.ofNat
      let base := if c = 'o' then 8 else if c = 'u' then 10 else 16
      let text := layout.unsigned base n.toNat
      emit (if c = 'X' then capitals text else text)
    | 'a' | 'A' | 'e' | 'E' | 'f' | 'F' | 'g' | 'G' =>
      let v ← numeric Parsed.double Float.ofNat
      let text := layout.double c.toLower v.toBits
      emit (if c.isUpper then capitals text else text)
    | _ =>
      let shown := t.take (t.length - after.length)
      abandon ("%" ++ String.ofList shown ++ ": invalid directive")
    return after

/-- Writes a format once. -/
def once : Nat → List Char → Formatter Unit
  | 0, _ => return
  | fuel + 1, t => do
    if (← get).stopped then return
    match t with
    | [] => return
    | '\\' :: rest =>
      let (c, rest) := escaped rest
      emit [c]
      once fuel rest
    | '%' :: '%' :: rest =>
      emit ['%']
      once fuel rest
    | '%' :: rest => once fuel (← directive rest)
    | c :: rest =>
      emit [c]
      once fuel rest

/-- Writes a format as long as it takes arguments and there are some left. -/
def all (format : List Char) : Nat → Formatter Unit
  | 0 => return
  | fuel + 1 => do
    let before := (← get).args.length
    once (format.length + 1) format
    let f ← get
    if f.stopped ∨ f.args.isEmpty ∨ f.args.length = before then return
    all format fuel

end Formatter

/-- What a format writes for arguments, and whether all of them were what it takes. -/
def formatted (format : String) (args : List String) : ShellM (String × Bool) := do
  let (_, f) ← (Formatter.all format.toList (args.length + 1)).run ⟨args, [], false, false⟩
  return (String.ofList f.out.reverse, ! f.faulty)

end Anchored.Shell
