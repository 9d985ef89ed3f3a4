import Anchored.Shell.Format

/-!
# Writing words

The program `echo` writes its operands with one blank between them. Its options come first: one
lets the newline at the end away, one has escapes carried out, and one has them left as they are.
-/

namespace Anchored.Shell.Echo

/-- The letters of the options that the arguments start with, and the operands. -/
def options : List String → List Char × List String
  | [] => ([], [])
  | argument :: rest =>
    match argument.toList with
    | '-' :: c :: cs =>
      if (c :: cs).all ['n', 'e', 'E'].contains then
        let (letters, operands) := options rest
        (c :: cs ++ letters, operands)
      else ([], argument :: rest)
    | _ => ([], argument :: rest)

/-- The byte that hexadecimal digits at the start of a text stand for, up to two of them, and what
follows them. -/
def hexByte? (t : List Char) : Option (Char × List Char) :=
  let digits := (t.take 2).takeWhile fun c => digitValue c < 16
  if digits.isEmpty then none
  else
    let n := digits.foldl (fun n c => n * 16 + digitValue c) 0
    some (Char.ofNat n, t.drop digits.length)

/-- A text with its escapes carried out, up to the one that ends all output, and whether there is
one. -/
def unescape : Nat → List Char → List Char → List Char × Bool
  | 0, acc, _ | _, acc, [] => (acc.reverse, false)
  | fuel + 1, acc, '\\' :: rest =>
    match rest with
    | 'c' :: _ => (acc.reverse, true)
    | 'x' :: digits =>
      match hexByte? digits with
      | some (c, rest) => unescape fuel (c :: acc) rest
      | none => unescape fuel ('\\' :: acc) rest
    | c :: rest =>
      if '0' ≤ c ∧ c ≤ '7' then
        let (byte, rest) := if c = '0' then octalByte 3 rest else octalByte 3 (c :: rest)
        unescape fuel (byte :: acc) rest
      else
        match escape? c with
        | some c => unescape fuel (c :: acc) rest
        | none => unescape fuel ('\\' :: acc) (c :: rest)
    | [] => unescape fuel ('\\' :: acc) []
  | fuel + 1, acc, c :: rest => unescape fuel (c :: acc) rest

/-- Runs the program. -/
def run (args : List String) : ShellM Nat := do
  let (letters, operands) := options args
  let quiet := letters.contains 'n'
  let text := (" ".intercalate operands).toList
  let (text, stopped) := if (letters.filter (· != 'n')).getLast? = some 'e' then
      unescape (text.length + 1) [] text
    else (text, false)
  if ← write 1 (String.ofList text ++ if stopped ∨ quiet then "" else "\n") then return 0
  let reason := if (← openedAt 1).isNone then "Bad file descriptor"
    else "No space left on device"
  let _ ← write 2 ("echo: write error: " ++ reason ++ "\n")
  return 1

end Anchored.Shell.Echo
