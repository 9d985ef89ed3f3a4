import Anchored.Shell.Machine
import Anchored.Shell.Program.Options
import Anchored.Shell.Program.Quoted

/-!
# Writing files one after another

The program `cat` writes the files that it is given, or what it can read if there are none. It can
number lines, leave out repeated empty lines, and show what is hard to see.
-/

namespace Anchored.Shell.Cat

/-- The options of the program. -/
def table : OptionTable where
  letters := ['b', 'e', 'n', 's', 't', 'u', 'v', 'A', 'E', 'T']
  names := [("number-nonblank", 'b'), ("number", 'n'), ("squeeze-blank", 's'),
    ("show-nonprinting", 'v'), ("show-ends", 'E'), ("show-tabs", 'T'), ("show-all", 'A'),
    ("help", 'h'), ("version", 'V')]

/-- How a file is written. -/
structure Style where
  number : Bool
  /-- Only lines with something in them have numbers. -/
  nonblank : Bool
  squeeze : Bool
  ends : Bool
  tabs : Bool
  control : Bool
  deriving DecidableEq, Repr

/-- The style that options ask for. -/
def Style.of (letters : List Char) : Style :=
  let has (cs : List Char) : Bool := letters.any cs.contains
  { number := has ['b', 'n']
    nonblank := has ['b']
    squeeze := has ['s']
    ends := has ['A', 'E', 'e']
    tabs := has ['A', 'T', 't']
    control := has ['A', 'e', 't', 'v'] }

/-- What is known where a file goes on. -/
structure Progress where
  /-- The lines with a number. -/
  numbered : Nat
  /-- A line is open. -/
  inLine : Bool
  /-- The empty lines in front of what comes next. -/
  blanks : Nat

/-- The number in front of a line. -/
def lineNumber (n : Nat) : List Char :=
  let digits := (toString n).toList
  List.replicate (6 - digits.length) ' ' ++ digits ++ ['\t']

/-- What is shown for a byte that is not a line feed. `next` is the byte behind it. -/
def shownByte (s : Style) (c : Char) (next : Option Char) : List Char :=
  let caret (n : Nat) : List Char := ['^', Char.ofNat (n + 64)]
  let plain (n : Nat) : List Char :=
    if n < 32 then caret n else if n = 127 then ['^', '?'] else [Char.ofNat n]
  if c = '\t' then if s.tabs then caret 9 else [c]
  else if s.control then
    if c.toNat < 128 then plain c.toNat else 'M' :: '-' :: plain (c.toNat - 128)
  else if c = '\r' ∧ s.ends ∧ next = some '\n' then caret 13
  else [c]

/-- What is written for bytes, behind `shown`, the last byte of which comes first. -/
def shownBytes (s : Style) : Progress → List Char → List Char → List Char × Progress
  | p, shown, [] => (shown.reverse, p)
  | p, shown, c :: rest =>
    let numbered (p : Progress) : List Char × Progress :=
      ((lineNumber (p.numbered + 1)).reverse ++ shown, { p with numbered := p.numbered + 1 })
    if c = '\n' then
      let ending := if s.ends then ['\n', '$'] else ['\n']
      if p.inLine then
        shownBytes s { p with inLine := false, blanks := 0 } (ending ++ shown) rest
      else if s.squeeze ∧ 1 ≤ p.blanks then shownBytes s p shown rest
      else
        let (shown, p) := if s.number ∧ ! s.nonblank then numbered p else (shown, p)
        shownBytes s { p with blanks := p.blanks + 1 } (ending ++ shown) rest
    else
      let (shown, p) := if s.number ∧ ! p.inLine then numbered p else (shown, p)
      let letters := shownByte s c rest.head?
      shownBytes s { p with inLine := true } (letters.reverse ++ shown) rest

/-- Everything that can be read from a handle. -/
def readRest (handle : Nat) : ShellM ByteArray := do
  match ← openedAt handle with
  | some (_, .channel c) => readBytes handle c.size
  | some (_, .file place ..) => readBytes handle ((← get).contents place).size
  | _ => return .empty

/-- Says that something failed. -/
def complain (text : String) : ShellM Unit := do
  let _ ← write 2 ("cat: " ++ text ++ "\n")

/-- The file at a place is the one that is written, and there is something in it behind
`position`. -/
def feedsItself (place : Place) (position : Nat) : ShellM Bool := do
  match ← openedAt 1 with
  | some (_, .file output ..) =>
    return output = place && position < ((← get).contents place).size
  | _ => return false

/-- The bytes at a path; or why there are none. -/
def contentsOf (path : String) : ShellM (Except String ByteArray) := do
  if path = "-" then
    match ← openedAt 0 with
    | none => return .error "Bad file descriptor"
    | some (_, .directory) => return .error "Is a directory"
    | some (_, .file place position ..) =>
      if ← feedsItself place position then return .error "input file is output file"
      return .ok (← readRest 0)
    | _ => return .ok (← readRest 0)
  let m ← get
  match device? path with
  | some (.handle n) =>
    if (← openedAt n).isNone then return .error "No such file or directory"
    return .ok (← readRest n)
  | some _ => return .ok .empty
  | none =>
    match m.place path with
    | .ok place =>
      match m.store.node place with
      | some (.file bytes) =>
        if ← feedsItself place 0 then return .error "input file is output file"
        return .ok bytes
      | some .directory => return .error "Is a directory"
      | none => return .error (faultText .missing)
    | .error fault =>
      if outerDirectories.contains path then return .error "Is a directory"
      return .error (faultText fault)

/-- Writes files one after another. Gives whether all could be read and written. -/
def writeAll (s : Style) : Progress → List String → ShellM Bool
  | _, [] => return true
  | p, path :: rest => do
    match ← contentsOf path with
    | .error reason =>
      complain (quotedName path ++ ": " ++ reason)
      let _ ← writeAll s p rest
      return false
    | .ok bytes =>
      spendOn (4 * bytes.size)
      let (text, p) := shownBytes s p [] (ofBytes bytes).toList
      if ← write 1 (String.ofList text) then writeAll s p rest
      else
        complain "write error: No space left on device"
        return false

/-- Runs the program. -/
def run (args : List String) : ShellM Nat := do
  match table.read args with
  | (letters, operands) =>
    if letters.contains 'h' ∨ letters.contains 'V' then return 0
    match operands with
    | .error fault =>
      complain fault.message
      let _ ← write 2 (helpHint "cat" ++ "\n")
      return 1
    | .ok operands =>
      if (← openedAt 1).isNone then
        complain "standard output: Bad file descriptor"
        return 1
      let operands := if operands.isEmpty then ["-"] else operands
      let good ← writeAll (.of letters) ⟨0, false, 0⟩ operands
      if operands.contains "-" ∧ (← openedAt 0).isNone then
        complain "closing standard input: Bad file descriptor"
        return 1
      return if good then 0 else 1

end Anchored.Shell.Cat
