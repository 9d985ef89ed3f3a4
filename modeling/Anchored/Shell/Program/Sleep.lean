import Anchored.Shell.Format
import Anchored.Shell.Program.Options
import Anchored.Shell.Program.Quoted

/-!
# Letting time pass

The program `sleep` lets as much time pass as all its operands ask for.
-/

namespace Anchored.Shell.Sleep

/-- The options of the program. -/
def table : OptionTable where
  letters := []
  names := [("help", 'h'), ("version", 'V')]

/-- The seconds that a unit stands for. -/
def unit? : List Char → Option Float
  | [] | ['s'] => some 1
  | ['m'] => some 60
  | ['h'] => some 3600
  | ['d'] => some 86400
  | _ => none

/-- The seconds that an operand asks for. -/
def seconds? (operand : String) : Option Float :=
  let text := operand.toList
  let parsed := Parsed.double text
  if parsed.rest.length = text.length ∨ ! (0 ≤ parsed.value) then none
  else (unit? parsed.rest).map (parsed.value * ·)

/-- The longest time, in seconds. -/
def longest : Float :=
  1000000000

/-- Runs the program. -/
def run (args : List String) : ShellM Nat := do
  let complain (text : String) : ShellM Unit := do
    let _ ← write 2 ("sleep: " ++ text ++ "\n")
  let hint : ShellM Nat := do
    let _ ← write 2 (helpHint "sleep" ++ "\n")
    return 1
  match table.read args with
  | (letters, operands) =>
    if ! letters.isEmpty then return 0
    match operands with
    | .error fault =>
      complain fault.message
      hint
    | .ok [] =>
      complain "missing operand"
      hint
    | .ok operands =>
      let bad := operands.filter fun a => (seconds? a).isNone
      for operand in bad do
        complain ("invalid time interval " ++ quotedWord operand)
      if ! bad.isEmpty then return ← hint
      let total := (operands.filterMap seconds?).foldl (· + ·) 0
      wait (1000 * if total < longest then total else longest).toUInt64.toNat
      return 0

end Anchored.Shell.Sleep
