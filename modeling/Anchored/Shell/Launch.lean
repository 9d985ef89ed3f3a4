import Anchored.Shell.Run

/-!
# Starting a program

A program starts on a machine with nothing to read, and with two channels to write to that nobody
reads before it has ended.
-/

namespace Anchored.Shell

/-- What is left of a program that ran: the way it ended, unless it was late, what it wrote, and the
files. -/
structure Aftermath where
  ended : Option Ended
  output : ByteArray
  errors : ByteArray
  store : Store

/-- The environment of a program that no shell starts. -/
def Environment.outermost : Environment :=
  let told (name value : String) : String × Setting := (name, ⟨some value, true, false⟩)
  { name := "sh", args := [], functions := [], aliases := [], options := [], traps := []
    settings := [told "HOME" "/root", told "PATH" usualPath, told "PWD" "/"]
    handles := [(0, 0), (1, outputIndex), (2, errorsIndex)]
    here := [], status := 0, captured := 0, line := 0, builtin := none, skip := none
    loops := 0, depth := 0, saved := [], nextOption := 1, optionLetters := none, tracked := []
    process := 1000, self := 1000, outerTraps := none, leaving := none, umask := 18
    lastJob := none }

/-- The machine before a program starts. -/
def Machine.initial (store : Store) (timeLimit : Nat) : Machine where
  store := store
  opened := #[.void, .channel .empty, .channel .empty]
  clock := 0
  timeLimit := timeLimit
  steps := stepLimit
  processes := 1001
  jobs := []
  signals := []
  env := .outermost

/-- Runs a program with raw arguments. -/
def launch (store : Store) (timeLimit : Nat) (program : String) (args : List String) : Aftermath :=
  let (ended, m) := (start (8 * stepLimit) false program args).run (.initial store timeLimit)
  let written (n : Nat) : ByteArray := match m.opened[n]? with
    | some (.channel c) => c.bytes
    | _ => .empty
  { ended := match ended with
      | .ok ended => some ended
      | .error (.killed _ signal) => some (.signal signal)
      | .error _ => none
    output := written outputIndex
    errors := written errorsIndex
    store := m.store }

end Anchored.Shell
