import Anchored.Shell.Raw

/-!
# Options of programs

The arguments of a program are options and operands, in any order. An option is a letter behind a
minus, or a name behind two, which can be cut short as long as it is told from the others. Behind
two minuses alone there are only operands.
-/

namespace Anchored.Shell

/-- The options of a program. -/
structure OptionTable where
  letters : List Char
  /-- The names, with the letters that they stand for. -/
  names : List (String × Char)

/-- What is wrong with an option. -/
inductive OptionFault where
  | letter (c : Char)
  | unknown (text : String)
  | takesNothing (name : String)
  | ambiguous (text : String) (names : List String)
  deriving DecidableEq, Repr

namespace OptionFault

/-- A complaint about an option. -/
def message : OptionFault → String
  | letter c => "invalid option -- '" ++ c.toString ++ "'"
  | unknown text => "unrecognized option '" ++ text ++ "'"
  | takesNothing name => "option '--" ++ name ++ "' doesn't allow an argument"
  | ambiguous text names =>
    "option '" ++ text ++ "' is ambiguous; possibilities:" ++
      String.join (names.map fun name => " '--" ++ name ++ "'")

end OptionFault

namespace OptionTable

/-- The letter that a long option stands for. -/
def named (t : OptionTable) (argument : String) : Except OptionFault Char :=
  let text := (argument.drop 2).toString
  let (start, value) := (text.toList.takeWhile (· != '='), text.toList.contains '=')
  let fits := t.names.filter fun (name, _) => start.isPrefixOf name.toList
  let exact := fits.find? fun (name, _) => name.toList == start
  let take (found : String × Char) : Except OptionFault Char :=
    if value then .error (.takesNothing found.1) else .ok found.2
  match exact, fits with
  | some found, _ => take found
  | none, [] => .error (.unknown argument)
  | none, [found] => take found
  | none, fits => .error (.ambiguous argument (fits.map (·.1)))

/-- The letters of the options among arguments and the operands, up to the first fault. -/
def read (t : OptionTable) : List String → List Char × Except OptionFault (List String)
  | [] => ([], .ok [])
  | "--" :: rest => ([], .ok rest)
  | argument :: rest =>
    let (letters, operands) := t.read rest
    match argument.toList with
    | '-' :: '-' :: _ =>
      match t.named argument with
      | .ok letter => (letter :: letters, operands)
      | .error fault => ([], .error fault)
    | '-' :: c :: cs =>
      let known := (c :: cs).takeWhile t.letters.contains
      match (c :: cs).drop known.length with
      | [] => (known ++ letters, operands)
      | bad :: _ => (known, .error (.letter bad))
    | _ => (letters, operands.map (argument :: ·))

end OptionTable

/-- What a program says about its help, behind a complaint. -/
def helpHint (program : String) : String :=
  "Try '" ++ program ++ " --help' for more information."

end Anchored.Shell
