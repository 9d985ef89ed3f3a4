import Anchored.Bracket.Balance
import Anchored.Json.Reader
import Anchored.Python.Problem
import Anchored.Yaml.Node

/-!
# Validity of a file's content
-/

namespace Anchored

/-- The outcome of a check of a content. -/
structure Validation where
  language : Language
  /-- Why the content was rejected; `none` if it is well-formed. -/
  problem : Option String
  deriving DecidableEq, Repr

/-- The content is well-formed. -/
def Validation.valid (v : Validation) : Bool :=
  v.problem.isNone

/-- The text of a failure. -/
def problemOf (describe : ε → String) : Except ε α → Option String
  | .ok _ => none
  | .error e => some (describe e)

/-- A file of unknown kind may change in any way but one: it may not lose all its content. -/
def checkNotEmptied (content before : String) : Option String :=
  if content = "" ∧ before ≠ "" then
    some "edit would empty a non-empty file (likely corruption)"
  else none

/-- What is wrong with a content that is to replace `before` in the file at a path. -/
def validate (path content before : String) : Validation :=
  let language := Language.ofPath path
  { language
    problem := match language.grammar with
      | .script => Python.problem? content
      | .json => problemOf (fun e => "invalid JSON: " ++ e.message) (Json.read .any content)
      | .yaml => problemOf (fun e => "invalid YAML: " ++ e.message) (Yaml.read content)
      | .brace => problemOf Bracket.Imbalance.message (Bracket.check language content.toList)
      | .unknown => checkNotEmptied content before }

end Anchored
