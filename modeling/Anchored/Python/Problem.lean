import Anchored.Parsing.Reader
import Anchored.Python.Layout
import Anchored.Python.Rules
import Anchored.Text.Blank
import Anchored.Text.Preview

/-!
# Faults of a Python text

A text is well-formed if it can be read without a fault. Of the faults of the best reading, the one
that stands first in the tree is told.
-/

namespace Anchored.Python

open Parsing

/-- The table of the grammar, made when it is first used. -/
def table : Thunk Table :=
  .mk fun _ => grammar.table

/-- What is wrong at a place of a text. -/
inductive Fault where
  /-- Something that the grammar has no place for, in characters of the text. -/
  | unexpected (start stop row : Nat)
  /-- The text lacks a token. -/
  | missing (name : String) (row : Nat)
  deriving DecidableEq, Repr

mutual

/-- The first fault of a tree that starts at a place; what the tree is shown as is `name` or else
its own name. A hidden tree has no fault of its own. -/
def firstFault (nameOf : Label → String) (shown : Bool) (name : Option String) (start : Extent) :
    Parsing.Tree Layout → Option Fault
  | .node i parts =>
    if shown && i.label = .error then
      some (.unexpected start.chars (start.chars + i.size.chars) start.rows)
    else if shown && i.missing then
      some (.missing (name.getD (nameOf i.label)) start.rows)
    else if i.cost = 0 then none
    else firstFaultIn nameOf i.aliases start parts true

/-- The first fault of some trees that start at a place; the first of them starts without what
stands before it if `first`. -/
def firstFaultIn (nameOf : Label → String) (aliases : List (Option String)) (start : Extent) :
    List (Parsing.Tree Layout) → Bool → Option Fault
  | [], _ => none
  | t :: rest, first =>
    let i := t.info
    let here := if first then start else start + i.gap
    let name := if i.extra then none else aliases.head?.join
    let aliases := if i.extra then aliases else aliases.drop 1
    (firstFault nameOf (i.shown || name.isSome) name here t).or
      (firstFaultIn nameOf aliases (here + i.size) rest false)

end

/-- The text of a fault: the number of its line, and the first line of what is no code. -/
def Fault.message (s : Source) : Fault → String
  | .unexpected start stop row =>
    let line := (s.slice start stop).takeWhile (· != '\n')
    "line " ++ toString (row + 1) ++ ": syntax error near '" ++
      Text.preview (String.ofList (Text.trim line)) 40 ++ "'"
  | .missing name row =>
    "line " ++ toString (row + 1) ++ ": syntax error, missing '" ++ name ++ "'"

/-- What is wrong with a text, if anything is. -/
def problem? (text : String) : Option String :=
  let source := Source.of text.toList
  let table := table.get
  let nameOf : Label → String
    | .symbol n => (table.symbols.terminals[n]?.map Terminal.name).getD ""
    | _ => "ERROR"
  match (⟨table, source, scan⟩ : Context Layout).read with
  | none => some "syntax error"
  | some t =>
    if t.info.cost = 0 then none
    else
      let start := t.info.gap
      some (((firstFault nameOf true none start t).map (Fault.message source)).getD "syntax error")

end Anchored.Python
