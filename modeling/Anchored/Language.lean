import Anchored.Text.Blank

/-!
# Languages of files

A file's language is told by the extension of its name, and each language has one grammar, by
which its files are checked.
-/

namespace Anchored

/-- The languages that are told apart. -/
inductive Language where
  | rust
  | c
  | cpp
  | java
  | javaScript
  | typeScript
  | go
  | cSharp
  | python
  | json
  | yaml
  | unknown
  deriving DecidableEq, Repr

/-- How the files of a language are checked. -/
inductive Grammar where
  /-- By the indentation and the statements of a script. -/
  | script
  | json
  | yaml
  /-- By the balance of brackets. -/
  | brace
  /-- Not at all, but for a file that loses all its content. -/
  | unknown
  deriving DecidableEq, Repr

/-- The name of a grammar. -/
def Grammar.name : Grammar → String
  | .script => "script"
  | .json => "json"
  | .yaml => "yaml"
  | .brace => "brace"
  | .unknown => "unknown"

namespace Language

/-- The languages with a grammar, in the order in which extensions are looked up. -/
def known : List Language :=
  [.rust, .c, .cpp, .java, .javaScript, .typeScript, .go, .cSharp, .python, .json, .yaml]

/-- The extensions of a language's files. -/
def extensions : Language → List String
  | .rust => ["rs"]
  | .c => ["c", "h"]
  | .cpp => ["cpp", "cc", "cxx", "hpp", "hxx", "hh"]
  | .java => ["java"]
  | .javaScript => ["js", "mjs", "cjs", "jsx"]
  | .typeScript => ["ts", "tsx"]
  | .go => ["go"]
  | .cSharp => ["cs"]
  | .python => ["py", "pyi"]
  | .json => ["json"]
  | .yaml => ["yaml", "yml"]
  | .unknown => []

/-- The name of a language. -/
def name : Language → String
  | .rust => "Rust"
  | .c => "C"
  | .cpp => "C++"
  | .java => "Java"
  | .javaScript => "JavaScript"
  | .typeScript => "TypeScript"
  | .go => "Go"
  | .cSharp => "C#"
  | .python => "Python"
  | .json => "JSON"
  | .yaml => "YAML"
  | .unknown => "Unknown"

/-- The grammar of a language. -/
def grammar : Language → Grammar
  | .python => .script
  | .json => .json
  | .yaml => .yaml
  | .unknown => .unknown
  | _ => .brace

/-- The last name of a path. Empty names and single dots are passed over; a path that ends with
two dots has none. -/
def fileName? (path : List Char) : Option (List Char) :=
  match ((Text.splitWhere (· == '/') path).filter fun part =>
      !part.isEmpty && part != ['.']).getLast? with
  | some ['.', '.'] => none
  | last => last

/-- What follows the last dot of a file name. A dot in front of the name starts no extension. -/
def extension? (path : List Char) : Option (List Char) := do
  let name ← fileName? path
  let after := name.reverse.takeWhile (· != '.')
  if after.length + 1 < name.length then some after.reverse else none

/-- The language of the file at a path. Extensions are compared without regard to the case of
ASCII letters. -/
def ofPath (path : String) : Language :=
  let extension := String.ofList (((extension? path.toList).getD []).map Char.toLower)
  (known.find? fun language => language.extensions.contains extension).getD .unknown

end Language

end Anchored
