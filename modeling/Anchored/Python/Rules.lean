import Anchored.Parsing.Rule
import Anchored.Text.Letters

/-!
# The grammar of Python

A lenient grammar: it has the statements of older dialects, takes a block without statements, and
leaves to later checks whether a target can take a value. A token whose name starts with an
underscore has no node in a tree.
-/

namespace Anchored.Python

open Parsing
open Text (startsName continuesName)

/-! ## Patterns of the tokens that are no texts -/

namespace Lexeme

open Pattern

def digit : Pattern :=
  between '0' '9'

def hexDigit : Pattern :=
  any [digit, between 'a' 'f', between 'A' 'F']

/-- Digits, with single underscores between them or at the end. -/
def digits : Pattern :=
  many (all [many digit, optional (text "_")])

/-- An integer in another base than ten. -/
def based (marks : String) (digit : Pattern) : Pattern :=
  all [text "0", oneOf marks, many (all [optional (text "_"), many digit]), optional (oneOf "Ll")]

def integer : Pattern :=
  any [based "xX" hexDigit, based "oO" (between '0' '7'), based "bB" (oneOf "01"),
    all [digits, any [optional (oneOf "Ll"), optional (oneOf "jJ")]]]

def exponent : Pattern :=
  all [oneOf "eE", optional (oneOf "+-"), digits]

def float : Pattern :=
  all [any [all [digits, text ".", optional digits, optional exponent],
      all [optional digits, text ".", digits, optional exponent], all [digits, exponent]],
    optional (oneOf "jJ")]

def identifier : Pattern :=
  all [one fun c => c == '_' || startsName c, star (one continuesName)]

def comment : Pattern :=
  all [text "#", star (noneOf "\n")]

def lineEnd : Pattern :=
  all [optional (text "\r"), text "\n"]

/-- A line goes on with the next one, or the text ends. -/
def continuation : Pattern :=
  all [text "\\", any [lineEnd, oneOf "\x00"]]

def escape : Pattern :=
  all [text "\\", any [all [text "u", times 4 hexDigit], all [text "U", times 8 hexDigit],
    all [text "x", times 2 hexDigit], all [digit, optional digit, optional digit], lineEnd,
    oneOf "'\"abfrntv\\",
    all [text "N\x7b", many (noneOf "\x7d"), text "\x7d"]]]

/-- What stands in a format, but for the expressions in it. -/
def formatText : Pattern :=
  many (noneOf "\x7b\x7d\n")

/-- How the value of an expression in a string becomes a text. -/
def conversion : Pattern :=
  all [text "!", between 'a' 'z']

end Lexeme

open Rule

/-- The name of a definition stands for what it defines. -/
instance : Coe String Rule :=
  ⟨ref⟩

def shown : Rule → Definition :=
  .rule .shown

def hidden : Rule → Definition :=
  .rule .hidden

def category : Rule → Definition :=
  .rule .category

def inlined : Rule → Definition :=
  .rule .inlined

/-- A token that is a node. -/
def token : Form → Definition :=
  .token true

/-- A token of a pattern. -/
def form (p : Pattern) : Form :=
  ⟨p, none, false, 0⟩

/-- A token that is one text. -/
def exactly (s : String) : Form :=
  .text s

/-- One or more, with a comma between any two. -/
def commas (a : Rule) : Rule :=
  separated "," a

/-- A comma that may be left out. -/
def comma : Rule :=
  optional (text ",")

/-- Statements that stand on one line. -/
def statements : List (String × Definition) := [
  ("module", shown (star "statement")),
  ("statement", hidden (any ["simple statements", "compound statement"])),
  ("simple statements", hidden (all [separated ";" "simple statement", optional (text ";"),
    "_newline"])),
  ("simple statement", inlined (any ["future import statement", "import statement",
    "import from statement", "print statement", "assert statement", "expression statement",
    "return statement", "delete statement", "raise statement", "pass statement",
    "break statement", "continue statement", "global statement", "nonlocal statement",
    "exec statement", "type alias statement"])),
  ("import statement", shown (all [text "import", "import list"])),
  ("import prefix", shown (many (text "."))),
  ("relative import", shown (all ["import prefix", optional "dotted name"])),
  ("future import statement", shown (all [text "from", text "__future__", text "import",
    any ["import list", all [text "(", "import list", text ")"]]])),
  ("import from statement", shown (all [text "from", part "module_name" (any ["relative import",
    "dotted name"]), text "import", any ["wildcard import", "import list", all [text "(",
    "import list", text ")"]]])),
  ("import list", hidden (all [commas (part "name" (any ["dotted name", "aliased import"])),
    comma])),
  ("aliased import", shown (all [part "name" "dotted name", text "as",
    part "alias" "identifier"])),
  ("wildcard import", shown (text "*")),
  ("print statement", shown (any [rank 1 (all [text "print", "chevron", star (all [text ",",
    part "argument" "expression"]), comma]), rank (-3) (weighted (-1) (all [text "print",
    commas (part "argument" "expression"), comma]))])),
  ("chevron", shown (all [text ">>", "expression"])),
  ("assert statement", shown (all [text "assert", commas "expression"])),
  ("expression statement", shown (any ["expression", all [commas "expression", comma],
    "assignment", "augmented assignment", "yield"])),
  ("named expression", shown (all [part "name" "named expression lhs", text ":=",
    part "value" "expression"])),
  ("named expression lhs", hidden (any ["identifier", "keyword identifier"])),
  ("return statement", shown (all [text "return", optional "expressions"])),
  ("delete statement", shown (all [text "del", "expressions"])),
  ("expressions", inlined (any ["expression", "expression list"])),
  ("raise statement", shown (all [text "raise", optional "expressions",
    optional (all [text "from", part "cause" "expression"])])),
  ("pass statement", shown (leftward 0 (text "pass"))),
  ("break statement", shown (leftward 0 (text "break"))),
  ("continue statement", shown (leftward 0 (text "continue")))]

/-- Statements that hold others. -/
def blocks : List (String × Definition) := [
  ("compound statement", inlined (any ["if statement", "for statement", "while statement",
    "try statement", "with statement", "function definition", "class definition",
    "decorated definition", "match statement"])),
  ("if statement", shown (all [text "if", part "condition" "expression", text ":",
    part "consequence" "suite", star (part "alternative" "elif clause"),
    optional (part "alternative" "else clause")])),
  ("elif clause", shown (all [text "elif", part "condition" "expression", text ":",
    part "consequence" "suite"])),
  ("else clause", shown (all [text "else", text ":", part "body" "suite"])),
  ("match statement", shown (all [text "match", commas (part "subject" "expression"), comma,
    text ":", part "body" "match block"])),
  ("match block", shown (any [all ["_indent", star (part "alternative" "case clause"), "_dedent"],
    "_newline"])),
  ("case clause", shown (all [text "case", commas "case pattern", comma,
    optional (part "guard" "if clause"), text ":", part "consequence" "suite"])),
  ("for statement", shown (all [optional (text "async"), text "for", part "left" "left hand side",
    text "in", part "right" "expressions", text ":", part "body" "suite",
    part "alternative" (optional "else clause")])),
  ("while statement", shown (all [text "while", part "condition" "expression", text ":",
    part "body" "suite", optional (part "alternative" "else clause")])),
  ("try statement", shown (all [text "try", text ":", part "body" "suite",
    any [all [many "except clause", optional "else clause", optional "finally clause"],
    all [many "except group clause", optional "else clause", optional "finally clause"],
    "finally clause"]])),
  ("except clause", shown (all [text "except", optional (all ["expression",
    optional (all [any [text "as", text ","], "expression"])]), text ":", "suite"])),
  ("except group clause", shown (all [text "except*", all ["expression", optional (all [text "as",
    "expression"])], text ":", "suite"])),
  ("finally clause", shown (all [text "finally", text ":", "suite"])),
  ("with statement", shown (all [optional (text "async"), text "with", "with clause", text ":",
    part "body" "suite"])),
  ("with clause", shown (any [all [commas "with item", comma], all [text "(", commas "with item",
    comma, text ")"]])),
  ("with item", shown (weighted 1 (part "value" "expression"))),
  ("function definition", shown (all [optional (text "async"), text "def",
    part "name" "identifier", part "type_parameters" (optional "type parameter"),
    part "parameters" "parameters", optional (all [text "->", part "return_type" "type"]),
    text ":", part "body" "suite"])),
  ("parameters", shown (all [text "(", optional "parameter list", text ")"])),
  ("lambda parameters", shown "parameter list"),
  ("list splat", shown (all [text "*", "expression"])),
  ("dictionary splat", shown (all [text "**", "expression"])),
  ("global statement", shown (all [text "global", commas "identifier"])),
  ("nonlocal statement", shown (all [text "nonlocal", commas "identifier"])),
  ("exec statement", shown (all [text "exec", part "code" (any ["string", "identifier"]),
    optional (all [text "in", commas "expression"])])),
  ("type alias statement", shown (weighted 1 (all [text "type", "type", text "=", "type"]))),
  ("class definition", shown (all [text "class", part "name" "identifier",
    part "type_parameters" (optional "type parameter"),
    part "superclasses" (optional "argument list"), text ":", part "body" "suite"])),
  ("type parameter", shown (all [text "[", commas "type", comma, text "]"])),
  ("parenthesized list splat", shown (rank 1 (all [text "(",
    any [shownAs "parenthesized_expression" "parenthesized list splat", "list splat"],
    text ")"]))),
  ("argument list", shown (all [text "(", optional (commas (any ["expression", "list splat",
    "dictionary splat", shownAs "parenthesized_expression" "parenthesized list splat",
    "keyword argument"])), comma, text ")"])),
  ("decorated definition", shown (all [many "decorator",
    part "definition" (any ["class definition", "function definition"])])),
  ("decorator", shown (all [text "@", "expression", "_newline"])),
  ("suite", inlined (any [shownAs "block" "simple statements", all ["_indent", "block"],
    shownAs "block" "_newline"])),
  ("block", shown (all [star "statement", "_dedent"]))]

/-- Lists of expressions, dotted names, and what a case compares with. -/
def cases : List (String × Definition) := [
  ("expression list", shown (rightward 0 (all ["expression", any [text ",",
    all [many (all [text ",", "expression"]), comma]]]))),
  ("dotted name", shown (rank 1 (separated "." "identifier"))),
  ("case pattern", shown (rank 1 (any ["case name", "case keyword", "simple case"]))),
  ("simple case", hidden (rank 1 (any ["case class", "case splat", "case union", "case list",
    "case tuple", "case mapping", "string", "concatenated string", "true", "false", "none",
    all [optional (text "-"), any ["integer", "float"]], "case complex number", "dotted name",
    text "_"]))),
  ("case name", shown (all ["case pattern", text "as", "identifier"])),
  ("case union", shown (rightward 0 (all ["simple case", many (leftward 0 (all [text "|",
    "simple case"]))]))),
  ("case list", shown (all [text "[", optional (all [commas "case pattern", comma]), text "]"])),
  ("case tuple", shown (all [text "(", optional (all [commas "case pattern", comma]), text ")"])),
  ("case mapping", shown (all [text "\x7b", optional (all [commas (any ["case pair",
    "case splat"]), comma]), text "\x7d"])),
  ("case pair", hidden (all [part "key" "simple case", text ":", part "value" "case pattern"])),
  ("case keyword", shown (all ["identifier", text "=", "simple case"])),
  ("case splat", shown (rank 1 (all [any [text "*", text "**"], any ["identifier", text "_"]]))),
  ("case class", shown (all ["dotted name", text "(", optional (all [commas "case pattern",
    comma]), text ")"])),
  ("case complex number", shown (rank 1 (all [optional (text "-"), any ["integer", "float"],
    any [text "+", text "-"], any ["integer", "float"]])))]

/-- What takes a value: parameters and the left side of an assignment. -/
def targets : List (String × Definition) := [
  ("parameter list", hidden (all [commas "parameter", comma])),
  ("patterns", hidden (all [commas "pattern", comma])),
  ("parameter", category (any ["identifier", "typed parameter", "default parameter",
    "typed default parameter", "list splat pattern", "tuple pattern", "keyword separator",
    "positional separator", "dictionary splat pattern"])),
  ("pattern", category (any ["identifier", "keyword identifier", "subscript", "attribute",
    "list splat pattern", "tuple pattern", "list pattern"])),
  ("tuple pattern", shown (all [text "(", optional "patterns", text ")"])),
  ("list pattern", shown (all [text "[", optional "patterns", text "]"])),
  ("default parameter", shown (all [part "name" (any ["identifier", "tuple pattern"]), text "=",
    part "value" "expression"])),
  ("typed default parameter", shown (rank (-1) (all [part "name" "identifier", text ":",
    part "type" "type", text "=", part "value" "expression"]))),
  ("list splat pattern", shown (all [text "*", any ["identifier", "keyword identifier",
    "subscript", "attribute"]])),
  ("dictionary splat pattern", shown (all [text "**", any ["identifier", "keyword identifier",
    "subscript", "attribute"]])),
  ("as pattern", shown (leftward 0 (all ["expression", text "as",
    part "alias" (shownAs "as_pattern_target" "expression")])))]

/-- The operators between two operands, with their ranks. -/
def signs : List (String × Int × Side) := [
  ("+", 18, .left), ("-", 18, .left), ("*", 19, .left), ("@", 19, .left), ("/", 19, .left),
  ("%", 19, .left), ("//", 19, .left), ("**", 21, .right), ("|", 14, .left), ("&", 15, .left),
  ("^", 16, .left), ("<<", 17, .left), (">>", 17, .left)]

/-- Expressions and their operators. -/
def expressions : List (String × Definition) := [
  ("expression within for in clause", hidden (any ["expression", "lambda within for in clause"])),
  ("expression", category (any ["comparison operator", "not operator", "boolean operator",
    "lambda", "primary expression", "conditional expression", "named expression", "as pattern"])),
  ("primary expression", category (any ["await", "binary operator", "identifier",
    "keyword identifier", "string", "concatenated string", "integer", "float", "true", "false",
    "none", "unary operator", "attribute", "subscript", "call", "list", "list comprehension",
    "dictionary", "dictionary comprehension", "set", "set comprehension", "tuple",
    "parenthesized expression", "generator expression", "ellipsis",
    shownAs "list_splat" "list splat pattern"])),
  ("not operator", shown (rank 12 (all [text "not", part "argument" "expression"]))),
  ("boolean operator", shown (any [leftward 11 (all [part "left" "expression",
    part "operator" (text "and"), part "right" "expression"]),
    leftward 10 (all [part "left" "expression", part "operator" (text "or"),
    part "right" "expression"])])),
  ("binary operator", shown (any (signs.map fun (sign, rank, side) =>
    ranked rank (some side) (all [part "left" "primary expression", part "operator" (text sign),
      part "right" "primary expression"])))),
  ("unary operator", shown (rank 20 (all [part "operator" (any [text "+", text "-", text "~"]),
    part "argument" "primary expression"]))),
  ("not in", shown (all [text "not", text "in"])),
  ("is not", shown (all [text "is", text "not"])),
  ("comparison operator", shown (leftward 13 (all ["primary expression",
    many (all [part "operators" (any [text "<", text "<=", text "==", text "!=", text ">=",
    text ">", text "<>", text "in", "not in", text "is", "is not"]), "primary expression"])]))),
  ("lambda", shown (rank (-2) (all [text "lambda",
    part "parameters" (optional "lambda parameters"), text ":", part "body" "expression"]))),
  ("lambda within for in clause", shown (all [text "lambda",
    part "parameters" (optional "lambda parameters"), text ":",
    part "body" "expression within for in clause"]))]

/-- Assignments, and what may follow an operand. -/
def assignments : List (String × Definition) := [
  ("assignment", shown (all [part "left" "left hand side", any [all [text "=",
    part "right" "right hand side"], all [text ":", part "type" "type"], all [text ":",
    part "type" "type", text "=", part "right" "right hand side"]]])),
  ("augmented assignment", shown (all [part "left" "left hand side",
    part "operator" (any [text "+=", text "-=", text "*=", text "/=", text "@=", text "//=",
    text "%=", text "**=", text ">>=", text "<<=", text "&=", text "^=", text "|="]),
    part "right" "right hand side"])),
  ("left hand side", inlined (any ["pattern", "pattern list"])),
  ("pattern list", shown (all ["pattern", any [text ",", all [many (all [text ",", "pattern"]),
    comma]]])),
  ("right hand side", hidden (any ["expression", "expression list", "assignment",
    "augmented assignment", "pattern list", "yield"])),
  ("yield", shown (rightward 0 (all [text "yield", any [all [text "from", "expression"],
    optional "expressions"]]))),
  ("attribute", shown (rank 22 (all [part "object" "primary expression", text ".",
    part "attribute" "identifier"]))),
  ("subscript", shown (rank 22 (all [part "value" "primary expression", text "[",
    commas (part "subscript" (any ["expression", "slice"])), comma, text "]"]))),
  ("slice", shown (all [optional "expression", text ":", optional "expression",
    optional (all [text ":", optional "expression"])])),
  ("ellipsis", token (exactly "...")),
  ("call", shown (rank 22 (all [part "function" "primary expression",
    part "arguments" (any ["generator expression", "argument list"])])))]

/-- Types, and expressions in brackets. -/
def collections : List (String × Definition) := [
  ("typed parameter", shown (rank (-1) (all [any ["identifier", "list splat pattern",
    "dictionary splat pattern"], text ":", part "type" "type"]))),
  ("type", shown (any [rank 1 "expression", "splat type", "generic type", "union type",
    "constrained type", "member type"])),
  ("splat type", shown (rank 1 (all [any [text "*", text "**"], "identifier"]))),
  ("generic type", shown (rank 1 (all [any ["identifier", shownAs "identifier" (text "type")],
    "type parameter"]))),
  ("union type", shown (leftward 0 (all ["type", text "|", "type"]))),
  ("constrained type", shown (rightward 0 (all ["type", text ":", "type"]))),
  ("member type", shown (all ["type", text ".", "identifier"])),
  ("keyword argument", shown (all [part "name" (any ["identifier", "keyword identifier"]),
    text "=", part "value" "expression"])),
  ("list", shown (all [text "[", optional "collection elements", text "]"])),
  ("set", shown (all [text "\x7b", "collection elements", text "\x7d"])),
  ("tuple", shown (all [text "(", optional "collection elements", text ")"])),
  ("dictionary", shown (all [text "\x7b", optional (commas (any ["pair", "dictionary splat"])),
    comma, text "\x7d"])),
  ("pair", shown (all [part "key" "expression", text ":", part "value" "expression"])),
  ("list comprehension", shown (all [text "[", part "body" "expression", "comprehension clauses",
    text "]"])),
  ("dictionary comprehension", shown (all [text "\x7b", part "body" "pair",
    "comprehension clauses", text "\x7d"])),
  ("set comprehension", shown (all [text "\x7b", part "body" "expression",
    "comprehension clauses", text "\x7d"])),
  ("generator expression", shown (all [text "(", part "body" "expression",
    "comprehension clauses", text ")"])),
  ("comprehension clauses", hidden (all ["for in clause", star (any ["for in clause",
    "if clause"])])),
  ("parenthesized expression", shown (rank 1 (all [text "(", any ["expression", "yield"],
    text ")"]))),
  ("collection elements", hidden (all [commas (any ["expression", "yield", "list splat",
    "parenthesized list splat"]), comma])),
  ("for in clause", shown (leftward 0 (all [optional (text "async"), text "for",
    part "left" "left hand side", text "in",
    part "right" (commas "expression within for in clause"), comma]))),
  ("if clause", shown (all [text "if", "expression"])),
  ("conditional expression", shown (rightward (-1) (all ["expression", text "if", "expression",
    text "else", "expression"])))]

/-- Strings, and the tokens that are no texts. -/
def strings : List (String × Definition) := [
  ("concatenated string", shown (all ["string", many "string"])),
  ("string", shown (all ["string_start", star (any ["interpolation", "string content"]),
    "string_end"])),
  ("string content", shown (rightward 0 (many (any ["escape_interpolation", "escape_sequence",
    "not escape sequence", "_string_content"])))),
  ("interpolation", shown (all [text "\x7b", part "expression" "f expression",
    optional (text "="), optional (part "type_conversion" "type_conversion"),
    optional (part "format_specifier" "format specifier"), text "\x7d"])),
  ("f expression", hidden (any ["expression", "expression list", "pattern list", "yield"])),
  ("escape_sequence", token { form Lexeme.escape with glued := true, rank := 1 }),
  ("not escape sequence", hidden "\\"),
  ("\\", token { exactly "\\" with glued := true }),
  ("format specifier", shown (all [text ":", star (any ["format text", "format expression"])])),
  ("format text", .token false { form Lexeme.formatText with rank := 1 }),
  ("format expression", shown (all [text "\x7b", part "expression" "f expression",
    optional (text "="), optional (part "type_conversion" "type_conversion"),
    optional (part "format_specifier" "format specifier"), text "\x7d"])),
  ("type_conversion", token (form Lexeme.conversion)),
  ("integer", token (form Lexeme.integer)),
  ("float", token (form Lexeme.float)),
  ("identifier", token (form Lexeme.identifier)),
  ("keyword identifier", inlined (any [rank (-3) (shownAs "identifier" (any [text "print",
    text "exec", text "async", text "await"])), shownAs "identifier" (any [text "type",
    text "match"])])),
  ("true", token (exactly "True")),
  ("false", token (exactly "False")),
  ("none", token (exactly "None")),
  ("await", shown (rank 20 (all [text "await", "primary expression"]))),
  ("comment", token (form Lexeme.comment)),
  ("line_continuation", token { form Lexeme.continuation with rank := 1 }),
  ("positional separator", shown (text "/")),
  ("keyword separator", shown (text "*"))]

/-- The characters that may stand between tokens. -/
def isGap (c : Char) : Bool :=
  ('\t' ≤ c && c ≤ '\r') || c == ' ' || c == '\u200b' || c == '\u2060' || c == '\ufeff'

/-- The grammar of a whole text. -/
def grammar : Parsing.Grammar where
  definitions := statements ++ blocks ++ cases ++ targets ++ expressions ++ assignments ++
    collections ++ strings
  word := "identifier"
  blank := isGap
  anywhere := ["comment", "line_continuation"]
  outside := [.own "_newline" false, .own "_indent" false, .own "_dedent" false,
    .own "string_start" true, .own "_string_content" false, .own "escape_interpolation" true,
    .own "string_end" true, .shared "comment", .shared "]", .shared ")", .shared "\x7d",
    .shared "except"]
  samples := (List.range 128).map Char.ofNat ++ ['é', '\u0300', '\u200b', '€']

end Anchored.Python
