import Anchored.Language

/-!
# Code and what is not code

The text of a brace language is divided, left to right, into comments, strings, character literals
and code. Only a bracket in code is one. `segments` makes this division for each language's
lexicon; the texts of the segments, written one after another, are the text again.
-/

namespace Anchored.Bracket

/-- What sets the brace languages apart in their comments and strings. -/
structure Lexicon where
  /-- A back quote starts a string. -/
  backQuotes : Bool
  /-- A single quote starts a string, and not a character literal. -/
  singleQuotes : Bool
  /-- A string after an at sign takes backslashes literally. -/
  verbatim : Bool
  deriving DecidableEq, Repr

/-- The lexicon of a language. -/
def Lexicon.ofLanguage : Language → Lexicon
  | .javaScript | .typeScript => ⟨true, true, false⟩
  | .go => ⟨true, false, false⟩
  | .cSharp => ⟨false, false, true⟩
  | _ => ⟨false, false, false⟩

/-- The quote that Go and the script languages of the web write long strings in. -/
def backQuote : Char :=
  '\x60'

/-- What a piece of a text is. -/
inductive Kind where
  /-- One character of code. -/
  | code
  | comment
  | string
  /-- A quoted character, or a single quote and what its escape takes in. -/
  | character
  deriving DecidableEq, Repr

/-- A piece of a text. -/
structure Segment where
  kind : Kind
  text : List Char
  deriving DecidableEq, Repr

/-! ## The bodies of comments and strings

Each of these takes the text after the opening and divides it where the closing ends, or at the end
of the text. -/

/-- A line comment ends before the next line feed. -/
def lineBody (t : List Char) : List Char × List Char :=
  (t.takeWhile (· != '\n'), t.dropWhile (· != '\n'))

/-- A block comment ends with the first `*/`. -/
def blockBody : List Char → List Char × List Char
  | [] => ([], [])
  | '*' :: '/' :: r => (['*', '/'], r)
  | c :: r => let (body, rest) := blockBody r; (c :: body, rest)

/-- A string ends with the first quote that no backslash precedes; a backslash takes the next
character with it. -/
def stringBody (quote : Char) : List Char → List Char × List Char
  | [] => ([], [])
  | '\\' :: c :: r => let (body, rest) := stringBody quote r; ('\\' :: c :: body, rest)
  | c :: r =>
    if c = quote then ([c], r)
    else let (body, rest) := stringBody quote r; (c :: body, rest)

/-- A verbatim string ends with the first quote that is not one half of a doubled quote. -/
def verbatimBody : List Char → List Char × List Char
  | [] => ([], [])
  | '"' :: '"' :: r => let (body, rest) := verbatimBody r; ('"' :: '"' :: body, rest)
  | c :: r =>
    if c = '"' then ([c], r)
    else let (body, rest) := verbatimBody r; (c :: body, rest)

/-- How many characters after a single quote belong to a character literal: one character and a
quote, or a backslash and all up to the first quote that is found 3 to 11 characters after the
opening one. A lone quote, such as that of a lifetime, opens none. -/
def literalLength? : List Char → Option Nat
  | '\\' :: r => (((r.drop 1).take 9).findIdx? (· == '\'')).map (· + 3)
  | c :: '\'' :: _ => if c = '\'' ∨ c = '\n' then none else some 2
  | _ => none

theorem lineBody_length_le (t : List Char) : (lineBody t).2.length ≤ t.length :=
  (List.dropWhile_sublist _).length_le

theorem blockBody_length_le (t : List Char) : (blockBody t).2.length ≤ t.length := by
  fun_induction blockBody t <;> simp_all <;> omega

theorem stringBody_length_le (quote : Char) (t : List Char) :
    (stringBody quote t).2.length ≤ t.length := by
  fun_induction stringBody quote t <;> simp_all <;> omega

theorem verbatimBody_length_le (t : List Char) : (verbatimBody t).2.length ≤ t.length := by
  fun_induction verbatimBody t <;> simp_all <;> omega

/-- A segment of some kind with its opening and its body, and the rest of the text. -/
def enclosed (kind : Kind) (opening : List Char) (body : List Char × List Char) :
    Segment × List Char :=
  (⟨kind, opening ++ body.1⟩, body.2)

/-- The first segment of a text that starts with `c`, and the rest of the text. -/
def next (lexicon : Lexicon) (c : Char) (r : List Char) : Segment × List Char :=
  let code := (⟨.code, [c]⟩, r)
  match c, r with
  | '/', '/' :: r => enclosed .comment ['/', '/'] (lineBody r)
  | '/', '*' :: r => enclosed .comment ['/', '*'] (blockBody r)
  | '@', '"' :: r =>
    if lexicon.verbatim then enclosed .string ['@', '"'] (verbatimBody r) else code
  | '@', '$' :: '"' :: r =>
    if lexicon.verbatim then enclosed .string ['@', '$', '"'] (verbatimBody r) else code
  | '"', r => enclosed .string ['"'] (stringBody '"' r)
  | '\'', r =>
    if lexicon.singleQuotes then enclosed .string ['\''] (stringBody '\'' r)
    else match literalLength? r with
      | some n => enclosed .character ['\''] (r.take n, r.drop n)
      | none => code
  | c, r =>
    if c = backQuote ∧ lexicon.backQuotes then enclosed .string [c] (stringBody c r) else code

theorem next_length_le (lexicon : Lexicon) (c : Char) (r : List Char) :
    (next lexicon c r).2.length ≤ r.length := by
  have line := lineBody_length_le
  have block := blockBody_length_le
  have verbatim := verbatimBody_length_le
  have string := stringBody_length_le
  unfold next enclosed
  repeat' split
  all_goals simp only [List.length_cons, List.length_drop, Nat.le_refl, Nat.sub_le, string]
  · exact Nat.le_succ_of_le (line _)
  · exact Nat.le_succ_of_le (block _)
  · exact Nat.le_succ_of_le (verbatim _)
  · exact Nat.le_succ_of_le (Nat.le_succ_of_le (verbatim _))

/-- The segments of a text. -/
def segments (lexicon : Lexicon) : List Char → List Segment
  | [] => []
  | c :: r =>
    match h : next lexicon c r with
    | (segment, rest) =>
      have : rest.length ≤ r.length := by
        have := next_length_le lexicon c r
        simpa [h] using this
      segment :: segments lexicon rest
termination_by t => t.length

end Anchored.Bracket
