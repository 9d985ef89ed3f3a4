import Anchored.Parsing.Pattern

/-!
# Grammars

A grammar defines tokens and rules under names. Beside the form of what it defines, a rule says how
its alternatives rank where more than one of them could go on, which parts have a label, and which
parts are nodes of their own in a tree though their rule is none.
-/

namespace Anchored.Parsing

/-- Which way alternatives of one rank group. -/
inductive Side where
  | left
  | right
  deriving DecidableEq, Repr, Inhabited

/-- The form of what a rule defines. -/
inductive Rule where
  | nothing
  /-- The token that is this text. -/
  | text (s : String)
  /-- The rule or token of this name. -/
  | ref (name : String)
  | seq (first second : Rule)
  | either (left right : Rule)
  /-- One or more times. -/
  | many (inner : Rule)
  /-- A part with a label. -/
  | part (label : String) (inner : Rule)
  /-- A part that is a node of this name in a tree. -/
  | shownAs (name : String) (inner : Rule)
  /-- A part with a rank, which groups to a side. -/
  | ranked (rank : Int) (side : Option Side) (inner : Rule)
  /-- A part that counts so much where two readings of a text are otherwise equal. -/
  | weighted (weight : Int) (inner : Rule)
  deriving DecidableEq, Repr, Inhabited

namespace Rule

/-- One part after the other. -/
def all : List Rule → Rule
  | [] => nothing
  | [a] => a
  | a :: r => seq a (all r)

/-- Any of some alternatives. -/
def any : List Rule → Rule
  | [] => nothing
  | [a] => a
  | a :: r => either a (any r)

/-- A part that may be left out. -/
def optional (a : Rule) : Rule :=
  either a nothing

/-- Any number of times. -/
def star (a : Rule) : Rule :=
  optional (many a)

/-- One or more, with a text between any two. -/
def separated (by_ : String) (a : Rule) : Rule :=
  seq a (star (seq (text by_) a))

/-- A part of a rank. -/
def rank (n : Int) (a : Rule) : Rule :=
  ranked n none a

/-- A part of a rank that groups to the left. -/
def leftward (n : Int) (a : Rule) : Rule :=
  ranked n (some .left) a

/-- A part of a rank that groups to the right. -/
def rightward (n : Int) (a : Rule) : Rule :=
  ranked n (some .right) a

/-- The texts a rule names, in order. -/
def texts : Rule → List String
  | nothing => []
  | text s => [s]
  | ref _ => []
  | seq a b => a.texts ++ b.texts
  | either a b => a.texts ++ b.texts
  | many a => a.texts
  | part _ a => a.texts
  | shownAs _ a => a.texts
  | ranked _ _ a => a.texts
  | weighted _ a => a.texts

/-- What a rule repeats, inner repetitions first. -/
def repeated : Rule → List Rule
  | nothing => []
  | text _ => []
  | ref _ => []
  | seq a b => a.repeated ++ b.repeated
  | either a b => a.repeated ++ b.repeated
  | many a => a.repeated ++ [a]
  | part _ a => a.repeated
  | shownAs _ a => a.repeated
  | ranked _ _ a => a.repeated
  | weighted _ a => a.repeated

end Rule

/-- How what a rule defines appears in a tree. -/
inductive Kind where
  /-- It is a node. -/
  | shown
  /-- Its parts stand in the node around it. -/
  | hidden
  /-- It is hidden, and a name for alternatives that are told apart on their own. -/
  | category
  /-- It stands only for its alternatives, in each place where it is named. -/
  | inlined
  /-- It is one or more of what some rule repeats. -/
  | repetition
  deriving DecidableEq, Repr, Inhabited

/-- How the characters of a token are found. -/
structure Form where
  pattern : Pattern
  /-- The text that the token is, if it is one text. -/
  exact : Option String
  /-- No blanks are skipped before the token. -/
  glued : Bool
  rank : Int

/-- The form of a token that is one text. -/
def Form.text (s : String) : Form :=
  ⟨.text s, s, false, 0⟩

/-- What a grammar defines under a name. -/
inductive Definition where
  | rule (kind : Kind) (rule : Rule)
  | token (shown : Bool) (form : Form)

/-- A token that is found by looking at the layout of a text and not at its characters alone. -/
inductive Outside where
  /-- A token that is found in no other way. -/
  | own (name : String) (shown : Bool)
  /-- A token of the grammar, which matters to the layout. -/
  | shared (name : String)
  deriving Repr

/-- A grammar; the first definition is that of a whole text. -/
structure Grammar where
  definitions : List (String × Definition)
  /-- The token that keywords could be. -/
  word : String
  /-- Characters that may stand between tokens. -/
  blank : Char → Bool
  /-- Tokens that may stand anywhere. -/
  anywhere : List String
  outside : List Outside
  /-- Characters that tell apart all the classes in the patterns of the tokens. -/
  samples : List Char

/-- A token, or the end of the text. -/
structure Terminal where
  name : String
  shown : Bool
  /-- How it is found; `none` for the end, and for what only the layout shows. -/
  form : Option Form

/-- What the rules of a grammar are about. A symbol is a number: the end of the text is zero, then
come the other terminals, the token that keywords could be the first of them, then the rules. -/
structure Symbols where
  terminals : Array Terminal
  /-- Name, kind and form of every rule. -/
  rules : Array (String × Kind × Rule)

/-- Terminals in the order in which a grammar first names them. -/
def Grammar.terminals (g : Grammar) : Array Terminal :=
  let word := g.definitions.filterMap fun
    | (name, .token shown form) => if name = g.word then some ⟨name, shown, some form⟩ else none
    | _ => none
  let add (found : Array Terminal) : String × Definition → Array Terminal
    | (name, .token shown form) =>
      if name = g.word then found else found.push ⟨name, shown, some form⟩
    | (_, .rule _ rule) =>
      rule.texts.foldl (fun found s =>
        if found.any fun t => t.name == s then found
        else found.push ⟨s, true, some (Form.text s)⟩) found
  let inside := g.definitions.foldl add (#[⟨"end", false, none⟩] ++ word.toArray)
  inside ++ (g.outside.filterMap fun
    | .own name shown => some ⟨name, shown, none⟩
    | .shared _ => none).toArray

/-- The symbols of a grammar, before repetitions are rules of their own. -/
def Grammar.symbols (g : Grammar) : Symbols where
  terminals := g.terminals
  rules := (g.definitions.filterMap fun
    | (name, .rule kind rule) => some (name, kind, rule)
    | _ => none).toArray

namespace Symbols

/-- The number of terminals, which is the number of the first rule as well. -/
def width (s : Symbols) : Nat :=
  s.terminals.size

/-- The symbol of a terminal. -/
def terminal (s : Symbols) (name : String) : Nat :=
  (s.terminals.findIdx? fun t => t.name == name).getD 0

/-- The symbol of a name. -/
def find (s : Symbols) (name : String) : Nat :=
  match s.rules.findIdx? fun r => r.1 == name with
  | some i => s.width + i
  | none => s.terminal name

/-- The kind of a symbol, if it is a rule. -/
def kind? (s : Symbols) (symbol : Nat) : Option Kind :=
  if symbol < s.width then none else s.rules[symbol - s.width]?.map fun r => r.2.1

end Symbols

end Anchored.Parsing
