import Anchored.Shell.Script

/-!
# Tokens of a script

A script is read as operators and words. What a character means depends on the quotations and
expansions that it stands in, which are kept as a pile of frames. The text of a here-document
follows the line that asks for it; it is read when that line ends.
-/

namespace Anchored.Shell

/-- Where a script stops being one: the number of the line, and what is wrong. -/
structure Malformed where
  line : Nat
  reason : String
  deriving DecidableEq, Repr

/-- What a redirection does with what the next word names. -/
inductive Redirection where
  | file (access : Access)
  | copy
  /-- A here-document, the lines of which may be indented. -/
  | document (indented : Bool)
  deriving DecidableEq, Repr

/-- A token. -/
inductive Token where
  | ending
  | newline
  | redirect (handle : Nat) (what : Redirection)
  | word
  | semicolon
  | ampersand
  | both
  | either
  | bar
  | opening
  | closing
  | caseEnd
  | keyword (name : String)
  deriving DecidableEq, Repr

/-- The words that are tokens of their own. -/
def keywords : List String :=
  ["!", "case", "do", "done", "elif", "else", "esac", "fi", "for", "if", "in", "then", "until",
    "while", "\x7b", "\x7d"]

namespace Token

/-- What a token is called in a complaint. -/
def name : Token → String
  | .ending => "end of file"
  | .newline => "newline"
  | .redirect _ _ => "redirection"
  | .word => "word"
  | .semicolon => "\";\""
  | .ampersand => "\"&\""
  | .both => "\"&&\""
  | .either => "\"||\""
  | .bar => "\"|\""
  | .opening => "\"(\""
  | .closing => "\")\""
  | .caseEnd => "\";;\""
  | .keyword name => "\"" ++ name ++ "\""

/-- The token ends a list of commands. -/
def endsList : Token → Bool
  | .ending | .closing | .caseEnd => true
  | .keyword name =>
    ["do", "done", "elif", "else", "esac", "fi", "then", "\x7d"].contains name
  | _ => false

end Token

/-- What the next token may be besides a plain word. -/
structure Wanted where
  keywords : Bool
  newlines : Bool
  aliases : Bool
  deriving DecidableEq, Repr

/-- Only plain words. -/
def Wanted.nothing : Wanted :=
  ⟨false, false, false⟩

/-- A here-document that is still to come. -/
structure Pending where
  /-- The line that ends it. -/
  ending : List Char
  indented : Bool
  expanded : Bool

/-- What is left of a script, and what was read last. -/
structure Reading where
  rest : List Char
  line : Nat
  /-- Words that stand for texts. -/
  aliases : List (String × String)
  /-- Those of them whose texts are being read, the innermost first. -/
  inside : List String
  /-- The last token is to be read once more. -/
  again : Bool
  token : Token
  word : Word
  /-- There are quotations in the word. -/
  quoted : Bool
  wanted : Wanted
  waiting : List Pending
  /-- The number of here-documents asked for. -/
  asked : Nat
  /-- The texts of here-documents read by now. -/
  found : Array Word
  /-- The texts of all here-documents, if they are known. -/
  known : Array Word

/-- Reads from a script, unless it is malformed. -/
abbrev Read := StateT Reading (Except Malformed)

/-- The script is malformed. -/
def malformed (reason : String) : Read α := do
  throw ⟨(← get).line, "Syntax error: " ++ reason⟩

/-- The last token should not stand here; perhaps another one should. -/
def unexpected (wanted : Option Token) : Read α := do
  let hint := match wanted with
    | some token => " (expecting " ++ token.name ++ ")"
    | none => ""
  malformed ((← get).token.name ++ " unexpected" ++ hint)

/-- Ends the text of an alias. It is no byte. -/
def aliasEnd : Char :=
  '\u0100'

/-- The next character, which stays where it is. -/
def peek : Read (Option Char) := do
  return ((← get).rest.dropWhile (· == aliasEnd)).head?

/-- The script past the ends of aliases. Behind one that ends with a blank, a word can be an alias,
too. -/
def leaveAliases (r : Reading) : List Char → Reading
  | [] => { r with rest := [] }
  | c :: rest =>
    if c = aliasEnd then
      let value := (r.inside.head?.bind (List.lookup · r.aliases)).getD ""
      let blank := value.toList.getLast?.any fun c => c == ' ' || c == '\t'
      let wanted := if blank then { r.wanted with aliases := true } else r.wanted
      leaveAliases { r with inside := r.inside.drop 1, wanted } rest
    else { r with rest := c :: rest }

/-- Passes over the next character. -/
def skip : Read Unit :=
  modify fun r =>
    let r := leaveAliases r r.rest
    match r.rest with
    | [] => r
    | c :: rest => { r with rest, line := if c = '\n' then r.line + 1 else r.line }

/-- Passes over the next character, which does not count as the end of a line. -/
def skipUncounted : Read Unit := do
  let line := (← get).line
  skip
  modify fun r => { r with line }

/-- Passes over lines that are joined by a backslash. -/
def joinLines : Nat → Read Unit
  | 0 => return
  | fuel + 1 => do
    match (← get).rest.dropWhile (· == aliasEnd) with
    | '\\' :: '\n' :: _ =>
      skip
      skip
      joinLines fuel
    | _ => return

/-- The next character past joined lines. -/
def peekJoined (fuel : Nat) : Read (Option Char) := do
  joinLines fuel
  peek

/-- Passes over a character past joined lines, if it is the next one. -/
def skipIf (fuel : Nat) (c : Char) : Read Bool := do
  if (← peekJoined fuel) = some c then
    skip
    return true
  return false

/-! ## Words -/

/-- How characters are taken. -/
inductive Style where
  | plain
  | double
  | single
  | arithmetic
  deriving DecidableEq, Repr

/-- A quotation or an expansion around the characters that are read. -/
structure Frame where
  style : Style
  /-- It stands within double quotes. -/
  doubled : Bool
  /-- An inner quotation is open. -/
  inner : Bool
  /-- It was put on the pile by an expansion. -/
  pushed : Bool
  /-- Expansions that are open in it. -/
  depth : Nat
  /-- Those of them that stand within double quotes. -/
  doubledDepth : Nat
  /-- Brackets that are open in it. -/
  brackets : Nat

/-- A frame with nothing in it. -/
def Frame.of (style : Style) : Frame :=
  ⟨style, style = .double ∨ style = .arithmetic, false, false, 0, 0, 0⟩

/-- What a word is put together from. -/
inductive Sign where
  | part (p : Part)
  | openParameter (name : String) (use : Use) (orEmpty : Bool)
  | openArithmetic
  | close

/-- The parts of the signs, given those of the open expansions, last first. -/
def assemble : List (Sign × Word) → Word → List Sign → Word
  | [], parts, [] => parts.reverse
  | (opened, outer) :: more, parts, [] =>
    match opened with
    | .openParameter name use orEmpty =>
      assemble more (.parameter name use orEmpty parts.reverse :: outer) []
    | _ => assemble more (.arithmetic parts.reverse :: outer) []
  | pile, parts, sign :: rest =>
    match sign, pile with
    | .part p, _ => assemble pile (p :: parts) rest
    | .close, (.openParameter name use orEmpty, outer) :: more =>
      assemble more (.parameter name use orEmpty parts.reverse :: outer) rest
    | .close, (_, outer) :: more => assemble more (.arithmetic parts.reverse :: outer) rest
    | .close, [] => assemble [] parts rest
    | opened, _ => assemble ((opened, parts) :: pile) [] rest

/-- A word that is being read. -/
structure Draft where
  frame : Frame
  outer : List Frame
  /-- The last one first. -/
  signs : List Sign
  quoted : Bool

namespace Draft

/-- A word of which nothing is read. -/
def empty (style : Style) : Draft :=
  ⟨.of style, [], [], false⟩

/-- Adds a sign. -/
def add (d : Draft) (sign : Sign) : Draft :=
  { d with signs := sign :: d.signs }

/-- Adds a letter. -/
def letter (d : Draft) (c : Char) (quoted : Bool) : Draft :=
  d.add (.part (.letter c quoted))

/-- Adds a letter as the frame takes it. -/
def plain (d : Draft) (c : Char) : Draft :=
  d.letter c (d.frame.style ≠ .plain)

/-- Opens a frame. -/
def push (d : Draft) (frame : Frame) : Draft :=
  { d with frame, outer := d.frame :: d.outer }

/-- Closes the frame. -/
def pop (d : Draft) : Draft :=
  match d.outer with
  | frame :: outer => { d with frame, outer }
  | [] => d

/-- The parts read. -/
def word (d : Draft) : Word :=
  assemble [] [] d.signs.reverse

end Draft

/-- The character names a parameter of the shell. -/
def isSpecial (c : Char) : Bool :=
  c.isDigit || ['#', '?', '$', '!', '-', '*', '@'].contains c

/-- Reads the rest of a name or a number. -/
def readName (inside : Char → Bool) : Nat → List Char → Read String
  | 0, acc => return String.ofList acc.reverse
  | fuel + 1, acc => do
    match ← peekJoined fuel with
    | some c =>
      if inside c then
        skip
        readName inside fuel (c :: acc)
      else return String.ofList acc.reverse
    | none => return String.ofList acc.reverse

/-- Reads the name of a parameter in braces and tells whether its length is asked for. -/
def readBraced (fuel : Nat) : Read (Option String × Bool) := do
  let special : Read (Option String) := do
    match ← peekJoined fuel with
    | some c =>
      if startsName c then return some (← readName inName fuel [])
      else if c.isDigit then return some (← readName Char.isDigit fuel [])
      else
        if c ≠ '\x7d' then skipUncounted
        return if isSpecial c then some c.toString else none
    | none => return none
  if (← peekJoined fuel) = some '#' then
    skip
    match ← peekJoined fuel with
    | some c =>
      if inName c then return (← special, true)
      let before ← get
      skip
      if c ≠ '\x7d' ∧ (← peekJoined fuel) = some '\x7d' then
        return (if isSpecial c then some c.toString else none, true)
      set before
      return (some "#", false)
    | none => return (some "#", false)
  else return (← special, false)

/-- Reads the sign in braces that tells how the parameter is used. -/
def readUse (fuel : Nat) : Read (Use × Bool) := do
  let orEmpty ← skipIf fuel ':'
  let use : Option Use := match ← peekJoined fuel with
    | some '\x7d' => some .value
    | some '-' => some .otherwise
    | some '+' => some .instead
    | some '?' => some .required
    | some '=' => some .assigned
    | some '#' => if orEmpty then none else some (.without true false)
    | some '%' => if orEmpty then none else some (.without false false)
    | _ => none
  match use, ← peek with
  | none, _ =>
    skipUncounted
    return (.senseless, orEmpty)
  | some (.without front _), some c =>
    skip
    let longest ← skipIf fuel c
    return (.without front longest, false)
  | some use, _ =>
    skip
    return (use, orEmpty)

/-- Reads what `script` reads, up to a closing bracket. Here-documents that are asked for in it have
to come in it. -/
def readInside (script : Read (Option Command)) : Read (Option Command) := do
  let waiting := (← get).waiting
  modify fun r => { r with waiting := [], again := false }
  let command ← script
  if (← get).token ≠ .closing then unexpected (some .closing)
  modify fun r => { r with
    again := false, waiting, found := r.found ++ (r.waiting.map fun _ => []).toArray }
  return command

/-- Reads an expansion behind its dollar sign. What `script` reads is the inside of a command
substitution, up to its end. -/
def readExpansion (script : Read (Option Command)) (literal : Bool) (fuel : Nat) (d : Draft) :
    Read Draft := do
  let c? ← peekJoined fuel
  let starts := c?.any fun c => c == '(' || c == '\x7b' || startsName c || isSpecial c
  if literal ∨ ! starts then return d.plain '$'
  if c? = some '(' then
    skip
    if ← skipIf fuel '(' then
      return (d.add .openArithmetic).push (.of .arithmetic)
    else return d.add (.part (.output (← readInside script)))
  else if c? = some '\x7b' then
    skip
    let (name?, isLength) ← readBraced fuel
    let closed := (← peekJoined fuel) = some '\x7d'
    let (use, orEmpty) ← match name? with
      | none => pure (Use.senseless, false)
      | some _ =>
        if isLength then pure (if closed then .length else .senseless, false) else readUse fuel
    let name := name?.getD ""
    if use = .value ∧ ! orEmpty then
      return d.add (.part (.parameter name .value false []))
    let trims := match use with
      | .without _ _ => true
      | _ => false
    let style := if trims then .plain
      else if d.frame.style = .arithmetic then .double else d.frame.style
    let d := d.add (.openParameter name use orEmpty)
    let d := if style ≠ d.frame.style ∨ d.frame.inner then
        d.push { Frame.of style with pushed := true, doubled := style ≠ .plain }
      else d
    let f := d.frame
    return { d with frame :=
      { f with
        depth := f.depth + 1
        doubledDepth := if f.doubled then f.doubledDepth + 1 else f.doubledDepth } }
  else
    match c? with
    | some c =>
      if startsName c then
        let name ← readName inName fuel []
        return d.add (.part (.parameter name .value false []))
      skip
      return d.add (.part (.parameter c.toString .value false []))
    | none => return d

/-- Reads the text between backquotes. -/
def readBackquoted (doubled : Bool) : Nat → List Char → Read (List Char)
  | 0, _ => malformed "EOF in backquote substitution"
  | fuel + 1, acc => do
    match ← peekJoined fuel with
    | none => malformed "EOF in backquote substitution"
    | some '\x60' =>
      skip
      return acc.reverse
    | some '\\' =>
      skip
      match ← peek with
      | some c =>
        skip
        if c = '\\' ∨ c = '\x60' ∨ c = '$' ∨ (doubled ∧ c = '"') then
          readBackquoted doubled fuel (c :: acc)
        else readBackquoted doubled fuel (c :: '\\' :: acc)
      | none => malformed "EOF in backquote substitution"
    | some c =>
      skip
      readBackquoted doubled fuel (c :: acc)

/-- Reads a script from another text. -/
def readApart (script : Read (Option Command)) (text : List Char) : Read (Option Command) := do
  let before ← get
  set { before with rest := text, line := 1, again := false, inside := [], waiting := [] }
  let command ← script
  modify fun r => { r with
    rest := before.rest, line := before.line, again := false, inside := before.inside
    waiting := before.waiting }
  return command

/-- Reads a character behind a backslash. -/
def readEscaped (inDocument : Bool) (d : Draft) : Read Draft := do
  match ← peek with
  | none => return d.letter '\\' true
  | some c =>
    skip
    let f := d.frame
    let keeps := f.doubled && ! ['\\', '\x60', '$'].contains c &&
      (c != '"' || (inDocument && f.depth == 0)) && (c != '\x7d' || f.depth == 0)
    let d := if keeps then d.letter '\\' true else d
    return { d.letter c true with quoted := true }

/-- A mark that starts or ends a quotation. In a here-document there are none. -/
def Draft.quotation (inDocument : Bool) (d : Draft) : Draft :=
  if inDocument then d else d.add (.part .mark)

/-- The line is the one that ends the here-document. -/
def endsDocument (r : Reading) (p : Pending) : Bool :=
  p.ending.isPrefixOf r.rest &&
    (let after := r.rest.drop p.ending.length
     after.isEmpty || after.head? == some '\n')

/-- Reads the characters of a word, or of a here-document if there is one. A here-document starts a
line where `start` holds. -/
def readLetters (script : Read (Option Command)) (literal : Bool) (document : Option Pending) :
    Nat → Bool → Draft → Read Draft
  | 0, _, d => return d
  | fuel + 1, start, d => do
    let go (d : Draft) := readLetters script literal document fuel false d
    let f := d.frame
    let inDocument := document.isSome
    if f.style ≠ .single then joinLines fuel
    if let some p := document then
      if start then
        if p.indented then modify fun r => { r with rest := r.rest.dropWhile (· == '\t') }
        if endsDocument (← get) p then
          modify fun r => { r with
            rest := r.rest.drop (p.ending.length + 1)
            line := r.line + 1 }
          return d
    match ← peek with
    | none => return d
    | some c =>
      match f.style, c with
      | .plain, '\n' =>
        if f.depth = 0 then return d
        skip
        readLetters script literal document fuel true (d.plain c)
      | _, '\n' =>
        skip
        readLetters script literal document fuel true (d.plain c)
      | .single, '\'' =>
        skip
        if inDocument ∧ f.depth = 0 then go (d.plain c)
        else
          let frame :=
            if f.doubledDepth = 0 then { f with style := .plain, doubled := false } else f
          go ({ d with frame, quoted := true }.quotation inDocument)
      | .single, _ =>
        skip
        go (d.plain c)
      | _, '\\' =>
        skip
        go (← readEscaped inDocument d)
      | .plain, '\'' =>
        skip
        go ({ d with frame := { f with style := .single } }.quotation inDocument)
      | .plain, '"' =>
        skip
        let inner := if f.depth = 0 then f.inner else ! f.inner
        let frame := { f with style := .double, doubled := true, inner }
        go ({ d with frame }.quotation inDocument)
      | .double, '"' =>
        skip
        if inDocument ∧ f.depth = 0 then go (d.plain c)
        else
          let frame :=
            if f.doubledDepth = 0 then { f with style := .plain, doubled := false } else f
          let frame := if f.depth = 0 then frame else { frame with inner := ! f.inner }
          go ({ d with frame, quoted := true }.quotation inDocument)
      | _, '$' =>
        skip
        go (← readExpansion script literal fuel d)
      | _, '\x7d' =>
        skip
        if ! f.inner ∧ 0 < f.depth then
          let f := { f with depth := f.depth - 1 }
          let d := { d with frame := f }
          let d := if f.depth = 0 ∧ f.pushed then d.pop
            else { d with frame := { f with doubledDepth := f.doubledDepth - 1 } }
          go (d.add .close)
        else go (d.plain c)
      | _, '\x60' =>
        skip
        if literal then go { d.plain c with quoted := true }
        else
          let text ← readBackquoted f.doubled fuel []
          go (d.add (.part (.output (← readApart script text))))
      | .arithmetic, '(' =>
        skip
        go { d.plain c with frame := { f with brackets := f.brackets + 1 } }
      | .arithmetic, ')' =>
        skip
        if 0 < f.brackets then go { d.plain c with frame := { f with brackets := f.brackets - 1 } }
        else if ← skipIf fuel ')' then go (d.add .close).pop
        else go (d.plain c)
      | .plain, c =>
        if f.depth = 0 ∧ ['<', '>', '(', ')', ';', '&', '|', ' ', '\t'].contains c then return d
        skip
        go (d.plain c)
      | _, c =>
        skip
        go (d.plain c)

/-- Reads a word, or a here-document if there is one. -/
def readWord (script : Read (Option Command)) (literal : Bool) (document : Option Pending)
    (style : Style) (fuel : Nat) : Read Draft := do
  let d ← readLetters script literal document fuel true (.empty style)
  if d.frame.style = .arithmetic then malformed "Missing '))'"
  if d.frame.style ≠ .plain ∧ document.isNone then malformed "Unterminated quoted string"
  if d.frame.depth ≠ 0 then malformed "Missing '\x7d'"
  return d

/-- Reads the here-documents that the line asked for. -/
def readDocuments (script : Read (Option Command)) (fuel : Nat) : Read Unit := do
  let waiting := (← get).waiting
  modify fun r => { r with waiting := [] }
  for p in waiting do
    let style := if p.expanded then .double else .single
    let d ← readWord script false (some p) style fuel
    modify fun r => { r with found := r.found.push d.word }

/-! ## Operators -/

/-- Reads a redirection that starts with `c`. -/
def readRedirection (c : Char) (handle : Option Nat) (fuel : Nat) : Read Token := do
  let next ← peekJoined fuel
  if c = '>' then
    let handle := handle.getD 1
    match next with
    | some '>' =>
      skip
      return .redirect handle (.file .append)
    | some '|' =>
      skip
      return .redirect handle (.file .overwrite)
    | some '&' =>
      skip
      return .redirect handle .copy
    | _ => return .redirect handle (.file .write)
  else
    let handle := handle.getD 0
    match next with
    | some '<' =>
      skip
      return .redirect handle (.document (← skipIf fuel '-'))
    | some '&' =>
      skip
      return .redirect handle .copy
    | some '>' =>
      skip
      return .redirect handle (.file .readWrite)
    | _ => return .redirect handle (.file .read)

/-- Passes over blanks and a comment. -/
def skipBlanks : Nat → Read Unit
  | 0 => return
  | fuel + 1 => do
    match ← peekJoined fuel with
    | some ' ' | some '\t' =>
      skip
      skipBlanks fuel
    | some '#' => modify fun r => { r with rest := r.rest.dropWhile (· != '\n') }
    | _ => return

/-- Reads a token, without a look at what words mean. -/
def readPlainToken (script : Read (Option Command)) (literal : Bool) (fuel : Nat) : Read Token := do
  if (← get).again then
    modify fun r => { r with again := false }
    return (← get).token
  skipBlanks fuel
  let operator (single : Token) (c : Char) (twice : Token) : Read Token := do
    skip
    if ← skipIf fuel c then return twice else return single
  let token ← match ← peek with
    | none => pure .ending
    | some '\n' => skip *> pure .newline
    | some '&' => operator .ampersand '&' .both
    | some '|' => operator .bar '|' .either
    | some ';' => operator .semicolon ';' .caseEnd
    | some '(' => skip *> pure .opening
    | some ')' => skip *> pure .closing
    | some _ => do
      let d ← readWord script literal none .plain fuel
      let handle : Option (Option Nat) := match d.quoted, d.signs with
        | false, [] => some none
        | false, [.part (.letter c false)] =>
          if c.isDigit then some (some (c.toNat - '0'.toNat)) else none
        | _, _ => none
      match ← peek, handle with
      | some '>', some handle => skip *> readRedirection '>' handle fuel
      | some '<', some handle => skip *> readRedirection '<' handle fuel
      | _, _ =>
        modify fun r => { r with word := d.word, quoted := d.quoted }
        pure .word
  modify fun r => { r with token }
  return token

/-- Reads a token, taking words for what is wanted. -/
def readTokenFor (script : Read (Option Command)) : Nat → Wanted → Read Token
  | 0, _ => unexpected none
  | fuel + 1, wanted => do
    let token ← readPlainToken script false fuel
    if token = .newline ∧ wanted.newlines then
      readDocuments script fuel
      modify fun r => { r with wanted := .nothing }
      readTokenFor script fuel wanted
    else
      let r ← get
      let wanted := { wanted with aliases := wanted.aliases || r.wanted.aliases }
      set { r with wanted := .nothing }
      if token ≠ .word ∨ r.quoted then return token
      match plain? r.word with
      | none => return token
      | some text =>
        if wanted.keywords ∧ keywords.contains text then
          modify fun r => { r with token := .keyword text }
          return .keyword text
        if wanted.aliases ∧ ! r.inside.contains text then
          if let some value := List.lookup text r.aliases then
            modify fun r => { r with
              rest := value.toList ++ aliasEnd :: r.rest
              inside := text :: r.inside }
            readTokenFor script fuel wanted
          else return token
        else return token

/-- Reads a token. -/
def readToken (script : Read (Option Command)) (fuel : Nat) : Read Token := do
  let wanted := (← get).wanted
  modify fun r => { r with wanted := .nothing }
  readTokenFor script fuel wanted

/-- The last token is to be read once more. -/
def putBack : Read Unit :=
  modify fun r => { r with again := true }

/-- Says what the next token may be. -/
def want (keywords newlines aliases : Bool) : Read Unit :=
  modify fun r => { r with wanted := ⟨keywords, newlines, aliases⟩ }

end Anchored.Shell
