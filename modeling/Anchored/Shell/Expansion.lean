import Anchored.Shell.Arithmetic
import Anchored.Shell.Fields

/-!
# Expansion of words

A word expands to fragments: its letters, the values of its parameters and arithmetic expressions,
and what its scripts write. From these come the fields of a command, or the one text of an
assignment, a pattern or a here-document.
-/

namespace Anchored.Shell

/-- How a word is expanded. -/
structure Manner where
  /-- It becomes fields. -/
  splits : Bool
  /-- It stands within quotation marks. -/
  quoted : Bool
  /-- It is the word of a parameter, the letters of which are divided like a value. -/
  inner : Bool
  /-- A tilde stands for a directory also behind a colon. -/
  listed : Bool
  deriving DecidableEq, Repr

/-- The manner of arguments. -/
def Manner.fields : Manner :=
  ⟨true, false, false, false⟩

/-- The manner of a single text. -/
def Manner.single : Manner :=
  ⟨false, false, false, false⟩

/-- The manner of the value of an assignment. -/
def Manner.assigned : Manner :=
  ⟨false, false, false, true⟩

/-- The manner of a here-document. -/
def Manner.document : Manner :=
  ⟨false, true, false, false⟩

/-- The value of a parameter: a text, or arguments. -/
inductive Value where
  | text (s : String)
  | arguments (args : List String)

/-- The value of a parameter. -/
def valueOf? (e : Environment) (name : String) : Option Value :=
  match name with
  | "$" => some (.text (toString e.process))
  | "?" => some (.text (toString e.status))
  | "#" => some (.text (toString e.args.length))
  | "!" => e.lastJob.map fun n => .text (toString n)
  | "-" =>
    some (.text (String.ofList (optionNames.reverse.filterMap fun (letter, _) =>
      letter.filter e.options.contains)))
  | "@" | "*" => some (.arguments e.args)
  | name =>
    if name.toList.all Char.isDigit then
      match name.toNat? with
      | some 0 => some (.text e.name)
      | some (n + 1) => (e.args[n]?).map .text
      | none => none
    else (e.value? name).map .text

/-- What stands between the arguments of a shell where they are one text. -/
def joiner (e : Environment) : String :=
  match e.value? "IFS" with
  | some s => String.ofList (s.toList.take 1)
  | none => " "

/-- The value as one text. -/
def Value.joined (e : Environment) : Value → String
  | .text s => s
  | .arguments args => (joiner e).intercalate args

/-- The number of bytes of a value. -/
def Value.length (e : Environment) (m : Manner) : Value → Nat
  | .text s => s.length
  | .arguments args =>
    let between := if m.splits then 1 else (joiner e).length
    args.foldl (fun n s => n + s.length) (between * (args.length - 1))

/-- The fragments of the value of a parameter. -/
def Value.fragments (e : Environment) (m : Manner) (name : String) : Value → List Fragment
  | .text s => Fragment.value m.quoted s
  | .arguments args =>
    let spaced := (e.value? "IFS").isNone
    if m.splits ∧ m.quoted ∧ name = "@" then
      if args.isEmpty then []
      else .seam true :: [Fragment.gap].intercalate (args.map Fragment.fixed)
    else if m.splits ∧ ! m.quoted ∧ ! spaced then
      let letters (s : String) : List Fragment := s.toList.map fun c => .letter c false true
      .seam false :: [Fragment.gap].intercalate (args.map letters)
    else Fragment.value m.quoted ((Value.arguments args).joined e)

/-- The value is missing. -/
def isMissing (e : Environment) (orEmpty : Bool) : Option Value → Bool
  | none => true
  | some v => orEmpty && v.joined e == ""

/-- The directory that a tilde with a name stands for, and the parts behind the name. -/
def tilde? (e : Environment) (m : Manner) : List Part → Option (String × List Part)
  | .letter '~' false :: rest =>
    let inside : Part → Bool
      | .letter c false => c != '/' && ! (m.listed && c == ':')
      | _ => false
    let after := rest.dropWhile inside
    let ends := match after with
      | [] | .letter _ false :: _ => true
      | _ => false
    if ! ends then none
    else
      match plain? (rest.takeWhile inside) with
      | some "" => (e.value? "HOME").map (·, after)
      | some "root" => some ("/root", after)
      | _ => none
  | _ => none

/-- A letter that is divided like a value. -/
def isLoose (m : Manner) (marked : Bool) : Part → Bool
  | .letter _ false => m.inner && ! m.quoted && ! marked
  | _ => false

/-- A complaint about a parameter that is missing. -/
def failMissing (name : String) (orEmpty : Bool) (message : Option String) : ShellM α :=
  let text := match message with
    | some message => message
    | none => "parameter not set" ++ if orEmpty then " or null" else ""
  fail (name ++ ": " ++ text)

/-- A text without the line feeds it ends with, and without zeros. -/
def captured (s : String) : String :=
  let letters := s.toList.filter (· != '\x00')
  String.ofList (letters.reverse.dropWhile (· == '\n')).reverse

/-- The fragments of a parameter. What `expand` gives is the fragments of a word that starts
outside of a quotation, and may start with a tilde if so told. -/
def useParameter (expand : Manner → Bool → Word → ShellM (List Fragment)) (m : Manner)
    (name : String) (use : Use) (orEmpty : Bool) (word : Word) : ShellM (List Fragment) := do
  let e ← env
  let value? := valueOf? e name
  let missing := isMissing e orEmpty value?
  let inner := { m with inner := true }
  let written (v : Option Value) : ShellM (List Fragment) := do
    let e ← env
    let found := (v.map (·.fragments e m name)).getD (Fragment.value m.quoted "")
    spendOn found.length
    return found
  let demanded : ShellM Unit := do
    if value?.isNone ∧ e.options.contains 'u' then failMissing name false none
  match use with
  | .senseless => fail "Bad substitution"
  | .value =>
    demanded
    written value?
  | .length =>
    demanded
    return Fragment.value m.quoted (toString ((value?.map (·.length e m)).getD 0))
  | .otherwise => if missing then expand inner true word else written value?
  | .instead => if missing then return [] else expand inner true word
  | .required =>
    if ! missing then return ← written value?
    let message := Fragment.text (← expand .single true word)
    failMissing name orEmpty (if word.isEmpty then none else some message)
  | .assigned =>
    if ! missing then return ← written value?
    assign name (Fragment.text (← expand .single true word))
    written (valueOf? (← env) name)
  | .without front longest =>
    demanded
    let pattern ← expand .single true word
    let p := Pattern.ofText (Fragment.pattern false pattern)
    let text := (value?.map (·.joined e)).getD ""
    spendOn ((p.length + 1) * text.length)
    return Fragment.value m.quoted (String.ofList (p.strip front longest text.toList))

/-- The fragments of a part by itself. What `run` gives is what a script writes. -/
def usePart (run : Option Command → ShellM String)
    (expand : Manner → Bool → Word → ShellM (List Fragment)) (m : Manner) :
    Part → ShellM (List Fragment)
  | .letter c quoted => return [.letter c quoted false]
  | .mark => return [.mark]
  | .output script => do
    let text ← run script
    spendOn text.length
    return Fragment.value m.quoted (captured text)
  | .arithmetic expression => do
    let text ← expand .document false expression
    let value ← arithmetic (Fragment.text text)
    return Fragment.value m.quoted (toString value.toInt)
  | .parameter name use orEmpty word => useParameter expand m name use orEmpty word

/-- The fragments of parts. Where `marked` holds, a quotation is open; a tilde may stand where
`start` holds. -/
def fragments (run : Option Command → ShellM String) :
    Nat → Manner → Bool → Bool → Word → ShellM (List Fragment)
  | 0, _, _, _, _ => throw .late
  | _, _, _, _, [] => return []
  | fuel + 1, m, marked, start, part :: rest => do
    let e ← env
    match (if start then tilde? e m (part :: rest) else none) with
    | some (home, rest) =>
      return Fragment.fixed home ++ (← fragments run fuel m marked false rest)
    | none =>
      match part, rest with
      | .mark, .parameter "@" .value _ _ :: .mark :: after =>
        if marked then return .mark :: (← fragments run fuel m false false rest)
        else
          let arguments := (Value.arguments e.args).fragments e { m with quoted := true } "@"
          return arguments ++ (← fragments run fuel m marked false after)
      | .mark, _ => return .mark :: (← fragments run fuel m (! marked) false rest)
      | _, _ =>
        if isLoose m marked part then
          let (loose, rest) := (part :: rest).span (isLoose m marked)
          return Fragment.value false (lettersOf loose) ++
            (← fragments run fuel m marked false rest)
        else
          let here := { m with quoted := m.quoted || marked }
          let expand (m : Manner) (start : Bool) (word : Word) : ShellM (List Fragment) :=
            fragments run fuel m false start word
          let found ← usePart run expand here part
          let again := m.listed && ! marked && part matches .letter ':' false
          return found ++ (← fragments run fuel m marked again rest)

/-- The fields of words. -/
def fieldsOf (run : Option Command → ShellM String) (fuel : Nat) (word : Word) :
    ShellM (List String) := do
  let found ← fragments run fuel .fields false true word
  let m ← get
  return (divide m.env.separators none found).flatMap m.globbed

/-- The one text of a word. -/
def textOf (run : Option Command → ShellM String) (fuel : Nat) (m : Manner) (word : Word) :
    ShellM String :=
  return Fragment.text (← fragments run fuel m false true word)

/-- The word matches a text as a pattern. -/
def matchesText (run : Option Command → ShellM String) (fuel : Nat) (word : Word) (text : String) :
    ShellM Bool := do
  let pattern ← fragments run fuel .single false true word
  let p := Pattern.ofText (Fragment.pattern false pattern)
  spendOn (p.length * text.length)
  return p.accepts text.toList

end Anchored.Shell
