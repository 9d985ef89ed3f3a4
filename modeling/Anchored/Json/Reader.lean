import Anchored.Json.Number
import Anchored.Json.Text

/-!
# Reading values of a given shape

What is read is told by a shape: any value, a text, a record with named fields, and so on. The text
is checked against the shape while it is read, so that of two faults the one further up is
reported. A record is written as an object, in any order and with unknown members passed over, or
as an array of its fields in order. Its value is an object with every field, in the order of the
shape.
-/

namespace Anchored.Json

/-- What a value must look like. -/
inductive Shape where
  | any
  | text
  | flag
  /-- A natural number of 64 bits; the name is that of its kind. -/
  | natural (name : String)
  | nullable (shape : Shape)
  | list (shape : Shape)
  /-- A record: its name, and its fields with their shapes and the values they take if they are
  left out; one without such a value must be there. -/
  | record (name : String) (fields : List (String × Shape × Option Value))

/-- The levels of nesting that are read. -/
def depthLimit : Nat :=
  128

/-- Takes the rest of a word whose first letter is taken. -/
def readWord (c : Cursor) : List Char → Except Error Cursor
  | [] => .ok c
  | x :: word =>
    match c.peek? with
    | none => c.fail .eofValue
    | some y => if y = x then readWord c.skip word else c.failPeek .expectedIdent

/-! ## Values that are passed over -/

/-- Passes over the digits of a number. -/
def skipDigits (c : Cursor) : Cursor :=
  c.digits.2

/-- Passes over a number without its sign. Its size does not matter. -/
def skipNumber (c : Cursor) : Except Error Cursor := do
  let c ← (match c.digit? with
    | none => c.failPeek .invalidNumber
    | some 0 =>
      let c := c.skip
      if c.digit?.isSome then c.failPeek .invalidNumber else .ok c
    | some _ => .ok (skipDigits c) : Except Error Cursor)
  let c ← (if c.nextIn ['.'] then
      let c := c.skip
      if c.digit?.isSome then .ok (skipDigits c) else c.failPeek .invalidNumber
    else .ok c : Except Error Cursor)
  if c.nextIn ['e', 'E'] then
    let c := c.skip
    let c := if c.nextIn ['+', '-'] then c.skip else c
    if c.digit?.isSome then .ok (skipDigits c) else c.failPeek .invalidNumber
  else .ok c

mutual

/-- Passes over a value of any depth. -/
def skipValue (fuel : Nat) (c : Cursor) : Except Error Cursor :=
  match fuel with
  | 0 => c.fail .eofValue
  | fuel + 1 =>
    let c := c.skipSpace
    match c.peek? with
    | none => c.fail .eofValue
    | some 'n' => readWord c.skip ['u', 'l', 'l']
    | some 't' => readWord c.skip ['r', 'u', 'e']
    | some 'f' => readWord c.skip ['a', 'l', 's', 'e']
    | some '-' => skipNumber c.skip
    | some '"' => skipString c.skip
    | some '[' =>
      let c := c.skip.skipSpace
      if c.nextIn [']'] then .ok c.skip else
      match c.peek? with
      | none => c.fail .eofList
      | some _ => skipItems fuel c
    | some '\x7b' =>
      let c := c.skip.skipSpace
      if c.nextIn ['\x7d'] then .ok c.skip else skipMembers fuel c
    | some x => if x.isDigit then skipNumber c else c.failPeek .expectedValue

/-- Passes over the items of an array and its end. -/
def skipItems (fuel : Nat) (c : Cursor) : Except Error Cursor :=
  match fuel with
  | 0 => c.fail .eofValue
  | fuel + 1 => do
    let c := (← skipValue fuel c).skipSpace
    match c.peek? with
    | none => c.fail .eofList
    | some ',' => skipItems fuel c.skip
    | some ']' => return c.skip
    | some _ => c.failPeek .expectedListEnd

/-- Passes over the members of an object and its end. -/
def skipMembers (fuel : Nat) (c : Cursor) : Except Error Cursor :=
  match fuel with
  | 0 => c.fail .eofValue
  | fuel + 1 => do
    let c := c.skipSpace
    match c.peek? with
    | none => c.fail .eofObject
    | some '"' =>
      let c := (← skipString c.skip).skipSpace
      match c.peek? with
      | none => c.fail .eofObject
      | some ':' =>
        let c := (← skipValue fuel c.skip).skipSpace
        match c.peek? with
        | none => c.fail .eofObject
        | some ',' => skipMembers fuel c.skip
        | some '\x7d' => return c.skip
        | some _ => c.failPeek .expectedObjectEnd
      | some _ => c.failPeek .expectedColon
    | some _ => c.failPeek .keyNotString

end

/-! ## The frame of arrays and objects -/

/-- Moves to the next item of an array; `none` at its end, which is not taken. -/
def nextItem? (first : Bool) (c : Cursor) : Except Error (Option Cursor) :=
  let c := c.skipSpace
  match c.peek? with
  | none => c.fail .eofList
  | some ']' => .ok none
  | some x =>
    if first then .ok (some c)
    else if x = ',' then
      let c := c.skip.skipSpace
      match c.peek? with
      | none => c.fail .eofValue
      | some ']' => c.failPeek .trailingComma
      | some _ => .ok (some c)
    else c.failPeek .expectedListEnd

/-- Moves past the opening quote of the next member's name; `none` at the end of the object, which
is not taken. -/
def nextMember? (first : Bool) (c : Cursor) : Except Error (Option Cursor) :=
  let c := c.skipSpace
  match c.peek? with
  | none => c.fail .eofObject
  | some '\x7d' => .ok none
  | some x =>
    if first then if x = '"' then .ok (some c.skip) else c.failPeek .keyNotString
    else if x = ',' then
      let c := c.skip.skipSpace
      match c.peek? with
      | none => c.fail .eofValue
      | some '"' => .ok (some c.skip)
      | some '\x7d' => c.failPeek .trailingComma
      | some _ => c.failPeek .keyNotString
    else c.failPeek .expectedObjectEnd

/-- Takes the colon after a member's name. -/
def readColon (c : Cursor) : Except Error Cursor :=
  let c := c.skipSpace
  match c.peek? with
  | none => c.fail .eofObject
  | some ':' => .ok c.skip
  | some _ => c.failPeek .expectedColon

/-- Takes the end of an array. -/
def endArray (c : Cursor) : Except Error Cursor :=
  let c := c.skipSpace
  match c.peek? with
  | none => c.fail .eofList
  | some ']' => .ok c.skip
  | some ',' =>
    let c := c.skip.skipSpace
    if c.nextIn [']'] then c.failPeek .trailingComma else c.failPeek .trailingCharacters
  | some _ => c.failPeek .trailingCharacters

/-- Takes the end of an object. -/
def endObject (c : Cursor) : Except Error Cursor :=
  let c := c.skipSpace
  match c.peek? with
  | none => c.fail .eofObject
  | some '\x7d' => .ok c.skip
  | some ',' => c.failPeek .trailingComma
  | some _ => c.failPeek .trailingCharacters

/-- Where a mismatch of a whole array is noted: past its end, if that comes next. -/
def pastArray (c : Cursor) : Cursor :=
  let c := c.skipSpace
  if c.nextIn [']'] then c.skip
  else if c.nextIn [','] then c.skip.skipSpace
  else c

/-- Where a mismatch of a whole object is noted: past its end, if that comes next. -/
def pastObject (c : Cursor) : Cursor :=
  let c := c.skipSpace
  if c.nextIn ['\x7d'] then c.skip else c

/-! ## Values of a shape -/

/-- Reads a value that is not of the expected kind, as far as it must be read to name it. -/
def readMismatch (c : Cursor) (expected : String) : Except Error α :=
  let wrong (found : Found) (c : Cursor) : Except Error α :=
    c.failMismatch (.wrongType found expected)
  match c.peek? with
  | some 'n' => do wrong .null (← readWord c.skip ['u', 'l', 'l'])
  | some 't' => do wrong (.bool true) (← readWord c.skip ['r', 'u', 'e'])
  | some 'f' => do wrong (.bool false) (← readWord c.skip ['a', 'l', 's', 'e'])
  | some '-' => do
    let (n, c) ← readNumber c.skip false
    wrong (.number n) c
  | some '"' => do
    let (s, c) ← readString c.skip
    wrong (.string s) c
  | some '[' => wrong .sequence c
  | some '\x7b' => wrong .map c
  | some x =>
    if x.isDigit then do
      let (n, c) ← readNumber c true
      wrong (.number n) c
    else c.failPeek .expectedValue
  | none => c.failPeek .expectedValue

/-- A number where a natural number is read. -/
def readNatural (c : Cursor) (positive : Bool) (name : String) : Except Error (Value × Cursor) := do
  let (n, c) ← readNumber c positive
  match n with
  | .natural _ => return (.number n, c)
  | .negative _ => c.failMismatch (.wrongValue (.number n) name)
  | .double _ => c.failMismatch (.wrongType (.number n) name)

/-- The words for a record. -/
def recordName (name : String) : String :=
  "struct " ++ name

/-- The words for a record with a number of fields. -/
def recordLength (name : String) (fields : Nat) : String :=
  recordName name ++ " with " ++ toString fields ++
    (if fields = 1 then " element" else " elements")

/-- The fields of a record in order, each with what was read for it or with its default. -/
def fill (read : List (String × Value)) :
    List (String × Shape × Option Value) → Except String (List (String × Value))
  | [] => .ok []
  | (name, _, default) :: fields => do
    let value ← (match (read.find? (·.1 == name)).map (·.2), default with
      | some value, _ => .ok value
      | none, some value => .ok value
      | none, none => .error name : Except String Value)
    return (name, value) :: (← fill read fields)

mutual

/-- Reads a value of a shape, with `depth` levels of nesting left. -/
def readAs (fuel depth : Nat) (shape : Shape) (c : Cursor) : Except Error (Value × Cursor) :=
  match fuel with
  | 0 => c.fail .eofValue
  | fuel + 1 =>
    let c := c.skipSpace
    match shape with
    | .nullable shape =>
      if c.nextIn ['n'] then do return (.null, ← readWord c.skip ['u', 'l', 'l'])
      else readAs fuel depth shape c
    | .any =>
      match c.peek? with
      | none => c.fail .eofValue
      | some 'n' => do return (.null, ← readWord c.skip ['u', 'l', 'l'])
      | some 't' => do return (.bool true, ← readWord c.skip ['r', 'u', 'e'])
      | some 'f' => do return (.bool false, ← readWord c.skip ['a', 'l', 's', 'e'])
      | some '-' => do
        let (n, c) ← readNumber c.skip false
        return (.number n, c)
      | some '"' => do
        let (s, c) ← readString c.skip
        return (.string s, c)
      | some '[' =>
        if depth ≤ 1 then c.failPeek .tooDeep
        else do
          let (items, c) ← readItems fuel (depth - 1) .any true c.skip
          return (.array items, ← endArray c)
      | some '\x7b' =>
        if depth ≤ 1 then c.failPeek .tooDeep
        else do
          let (members, c) ← readMembers fuel (depth - 1) true c.skip
          return (.object members, ← endObject c)
      | some x =>
        if x.isDigit then do
          let (n, c) ← readNumber c true
          return (.number n, c)
        else c.failPeek .expectedValue
    | .text =>
      match c.peek? with
      | none => c.fail .eofValue
      | some '"' => do
        let (s, c) ← readString c.skip
        return (.string s, c)
      | some _ => readMismatch c "a string"
    | .flag =>
      match c.peek? with
      | none => c.fail .eofValue
      | some 't' => do return (.bool true, ← readWord c.skip ['r', 'u', 'e'])
      | some 'f' => do return (.bool false, ← readWord c.skip ['a', 'l', 's', 'e'])
      | some _ => readMismatch c "a boolean"
    | .natural name =>
      match c.peek? with
      | none => c.fail .eofValue
      | some '-' => readNatural c.skip false name
      | some x => if x.isDigit then readNatural c true name else readMismatch c name
    | .list shape =>
      match c.peek? with
      | none => c.fail .eofValue
      | some '[' =>
        if depth ≤ 1 then c.failPeek .tooDeep
        else do
          let (items, c) ← readItems fuel (depth - 1) shape true c.skip
          return (.array items, ← endArray c)
      | some _ => readMismatch c "a sequence"
    | .record name fields =>
      match c.peek? with
      | none => c.fail .eofValue
      | some '[' =>
        if depth ≤ 1 then c.failPeek .tooDeep
        else do
          let (read, c) ← readPositional fuel (depth - 1) (recordLength name fields.length) 0
            fields c.skip
          return (.object read, ← endArray c)
      | some '\x7b' =>
        if depth ≤ 1 then c.failPeek .tooDeep
        else do
          let (read, c) ← readFields fuel (depth - 1) fields [] true c.skip
          match fill read fields with
          | .ok members => return (.object members, ← endObject c)
          | .error name => (pastObject c).failMismatch (.missingField name)
      | some _ => readMismatch c (recordName name)

/-- Reads the items of an array, up to its end. -/
def readItems (fuel depth : Nat) (shape : Shape) (first : Bool) (c : Cursor) :
    Except Error (List Value × Cursor) :=
  match fuel with
  | 0 => c.fail .eofValue
  | fuel + 1 => do
    match ← nextItem? first c with
    | none => return ([], c)
    | some c =>
      let (item, c) ← readAs fuel depth shape c
      let (items, c) ← readItems fuel depth shape false c
      return (item :: items, c)

/-- Reads the members of an object, up to its end. -/
def readMembers (fuel depth : Nat) (first : Bool) (c : Cursor) :
    Except Error (List (String × Value) × Cursor) :=
  match fuel with
  | 0 => c.fail .eofValue
  | fuel + 1 => do
    match ← nextMember? first c with
    | none => return ([], c)
    | some c =>
      let (name, c) ← readString c
      let c ← readColon c
      let (value, c) ← readAs fuel depth .any c
      let (members, c) ← readMembers fuel depth false c
      return ((name, value) :: members, c)

/-- Reads the fields of a record from an array, one after another. -/
def readPositional (fuel depth : Nat) (expected : String) (index : Nat)
    (fields : List (String × Shape × Option Value)) (c : Cursor) :
    Except Error (List (String × Value) × Cursor) :=
  match fuel with
  | 0 => c.fail .eofValue
  | fuel + 1 =>
    match fields with
    | [] => .ok ([], c)
    | (name, shape, default) :: fields => do
      match ← nextItem? (index == 0) c, default with
      | some c, _ =>
        let (value, c) ← readAs fuel depth shape c
        let (values, c) ← readPositional fuel depth expected (index + 1) fields c
        return ((name, value) :: values, c)
      | none, some value =>
        let (values, c) ← readPositional fuel depth expected (index + 1) fields c
        return ((name, value) :: values, c)
      | none, none => (pastArray c).failMismatch (.wrongLength index expected)

/-- Reads the fields of a record from an object, up to its end; `seen` holds those already read. -/
def readFields (fuel depth : Nat) (fields : List (String × Shape × Option Value))
    (seen : List (String × Value)) (first : Bool) (c : Cursor) :
    Except Error (List (String × Value) × Cursor) :=
  match fuel with
  | 0 => c.fail .eofValue
  | fuel + 1 => do
    match ← nextMember? first c with
    | none => return (seen, c)
    | some c =>
      let (name, c) ← readString c
      match fields.find? (·.1 == name) with
      | some (_, shape, _) =>
        if seen.any (·.1 == name) then (pastObject c).failMismatch (.duplicateField name)
        else
          let c ← readColon c
          let (value, c) ← readAs fuel depth shape c
          readFields fuel depth fields (seen ++ [(name, value)]) false c
      | none =>
        let c ← readColon c
        let c ← skipValue fuel c
        readFields fuel depth fields seen false c

end

/-- Reads a whole text as one value of a shape. -/
def read (shape : Shape) (text : String) : Except Error Value := do
  let chars := text.toList
  let (value, c) ← readAs (2 * chars.length + 16) depthLimit shape (Cursor.start chars)
  let c := c.skipSpace
  match c.peek? with
  | none => return value
  | some _ => c.failPeek .trailingCharacters

end Anchored.Json
