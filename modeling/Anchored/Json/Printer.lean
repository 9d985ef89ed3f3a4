import Anchored.Json.Value

/-!
# Writing JSON

Values are written over several lines: every item of an array and every member of an object has a
line of its own, indented by two spaces more than what it belongs to.
-/

namespace Anchored.Json

/-- A digit of a base up to sixteen. -/
def hexDigit (n : Nat) : Char :=
  if n < 10 then Char.ofNat ('0'.toNat + n) else Char.ofNat ('a'.toNat + (n - 10))

/-- A character as it stands in a written string. -/
def escape (c : Char) : List Char :=
  if c = '"' then ['\\', '"']
  else if c = '\\' then ['\\', '\\']
  else if c = '\n' then ['\\', 'n']
  else if c = '\r' then ['\\', 'r']
  else if c = '\t' then ['\\', 't']
  else if c = '\x08' then ['\\', 'b']
  else if c = '\x0c' then ['\\', 'f']
  else if c.toNat < 0x20 then
    ['\\', 'u', '0', '0', hexDigit (c.toNat / 16), hexDigit (c.toNat % 16)]
  else [c]

/-- A written string. -/
def writeString (s : String) : List Char :=
  '"' :: s.toList.flatMap escape ++ ['"']

/-- A written number. -/
def Number.write : Number → List Char
  | .natural n => (toString n).toList
  | .negative n => (toString n).toList
  | .double bits => ((Decimal.Layout.mk []).write bits).toList

/-- A new line, indented by `depth` steps. -/
def lineBreak (depth : Nat) : List Char :=
  '\n' :: List.replicate (2 * depth) ' '

mutual

/-- A written value; `depth` tells how deep it lies. -/
def Value.write (depth : Nat) : Value → List Char
  | .null => "null".toList
  | .bool true => "true".toList
  | .bool false => "false".toList
  | .number n => n.write
  | .string s => writeString s
  | .array [] => ['[', ']']
  | .array (v :: items) =>
    ['['] ++ lineBreak (depth + 1) ++ v.write (depth + 1) ++ writeItems (depth + 1) items ++
      lineBreak depth ++ [']']
  | .object [] => ['\x7b', '\x7d']
  | .object ((name, v) :: members) =>
    ['\x7b'] ++ lineBreak (depth + 1) ++ writeString name ++ [':', ' '] ++ v.write (depth + 1) ++
      writeMembers (depth + 1) members ++ lineBreak depth ++ ['\x7d']

/-- The items of an array behind the first. -/
def writeItems (depth : Nat) : List Value → List Char
  | [] => []
  | v :: items => [','] ++ lineBreak depth ++ v.write depth ++ writeItems depth items

/-- The members of an object behind the first. -/
def writeMembers (depth : Nat) : List (String × Value) → List Char
  | [] => []
  | (name, v) :: members =>
    [','] ++ lineBreak depth ++ writeString name ++ [':', ' '] ++ v.write depth ++
      writeMembers depth members

end

/-- A value as a text. -/
def Value.pretty (v : Value) : String :=
  String.ofList (v.write 0)

end Anchored.Json
