/-!
# Raw text

A shell knows bytes and no characters. Its texts are strings all of whose characters are bytes: the
character with number `n` stands for the byte `n`. For what is ASCII this is the text itself.
-/

namespace Anchored.Shell

/-- The raw text of some bytes. -/
def ofBytes (bytes : ByteArray) : String :=
  String.ofList (bytes.toList.map fun b => Char.ofNat b.toNat)

/-- The raw text of a text: the bytes of its UTF-8 form. -/
def raw (text : String) : String :=
  ofBytes text.toUTF8

/-- The bytes of a raw text. -/
def toBytes (text : String) : ByteArray :=
  ⟨(text.toList.map fun c => UInt8.ofNat c.toNat).toArray⟩

/-- The text whose raw text this is. Bytes that are no UTF-8 form stand for themselves. -/
def shown (text : String) : String :=
  (String.fromUTF8? (toBytes text)).getD text

/-- The characters that blank out: space, tab, line feed and the other three of their kind. -/
def isSpace (c : Char) : Bool :=
  c == ' ' || ('\t' ≤ c && c ≤ '\r')

/-- The character may start a name. -/
def startsName (c : Char) : Bool :=
  c.isAlpha || c == '_'

/-- The character may stand in a name. -/
def inName (c : Char) : Bool :=
  startsName c || c.isDigit

/-- The text is a name of a parameter or a function. -/
def isName (text : String) : Bool :=
  match text.toList with
  | c :: r => startsName c && r.all inName
  | [] => false

end Anchored.Shell
