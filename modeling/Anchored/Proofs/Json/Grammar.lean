import Anchored.Json.Reader

/-!
# The texts of JSON values

Which texts spell which values (`Spells`), said without reference to a reader. White space may
stand around every token, the characters of a string may be escaped or not, and the members of an
object are told in the order in which they stand, repeated names included. Only the rounding of
numbers that are no whole numbers of 64 bits is left to the reader of numbers.
-/

namespace Anchored.Json

/-- White space between tokens. -/
def Spaces (w : List Char) : Prop :=
  ∀ x ∈ w, Cursor.isSpace x = true

/-! ## Numbers -/

/-- One decimal digit or more. -/
def Digits (ds : List Char) : Prop :=
  ds ≠ [] ∧ ∀ d ∈ ds, d.isDigit = true

/-- The digits before a decimal point. Nothing stands behind a leading zero. -/
def WholePart (ds : List Char) : Prop :=
  Digits ds ∧ (ds.head? = some '0' → ds = ['0'])

/-- A decimal point and digits, or nothing. -/
def FractionPart (t : List Char) : Prop :=
  t = [] ∨ ∃ ds, t = '.' :: ds ∧ Digits ds

/-- The letter of an exponent, a sign or none, and digits; or nothing. -/
def ExponentPart (t : List Char) : Prop :=
  t = [] ∨ ∃ letter sign ds, t = letter :: (sign ++ ds) ∧ letter ∈ ['e', 'E'] ∧
    sign ∈ [[], ['+'], ['-']] ∧ Digits ds

/-- A number without its sign. -/
def Unsigned (t : List Char) : Prop :=
  ∃ whole fraction exponent, t = whole ++ (fraction ++ exponent) ∧ WholePart whole ∧
    FractionPart fraction ∧ ExponentPart exponent

/-- A number with its sign; that of a positive one is not written. -/
def signed (positive : Bool) (t : List Char) : List Char :=
  if positive then t else '-' :: t

/-- A number would go on with the character. -/
def goesOn (x : Char) : Bool :=
  x.isDigit || ['.', 'e', 'E'].contains x

/-- A number has ended where `rest` begins. -/
def Stops (rest : List Char) : Prop :=
  ∀ x ∈ rest.head?, goesOn x = false

/-- The digits are read as the number, whatever stands behind them. -/
def Denotes (positive : Bool) (t : List Char) (n : Number) : Prop :=
  ∀ ⦃c : Cursor⦄ ⦃rest : List Char⦄, c.rest = t ++ rest → Stops rest →
    ∃ c', readNumber c positive = .ok (n, c') ∧ c'.rest = rest

/-! ## Strings -/

/-- Four hexadecimal digits spell a number of 16 bits. -/
inductive SpellsUnit : List Char → Nat → Prop
  | digits {w x y z : Char} {a b d e : Nat} (ha : hexValue? w = some a) (hb : hexValue? x = some b)
      (hd : hexValue? y = some d) (he : hexValue? z = some e) :
      SpellsUnit [w, x, y, z] (((a * 16 + b) * 16 + d) * 16 + e)

/-- A character of a string, as it stands or as an escape. -/
inductive SpellsChar : List Char → Char → Prop
  /-- As it stands. -/
  | plain {x : Char} (hcontrol : isControl x = false) (hquote : x ≠ '"') (hescape : x ≠ '\\') :
      SpellsChar [x] x
  /-- By the letter that is kept for it. -/
  | letter {x y : Char} (h : simpleEscape? x = some y) : SpellsChar ['\\', x] y
  /-- By its number, if that has 16 bits. -/
  | unit {ds : List Char} {n : Nat} (h : SpellsUnit ds n) (hleading : isLeading n = false)
      (htrailing : isTrailing n = false) : SpellsChar ('\\' :: 'u' :: ds) (Char.ofNat n)
  /-- Two units, for the characters of more than 16 bits. -/
  | pair {ds ds' : List Char} {n n' : Nat} (h : SpellsUnit ds n) (h' : SpellsUnit ds' n')
      (hleading : isLeading n = true) (htrailing : isTrailing n' = true) :
      SpellsChar ('\\' :: 'u' :: (ds ++ '\\' :: 'u' :: ds'))
        (Char.ofNat (0x10000 + (n - 0xD800) * 0x400 + (n' - 0xDC00)))

/-- The characters of a string, one after another. -/
inductive SpellsChars : List Char → List Char → Prop
  | nil : SpellsChars [] []
  | cons {t text s : List Char} {x : Char} (h : SpellsChar t x) (hs : SpellsChars text s) :
      SpellsChars (t ++ text) (x :: s)

/-- A string between its quotes. -/
def SpellsString (text : List Char) (s : String) : Prop :=
  ∃ body, text = '"' :: (body ++ ['"']) ∧ SpellsChars body s.toList

/-! ## Values -/

/-- What stands before an item: white space, and a comma if it is not the first. -/
def Separates (first : Bool) (sep : List Char) : Prop :=
  if first then Spaces sep else ∃ w w', sep = w ++ ',' :: w' ∧ Spaces w ∧ Spaces w'

mutual

/-- The text spells the value. -/
inductive Spells : List Char → Value → Prop
  | null : Spells ['n', 'u', 'l', 'l'] .null
  | yes : Spells ['t', 'r', 'u', 'e'] (.bool true)
  | no : Spells ['f', 'a', 'l', 's', 'e'] (.bool false)
  /-- A whole number in decimal, without leading zeros. -/
  | natural {n : Nat} (h : n ≤ maxNatural) : Spells (Nat.toDigits 10 n) (.number (.natural n))
  | negative {n : Nat} (hpos : 0 < n) (h : n ≤ Nat.pow 2 63) :
      Spells ('-' :: Nat.toDigits 10 n) (.number (.negative (-n)))
  /-- Any other number, for the double that it is rounded to. -/
  | double {positive : Bool} {t : List Char} {bits : UInt64} (ht : Unsigned t)
      (h : Denotes positive t (.double bits)) :
      Spells (signed positive t) (.number (.double bits))
  | string {text : List Char} {s : String} (h : SpellsString text s) : Spells text (.string s)
  | array {text : List Char} {items : List Value} (h : SpellsItems true text items) :
      Spells ('[' :: (text ++ [']'])) (.array items)
  | object {text : List Char} {members : List (String × Value)}
      (h : SpellsMembers true text members) :
      Spells ('\x7b' :: (text ++ ['\x7d'])) (.object members)

/-- The text spells the items of an array; `first` tells whether none stands before them. -/
inductive SpellsItems : Bool → List Char → List Value → Prop
  | nil {first : Bool} {w : List Char} (hw : Spaces w) : SpellsItems first w []
  | cons {first : Bool} {sep text rest : List Char} {v : Value} {items : List Value}
      (hsep : Separates first sep) (hv : Spells text v) (hitems : SpellsItems false rest items) :
      SpellsItems first (sep ++ (text ++ rest)) (v :: items)

/-- The text spells the members of an object; `first` tells whether none stands before them. -/
inductive SpellsMembers : Bool → List Char → List (String × Value) → Prop
  | nil {first : Bool} {w : List Char} (hw : Spaces w) : SpellsMembers first w []
  | cons {first : Bool} {sep key w w' text rest : List Char} {name : String} {v : Value}
      {members : List (String × Value)} (hsep : Separates first sep) (hname : SpellsString key name)
      (hw : Spaces w) (hw' : Spaces w') (hv : Spells text v)
      (hmembers : SpellsMembers false rest members) :
      SpellsMembers first (sep ++ (key ++ (w ++ ':' :: (w' ++ (text ++ rest)))))
        ((name, v) :: members)

end

section

variable {text : List Char}

theorem Spells.eq_null (h : Spells text .null) : text = ['n', 'u', 'l', 'l'] := by
  cases h
  rfl

theorem Spells.eq_true (h : Spells text (.bool true)) : text = ['t', 'r', 'u', 'e'] := by
  cases h
  rfl

theorem Spells.eq_false (h : Spells text (.bool false)) : text = ['f', 'a', 'l', 's', 'e'] := by
  cases h
  rfl

theorem Spells.spellsString {s : String} (h : Spells text (.string s)) : SpellsString text s := by
  cases h with
  | string h => exact h

theorem Spells.exists_items {items : List Value} (h : Spells text (.array items)) :
    ∃ t, text = '[' :: (t ++ [']']) ∧ SpellsItems true t items := by
  cases h with
  | array h => exact ⟨_, rfl, h⟩

theorem Spells.exists_members {members : List (String × Value)}
    (h : Spells text (.object members)) :
    ∃ t, text = '\x7b' :: (t ++ ['\x7d']) ∧ SpellsMembers true t members := by
  cases h with
  | object h => exact ⟨_, rfl, h⟩

end

/-- A whole text spells a value, with white space around it. -/
def SpellsDocument (text : String) (v : Value) : Prop :=
  ∃ w body w', text.toList = w ++ (body ++ w') ∧ Spaces w ∧ Spells body v ∧ Spaces w'

end Anchored.Json
