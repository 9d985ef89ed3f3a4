/-!
# Blank characters

White space as the Unicode property `White_Space` defines it, and the operations on texts that
depend on nothing else: trimming, splitting into words, collapsing runs of blanks. Texts are lists
of characters here, so that every operation is a recursion on its data.
-/

namespace Anchored.Text

/-- The characters with the Unicode property `White_Space`. The zero-width space, the byte order
mark and the information separators are not among them. -/
def isBlank (c : Char) : Bool :=
  let n := c.toNat
  (9 ≤ n && n ≤ 13) || n == 0x20 || n == 0x85 || n == 0xA0 || n == 0x1680 ||
    (0x2000 ≤ n && n ≤ 0x200A) || n == 0x2028 || n == 0x2029 || n == 0x202F || n == 0x205F ||
    n == 0x3000

/-- A text without the blanks it starts with. -/
def trimStart (t : List Char) : List Char :=
  t.dropWhile isBlank

/-- A text without the blanks it ends with. -/
def trimEnd (t : List Char) : List Char :=
  (t.reverse.dropWhile isBlank).reverse

/-- A text without the blanks at either end. -/
def trim (t : List Char) : List Char :=
  trimEnd (trimStart t)

/-- A text of nothing but blanks; the empty text is one. -/
def allBlank (t : List Char) : Bool :=
  t.all isBlank

/-- The pieces between the characters that satisfy `p`, one more than there are such characters. -/
def splitWhere (p : Char → Bool) : List Char → List (List Char)
  | [] => [[]]
  | c :: r => if p c then [] :: splitWhere p r else (splitWhere p r).modifyHead (c :: ·)

/-- The maximal runs of characters that are not blank. -/
def words (t : List Char) : List (List Char) :=
  (splitWhere isBlank t).filter (! ·.isEmpty)

/-- A text with every run of blanks made one space, and none at either end. -/
def collapse (t : List Char) : List Char :=
  [' '].intercalate (words t)

end Anchored.Text
