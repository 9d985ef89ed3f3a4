import Anchored.Proofs.Text.Bytes
import Mathlib.Data.List.DropRight

/-!
# Positions of bytes

The position of a byte is read off the bytes before it: how many line feeds there are, and how many
bytes come after the last of them (`positionAfter`). So a position stands for one offset of the text:
a byte further on has a position further on, in the order of reading (`positions_invertible`).
-/

namespace Anchored

/-- A reader comes to the first position before the second. -/
def Position.Before (p q : Position) : Prop :=
  p.line < q.line ∨ p.line = q.line ∧ p.column < q.column

theorem Position.Before.asymm {p q : Position} (h : p.Before q) : ¬ q.Before p := by
  unfold Before at h ⊢
  omega

namespace Text

/-! ## The position behind some bytes -/

/-- The position behind the bytes `bs`. -/
def positionAfter (bs : List UInt8) : Position :=
  ⟨bs.count '\n'.toUInt8 + 1, bs.length - (bs.rdropWhile (· != '\n'.toUInt8)).length + 1⟩

theorem positionAfter_newline (bs : List UInt8) :
    positionAfter (bs ++ ['\n'.toUInt8]) = ⟨(positionAfter bs).line + 1, 1⟩ := by
  rw [positionAfter, List.rdropWhile_concat_neg _ _ _ (by simp)]
  simp [positionAfter]

theorem positionAfter_append (bs : List UInt8) {more : List UInt8} (h : '\n'.toUInt8 ∉ more) :
    positionAfter (bs ++ more) =
      ⟨(positionAfter bs).line, (positionAfter bs).column + more.length⟩ := by
  have hle := (List.rdropWhile_prefix (· != '\n'.toUInt8) bs).length_le
  have hdrop : (bs ++ more).rdropWhile (· != '\n'.toUInt8) = bs.rdropWhile (· != '\n'.toUInt8) := by
    rw [List.rdropWhile, List.reverse_append, List.dropWhile_append_of_pos]
    · rfl
    · intro b hb
      simp only [bne_iff_ne]
      rintro rfl
      exact h (List.mem_reverse.mp hb)
  simp only [positionAfter, hdrop, List.count_append, List.count_eq_zero.mpr h, List.length_append,
    Position.mk.injEq, Nat.add_zero, true_and]
  omega

/-- Going on by bytes is going on by characters. -/
theorem advance_positionAfter (bs : List UInt8) (n : Nat) (t : List Char) :
    (positionAfter bs).advance n t = positionAfter (bs ++ (bytes t).take n) := by
  induction t generalizing bs n with
  | nil => simp [Position.advance]
  | cons c t ih =>
    have hbyte : '\n'.toUInt8 ∈ String.utf8EncodeChar c ↔ c = '\n' :=
      mem_utf8EncodeChar_iff (by decide)
    have hsize := String.length_utf8EncodeChar c
    rw [Position.advance, bytes_cons]
    by_cases hn : n < c.utf8Size
    · have htake : (String.utf8EncodeChar c ++ bytes t).take n = (String.utf8EncodeChar c).take n :=
        List.take_append_of_le_length (by omega)
      have hno : '\n'.toUInt8 ∉ (String.utf8EncodeChar c).take n := by
        intro hmem
        obtain rfl := hbyte.mp (List.mem_of_mem_take hmem)
        obtain rfl : n = 0 := Nat.lt_one_iff.mp hn
        cases hmem
      rw [if_pos hn, htake, positionAfter_append bs hno, List.length_take, hsize]
      congr 2
      omega
    · have htake : (String.utf8EncodeChar c ++ bytes t).take n =
          String.utf8EncodeChar c ++ (bytes t).take (n - c.utf8Size) := by
        rw [List.take_append, List.take_of_length_le (by omega), hsize]
      rw [if_neg hn, htake, ← List.append_assoc, ← ih]
      by_cases hc : c = '\n'
      · subst hc
        rw [if_pos rfl, utf8EncodeChar_ascii (by decide), positionAfter_newline]
        rfl
      · rw [if_neg hc, positionAfter_append bs (mt hbyte.mp hc), hsize]

/-- The position of a byte is that behind the bytes before it. -/
theorem ofByte_eq_positionAfter (t : List Char) (n : Nat) :
    Position.ofByte t n = positionAfter ((bytes t).take n) :=
  advance_positionAfter [] n t

/-- The bytes `bs` lead to the position: as many of them are line feeds as there are lines before it,
and as many come after the last line feed as there are columns before it. -/
structure LeadsTo (bs : List UInt8) (p : Position) : Prop where
  line_eq : bs.count '\n'.toUInt8 + 1 = p.line
  column_eq : ∃ earlier row, bs = earlier ++ row ∧ row.length + 1 = p.column ∧
    '\n'.toUInt8 ∉ row ∧ (earlier = [] ∨ earlier.getLast? = some '\n'.toUInt8)

theorem leadsTo_positionAfter (bs : List UInt8) : LeadsTo bs (positionAfter bs) where
  line_eq := rfl
  column_eq := by
    have hwhole := List.rdropWhile_append_rtakeWhile (p := (· != '\n'.toUInt8)) (l := bs)
    refine ⟨bs.rdropWhile (· != '\n'.toUInt8), bs.rtakeWhile (· != '\n'.toUInt8), hwhole.symm,
      ?_, ?_, ?_⟩
    · have hlen := congrArg List.length hwhole
      rw [List.length_append] at hlen
      simp only [positionAfter]
      omega
    · intro hmem
      have hno := List.mem_rtakeWhile_imp hmem
      simp at hno
    · by_cases hnil : bs.rdropWhile (· != '\n'.toUInt8) = []
      · exact Or.inl hnil
      · have hlast := List.rdropWhile_last_not _ _ hnil
        simp only [bne_iff_ne, not_not] at hlast
        rw [List.getLast?_eq_some_getLast hnil, hlast]
        exact Or.inr rfl

/-- Bytes lead to one position only. -/
theorem leadsTo_iff {bs : List UInt8} {p : Position} : LeadsTo bs p ↔ p = positionAfter bs := by
  constructor
  · rintro ⟨hline, earlier, row, rfl, hcolumn, hrow, hstart⟩
    have hfirst : (positionAfter earlier).column = 1 := by
      rcases hstart with rfl | hfeed
      · rfl
      · obtain ⟨init, rfl⟩ := List.getLast?_eq_some_iff.mp hfeed
        rw [positionAfter_newline]
    have hrest := positionAfter_append earlier hrow
    have hcount : (positionAfter earlier).line = p.line := by
      have hwhole : (positionAfter (earlier ++ row)).line = p.line := hline
      rwa [hrest] at hwhole
    rw [hrest, hfirst, hcount, Nat.add_comm 1, hcolumn]
  · rintro rfl
    exact leadsTo_positionAfter bs

/-! ## The order of positions -/

variable {t : List Char} {m n : Nat}

/-- More bytes lead further on. -/
theorem before_positionAfter_append (bs : List UInt8) {more : List UInt8} (hne : more ≠ []) :
    (positionAfter bs).Before (positionAfter (bs ++ more)) := by
  by_cases hfeed : '\n'.toUInt8 ∈ more
  · have hpos := List.count_pos_iff.mpr hfeed
    left
    simp only [positionAfter, List.count_append]
    omega
  · have hlen := List.length_pos_iff.mpr hne
    right
    rw [positionAfter_append bs hfeed]
    exact ⟨rfl, Nat.lt_add_of_pos_right hlen⟩

theorem before_ofByte (hlt : m < n) (hn : n ≤ byteSize t) :
    (Position.ofByte t m).Before (Position.ofByte t n) := by
  have htake : (bytes t).take n = (bytes t).take m ++ ((bytes t).drop m).take (n - m) := by
    rw [← List.take_add, Nat.add_sub_cancel' hlt.le]
  have hne : ((bytes t).drop m).take (n - m) ≠ [] := by
    rw [← List.length_pos_iff, List.length_take, List.length_drop, length_bytes]
    omega
  rw [ofByte_eq_positionAfter, ofByte_eq_positionAfter, htake]
  exact before_positionAfter_append _ hne

theorem before_ofByte_iff (hm : m ≤ byteSize t) (hn : n ≤ byteSize t) :
    (Position.ofByte t m).Before (Position.ofByte t n) ↔ m < n := by
  constructor
  · intro hbefore
    by_contra hle
    rcases Nat.eq_or_lt_of_le (Nat.le_of_not_lt hle) with rfl | hlt
    · exact hbefore.asymm hbefore
    · exact hbefore.asymm (before_ofByte hlt hm)
  · exact fun hlt => before_ofByte hlt hn

/-- **Positions can be traced back to bytes.** The position of a byte has one line more than there are
line feeds before the byte, and one column more than there are bytes between the last of these, or the
start of the text, and the byte. From the start of the text to its end, a byte further on has a
position further on, and no two have the same; past the end there is only the position of the end. -/
theorem positions_invertible (t : List Char) :
    (∀ n p, LeadsTo ((bytes t).take n) p ↔ p = Position.ofByte t n) ∧
      (∀ m n : Fin (byteSize t + 1),
        (Position.ofByte t m).Before (Position.ofByte t n) ↔ m < n) ∧
      (Function.Injective fun n : Fin (byteSize t + 1) => Position.ofByte t n) ∧
      ∀ n, Position.ofByte t (byteSize t + n) = Position.ofByte t (byteSize t) := by
  have hiff : ∀ m n : Fin (byteSize t + 1),
      (Position.ofByte t m).Before (Position.ofByte t n) ↔ m < n := fun m n =>
    before_ofByte_iff (Nat.le_of_lt_succ m.isLt) (Nat.le_of_lt_succ n.isLt)
  refine ⟨fun n p => ?_, hiff, fun m n hsame => ?_, fun n => ?_⟩
  · rw [ofByte_eq_positionAfter]
    exact leadsTo_iff
  · have hsame : Position.ofByte t m = Position.ofByte t n := hsame
    have hself : ¬ (Position.ofByte t n).Before (Position.ofByte t n) := fun h => h.asymm h
    apply le_antisymm
    · rw [← not_lt, ← hiff, hsame]
      exact hself
    · rw [← not_lt, ← hiff, hsame]
      exact hself
  · rw [ofByte_eq_positionAfter, ofByte_eq_positionAfter, List.take_of_length_le (by simp),
      List.take_of_length_le (by simp)]

end Text

end Anchored
