import Anchored.Proofs.Text.Places

/-!
# Two ways to number lines

The position of a byte counts the line feeds before it, and the lines of a text also end at lone
carriage returns. So the number that a position gives a line is behind the place of the line among
all lines by the lone carriage returns before it, and by nothing else: a line that ends with a line
feed counts once both ways, and a byte inside a terminator is still on the line that it ends
(`line_ofByte_add_loneReturns`).
-/

namespace Anchored.Text

variable {t a b : List Char} {j n : Nat} {l : Line} {ls : List Line}

/-- Byte `n` is in the text or the terminator of line `j`. -/
def LineAt (t : List Char) (j n : Nat) : Prop :=
  ∃ span, (lineSpans t)[j]? = some span ∧ span.start ≤ n ∧ n < terminatorEnd t span.stop

instance : Decidable (LineAt t j n) :=
  inferInstanceAs (Decidable (∃ span, span ∈ (lineSpans t)[j]? ∧
    span.start ≤ n ∧ n < terminatorEnd t span.stop))

/-- How many lines end with a lone carriage return. -/
def loneReturns (ls : List Line) : Nat :=
  ls.countP (·.ending = .cr)

theorem lineAt_iff : LineAt t j n ↔ ∃ l, (lines t)[j]? = some l ∧
    sizeOfLines ((lines t).take j) ≤ n ∧ n < sizeOfLines ((lines t).take j) + byteSize l.chars := by
  constructor
  · rintro ⟨span, hspan, hstart, hstop⟩
    rw [getElem?_lineSpans] at hspan
    obtain ⟨l, hl, rfl⟩ := Option.map_eq_some_iff.mp hspan
    rw [terminatorEnd_of_getElem? hl, Nat.add_assoc, ← byteSize_append] at hstop
    exact ⟨l, hl, hstart, hstop⟩
  · rintro ⟨l, hl, hstart, hstop⟩
    refine ⟨_, by rw [getElem?_lineSpans, hl]; rfl, hstart, ?_⟩
    rw [terminatorEnd_of_getElem? hl, Nat.add_assoc, ← byteSize_append]
    exact hstop

/-- A character that is on a line is one of its text or its terminator. -/
theorem OnLine.lineAt {c : Char} (h : OnLine (lines t) j n c) : LineAt t j n := by
  obtain ⟨l, hl, hstart, hstop⟩ := h
  refine lineAt_iff.mpr ⟨l, hl, hstart, ?_⟩
  have hpos := c.utf8Size_pos
  have hsize : byteSize l.chars = byteSize l.text + byteSize l.ending.chars := byteSize_append _ _
  split_ifs at hstop
  · omega
  · omega

/-- The position of a character counts the line feeds before it. -/
theorem line_advance (p : Position) (a b : List Char) :
    (p.advance (byteSize a) (a ++ b)).line = p.line + a.count '\n' := by
  induction a generalizing p with
  | nil =>
    cases b with
    | nil => rfl
    | cons c b =>
      have hpos := c.utf8Size_pos
      rw [byteSize, List.nil_append, Position.advance, if_pos hpos]
      rfl
  | cons c a ih =>
    have hpass : ¬ byteSize (c :: a) < c.utf8Size := by
      rw [byteSize]
      omega
    rw [List.cons_append, Position.advance, if_neg hpass]
    by_cases hc : c = '\n'
    · subst hc
      have hsize : byteSize ('\n' :: a) - 1 = byteSize a := by
        have hone : '\n'.utf8Size = 1 := by decide
        rw [byteSize]
        omega
      rw [if_pos rfl, hsize, ih, List.count_cons_self]
      simp only
      omega
    · have hsize : byteSize (c :: a) - c.utf8Size = byteSize a := by
        rw [byteSize]
        omega
      rw [if_neg hc, hsize, ih, List.count_cons_of_ne hc]

/-- Every line before another one ends with one line feed, or with a lone carriage return. -/
theorem Lined.count_newline (h : Lined t ls) (hj : j < ls.length) :
    ((ls.take j).flatMap Line.chars).count '\n' + loneReturns (ls.take j) = j := by
  induction h generalizing j with
  | nil => cases hj
  | last text _ _ =>
    obtain rfl : j = 0 := Nat.lt_one_iff.mp hj
    rfl
  | cons l rest ls unbroken ended _ _ ih =>
    rcases j with _ | j
    · rfl
    · have hrest := ih (Nat.lt_of_succ_lt_succ hj)
      have htext : l.text.count '\n' = 0 :=
        List.count_eq_zero.mpr fun hmem => (unbroken _ hmem).1 rfl
      have hone : l.chars.count '\n' + loneReturns [l] = 1 := by
        rw [Line.chars, List.count_append, htext]
        rcases he : l.ending
        · simp [loneReturns, he, Ending.chars]
        · simp [loneReturns, he, Ending.chars]
        · simp [loneReturns, he, Ending.chars]
        · exact absurd he ended
      have hreturns : loneReturns (l :: ls.take j) = loneReturns [l] + loneReturns (ls.take j) := by
        rw [← List.singleton_append, loneReturns, List.countP_append]
        rfl
      rw [List.take_succ_cons, List.flatMap_cons, List.count_append, hreturns]
      omega

/-- The line feed of a line is its last character. -/
theorem newline_not_mem_dropLast (h : Unbroken l.text) : '\n' ∉ l.chars.dropLast := by
  have htext : '\n' ∉ l.text := fun hmem => (h _ hmem).1 rfl
  unfold Line.chars
  rcases l.ending
  · simp [Ending.chars, List.dropLast_append_of_ne_nil, htext]
  · simp [Ending.chars, htext]
  · simp [Ending.chars, htext]
  · rw [Ending.chars, List.append_nil]
    exact fun hmem => htext (List.mem_of_mem_dropLast hmem)

/-- Of two beginnings of a text the one that is no longer is a beginning of the other. -/
theorem isPrefix_of_byteSize_le (ha : a <+: t) (hb : b <+: t) (h : byteSize a ≤ byteSize b) :
    a <+: b := by
  rcases List.prefix_or_prefix_of_prefix ha hb with hab | ⟨rest, rfl⟩
  · exact hab
  · rw [byteSize_append] at h
    have hnil : rest = [] := byteSize_eq_zero.mp (by omega)
    rw [hnil, List.append_nil]

/-- Before a byte of a line stand the line feeds that end the lines before it, and no others. -/
theorem count_newline_of_lineAt (h : LineAt (a ++ b) j (byteSize a)) :
    a.count '\n' + loneReturns ((lines (a ++ b)).take j) = j := by
  obtain ⟨l, hl, hstart, hstop⟩ := lineAt_iff.mp h
  obtain ⟨hlt, _⟩ := List.getElem?_eq_some_iff.mp hl
  have hlined := lined_lines (a ++ b)
  obtain ⟨after, htext, _, _⟩ := hlined.exists_after hl
  have hlines := hlined.count_newline hlt
  have hunbroken := hlined.unbroken l (List.mem_of_getElem? hl)
  generalize (lines (a ++ b)).take j = earlier at hstart hstop htext hlines ⊢
  have hwhole : a ++ b = earlier.flatMap Line.chars ++ l.chars ++ after := by
    rw [htext, Line.chars]
    simp only [List.append_assoc]
  -- What stands between the start of the line and the byte is a proper beginning of the line.
  obtain ⟨inside, hinside⟩ : earlier.flatMap Line.chars <+: a := by
    refine isPrefix_of_byteSize_le ?_ (List.prefix_append a b) hstart
    rw [hwhole, List.append_assoc]
    exact List.prefix_append _ _
  have hline : inside <+: l.chars := by
    have hrest : inside ++ b = l.chars ++ after := by
      rw [← hinside, List.append_assoc, List.append_assoc] at hwhole
      exact List.append_cancel_left hwhole
    refine isPrefix_of_byteSize_le (List.prefix_append inside b) ?_ ?_
    · rw [hrest]
      exact List.prefix_append _ _
    · rw [← hinside, byteSize_append] at hstop
      exact Nat.le_of_lt (Nat.lt_of_add_lt_add_left hstop)
  have hnone : '\n' ∉ inside := by
    obtain ⟨rest, hsplit⟩ := hline
    have hne : rest ≠ [] := by
      rintro rfl
      rw [← hinside, byteSize_append, ← hsplit, List.append_nil] at hstop
      exact Nat.lt_irrefl _ hstop
    intro hmem
    refine newline_not_mem_dropLast hunbroken ?_
    rw [← hsplit, List.dropLast_append_of_ne_nil hne]
    exact List.mem_append_left _ hmem
  rw [← hinside, List.count_append, List.count_eq_zero.mpr hnone, Nat.add_zero]
  exact hlines

/-- The number of a line by line feeds, and its place among the lines. -/
theorem line_ofByte_add_loneReturns (h : LineAt (a ++ b) j (byteSize a)) :
    (Position.ofByte (a ++ b) (byteSize a)).line + loneReturns ((lines (a ++ b)).take j) =
      j + 1 := by
  have hcount := count_newline_of_lineAt h
  rw [Position.ofByte, line_advance]
  simp only
  omega

end Anchored.Text
