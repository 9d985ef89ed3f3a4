import Anchored.Proofs.Anchor.Counts
import Anchored.Proofs.Text.Places
import Mathlib.Data.List.DropRight

/-!
# The lines of the normal form are those of the text

Occurrences are looked for in the normal form of a text, and what they stand for are lines of the text
itself. The two go by one numbering: between its line feeds the normal form has the normal forms of
the lines one by one, and at most an empty line behind them (`normal_lines_are_line_spans`). So the
line feeds before a byte of the normal form number a line of the text.
-/

namespace Anchored

namespace Text

variable {t : List Char}

/-! ## The line around a byte -/

/-- The line of a text on which byte `n` is: what stands around the byte between two line feeds. A
line feed is on the line that it ends. -/
def lineAround (t : List Char) (n : Nat) : List Char :=
  (takeBytes n t).rtakeWhile (· != '\n') ++ (t.drop (takeBytes n t).length).takeWhile (· != '\n')

/-- Line `j` of the text is `line` in its normal form. -/
def NormalLineAt (t : List Char) (j : Nat) (line : List Char) : Prop :=
  ∃ span text, (lineSpans t)[j]? = some span ∧ span.text? t = some text ∧
    trimEnd (expandTabs text) = line

theorem getElem?_splitWhere_zero (t : List Char) :
    (splitWhere (· == '\n') t)[0]? = some (t.takeWhile (· != '\n')) := by
  induction t with
  | nil => rfl
  | cons c t ih =>
    rw [splitWhere]
    by_cases hc : c = '\n'
    · rw [if_pos (by simpa using hc), List.takeWhile_cons_of_neg (by simpa using hc)]
      rfl
    · rw [if_neg (by simpa using hc), List.takeWhile_cons_of_pos (by simpa using hc),
        List.getElem?_modifyHead, ih]
      rfl

/-- The line feeds before a place number the line around it. -/
theorem getElem?_splitWhere_count (a b : List Char) :
    (splitWhere (· == '\n') (a ++ b))[a.count '\n']? =
      some (a.rtakeWhile (· != '\n') ++ b.takeWhile (· != '\n')) := by
  induction a using List.reverseRecOn generalizing b with
  | nil => exact getElem?_splitWhere_zero b
  | append_singleton a c ih =>
    rw [List.append_assoc, List.singleton_append, List.count_append, List.count_singleton]
    by_cases hc : c = '\n'
    · subst hc
      have hsplit : splitWhere (· == '\n') (a ++ '\n' :: b) =
          splitWhere (· == '\n') a ++ splitWhere (· == '\n') b := by
        simp only [splitWhere_eq_splitOnP]
        exact List.splitOnP_append_cons a b (by rfl)
      have hlen : (splitWhere (· == '\n') a).length = a.count '\n' + 1 := length_splitWhere _ a
      rw [hsplit, if_pos (by rfl), List.getElem?_append_right hlen.le, hlen, Nat.sub_self,
        getElem?_splitWhere_zero, List.rtakeWhile_concat_neg _ _ _ (by simp), List.nil_append]
    · rw [if_neg (by simpa using hc), Nat.add_zero, ih,
        List.takeWhile_cons_of_pos (by simpa using hc),
        List.rtakeWhile_concat_pos _ _ _ (by simpa using hc), List.append_assoc,
        List.singleton_append]

theorem takeBytes_append_drop (n : Nat) (t : List Char) :
    takeBytes n t ++ t.drop (takeBytes n t).length = t :=
  List.prefix_iff_eq_append.mp (takeBytes_begins n t)

theorem byteSize_takeBytes_le (n : Nat) (t : List Char) : byteSize (takeBytes n t) ≤ n := by
  induction t generalizing n with
  | nil => exact Nat.zero_le n
  | cons c t ih =>
    rw [takeBytes]
    split_ifs with hfits
    · have hrest := ih (n - c.utf8Size)
      rw [byteSize]
      omega
    · exact Nat.zero_le n

end Text

namespace Anchor

open Text

variable {t : List Char} {n : Nat}

/-- The line feeds before byte `n` number the line that it is on. -/
theorem getElem?_splitWhere_countBefore (t : List Char) (n : Nat) :
    (splitWhere (· == '\n') t)[countBefore '\n' t n]? = some (lineAround t n) := by
  have hline := getElem?_splitWhere_count (takeBytes n t) (t.drop (takeBytes n t).length)
  rwa [takeBytes_append_drop] at hline

/-- Behind the last line feed of a text, an empty line is reached only at the end of the text. -/
theorem byteSize_le_of_lineAround_eq_nil (hcount : countBefore '\n' t n = t.count '\n')
    (hnil : lineAround t n = []) : byteSize t ≤ n := by
  have hwhole := takeBytes_append_drop n t
  obtain ⟨_, hafter⟩ := List.append_eq_nil_iff.mp hnil
  have hnone : (t.drop (takeBytes n t).length).count '\n' = 0 := by
    have hsum := congrArg (List.count '\n') hwhole
    rw [List.count_append, ← hcount, countBefore] at hsum
    omega
  rcases hrest : t.drop (takeBytes n t).length with _ | ⟨c, rest⟩
  · rw [hrest, List.append_nil] at hwhole
    conv_lhs => rw [← hwhole]
    exact byteSize_takeBytes_le n t
  · rw [hrest] at hafter hnone
    by_cases hc : c = '\n'
    · rw [hc, List.count_cons_self] at hnone
      cases hnone
    · rw [List.takeWhile_cons_of_pos (by simpa using hc)] at hafter
      cases hafter

/-- A byte of the normal form behind the line feeds of all the lines is its end. -/
theorem end_of_no_line (hnone : (lines t)[countBefore '\n' (normalize t) n]? = none) :
    byteSize (normalize t) ≤ n ∧ countBefore '\n' (normalize t) n = (lineSpans t).length ∧
      lineAround (normalize t) n = [] := by
  have hle : (lines t).length ≤ countBefore '\n' (normalize t) n :=
    List.getElem?_eq_none_iff.mp hnone
  have hline := getElem?_splitWhere_countBefore (normalize t) n
  rw [splitWhere_normalize, normalLines_eq, List.getElem?_append_right (by simpa using hle),
    List.length_map] at hline
  obtain ⟨hlt, _⟩ := List.getElem?_eq_some_iff.mp hline
  obtain ⟨hopen, hnil⟩ := openLine_of_mem (List.mem_of_getElem? hline)
  have hlen := length_normalLines t
  rw [normalLines_eq, hopen, List.length_append, List.length_map, List.length_singleton] at hlen
  rw [hopen, List.length_singleton] at hlt
  refine ⟨byteSize_le_of_lineAround_eq_nil (by omega) hnil, ?_, hnil⟩
  rw [length_lineSpans]
  omega

/-- Every byte of the normal form is on a line of the text, unless it is the end. -/
theorem normalLineAt_or (t : List Char) (n : Nat) :
    NormalLineAt t (countBefore '\n' (normalize t) n) (lineAround (normalize t) n) ∨
      byteSize (normalize t) ≤ n ∧ countBefore '\n' (normalize t) n = (lineSpans t).length ∧
        lineAround (normalize t) n = [] := by
  rcases hl : (lines t)[countBefore '\n' (normalize t) n]? with _ | l
  · exact Or.inr (end_of_no_line hl)
  · have hline := getElem?_splitWhere_countBefore (normalize t) n
    rw [splitWhere_normalize, getElem?_normalLines hl] at hline
    exact Or.inl ⟨spanAt t _ l, l.text, getElem?_lineSpans_eq_some_iff.mpr ⟨l, hl, rfl⟩,
      text?_spanAt hl, Option.some.inj hline⟩

/-- **The lines of the normal form are the lines of the text.** Between its line feeds the normal form
has each line of the text with its tabs expanded and without the blanks at its end, in order, and one
empty line more if and only if the text is empty or ends with a terminator. So the line feeds before
a byte of the normal form number the line of the text that the byte is on; only at the end of the
normal form can they number the empty line behind the others. -/
theorem normal_lines_are_line_spans (t : List Char) :
    (∃ texts : List (List Char), (lineSpans t).map (·.text? t) = texts.map some ∧
      splitWhere (· == '\n') (normalize t) = texts.map (fun text => trimEnd (expandTabs text)) ++
        if t = [] ∨ t.getLast? = some '\n' ∨ t.getLast? = some '\r' then [[]] else []) ∧
    ∀ n, (splitWhere (· == '\n') (normalize t))[countBefore '\n' (normalize t) n]? =
        some (lineAround (normalize t) n) ∧
      (NormalLineAt t (countBefore '\n' (normalize t) n) (lineAround (normalize t) n) ∨
        byteSize (normalize t) ≤ n ∧ countBefore '\n' (normalize t) n = (lineSpans t).length ∧
          lineAround (normalize t) n = []) := by
  refine ⟨⟨(lines t).map (·.text), map_text?_lineSpans t, ?_⟩, fun n =>
    ⟨getElem?_splitWhere_countBefore _ n, normalLineAt_or t n⟩⟩
  have hopen : openLine t =
      if t = [] ∨ t.getLast? = some '\n' ∨ t.getLast? = some '\r' then [[]] else [] := by
    simp [openLine, endsWithTerminator]
  rw [splitWhere_normalize, normalLines_eq, hopen, List.map_map]
  rfl

end Anchor

end Anchored
