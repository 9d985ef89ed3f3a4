import Anchored.Proofs.Text.Measure
import Anchored.Proofs.Text.Normal

/-!
# Where the lines of a text are

The lines with their endings, one after another, are the text (`flatMap_chars_lines`), which gives
the byte at which each line starts and ends (`spanAt`), and what stands around it (`exists_around`).
Its terminator is found again at the byte where it ends (`terminatorEnd_of_getElem?`). A character is
on the line whose number is that of the lines that have ended before it (`onLine_linesBefore`).
-/

namespace Anchored.Text

variable {t : List Char} {ls : List Line} {l : Line} {span : Span} {j : Nat}

/-- A line with what ends it. -/
def Line.chars (l : Line) : List Char :=
  l.text ++ l.ending.chars

/-- The byte at which the line after `ls` starts. -/
def sizeOfLines (ls : List Line) : Nat :=
  byteSize (ls.flatMap Line.chars)

@[simp]
theorem sizeOfLines_nil : sizeOfLines [] = 0 := rfl

@[simp]
theorem sizeOfLines_cons (l : Line) (ls : List Line) :
    sizeOfLines (l :: ls) = byteSize l.text + byteSize l.ending.chars + sizeOfLines ls := by
  simp [sizeOfLines, Line.chars, Nat.add_assoc]

theorem flatMap_chars_lines (t : List Char) : (lines t).flatMap Line.chars = t := by
  have hlined := lined_lines t
  generalize lines t = ls at hlined ⊢
  induction hlined with
  | nil => rfl
  | last text _ _ => simp [Line.chars, Ending.chars]
  | cons l rest ls _ _ _ _ ih => rw [List.flatMap_cons, ih, Line.chars]

theorem getElem?_spansFrom (start : Nat) (ls : List Line) (j : Nat) :
    (spansFrom start ls)[j]? = (ls[j]?).map fun l =>
      ⟨start + sizeOfLines (ls.take j), start + sizeOfLines (ls.take j) + byteSize l.text⟩ := by
  induction ls generalizing start j with
  | nil => rfl
  | cons l ls ih =>
    rcases j with _ | j
    · rfl
    · rw [spansFrom, List.getElem?_cons_succ, List.getElem?_cons_succ, ih, List.take_succ_cons,
        sizeOfLines_cons]
      congr 1
      funext l'
      simp only [Span.mk.injEq]
      omega

theorem getElem?_lineSpans (t : List Char) (j : Nat) :
    (lineSpans t)[j]? = ((lines t)[j]?).map fun l =>
      ⟨sizeOfLines ((lines t).take j), sizeOfLines ((lines t).take j) + byteSize l.text⟩ := by
  rw [lineSpans, getElem?_spansFrom]
  simp only [Nat.zero_add]

/-- What stands around a line. -/
theorem Lined.exists_after {ls : List Line} (h : Lined t ls) {j : Nat} {l : Line}
    (hl : ls[j]? = some l) :
    ∃ after, t = (ls.take j).flatMap Line.chars ++ l.text ++ (l.ending.chars ++ after) ∧
      (l.ending = .cr → after.head? ≠ some '\n') ∧ (l.ending = .none → after = []) := by
  induction h generalizing j with
  | nil => cases hl
  | last text _ _ =>
    rcases j with _ | j
    · cases hl
      exact ⟨[], by simp [Ending.chars], nofun, fun _ => rfl⟩
    · cases hl
  | cons l' rest ls _ ended lone _ ih =>
    rcases j with _ | j
    · cases hl
      exact ⟨rest, by simp, lone, fun hnone => absurd hnone ended⟩
    · obtain ⟨after, hrest, hlone, hlast⟩ := ih hl
      refine ⟨after, ?_, hlone, hlast⟩
      rw [List.take_succ_cons, List.flatMap_cons, Line.chars]
      conv_lhs => rw [hrest]
      simp only [List.append_assoc]

/-! ## Where terminators end -/

/-- A terminator is one of the characters that can end a line. -/
def IsTerminator (c : Char) : Prop :=
  c = '\n' ∨ c = '\r'

instance (c : Char) : Decidable (IsTerminator c) :=
  inferInstanceAs (Decidable (_ ∨ _))

/-- A text starts with one of the endings: that which is not a part of a longer one. -/
theorem exists_ending (t : List Char) : ∃ e rest, t = Ending.chars e ++ rest ∧
    (e = .cr → rest.head? ≠ some '\n') ∧ (e = .none → ∀ c ∈ rest.head?, ¬ IsTerminator c) := by
  rcases t with _ | ⟨c, t⟩
  · exact ⟨.none, [], rfl, nofun, fun _ => nofun⟩
  by_cases hn : c = '\n'
  · exact ⟨.lf, t, by rw [hn]; rfl, nofun, nofun⟩
  by_cases hr : c = '\r'
  · by_cases ht : t.head? = some '\n'
    · obtain ⟨rest, rfl⟩ := List.head?_eq_some_iff.mp ht
      exact ⟨.crlf, rest, by rw [hr]; rfl, nofun, nofun⟩
    · exact ⟨.cr, t, by rw [hr]; rfl, fun _ => ht, nofun⟩
  · refine ⟨.none, c :: t, rfl, nofun, fun _ d hd => ?_⟩
    obtain rfl : c = d := Option.some.inj hd
    exact not_or.mpr ⟨hn, hr⟩

/-- Where a line has ended, its terminator is passed. -/
theorem terminatorEnd_append (a : List Char) {e : Ending} {rest : List Char}
    (lone : e = .cr → rest.head? ≠ some '\n')
    (last : e = .none → ∀ c ∈ rest.head?, ¬ IsTerminator c) :
    terminatorEnd (a ++ (e.chars ++ rest)) (byteSize a) = byteSize a + byteSize e.chars := by
  unfold terminatorEnd
  rw [splitAtByte?_append]
  cases e with
  | crlf => rfl
  | lf => rfl
  | cr =>
    rcases rest with _ | ⟨c, rest⟩
    · rfl
    · have hc : c ≠ '\n' := fun hc => lone rfl (by rw [hc]; rfl)
      simp only [Ending.chars, List.singleton_append]
      split
      · rename_i heq
        cases heq
        exact absurd rfl hc
      · rename_i heq
        cases heq
      · rfl
      · rename_i hno
        exact absurd rfl (hno _ _)
  | none =>
    rcases rest with _ | ⟨c, rest⟩
    · rfl
    · have hc : ¬ IsTerminator c := last rfl c rfl
      simp only [Ending.chars, List.nil_append]
      split
      · rename_i heq
        cases heq
        exact absurd (Or.inr rfl) hc
      · rename_i heq
        cases heq
        exact absurd (Or.inl rfl) hc
      · rename_i heq
        cases heq
        exact absurd (Or.inr rfl) hc
      · rfl

/-- The terminator of a line ends where the line ends. -/
theorem terminatorEnd_of_getElem? {j : Nat} {l : Line} (hl : (lines t)[j]? = some l) :
    terminatorEnd t (sizeOfLines ((lines t).take j) + byteSize l.text) =
      sizeOfLines ((lines t).take j) + byteSize l.text + byteSize l.ending.chars := by
  obtain ⟨after, ht, hlone, hlast⟩ := (lined_lines t).exists_after hl
  have hend := terminatorEnd_append (((lines t).take j).flatMap Line.chars ++ l.text) hlone
    fun hnone c hc => by
      rw [hlast hnone] at hc
      cases hc
  rw [← ht, byteSize_append] at hend
  exact hend

/-! ## Where lines start -/

theorem Lined.chars_ne_nil (h : Lined t ls) (hl : l ∈ ls) : l.chars ≠ [] := by
  induction h with
  | nil => cases hl
  | last text _ ne_nil =>
    obtain rfl := List.mem_singleton.mp hl
    exact List.append_ne_nil_of_left_ne_nil ne_nil _
  | cons l' _ _ _ ended _ _ ih =>
    rcases List.mem_cons.mp hl with rfl | hl
    · exact List.append_ne_nil_of_right_ne_nil _ (Ending.chars_ne_nil ended)
    · exact ih hl

theorem sizeOfLines_take_le (t : List Char) {i j : Nat} (hij : i ≤ j) :
    sizeOfLines ((lines t).take i) ≤ sizeOfLines ((lines t).take j) := by
  obtain ⟨rest, hrest⟩ : (lines t).take i <+: (lines t).take j := List.take_prefix_take_left hij
  rw [← hrest, sizeOfLines, sizeOfLines, List.flatMap_append, byteSize_append]
  omega

theorem sizeOfLines_take_succ {i : Nat} (hl : (lines t)[i]? = some l) :
    sizeOfLines ((lines t).take (i + 1)) = sizeOfLines ((lines t).take i) + byteSize l.chars := by
  rw [List.take_add_one, hl, Option.toList_some, sizeOfLines, sizeOfLines, List.flatMap_append,
    List.flatMap_singleton, byteSize_append]

theorem sizeOfLines_take_lt (t : List Char) {i j : Nat} (hij : i < j) (hi : i < (lines t).length) :
    sizeOfLines ((lines t).take i) < sizeOfLines ((lines t).take j) := by
  have hpos : byteSize (lines t)[i].chars ≠ 0 :=
    mt byteSize_eq_zero.mp ((lined_lines t).chars_ne_nil (List.getElem_mem hi))
  have hle := sizeOfLines_take_le t (Nat.succ_le_of_lt hij)
  rw [sizeOfLines_take_succ (List.getElem?_eq_getElem hi)] at hle
  omega

/-- Lines that start at the same byte are one line. -/
theorem eq_of_start_eq {i j : Nat} {head head' : Span} (hi : (lineSpans t)[i]? = some head)
    (hj : (lineSpans t)[j]? = some head') (h : head.start = head'.start) : i = j := by
  rw [getElem?_lineSpans] at hi hj
  obtain ⟨li, hli, rfl⟩ := Option.map_eq_some_iff.mp hi
  obtain ⟨lj, hlj, rfl⟩ := Option.map_eq_some_iff.mp hj
  obtain ⟨hilt, _⟩ := List.getElem?_eq_some_iff.mp hli
  obtain ⟨hjlt, _⟩ := List.getElem?_eq_some_iff.mp hlj
  rcases Nat.lt_trichotomy i j with hij | hij | hij
  · have := sizeOfLines_take_lt t hij hilt
    simp only at h
    omega
  · exact hij
  · have := sizeOfLines_take_lt t hij hjlt
    simp only at h
    omega

/-! ## The spans of lines -/

/-- The span of the line `l` that is number `j`. -/
def spanAt (t : List Char) (j : Nat) (l : Line) : Span :=
  ⟨sizeOfLines ((lines t).take j), sizeOfLines ((lines t).take j) + byteSize l.text⟩

theorem getElem?_lineSpans_eq_some_iff :
    (lineSpans t)[j]? = some span ↔ ∃ l, (lines t)[j]? = some l ∧ spanAt t j l = span := by
  rw [getElem?_lineSpans]
  exact Option.map_eq_some_iff

/-- What stands around a line, and around its terminator. -/
theorem exists_around (hl : (lines t)[j]? = some l) : ∃ before after,
    t = before ++ l.text ++ (l.ending.chars ++ after) ∧
      byteSize before = (spanAt t j l).start ∧ (l.ending = .cr → after.head? ≠ some '\n') ∧
      (l.ending = .none → after = []) := by
  obtain ⟨after, htext, lone, last⟩ := (lined_lines t).exists_after hl
  exact ⟨_, after, htext, rfl, lone, last⟩

theorem text?_spanAt (hl : (lines t)[j]? = some l) : (spanAt t j l).text? t = some l.text := by
  obtain ⟨before, after, htext, hstart, _⟩ := exists_around hl
  have hcut : (spanAt t j l).cut? t = some (before, l.text, l.ending.chars ++ after) :=
    Span.cut?_eq_some_iff.mpr ⟨htext, hstart, by rw [hstart]; rfl⟩
  rw [Span.text?, hcut, Option.map_some]

/-- What is found in the span of every line is found in the spans of the lines. -/
theorem map_lineSpans_eq {f : Span → Option (List Char)} {g : Line → List Char}
    (h : ∀ j l, (lines t)[j]? = some l → f (spanAt t j l) = some (g l)) :
    (lineSpans t).map f = ((lines t).map g).map some := by
  apply List.ext_getElem?
  intro j
  rw [List.getElem?_map, List.getElem?_map, List.getElem?_map]
  rcases hline : (lines t)[j]? with _ | l
  · rw [getElem?_lineSpans, hline]
    rfl
  · rw [getElem?_lineSpans_eq_some_iff.mpr ⟨l, hline, rfl⟩, Option.map_some, h j l hline]
    rfl

theorem map_text?_lineSpans (t : List Char) :
    (lineSpans t).map (·.text? t) = ((lines t).map (·.text)).map some :=
  map_lineSpans_eq fun _ _ hl => text?_spanAt hl

/-! ## The line of a character -/

theorem lines_newline (t : List Char) : lines ('\n' :: t) = ⟨[], .lf⟩ :: lines t := by
  rw [lines, if_pos rfl]
  exact fun _ hc _ => by cases hc

theorem lines_return (t : List Char) (ht : t.head? ≠ some '\n') :
    lines ('\r' :: t) = ⟨[], .cr⟩ :: lines t := by
  rw [lines, if_neg (by decide), if_pos rfl]
  rintro r - rfl
  exact ht rfl

theorem lines_return_newline (t : List Char) : lines ('\r' :: '\n' :: t) = ⟨[], .crlf⟩ :: lines t :=
  by rw [lines]

theorem lines_letter {c : Char} (hc : ¬ IsTerminator c) (t : List Char) :
    lines (c :: t) = ((lines t).headD ⟨[], .none⟩).cons c :: (lines t).tail := by
  have hn : c ≠ '\n' := fun h => hc (Or.inl h)
  have hr : c ≠ '\r' := fun h => hc (Or.inr h)
  rw [lines, if_neg hn, if_neg hr]
  · rcases lines t with _ | ⟨l, ls⟩ <;> rfl
  · exact fun _ h _ => hr h

/-- A line that starts at byte `start` holds the character at byte `n`: in its text, or, if it is a
terminator, at least in its ending. -/
structure Line.Holds (l : Line) (start n : Nat) (c : Char) : Prop where
  start_le : start ≤ n
  le_stop : n + c.utf8Size ≤
    start + byteSize l.text + if IsTerminator c then byteSize l.ending.chars else 0

/-- The character at byte `n` is on line `j`. -/
def OnLine (ls : List Line) (j n : Nat) (c : Char) : Prop :=
  ∃ l, ls[j]? = some l ∧ l.Holds (sizeOfLines (ls.take j)) n c

section OnLine

variable {l l' : Line} {ls : List Line} {c d : Char} {j n : Nat}

/-- An empty line in front moves every line on. -/
theorem OnLine.after (h : OnLine ls j n c) (e : Ending) :
    OnLine (⟨[], e⟩ :: ls) (j + 1) (byteSize e.chars + n) c := by
  obtain ⟨l, hl, hstart, hstop⟩ := h
  refine ⟨l, hl, ?_, ?_⟩
  · simp only [List.take_succ_cons, sizeOfLines_cons, byteSize]
    omega
  · simp only [List.take_succ_cons, sizeOfLines_cons, byteSize]
    omega

/-- A first line that is longer by a character moves every line after it on. -/
theorem OnLine.longer (h : OnLine (l :: ls) j n c)
    (hsize : byteSize l'.text + byteSize l'.ending.chars =
      d.utf8Size + (byteSize l.text + byteSize l.ending.chars))
    (hfirst : l.Holds 0 n c → l'.Holds 0 (d.utf8Size + n) c) :
    OnLine (l' :: ls) j (d.utf8Size + n) c := by
  obtain ⟨l₁, hl₁, hholds⟩ := h
  rcases j with _ | j
  · cases hl₁
    exact ⟨l', rfl, hfirst hholds⟩
  · obtain ⟨hstart, hstop⟩ := hholds
    simp only [List.take_succ_cons, sizeOfLines_cons] at hstart hstop
    refine ⟨l₁, hl₁, ?_, ?_⟩
    · simp only [List.take_succ_cons, sizeOfLines_cons]
      omega
    · simp only [List.take_succ_cons, sizeOfLines_cons]
      omega

/-- The first character is on the first line. -/
theorem onLine_first (c : Char) (b : List Char) : OnLine (lines (c :: b)) 0 0 c := by
  by_cases hc : IsTerminator c
  · obtain ⟨e, ls, hls, hsize⟩ : ∃ e ls, lines (c :: b) = ⟨[], e⟩ :: ls ∧
        c.utf8Size ≤ byteSize e.chars := by
      rcases hc with rfl | rfl
      · exact ⟨.lf, _, lines_newline b, by decide⟩
      · by_cases hb : b.head? = some '\n'
        · obtain ⟨b, rfl⟩ : ∃ b', b = '\n' :: b' := List.head?_eq_some_iff.mp hb
          exact ⟨.crlf, _, lines_return_newline b, by decide⟩
        · exact ⟨.cr, _, lines_return b hb, by decide⟩
    refine ⟨_, by rw [hls]; rfl, Nat.zero_le _, ?_⟩
    simp only [if_pos hc, byteSize, List.take_zero, sizeOfLines_nil]
    omega
  · refine ⟨_, by rw [lines_letter hc]; rfl, Nat.zero_le _, ?_⟩
    simp only [if_neg hc, Line.cons, byteSize, List.take_zero, sizeOfLines_nil]
    omega

end OnLine

/-- A character is on the line whose number is that of the lines that have ended before it. -/
theorem onLine_linesBefore (a : List Char) (c : Char) (b : List Char) :
    OnLine (lines (a ++ c :: b)) (linesBefore a (c :: b)) (byteSize a) c := by
  induction a with
  | nil => exact onLine_first c b
  | cons d a ih =>
    rw [List.cons_append]
    by_cases hn : d = '\n'
    · subst hn
      rw [lines_newline, linesBefore_newline]
      exact ih.after .lf
    by_cases hr : d = '\r'
    · subst hr
      rw [linesBefore_return]
      split_ifs with hhead
      · -- The line that the line feed ends alone is the one that both characters end.
        obtain ⟨t, ht⟩ := List.head?_eq_some_iff.mp hhead
        rw [ht, lines_newline] at ih
        rw [ht, lines_return_newline]
        refine ih.longer (by decide) fun hinside => ⟨Nat.zero_le _, ?_⟩
        have hstop := hinside.2
        have hpos := c.utf8Size_pos
        split_ifs at hstop ⊢ with hc
        · have hcr : '\r'.utf8Size + byteSize ['\n'] = byteSize ['\r', '\n'] := rfl
          simp only [Ending.chars] at hstop ⊢
          omega
        · simp only [byteSize] at hstop
          omega
      · rw [lines_return _ hhead]
        exact ih.after .cr
    · have hd : ¬ IsTerminator d := fun hd => hd.elim hn hr
      rw [linesBefore_other hn hr, lines_letter hd]
      obtain ⟨l, ls, hls⟩ := List.exists_cons_of_ne_nil
        (lines_ne_nil (List.append_ne_nil_of_right_ne_nil a (List.cons_ne_nil c b)))
      rw [hls] at ih ⊢
      refine ih.longer (by simp [Line.cons, byteSize, Nat.add_assoc]) fun hinside =>
        ⟨Nat.zero_le _, ?_⟩
      have hstop := hinside.2
      simp only [List.headD_cons, Line.cons, byteSize] at hstop ⊢
      omega

end Anchored.Text
