import Anchored.Proofs.Text.Words
import Anchored.Text.Lines

/-!
# The lines of a text

`Lined` says what the lines of a text are without an order of reading, and gives the induction over
a text line by line. By it, the normal form of a text has the normal forms of its lines and nothing
else (`normalLines_eq`), and the words of a text are those of its lines (`words_eq_flatMap`).
-/

namespace Anchored.Text

variable {t text : List Char}

/-- A text without terminators. -/
def Unbroken (text : List Char) : Prop :=
  ∀ c ∈ text, c ≠ '\n' ∧ c ≠ '\r'

/-- The lines of a text. Only the last may have no terminator, and it is not empty then. -/
inductive Lined : List Char → List Line → Prop where
  | nil : Lined [] []
  | last (text : List Char) (unbroken : Unbroken text) (ne_nil : text ≠ []) :
    Lined text [⟨text, .none⟩]
  /-- A lone carriage return is one that no line feed follows. -/
  | cons (l : Line) (rest : List Char) (ls : List Line) (unbroken : Unbroken l.text)
    (ended : l.ending ≠ .none) (lone : l.ending = .cr → rest.head? ≠ some '\n')
    (h : Lined rest ls) : Lined (l.text ++ l.ending.chars ++ rest) (l :: ls)

theorem unbroken_nil : Unbroken [] := fun _ hc => by cases hc

theorem unbroken_cons {c : Char} (hn : c ≠ '\n') (hr : c ≠ '\r') (h : Unbroken text) :
    Unbroken (c :: text) := by
  intro d hd
  rcases List.mem_cons.mp hd with rfl | hd
  · exact ⟨hn, hr⟩
  · exact h d hd

theorem Lined.unbroken {ls : List Line} (h : Lined t ls) : ∀ l ∈ ls, Unbroken l.text := by
  induction h with
  | nil => exact fun l hl => by cases hl
  | last text unbroken _ =>
    intro l hl
    rw [List.mem_singleton] at hl
    rw [hl]
    exact unbroken
  | cons l rest ls unbroken _ _ _ ih =>
    intro l' hl
    rcases List.mem_cons.mp hl with rfl | hl
    · exact unbroken
    · exact ih l' hl

/-- A letter in front goes to the first line. -/
theorem Lined.letter {c : Char} {l : Line} {ls : List Line} (hn : c ≠ '\n') (hr : c ≠ '\r')
    (h : Lined t (l :: ls)) : Lined (c :: t) (l.cons c :: ls) := by
  cases h with
  | last _ unbroken _ => exact .last (c :: t) (unbroken_cons hn hr unbroken) (by simp)
  | cons l rest ls unbroken ended lone h =>
    exact .cons (l.cons c) rest ls (unbroken_cons hn hr unbroken) ended lone h

/-- The search for lines finds them. -/
theorem lined_lines (t : List Char) : Lined t (lines t) := by
  fun_induction lines t with
  | case1 => exact .nil
  | case2 r ih => exact .cons ⟨[], .crlf⟩ r _ unbroken_nil (by simp) (by simp) ih
  | case3 r _ ih => exact .cons ⟨[], .lf⟩ r _ unbroken_nil (by simp) (by simp) ih
  | case4 r hcrlf _ ih =>
    refine .cons ⟨[], .cr⟩ r _ unbroken_nil (by simp) (fun _ hr => ?_) ih
    rcases r with _ | ⟨d, r⟩
    · cases hr
    · cases hr
      exact hcrlf r rfl rfl
  | case5 c r _ hn hr hnil ih =>
    rw [hnil] at ih
    cases ih
    exact .last [c] (unbroken_cons hn hr unbroken_nil) (by simp)
  | case6 c r _ hn hr l ls hls ih =>
    rw [hls] at ih
    exact ih.letter hn hr

/-! ## What lines say of a text -/

theorem unifyEndings_of_unbroken (h : Unbroken text) (rest : List Char) :
    unifyEndings (text ++ rest) = text ++ unifyEndings rest := by
  induction text with
  | nil => rfl
  | cons c text ih =>
    have hc : c ≠ '\r' := (h c List.mem_cons_self).2
    have hrest : Unbroken text := fun d hd => h d (List.mem_cons_of_mem c hd)
    rw [List.cons_append, unifyEndings, if_neg hc, ih hrest]
    · rfl
    · exact fun _ hcr _ => hc hcr

/-- Whatever ends a line is made a line feed. -/
theorem unifyEndings_ended {l : Line} {rest : List Char} (ended : l.ending ≠ .none)
    (lone : l.ending = .cr → rest.head? ≠ some '\n') :
    unifyEndings (l.ending.chars ++ rest) = '\n' :: unifyEndings rest := by
  rcases he : l.ending
  · rfl
  · rfl
  · rcases rest with _ | ⟨d, rest⟩
    · rfl
    · have hd : d ≠ '\n' := fun hd => lone he (by rw [hd]; rfl)
      rw [Ending.chars, List.singleton_append, unifyEndings, if_pos rfl]
      rintro r - hr
      cases hr
      exact hd rfl
  · exact absurd he ended

theorem splitWhere_of_unbroken (h : Unbroken text) : splitWhere (· == '\n') text = [text] := by
  rw [splitWhere_eq_splitOnP, List.splitOnP_eq_singleton]
  exact fun c hc => by simpa using (h c hc).1

theorem splitWhere_of_unbroken_append (h : Unbroken text) (rest : List Char) :
    splitWhere (· == '\n') (text ++ '\n' :: rest) = text :: splitWhere (· == '\n') rest := by
  have hno : ∀ c ∈ text, (c == '\n') = false := fun c hc => by simpa using (h c hc).1
  simp only [splitWhere_eq_splitOnP]
  rw [List.splitOnP_append_cons_of_forall_mem hno '\n' (by simp)]

theorem Ending.chars_ne_nil {e : Ending} (h : e ≠ .none) : e.chars ≠ [] := by
  rcases e
  · exact List.cons_ne_nil _ _
  · exact List.cons_ne_nil _ _
  · exact List.cons_ne_nil _ _
  · exact absurd rfl h

theorem endsWithTerminator_append {a b : List Char} (hb : b ≠ []) :
    endsWithTerminator (a ++ b) = endsWithTerminator b := by
  unfold endsWithTerminator
  rw [List.getLast?_append_of_ne_nil a hb]

theorem endsWithTerminator_of_unbroken (h : Unbroken text) : endsWithTerminator text = false := by
  unfold endsWithTerminator
  rcases hl : text.getLast? with _ | c
  · rfl
  · have := h c (List.mem_of_getLast? hl)
    simp [this]

theorem endsWithTerminator_ended {l : Line} (ended : l.ending ≠ .none) :
    endsWithTerminator l.ending.chars = true := by
  rcases he : l.ending
  · rfl
  · rfl
  · rfl
  · exact absurd he ended

/-- The empty line that follows the last terminator of a text, and that an empty text is. -/
def openLine (t : List Char) : List (List Char) :=
  if t = [] ∨ endsWithTerminator t = true then [[]] else []

theorem openLine_of_ended {l : Line} {rest : List Char} (ended : l.ending ≠ .none) :
    openLine (l.text ++ l.ending.chars ++ rest) = openLine rest := by
  have hne := Ending.chars_ne_nil ended
  unfold openLine
  by_cases hrest : rest = []
  · rw [hrest, List.append_nil, endsWithTerminator_append hne, endsWithTerminator_ended ended]
    simp
  · rw [endsWithTerminator_append hrest]
    simp [hrest]

/-- The normal lines of a text are those of its lines, with an empty one after a terminator at the
end. -/
theorem normalLines_eq (t : List Char) :
    normalLines t = (lines t).map (normalLine ·.text) ++ openLine t := by
  have hlined := lined_lines t
  generalize lines t = ls at hlined ⊢
  induction hlined with
  | nil => rfl
  | last text unbroken ne_nil =>
    have hopen : openLine text = [] := by
      simp [openLine, ne_nil, endsWithTerminator_of_unbroken unbroken]
    have hunify : unifyEndings text = text := by
      simpa [unifyEndings] using unifyEndings_of_unbroken unbroken []
    rw [normalLines, hunify, splitWhere_of_unbroken unbroken, hopen]
    rfl
  | cons l rest ls unbroken ended lone _ ih =>
    rw [openLine_of_ended ended, List.map_cons, List.cons_append, ← ih, normalLines,
      List.append_assoc, unifyEndings_of_unbroken unbroken, unifyEndings_ended ended lone,
      splitWhere_of_unbroken_append unbroken]
    rfl

theorem getElem?_normalLines {l : Line} {j : Nat} (h : (lines t)[j]? = some l) :
    (normalLines t)[j]? = some (normalLine l.text) := by
  obtain ⟨hj, _⟩ := List.getElem?_eq_some_iff.mp h
  rw [normalLines_eq, List.getElem?_append_left (by simpa using hj), List.getElem?_map, h,
    Option.map_some]

/-- The words of a text are those of its lines. -/
theorem words_eq_flatMap (t : List Char) : words t = (lines t).flatMap (words ·.text) := by
  have hlined := lined_lines t
  generalize lines t = ls at hlined ⊢
  induction hlined with
  | nil => simp
  | last text _ _ => simp
  | cons l rest ls _ ended _ _ ih =>
    have hblank : allBlank l.ending.chars = true := by rcases l.ending <;> decide
    rw [words_append_between hblank (Ending.chars_ne_nil ended), List.flatMap_cons, ih]

/-- An open line is empty, and the only one. -/
theorem openLine_of_mem {line : List Char} (h : line ∈ openLine t) :
    openLine t = [[]] ∧ line = [] := by
  unfold openLine at h ⊢
  split_ifs at h ⊢ with hend
  · exact ⟨rfl, List.mem_singleton.mp h⟩
  · cases h

theorem flatMap_words_openLine (t : List Char) : (openLine t).flatMap words = [] := by
  unfold openLine
  split_ifs <;> simp

/-- A text has the words of its normal lines. -/
theorem flatMap_words_normalLines (t : List Char) : (normalLines t).flatMap words = words t := by
  rw [normalLines_eq, List.flatMap_append, flatMap_words_openLine, List.append_nil,
    List.flatMap_map, words_eq_flatMap]
  simp only [words_normalLine]

theorem words_normalize (t : List Char) : words (normalize t) = words t := by
  rw [normalize, words_intercalate (by decide), flatMap_words_normalLines]

theorem normalize_ne_nil (hw : words t ≠ []) : normalize t ≠ [] := by
  intro hnil
  apply hw
  rw [← words_normalize, hnil, words_nil]

theorem normalLines_ne_nil (t : List Char) : normalLines t ≠ [] := by
  intro h
  rw [normalLines, splitWhere_eq_splitOnP, List.map_eq_nil_iff] at h
  exact List.splitOnP_ne_nil _ _ h

theorem lines_ne_nil (h : t ≠ []) : lines t ≠ [] := by
  intro hnil
  have hlined := lined_lines t
  rw [hnil] at hlined
  cases hlined
  exact h rfl

theorem newline_not_mem_normalLine (h : Unbroken text) : '\n' ∉ normalLine text := by
  intro hmem
  obtain ⟨b, _, hb⟩ := exists_trimEnd (expandTabs text)
  have hexp : '\n' ∈ expandTabs text := by
    rw [hb]
    exact List.mem_append_left b hmem
  rcases mem_expandTabs hexp with hc | ⟨_, hc⟩
  · cases hc
  · exact (h _ hc).1 rfl

theorem newline_not_mem_of_mem_normalLines {line : List Char} (h : line ∈ normalLines t) :
    '\n' ∉ line := by
  rw [normalLines_eq, List.mem_append, List.mem_map] at h
  rcases h with ⟨l, hl, rfl⟩ | h
  · exact newline_not_mem_normalLine ((lined_lines t).unbroken l hl)
  · obtain ⟨_, rfl⟩ := openLine_of_mem h
    exact List.not_mem_nil

/-- The normal form of a text has its normal lines. -/
theorem splitWhere_normalize (t : List Char) :
    splitWhere (· == '\n') (normalize t) = normalLines t := by
  rw [splitWhere_eq_splitOnP, ← List.splitOn_eq_splitOnP, normalize,
    List.splitOn_intercalate '\n' (fun _ hline => newline_not_mem_of_mem_normalLines hline)
      (normalLines_ne_nil t)]

theorem length_spansFrom (start : Nat) (ls : List Line) :
    (spansFrom start ls).length = ls.length := by
  induction ls generalizing start with
  | nil => rfl
  | cons l ls ih => simp [spansFrom, ih]

theorem length_lineSpans (t : List Char) : (lineSpans t).length = (lines t).length :=
  length_spansFrom 0 (lines t)

end Anchored.Text
