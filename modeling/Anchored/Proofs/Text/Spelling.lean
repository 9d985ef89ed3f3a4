import Anchored.Proofs.Text.Places

/-!
# Spellings of a text

A text can be spelled with tabs or with the spaces that they stand for, and with any terminators.
Each way it has the same lines, but for the tabs in them (`lines_expandTabs`) or for what ends them
(`lines_unifyEndings`), and so the same normal form (`normalize_expandTabs`,
`normalize_unifyEndings`). The lines of the other spelling are found by saying what they are, since
a text can be divided into lines in one way only (`Lined.eq_lines`).
-/

namespace Anchored.Text

variable {t t' text : List Char} {ls : List Line}

/-! ## One way to divide a text -/

/-- Letters in front of a text go to its first line. -/
theorem lines_append_of_unbroken {l : Line} (h : Unbroken text) (ht : lines t = l :: ls) :
    lines (text ++ t) = ⟨text ++ l.text, l.ending⟩ :: ls := by
  induction text with
  | nil => exact ht
  | cons c text ih =>
    have hc : ¬ IsTerminator c := fun hc => by
      have := h c List.mem_cons_self
      exact hc.elim this.1 this.2
    have hrest : Unbroken text := fun d hd => h d (List.mem_cons_of_mem c hd)
    rw [List.cons_append, lines_letter hc, ih hrest]
    rfl

theorem lines_of_unbroken (h : Unbroken text) (hne : text ≠ []) : lines text = [⟨text, .none⟩] := by
  obtain ⟨init, c, rfl⟩ := (List.eq_nil_or_concat' text).resolve_left hne
  have hc : ¬ IsTerminator c := fun hc => by
    have := h c (List.mem_append_right init (List.mem_singleton_self c))
    exact hc.elim this.1 this.2
  have hlast : lines [c] = [⟨[c], .none⟩] := lines_letter hc []
  exact lines_append_of_unbroken (fun d hd => h d (List.mem_append_left [c] hd)) hlast

theorem lines_ended {e : Ending} (ended : e ≠ .none) (lone : e = .cr → t.head? ≠ some '\n') :
    lines (e.chars ++ t) = ⟨[], e⟩ :: lines t := by
  rcases e
  · exact lines_return_newline t
  · exact lines_newline t
  · exact lines_return t (lone rfl)
  · exact absurd rfl ended

/-- A text can be divided into lines in one way only. -/
theorem Lined.eq_lines (h : Lined t ls) : lines t = ls := by
  induction h with
  | nil => rfl
  | last text unbroken ne_nil => exact lines_of_unbroken unbroken ne_nil
  | cons l rest ls unbroken ended lone _ ih =>
    rw [List.append_assoc, lines_append_of_unbroken unbroken (lines_ended ended lone), ih,
      List.append_nil]

/-! ## What the lines tell of the end of a text -/

theorem endsWithTerminator_eq (t : List Char) :
    endsWithTerminator t = (lines t).getLast?.any (·.ending ≠ .none) := by
  have hlined := lined_lines t
  generalize lines t = ls at hlined ⊢
  induction hlined with
  | nil => rfl
  | last text unbroken _ => rw [endsWithTerminator_of_unbroken unbroken]; rfl
  | cons l rest ls _ ended _ hrest ih =>
    by_cases hnil : rest = []
    · subst hnil
      have hls : ls = [] := hrest.eq_lines.symm
      have hend := endsWithTerminator_ended ended
      rw [List.append_nil, endsWithTerminator_append (Ending.chars_ne_nil ended), hend, hls]
      simpa using ended
    · have hls : ls ≠ [] := hrest.eq_lines ▸ lines_ne_nil hnil
      rw [endsWithTerminator_append hnil, ih, List.getLast?_cons_of_ne_nil hls]

theorem openLine_eq (t : List Char) :
    openLine t = if (lines t).getLast?.all (·.ending ≠ .none) then [[]] else [] := by
  unfold openLine
  rw [endsWithTerminator_eq]
  by_cases hnil : t = []
  · rw [if_pos (Or.inl hnil), hnil]
    rfl
  · have hl := List.getLast?_eq_some_getLast (lines_ne_nil hnil)
    simp [hnil, hl]

/-- Texts with the same normal lines and the same end have the same normal form. -/
theorem normalize_congr
    (hlines : (lines t').map (normalLine ·.text) = (lines t).map (normalLine ·.text))
    (hopen : openLine t' = openLine t) : normalize t' = normalize t := by
  rw [normalize, normalize, normalLines_eq, normalLines_eq, hlines, hopen]

theorem collapse_congr (h : normalize t' = normalize t) : collapse t' = collapse t := by
  rw [collapse, collapse, ← words_normalize t', ← words_normalize t, h]

theorem normalLines_congr (h : normalize t' = normalize t) : normalLines t' = normalLines t := by
  rw [← splitWhere_normalize, ← splitWhere_normalize, h]

/-! ## Tabs -/

/-- The line with its tabs expanded. -/
def Line.expanded (l : Line) : Line :=
  { l with text := expandTabs l.text }

theorem tab_not_mem_expandTabs (t : List Char) : '\t' ∉ expandTabs t := by
  intro h
  rcases mem_expandTabs h with hc | ⟨hc, _⟩
  · cases hc
  · exact hc rfl

theorem unbroken_expandTabs (h : Unbroken text) : Unbroken (expandTabs text) := by
  intro c hc
  rcases mem_expandTabs hc with rfl | ⟨_, hmem⟩
  · decide
  · exact h c hmem

theorem expandTabs_ending (e : Ending) : expandTabs e.chars = e.chars := by
  rcases e <;> rfl

theorem head?_expandTabs_ne (h : t.head? ≠ some '\n') : (expandTabs t).head? ≠ some '\n' := by
  rcases t with _ | ⟨c, t⟩
  · exact h
  by_cases hc : c = '\t'
  · subst hc
    exact fun hspace => by cases hspace
  · rwa [expandTabs_cons hc]

theorem expandTabs_ne_nil (h : t ≠ []) : expandTabs t ≠ [] := by
  obtain ⟨c, t, rfl⟩ := List.exists_cons_of_ne_nil h
  by_cases hc : c = '\t'
  · subst hc
    exact List.cons_ne_nil _ _
  · rw [expandTabs_cons hc]
    exact List.cons_ne_nil _ _

theorem Lined.expandTabs (h : Lined t ls) : Lined (expandTabs t) (ls.map Line.expanded) := by
  induction h with
  | nil => exact .nil
  | last text unbroken ne_nil =>
    exact .last _ (unbroken_expandTabs unbroken) (expandTabs_ne_nil ne_nil)
  | cons l rest ls unbroken ended lone _ ih =>
    rw [expandTabs_append, expandTabs_append, expandTabs_ending]
    exact .cons l.expanded _ _ (unbroken_expandTabs unbroken) ended
      (fun hcr => head?_expandTabs_ne (lone hcr)) ih

/-- Tabs do not change how a text is divided. -/
theorem lines_expandTabs (t : List Char) : lines (expandTabs t) = (lines t).map Line.expanded :=
  (lined_lines t).expandTabs.eq_lines

theorem normalLine_expandTabs (line : List Char) :
    normalLine (expandTabs line) = normalLine line := by
  rw [normalLine, expandTabs_of_not_mem (tab_not_mem_expandTabs line), normalLine]

theorem normalize_expandTabs (t : List Char) : normalize (expandTabs t) = normalize t := by
  apply normalize_congr
  · rw [lines_expandTabs, List.map_map]
    exact List.map_congr_left fun l _ => normalLine_expandTabs l.text
  · rw [openLine_eq, openLine_eq, lines_expandTabs, List.getLast?_map, Option.all_map]
    rfl

/-! ## Terminators -/

/-- The line with a line feed for what ends it. -/
def Line.unified (l : Line) : Line :=
  { l with ending := if l.ending = .none then .none else .lf }

theorem Lined.unifyEndings (h : Lined t ls) : Lined (unifyEndings t) (ls.map Line.unified) := by
  induction h with
  | nil => exact .nil
  | last text unbroken ne_nil =>
    have hsame : Text.unifyEndings text = text := by
      simpa [Text.unifyEndings] using unifyEndings_of_unbroken unbroken []
    rw [hsame]
    exact .last text unbroken ne_nil
  | cons l rest ls unbroken ended lone _ ih =>
    have hunified : l.unified = ⟨l.text, .lf⟩ := by
      rw [Line.unified, if_neg ended]
    rw [List.append_assoc, unifyEndings_of_unbroken unbroken, unifyEndings_ended ended lone,
      List.map_cons, hunified]
    have hcons := Lined.cons ⟨l.text, .lf⟩ _ _ unbroken (by simp) (by simp) ih
    rwa [List.append_assoc] at hcons

/-- With unified terminators a text has the same lines, each of which ends with a line feed. -/
theorem lines_unifyEndings (t : List Char) :
    lines (unifyEndings t) = (lines t).map Line.unified :=
  (lined_lines t).unifyEndings.eq_lines

theorem map_text_lines_unifyEndings (t : List Char) :
    (lines (unifyEndings t)).map (·.text) = (lines t).map (·.text) := by
  rw [lines_unifyEndings, List.map_map]
  rfl

theorem unified_ending_ne_none (l : Line) : (l.unified.ending ≠ .none) = (l.ending ≠ .none) := by
  rw [Line.unified]
  by_cases h : l.ending = .none <;> simp [h]

theorem endsWithTerminator_unifyEndings (t : List Char) :
    endsWithTerminator (unifyEndings t) = endsWithTerminator t := by
  rw [endsWithTerminator_eq, endsWithTerminator_eq, lines_unifyEndings, List.getLast?_map,
    Option.any_map]
  simp only [unified_ending_ne_none]

theorem normalize_unifyEndings (t : List Char) : normalize (unifyEndings t) = normalize t := by
  apply normalize_congr
  · rw [lines_unifyEndings, List.map_map]
    rfl
  · rw [openLine_eq, openLine_eq, lines_unifyEndings, List.getLast?_map, Option.all_map]
    simp only [unified_ending_ne_none]

end Anchored.Text
