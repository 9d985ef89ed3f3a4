import Anchored.Proofs.Anchor.Counts

/-!
# Normal forms and collapsed texts

A lenient search compares texts in normal form, and collapsed ones. Both forms are their own: a text
that looks like a normal form (`IsNormal`) is left as it is (`normalize_of_isNormal`), and collapsing
makes a text of the same words (`words_collapse`). Since bringing a text into normal form does not
change its words either, the text that the search puts together from the words of the normal lines
is the collapsed content (`normal_forms_stable`).
-/

namespace Anchored

namespace Text

variable {t line : List Char}

/-! ## What a normal form looks like -/

/-- The text has no tabs and no carriage returns, and none of its lines ends with a blank. -/
structure IsNormal (t : List Char) : Prop where
  no_tab : '\t' ∉ t
  no_return : '\r' ∉ t
  trimmed : ∀ line ∈ splitWhere (· == '\n') t, ∀ c ∈ line.getLast?, isBlank c = false

theorem mem_intercalate {sep c : Char} {pieces : List (List Char)}
    (h : c ∈ [sep].intercalate pieces) : c = sep ∨ ∃ piece ∈ pieces, c ∈ piece := by
  induction pieces with
  | nil => simp at h
  | cons piece pieces ih =>
    by_cases hp : pieces = []
    · rw [hp, List.intercalate_singleton] at h
      exact Or.inr ⟨piece, List.mem_cons_self, h⟩
    · rw [List.intercalate_cons_of_ne_nil hp, List.mem_append, List.mem_append,
        List.mem_singleton] at h
      rcases h with (h | h) | h
      · exact Or.inr ⟨piece, List.mem_cons_self, h⟩
      · exact Or.inl h
      · exact (ih h).imp_right fun ⟨p, hp, hc⟩ => ⟨p, List.mem_cons_of_mem _ hp, hc⟩

theorem intercalate_splitWhere (sep : Char) (t : List Char) :
    [sep].intercalate (splitWhere (· == sep) t) = t := by
  rw [splitWhere_eq_splitOnP, ← List.splitOn_eq_splitOnP, List.intercalate_splitOn]

/-- The letters between separators are letters of the text. -/
theorem mem_of_mem_splitWhere {sep c : Char} (hline : line ∈ splitWhere (· == sep) t)
    (hc : c ∈ line) : c ∈ t := by
  have hmem : c ∈ [sep].intercalate (splitWhere (· == sep) t) := by
    obtain ⟨before, after, hsplit⟩ := List.append_of_mem hline
    rw [hsplit, intercalate_append (by simp)]
    refine List.mem_append_right _ ?_
    rcases after with _ | ⟨next, after⟩
    · rwa [List.intercalate_singleton]
    · rw [List.intercalate_cons_cons, List.append_assoc]
      exact List.mem_append_left _ hc
  rwa [intercalate_splitWhere] at hmem

theorem mem_normalLine {c : Char} (h : c ∈ normalLine line) : c = ' ' ∨ c ≠ '\t' ∧ c ∈ line := by
  obtain ⟨b, _, hb⟩ := exists_trimEnd (expandTabs line)
  refine mem_expandTabs ?_
  rw [hb]
  exact List.mem_append_left b h

/-- The letters of a normal form are line feeds, spaces and letters of lines. -/
theorem mem_normalize {c : Char} (h : c ∈ normalize t) :
    c = '\n' ∨ c = ' ' ∨ c ≠ '\t' ∧ c ≠ '\r' := by
  refine (mem_intercalate h).imp_right ?_
  rintro ⟨line, hline, hc⟩
  rw [normalLines_eq, List.mem_append, List.mem_map] at hline
  rcases hline with ⟨l, hl, rfl⟩ | hopen
  · refine (mem_normalLine hc).imp_right fun ⟨htab, hmem⟩ => ⟨htab, ?_⟩
    exact ((lined_lines t).unbroken l hl c hmem).2
  · rw [(openLine_of_mem hopen).2] at hc
    cases hc

theorem isNormal_normalize (t : List Char) : IsNormal (normalize t) where
  no_tab h := by simpa using mem_normalize h
  no_return h := by simpa using mem_normalize h
  trimmed line hline := by
    rw [splitWhere_normalize] at hline
    obtain ⟨piece, _, rfl⟩ := List.mem_map.mp hline
    exact getLast_trimEnd _

/-! ## A second pass has nothing to do -/

theorem unifyEndings_of_not_mem (h : '\r' ∉ t) : unifyEndings t = t := by
  induction t with
  | nil => rfl
  | cons c t ih =>
    rw [List.mem_cons, not_or] at h
    rw [unifyEndings_cons (Ne.symm h.1), ih h.2]

theorem normalize_of_isNormal (h : IsNormal t) : normalize t = t := by
  have hlines : normalLines t = splitWhere (· == '\n') t := by
    rw [normalLines, unifyEndings_of_not_mem h.no_return]
    refine (List.map_congr_left fun line hline => ?_).trans (List.map_id _)
    have htab : '\t' ∉ line := fun hmem => h.no_tab (mem_of_mem_splitWhere hline hmem)
    rw [normalLine, expandTabs_of_not_mem htab, trimEnd_of_getLast (h.trimmed line hline), id]
  rw [normalize, hlines, intercalate_splitWhere]

/-- Normal forms are the texts that bringing into normal form does not change. -/
theorem normalize_eq_self_iff : normalize t = t ↔ IsNormal t :=
  ⟨fun h => h ▸ isNormal_normalize t, normalize_of_isNormal⟩

/-! ## Collapsed texts -/

/-- A word has no other words in it. -/
theorem words_of_mem_words {word : List Char} (h : word ∈ words t) : words word = [word] := by
  obtain ⟨hmem, hne⟩ := List.mem_filter.mp h
  rw [words, splitWhere_eq_splitOnP,
    List.splitOnP_eq_singleton (not_separator_of_mem_splitWhere hmem), List.filter_singleton,
    hne, cond_true]

theorem words_collapse (t : List Char) : words (collapse t) = words t := by
  have hsingle : (words t).map words = (words t).map ([·]) :=
    List.map_congr_left fun _ hword => words_of_mem_words hword
  rw [collapse, words_intercalate (by decide), List.flatMap_def, hsingle, ← List.flatMap_def,
    List.flatMap_singleton']

theorem collapse_eq_of_words {t' : List Char} (h : words t' = words t) :
    collapse t' = collapse t := by
  rw [collapse, h, collapse]

end Text

namespace Anchor

open Text

/-- **A normal form is its own, and so is a collapsed text.** The normal form of a text has no tabs and
no carriage returns, and no blanks at the ends of its lines; its normal form is the text itself.
Collapsing a collapsed text changes nothing, and the normal form of a text collapses to what the text
collapses to: so the words of the normal lines, with one space between any two, are the collapsed
text. -/
theorem normal_forms_stable (t : List Char) :
    ('\t' ∉ normalize t ∧ '\r' ∉ normalize t ∧
      ∀ line ∈ splitWhere (· == '\n') (normalize t), ∀ c ∈ line.getLast?, isBlank c = false) ∧
    normalize (normalize t) = normalize t ∧
    collapse (collapse t) = collapse t ∧
    collapse (normalize t) = collapse t ∧
    [' '].intercalate ((numberedWords t).map (·.2)) = collapse t := by
  have hnormal := isNormal_normalize t
  refine ⟨⟨hnormal.no_tab, hnormal.no_return, hnormal.trimmed⟩, normalize_eq_self_iff.mpr hnormal,
    collapse_eq_of_words (words_collapse t), collapse_eq_of_words (words_normalize t), ?_⟩
  rw [map_snd_numberedWords, collapse]

end Anchor

end Anchored
