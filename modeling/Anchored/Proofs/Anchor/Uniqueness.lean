import Anchored.Proofs.Anchor.Windows

/-!
# What a lenient anchor names

Two counts decide whether a lenient anchor names one place: that of its occurrences in the normal
form or else in the collapsed text, and that of the windows which the search for whole lines finds.
Every window that agrees with the anchor is an occurrence of its own, in the normal form of the
content (`normal_occurrence`) or at least in the collapsed content (`collapsed_occurrence`), so that
the first count sees what the second one misses, but for two gaps (`Overlooked`).
-/

namespace Anchored

namespace Anchor

open Text

variable {content find : List Char} {i j : Nat}

/-! ## Occurrences in the normal form -/

theorem take_drop_normalLines (h : WindowAt SameLine content find i) :
    ((normalLines content).drop i).take (anchorLines find).length = anchorLines find := by
  have hfits := h.fits
  have hmap := h.map_lines (f := fun line => normalLine line.text) (g := id) fun _ _ hsame => hsame
  rw [List.map_id, List.map_take, List.map_drop] at hmap
  rw [normalLines_eq, List.drop_append_of_le_length (by simp; omega),
    List.take_append_of_le_length (by simp; omega), hmap]

/-- The normal form of an anchor begins at a window that agrees with it. If the anchor ends with a
terminator, something has to follow the window. -/
theorem normal_begins (h : WindowAt SameLine content find i)
    (hmore : endsWithTerminator find = true →
      (normalLines content).drop (i + (anchorLines find).length) ≠ []) :
    normalize find <+: ['\n'].intercalate ((normalLines content).drop i) := by
  have hsplit : (normalLines content).drop i =
      anchorLines find ++ (normalLines content).drop (i + (anchorLines find).length) := by
    have happend :=
      List.take_append_drop (anchorLines find).length ((normalLines content).drop i)
    rwa [take_drop_normalLines h, List.drop_drop, eq_comm] at happend
  rw [hsplit, Text.normalize, normalLines_eq_anchorLines]
  split_ifs with hend
  · obtain ⟨line, rest, hrest⟩ := List.exists_cons_of_ne_nil (hmore hend)
    rw [hrest]
    exact intercalate_begins '\n' (anchorLines find) [] line rest
  · rw [List.append_nil]
    exact intercalate_begins_append '\n' (anchorLines_ne_nil find) _

/-- At a window that agrees with an anchor its normal form stands after the normal lines before. -/
theorem exists_normal_cut (h : WindowAt SameLine content find i)
    (hmore : endsWithTerminator find = true →
      (normalLines content).drop (i + (anchorLines find).length) ≠ []) :
    ∃ after, normalize content =
      ((normalLines content).take i).flatMap (· ++ ['\n']) ++ normalize find ++ after := by
  have hdrop : (normalLines content).drop i ≠ [] := by
    intro hnil
    have := take_drop_normalLines h
    rw [hnil, List.take_nil] at this
    exact anchorLines_ne_nil find this.symm
  obtain ⟨after, hafter⟩ := normal_begins h hmore
  refine ⟨after, ?_⟩
  rw [List.append_assoc, hafter, ← intercalate_append hdrop, List.take_append_drop, Text.normalize]

/-- A window that agrees with an anchor is an occurrence of its normal form. -/
theorem normal_occurrence (hw : words find ≠ []) (h : WindowAt SameLine content find i)
    (hmore : endsWithTerminator find = true →
      (normalLines content).drop (i + (anchorLines find).length) ≠ []) :
    offsetAfter '\n' ((normalLines content).take i) ∈
      occurrences (normalize content) (normalize find) := by
  obtain ⟨after, hcut⟩ := exists_normal_cut h hmore
  exact mem_occurrences_iff.mpr ⟨normalize_ne_nil hw, _, after, hcut, rfl⟩

theorem normal_offset_lt (hij : i < j) (hj : j ≤ (lines content).length) :
    offsetAfter '\n' ((normalLines content).take i) <
      offsetAfter '\n' ((normalLines content).take j) := by
  have hlen : (lines content).length ≤ (normalLines content).length := by
    rw [normalLines_eq, List.length_append, List.length_map]
    omega
  apply offsetAfter_lt (List.take_prefix_take_left (by omega))
  rw [List.length_take, List.length_take]
  omega

/-! ## Occurrences in the collapsed text -/

theorem words_of_sameUnindented {line wanted : List Char} (h : SameUnindented line wanted) :
    words line = words wanted := by
  have := congrArg words h
  rwa [words_trimStart, words_trimStart, words_normalLine] at this

/-- The words of the lines before line `i`. -/
def wordsBefore (content : List Char) (i : Nat) : List (List Char) :=
  ((lines content).take i).flatMap (words ·.text)

theorem words_eq_of_window (h : WindowAt SameUnindented content find i) :
    ∃ after, words content = wordsBefore content i ++ (words find ++ after) := by
  have hmap := h.map_lines (f := fun line => words line.text) (g := words)
    fun _ _ hsame => words_of_sameUnindented hsame
  have hwindow : (((lines content).drop i).take (anchorLines find).length).flatMap (words ·.text) =
      words find := by
    rw [List.flatMap_def, hmap, ← List.flatMap_def, flatMap_words_anchorLines]
  refine ⟨(((lines content).drop i).drop (anchorLines find).length).flatMap (words ·.text), ?_⟩
  rw [← hwindow, ← List.flatMap_append, List.take_append_drop, wordsBefore, ← List.flatMap_append,
    List.take_append_drop, words_eq_flatMap]

/-- A window that agrees with an anchor but for indentation is an occurrence of its words. -/
theorem collapsed_occurrence (hw : words find ≠ []) (h : WindowAt SameUnindented content find i) :
    offsetAfter ' ' (wordsBefore content i) ∈ occurrences (collapse content) (collapse find) := by
  obtain ⟨after, hafter⟩ := words_eq_of_window h
  have hneedle : collapse find ≠ [] := by
    obtain ⟨word, rest, hrest⟩ := List.exists_cons_of_ne_nil hw
    have hword : word ≠ [] := by
      have hmem : word ∈ words find := by
        rw [hrest]
        exact List.mem_cons_self
      simpa using (List.mem_filter.mp hmem).2
    obtain ⟨c, word, rfl⟩ := List.exists_cons_of_ne_nil hword
    rw [collapse, hrest, List.intercalate_cons_cons_left]
    exact List.cons_ne_nil _ _
  have hbegins : collapse find <+: [' '].intercalate (words find ++ after) :=
    intercalate_begins_append ' ' hw after
  have := offsetAfter_mem_occurrences (wordsBefore content i) hneedle (by simp [hw]) hbegins
  rwa [← hafter] at this

theorem wordsBefore_begins (h : i ≤ j) : wordsBefore content i <+: wordsBefore content j := by
  obtain ⟨rest, hrest⟩ : (lines content).take i <+: (lines content).take j :=
    List.take_prefix_take_left h
  refine ⟨rest.flatMap (words ·.text), ?_⟩
  rw [wordsBefore, wordsBefore, ← hrest, List.flatMap_append]

/-- Words on a line come before all later lines, and not before that line. -/
theorem length_wordsBefore_lt {m : Nat} {line : Line} (hi : i ≤ m) (hj : m < j)
    (hline : (lines content)[m]? = some line) (hwords : words line.text ≠ []) :
    (wordsBefore content i).length < (wordsBefore content j).length := by
  have hm : wordsBefore content (m + 1) = wordsBefore content m ++ words line.text := by
    rw [wordsBefore, List.take_add_one, hline, List.flatMap_append]
    simp [wordsBefore]
  have hstep := congrArg List.length hm
  have hbefore : (wordsBefore content i).length ≤ (wordsBefore content m).length :=
    (wordsBefore_begins hi).length_le
  have hafter : (wordsBefore content (m + 1)).length ≤ (wordsBefore content j).length :=
    (wordsBefore_begins hj).length_le
  have hpos := List.length_pos_iff.mpr hwords
  rw [List.length_append] at hstep
  omega

/-- The first line of an anchor that is not blank. -/
theorem exists_first_line (hw : words find ≠ []) :
    ∃ k wanted, (anchorLines find)[k]? = some wanted ∧ words wanted ≠ [] ∧
      ∀ (k' : Nat) wanted', k' < k → (anchorLines find)[k']? = some wanted' →
        words wanted' = [] := by
  have hsome : ∃ wanted ∈ anchorLines find, (!allBlank wanted) = true := by
    by_contra hno
    push Not at hno
    apply hw
    rw [← all_allBlank_anchorLines_iff, List.all_eq_true]
    exact fun wanted hwanted => by simpa using hno wanted hwanted
  have hk := List.findIdx_lt_length_of_exists hsome
  refine ⟨_, _, List.getElem?_eq_getElem hk, ?_, fun k' wanted' hlt hwanted => ?_⟩
  · have := List.findIdx_getElem (w := hk)
    rw [ne_eq, words_eq_nil_iff]
    simpa using this
  · obtain ⟨_, rfl⟩ := List.getElem?_eq_some_iff.mp hwanted
    rw [words_eq_nil_iff]
    simpa using List.not_of_lt_findIdx hlt

/-- Of two windows that agree with an anchor but for indentation, the later one has more words
before it: its first line that is not blank comes after that of the earlier one. -/
theorem collapsed_offset_lt (hw : words find ≠ []) (hi : WindowAt SameUnindented content find i)
    (hj : WindowAt SameUnindented content find j) (hij : i < j) :
    offsetAfter ' ' (wordsBefore content i) < offsetAfter ' ' (wordsBefore content j) := by
  apply offsetAfter_lt (wordsBefore_begins (Nat.le_of_lt hij))
  obtain ⟨k, wanted, hwanted, hletters, hfirst⟩ := exists_first_line hw
  obtain ⟨line, hline, hsame⟩ := hi.exists_line hwanted
  have hwords : words line.text ≠ [] := by rwa [words_of_sameUnindented hsame]
  by_cases hbefore : i + k < j
  · exact length_wordsBefore_lt (by omega) hbefore hline hwords
  · -- The line would be a blank one of the later window.
    obtain ⟨hk, _⟩ := List.getElem?_eq_some_iff.mp hwanted
    have hk' : k - (j - i) < (anchorLines find).length := by omega
    have hwanted' := List.getElem?_eq_getElem hk'
    obtain ⟨line', hline', hsame'⟩ := hj.exists_line hwanted'
    rw [show j + (k - (j - i)) = i + k by omega, hline, Option.some.injEq] at hline'
    rw [hline', words_of_sameUnindented hsame'] at hwords
    exact absurd (hfirst _ _ (by omega) hwanted') hwords

/-! ## The two counts -/

theorem map_snd_numberedWords (content : List Char) :
    (numberedWords content).map (·.2) = words content := by
  rw [numberedWords, splitWhere_normalize, List.map_flatMap, ← flatMap_words_normalLines]
  simp only [List.map_map, Function.comp_def, List.map_id']
  conv_rhs => rw [← List.zipIdx_map_fst 0 (normalLines content), List.flatMap_map]

theorem length_collapsedHits (content find : List Char) :
    (collapsedHits content find).length =
      (occurrences (collapse content) (collapse find)).length := by
  simp only [collapsedHits, map_snd_numberedWords, List.length_map]
  rfl

theorem length_hits_of_normal (h : occurrences (normalize content) (normalize find) ≠ [])
    (hw : words find ≠ []) :
    (hits content find).length = (occurrences (normalize content) (normalize find)).length := by
  have hblank : ¬ allBlank (normalize find) = true := by
    rwa [← words_eq_nil_iff, words_normalize]
  have hlen : (normalHits content find).length =
      (occurrences (normalize content) (normalize find)).length := by
    simp only [normalHits, if_neg hblank, List.length_map]
  unfold hits
  split
  · rename_i hnil
    rw [hnil] at hlen
    exact absurd (List.length_eq_zero_iff.mp hlen.symm) h
  · exact hlen

theorem length_hits_of_collapsed (h : occurrences (normalize content) (normalize find) = []) :
    (hits content find).length = (occurrences (collapse content) (collapse find)).length := by
  have hnil : normalHits content find = [] := by
    simp only [normalHits, h]
    split_ifs <;> rfl
  rw [hits, hnil, length_collapsedHits]

theorem eq_of_length_eq_one {α : Type} {l : List α} {a b : α} (h : l.length = 1) (ha : a ∈ l)
    (hb : b ∈ l) : a = b := by
  obtain ⟨c, rfl⟩ := List.length_eq_one_iff.mp h
  rw [List.mem_singleton.mp ha, List.mem_singleton.mp hb]

/-- An anchor names a range of lines only if that is the only one, and holds the only occurrence. -/
theorem exists_hit_of_uniqueRange {range : LineRange} (h : uniqueRange content find = .ok range) :
    ∃ hit, hits content find = [hit] ∧ locateLines content find = [range] ∧
      range.covers hit = true := by
  unfold uniqueRange at h
  split at h
  · rename_i hit hhits
    rw [List.partition_eq_filter_filter] at h
    simp only at h
    split at h
    · rename_i range' hholding hothers
      cases h
      have hall : (locateLines content find).filter (·.covers hit) = locateLines content find := by
        rw [List.filter_eq_self]
        intro r hr
        have hnone := List.filter_eq_nil_iff.mp (List.length_eq_zero_iff.mp hothers) r hr
        simpa using hnone
      have hmem : range ∈ (locateLines content find).filter (·.covers hit) := by
        rw [hholding]
        exact List.mem_singleton_self range
      exact ⟨hit, hhits, by rw [← hall, hholding], (List.mem_filter.mp hmem).2⟩
    · cases h
    · cases h
  · cases h

/-- A range of lines that is the only one, and holds the only occurrence, is named. -/
theorem uniqueRange_of_covers {hit range : LineRange} (hhits : hits content find = [hit])
    (hlocate : locateLines content find = [range]) (hcovers : range.covers hit = true) :
    uniqueRange content find = .ok range := by
  simp [uniqueRange, hhits, hlocate, List.partition_eq_filter_filter, hcovers]

/-- An anchor names a range of lines only if both counts are one. -/
theorem of_uniqueRange {range : LineRange} (h : uniqueRange content find = .ok range) :
    (hits content find).length = 1 ∧ locateLines content find = [range] := by
  obtain ⟨hit, hhits, hlocate, _⟩ := exists_hit_of_uniqueRange h
  rw [hhits]
  exact ⟨rfl, hlocate⟩

/-! ## The window that is found, and the others -/

/-- The span of the window at line `i`, with the terminator of the last line only if the anchor ends
with one. -/
def IsSpanAt (content find : List Char) (i : Nat) (span : Span) : Prop :=
  ∃ first last, (lineSpans content)[i]? = some first ∧
    (lineSpans content)[i + (anchorLines find).length - 1]? = some last ∧
    span = ⟨first.start,
      if endsWithTerminator find then terminatorEnd content last.stop else last.stop⟩

/-- A window that agrees with the anchor just as well as the one at line `i`, and that neither count
sees. -/
inductive Overlooked (content find : List Char) (i : Nat) : Prop where
  /-- The search for whole lines goes on after the window that it found, and the normal form of the
  anchor ends with a line feed where that of the content is at its end. -/
  | unterminated (j : Nat) (window : WindowAt SameLine content find j) (after : i < j)
    (overlaps : j < i + (anchorLines find).length)
    (atEnd : j + (anchorLines find).length = (lines content).length)
    (terminated : endsWithTerminator find = true)
    (not_terminated : endsWithTerminator content = false)
  /-- The normal form of the anchor stands in that of the content, though not as whole lines, so
  that the words are not counted. The window overlaps the one that is found, or has tabs that the
  search without indentation does not expand. -/
  | uncounted (j : Nat) (none : ∀ k, ¬ WindowAt SameLine content find k)
    (window : WindowAt SameUnindented content find j) (ne : j ≠ i)
    (occurs : normalize find <:+: normalize content)
    (missed : (i < j ∧ j < i + (anchorLines find).length) ∨ TabInside content find j)

theorem Overlooked.exists_ne (h : Overlooked content find i) :
    ∃ j, MatchesAt content find j ∧ j ≠ i := by
  cases h with
  | unterminated j window after _ _ _ _ => exact ⟨j, Or.inl window, by omega⟩
  | uncounted j none window ne _ _ => exact ⟨j, Or.inr ⟨none, window⟩, ne⟩

/-- Of two windows that agree exactly, the first is an occurrence of the normal form, and so is the
second unless the text ends with it and without a terminator. -/
theorem overlooked_of_exact (hw : words find ≠ []) (hcount : (hits content find).length = 1)
    (hi : WindowAt SameLine content find i) (hj : WindowAt SameLine content find j) (hij : i < j)
    (hlt : j < i + (anchorLines find).length) : Overlooked content find i := by
  have hfits := hj.fits
  have hlen : (normalLines content).length =
      (lines content).length + (openLine content).length := by
    rw [normalLines_eq, List.length_append, List.length_map]
  have hocc : offsetAfter '\n' ((normalLines content).take i) ∈
      occurrences (normalize content) (normalize find) := by
    refine normal_occurrence hw hi fun _ hnil => ?_
    rw [List.drop_eq_nil_iff] at hnil
    omega
  rw [length_hits_of_normal (List.ne_nil_of_mem hocc) hw] at hcount
  have hnot : ¬ (endsWithTerminator find = true →
      (normalLines content).drop (j + (anchorLines find).length) ≠ []) := by
    intro hmore
    have heq := eq_of_length_eq_one hcount hocc (normal_occurrence hw hj hmore)
    have hne := normal_offset_lt hij (by omega : j ≤ (lines content).length)
    omega
  push Not at hnot
  obtain ⟨hterminated, hnil⟩ := hnot
  rw [List.drop_eq_nil_iff] at hnil
  have hopen : endsWithTerminator content = false := by
    by_contra hcontent
    have hone : openLine content = [[]] := by simp [openLine, hcontent]
    rw [hone, List.length_singleton] at hlen
    omega
  exact .unterminated j hj hij hlt (by omega) hterminated hopen

/-- Windows that agree but for indentation are occurrences of the words, which count if the normal
form of the anchor stands nowhere. -/
theorem normal_occurs_of_unindented (hw : words find ≠ []) (hcount : (hits content find).length = 1)
    (hi : WindowAt SameUnindented content find i) (hj : WindowAt SameUnindented content find j)
    (hne : j ≠ i) : normalize find <:+: normalize content := by
  rcases hocc : occurrences (normalize content) (normalize find) with _ | ⟨offset, offsets⟩
  · rw [length_hits_of_collapsed hocc] at hcount
    have heq := eq_of_length_eq_one hcount (collapsed_occurrence hw hi) (collapsed_occurrence hw hj)
    rcases Nat.lt_or_gt_of_ne hne with hlt | hlt
    · have := collapsed_offset_lt hw hj hi hlt
      omega
    · have := collapsed_offset_lt hw hi hj hlt
      omega
  · have hmem : offset ∈ occurrences (normalize content) (normalize find) := by
      rw [hocc]
      exact List.mem_cons_self
    obtain ⟨_, before, after, htext, _⟩ := mem_occurrences_iff.mp hmem
    exact ⟨before, after, htext.symm⟩

theorem isSpanAt_rangeSpan {same : List Char → List Char → Prop}
    (h : WindowAt same content find i) : IsSpanAt content find i
      (rangeSpan content find ⟨i, i + (anchorLines find).length - 1⟩) := by
  have hfits := h.fits
  have hlen : (lineSpans content).length = (lines content).length := length_spansFrom _ _
  have hpos := List.length_pos_iff.mpr (anchorLines_ne_nil find)
  have hfirst : i < (lineSpans content).length := by omega
  have hlast : i + (anchorLines find).length - 1 < (lineSpans content).length := by omega
  refine ⟨_, _, List.getElem?_eq_getElem hfirst, List.getElem?_eq_getElem hlast, ?_⟩
  simp only [rangeSpan, List.getElem?_eq_getElem hfirst, List.getElem?_eq_getElem hlast,
    Option.map_some, Option.getD_some]

end Anchor

open Anchor

/-- What a lenient anchor names is a window of lines that agrees with it, and no other window does
unless it is one of those that both counts overlook. -/
theorem fuzzy_anchor_unique_iff {path content find : String} {span : Span}
    (h : locateUnique path content find .fuzzy = .ok span) :
    ∃ i, MatchesAt content.toList find.toList i ∧ IsSpanAt content.toList find.toList i span ∧
      ((∀ j, MatchesAt content.toList find.toList j → j = i) ↔
        ¬ Overlooked content.toList find.toList i) := by
  simp only [locateUnique] at h
  split at h
  swap
  · cases h
  rename_i range hrange
  cases h
  obtain ⟨hcount, hlocate⟩ := of_uniqueRange hrange
  obtain ⟨hw, i, rfl, hi, hothers⟩ := locateLines_eq_singleton hlocate
  have hspan : IsSpanAt content.toList find.toList i (rangeSpan content.toList find.toList
      ⟨i, i + (anchorLines find.toList).length - 1⟩) := by
    rcases hi with hi | ⟨_, hi⟩
    · exact isSpanAt_rangeSpan hi
    · exact isSpanAt_rangeSpan hi
  refine ⟨i, hi, hspan, fun hunique hover => ?_, fun hno j hj => ?_⟩
  · obtain ⟨j, hj, hne⟩ := hover.exists_ne
    exact hne (hunique j hj)
  · by_contra hne
    apply hno
    rcases hj with hj | ⟨hnone, hj⟩
    · have hexact : WindowAt SameLine content.toList find.toList i :=
        hi.resolve_right fun hi => hi.1 j hj
      rcases hothers j (Or.inl hj) with ⟨hle, hlt⟩ | ⟨hnone, _⟩
      · exact overlooked_of_exact hw hcount hexact hj (by omega) hlt
      · exact absurd hj (hnone j)
    · have hindented := (hi.resolve_left (hnone i)).2
      have hoccurs := normal_occurs_of_unindented hw hcount hindented hj hne
      refine .uncounted j hnone hj hne hoccurs ?_
      rcases hothers j (Or.inr ⟨hnone, hj⟩) with ⟨hle, hlt⟩ | ⟨_, htab⟩
      · exact Or.inl ⟨by omega, hlt⟩
      · exact Or.inr htab

/-- An anchor whose indentation is that of a line with a tab. -/
theorem fuzzy_anchor_unique_iff_indented :
    locateUnique "f" "x\n\ty \n" "    y" .fuzzy = .ok ⟨2, 5⟩ ∧
      ∃ i, MatchesAt "x\n\ty \n".toList "    y".toList i ∧
        ((∀ j, MatchesAt "x\n\ty \n".toList "    y".toList j → j = i) ↔
          ¬ Overlooked "x\n\ty \n".toList "    y".toList i) := by
  have hnamed : locateUnique "f" "x\n\ty \n" "    y" .fuzzy = .ok ⟨2, 5⟩ := by decide +kernel
  obtain ⟨i, hi, _, hunique⟩ := fuzzy_anchor_unique_iff hnamed
  exact ⟨hnamed, i, hi, hunique⟩

/-- Three anchors that name a place although two windows agree with them: where the windows overlap
at a last line without terminator, where they overlap but for indentation, and where a line has a
tab between its letters. -/
theorem fuzzy_anchor_not_unique :
    (locateUnique "f" "a\na\na" "a\na\n" .fuzzy = .ok ⟨0, 4⟩ ∧
      MatchesAt "a\na\na".toList "a\na\n".toList 0 ∧
      MatchesAt "a\na\na".toList "a\na\n".toList 1) ∧
    (locateUnique "f" "  )\n)\n  )\n" ")\n)" .fuzzy = .ok ⟨0, 5⟩ ∧
      MatchesAt "  )\n)\n  )\n".toList ")\n)".toList 0 ∧
      MatchesAt "  )\n)\n  )\n".toList ")\n)".toList 1) ∧
    locateUnique "f" "a\tb\n    a    b\n" "  a\tb" .fuzzy = .ok ⟨4, 14⟩ ∧
      MatchesAt "a\tb\n    a    b\n".toList "  a\tb".toList 0 ∧
      MatchesAt "a\tb\n    a    b\n".toList "  a\tb".toList 1 := by
  refine ⟨⟨?_, ?_, ?_⟩, ⟨?_, ?_, ?_⟩, ?_, ?_, ?_⟩ <;> decide +kernel

end Anchored
