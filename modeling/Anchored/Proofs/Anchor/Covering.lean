import Anchored.Proofs.Anchor.Images

/-!
# Lenient anchors and exact ones

The range of lines that an anchor names leniently starts at the line on which the exact occurrence
starts: it holds the occurrence in the normal form, and one line more can only come from blanks at
the end of the anchor, which cannot agree with the lines from one line earlier on
(`eq_linesBefore_of_covers`). So a lenient edit is never made at another place than an exact one
would be, and an anchor that is ambiguous to an exact edit is refused (`fuzzy_covers_strict`).
-/

namespace Anchored

namespace Anchor

open Text

variable {content find before after : List Char} {i j : Nat}

/-! ## The end of an anchor -/

theorem endsWithTerminator_concat (init : List Char) (c : Char) :
    endsWithTerminator (init ++ [c]) = true ↔ IsTerminator c := by
  simp [endsWithTerminator, IsTerminator]

theorem normalize_concat (init : List Char) {c : Char} (hc : IsTerminator c) :
    normalize (init ++ [c]) = keptOf init [c] ++ ['\n'] := by
  rw [normalize_append]
  rcases hc with rfl | rfl <;> rfl

/-- The lines of an anchor are those that have ended before its last character, and the line of
that. -/
theorem length_anchorLines (init : List Char) (c : Char) :
    (anchorLines (init ++ [c])).length = linesBefore init [c] + 1 := by
  have hlen := length_normalLines (init ++ [c])
  rw [normalLines_eq_anchorLines, List.length_append] at hlen
  by_cases hc : IsTerminator c
  · rw [if_pos ((endsWithTerminator_concat init c).mpr hc), normalize_concat init hc,
      List.count_append, List.length_singleton, List.count_singleton_self] at hlen
    rw [linesBefore]
    omega
  · have hlast : (normalize [c]).count '\n' = 0 := by
      have := linesBefore_other (fun h => hc (Or.inl h)) (fun h => hc (Or.inr h)) [] []
      rw [← List.append_nil [c], normalize_append, List.count_append]
      exact this
    rw [if_neg (mt (endsWithTerminator_concat init c).mp hc), normalize_append, List.count_append,
      hlast] at hlen
    rw [linesBefore]
    simpa using hlen

/-- No more lines end before the last character of the normal form of an anchor than before its
last line. -/
theorem count_dropLast_normalize_lt (find : List Char) :
    (normalize find).dropLast.count '\n' < (anchorLines find).length := by
  have hlen := length_normalLines find
  rw [normalLines_eq_anchorLines, List.length_append] at hlen
  by_cases hend : endsWithTerminator find = true
  · obtain ⟨init, c, rfl⟩ : ∃ init c, find = init ++ [c] := by
      refine (List.eq_nil_or_concat' find).resolve_left ?_
      rintro rfl
      cases hend
    have hc := (endsWithTerminator_concat init c).mp hend
    rw [if_pos hend, normalize_concat init hc, List.count_append, List.count_singleton_self,
      List.length_singleton] at hlen
    rw [normalize_concat init hc, List.dropLast_concat]
    omega
  · have hle := (normalize find).dropLast_sublist.count_le '\n'
    rw [if_neg hend, List.length_nil] at hlen
    omega

/-! ## The line at which the range starts -/

/-- Where an anchor stands, a line that has ended in its normal form ends a line of the content. -/
theorem exists_image_of_line {k : Nat} {wanted : List Char} (before after : List Char)
    (hk : k < (normalize find).count '\n') (hwanted : (normalLines find)[k]? = some wanted) :
    ∃ x, (normalLines (before ++ find ++ after))[linesBefore before (find ++ after) + k]? =
      some (x ++ wanted) := by
  obtain ⟨more, hmore⟩ := exists_normalize_eq before find after
  rw [← splitWhere_normalize, ← getElem?_splitWhere_append_left _ more hk] at hwanted
  rw [← splitWhere_normalize, hmore, List.append_assoc]
  exact getElem?_splitWhere_append_right _ _ hwanted

section Shift

variable (hopen : endsWithTerminator find = false)
  (hi : WindowAt SameUnindented (before ++ find ++ after) find i)
  (hshift : i + 1 = linesBefore before (find ++ after))

include hopen hi hshift

/-- If the lines one line earlier agree with the anchor, then each line of the anchor is blank if
the next one is. -/
theorem blank_of_next {k : Nat} {wanted next : List Char}
    (hwanted : (anchorLines find)[k]? = some wanted)
    (hnext : (anchorLines find)[k + 1]? = some next) (hblank : words next = []) :
    words wanted = [] := by
  have hlines := normalLines_of_open hopen
  have hk : k < (normalize find).count '\n' := by
    obtain ⟨hlt, _⟩ := List.getElem?_eq_some_iff.mp hnext
    have := length_normalLines find
    rw [hlines] at this
    omega
  obtain ⟨x, hx⟩ := exists_image_of_line before after hk (hlines ▸ hwanted)
  obtain ⟨line, hline, hsame⟩ := hi.exists_line hnext
  rw [← hshift, show i + 1 + k = i + (k + 1) by omega, getElem?_normalLines hline,
    Option.some.injEq] at hx
  have hwords : words (x ++ wanted) = [] := by
    rw [← hx, words_normalLine, words_of_sameUnindented hsame, hblank]
  rw [words_eq_nil_iff, allBlank, List.all_append, Bool.and_eq_true] at hwords
  exact words_eq_nil_iff.mpr hwords.2

/-- The anchor is blank from its last line up. -/
theorem blank_of_shift (hlast : (normalize find).getLast? = some '\n') (n : Nat) {k : Nat}
    {wanted : List Char} (hk : k + n = (normalize find).count '\n')
    (hwanted : (anchorLines find)[k]? = some wanted) : words wanted = [] := by
  have hlines := normalLines_of_open hopen
  induction n generalizing k wanted with
  | zero =>
    have hend := getElem?_normalLines_of_getLast hlast
    rw [Nat.add_zero] at hk
    rw [hlines, ← hk, hwanted, Option.some.injEq] at hend
    rw [hend, words_nil]
  | succ n ih =>
    have hlen := length_normalLines find
    rw [hlines] at hlen
    have hlt : k + 1 < (anchorLines find).length := by omega
    have hnext := List.getElem?_eq_getElem hlt
    exact blank_of_next hopen hi hshift hwanted hnext (ih (by omega) hnext)

/-- Lines one line earlier agree with no anchor that has letters and ends with blank lines. -/
theorem words_eq_nil_of_shift (hlast : (normalize find).getLast? = some '\n') :
    words find = [] := by
  rw [← all_allBlank_anchorLines_iff, List.all_eq_true]
  intro wanted hmem
  obtain ⟨k, hk⟩ := List.getElem?_of_mem hmem
  obtain ⟨hlt, _⟩ := List.getElem?_eq_some_iff.mp hk
  have hlen := length_normalLines find
  rw [normalLines_of_open hopen] at hlen
  have hrest : k + ((normalize find).count '\n' - k) = (normalize find).count '\n' := by omega
  exact words_eq_nil_iff.mp (blank_of_shift hopen hi hshift hlast _ hrest hk)

end Shift

/-- Lines that agree with an anchor and hold the lines of its occurrence start where that does. -/
theorem eq_linesBefore_of_covers (hw : words find ≠ [])
    (hi : WindowAt SameUnindented (before ++ find ++ after) find i)
    (hfirst : i ≤ linesBefore before (find ++ after))
    (hlast : linesBefore before (find ++ after) + (normalize find).dropLast.count '\n' ≤
      i + (anchorLines find).length - 1) :
    i = linesBefore before (find ++ after) := by
  obtain ⟨init, c, hinit⟩ := (List.eq_nil_or_concat' (normalize find)).resolve_left
    (normalize_ne_nil hw)
  have hdrop : (normalize find).dropLast.count '\n' + [c].count '\n' =
      (normalize find).count '\n' := by
    rw [hinit, List.dropLast_concat, List.count_append]
  have hone : [c].count '\n' ≤ 1 := List.count_le_length
  have hlen := length_normalLines find
  rw [normalLines_eq_anchorLines, List.length_append] at hlen
  by_cases hopen : endsWithTerminator find = true
  · rw [if_pos hopen, List.length_singleton] at hlen
    omega
  · -- Only blanks that follow the last terminator give the range a line more than the occurrence.
    rw [if_neg hopen, List.length_nil] at hlen
    by_contra hne
    have hshift : i + 1 = linesBefore before (find ++ after) := by omega
    have hc : c = '\n' := by
      by_contra hc
      have hzero : [c].count '\n' = 0 := List.count_eq_zero_of_not_mem (by simpa using Ne.symm hc)
      omega
    apply hw
    refine words_eq_nil_of_shift (by simpa using hopen) hi hshift ?_
    rw [hinit, hc, List.getLast?_concat]

/-! ## The span -/

/-- The span of lines runs from the start of the first to the end of the last, with or without what
ends it. -/
theorem rangeSpan_eq {first last : Line} (hfirst : (lines content)[i]? = some first)
    (hlast : (lines content)[j]? = some last) :
    rangeSpan content find ⟨i, j⟩ = ⟨sizeOfLines ((lines content).take i),
      sizeOfLines ((lines content).take j) + byteSize last.text +
        if endsWithTerminator find then byteSize last.ending.chars else 0⟩ := by
  simp only [rangeSpan, getElem?_lineSpans, hfirst, hlast, Option.map_some, Option.getD_some,
    terminatorEnd_of_getElem? hlast]
  split_ifs <;> rfl

/-- Where an anchor stands, the lines from its first one on hold it. -/
theorem rangeSpan_covers (hfind : find ≠ []) (hi : i = linesBefore before (find ++ after)) :
    (rangeSpan (before ++ find ++ after) find ⟨i, i + (anchorLines find).length - 1⟩).start ≤
        byteSize before ∧
      byteSize before + byteSize find ≤
        (rangeSpan (before ++ find ++ after) find ⟨i, i + (anchorLines find).length - 1⟩).stop := by
  obtain ⟨first, hfirst, hstart, _⟩ :
      OnLine (lines (before ++ find ++ after)) i (byteSize before) (find.head hfind) := by
    have h := onLine_linesBefore before (find.head hfind) (find.tail ++ after)
    rwa [← List.cons_append, List.cons_head_tail, ← List.append_assoc, ← hi] at h
  obtain ⟨init, c, hinit⟩ := (List.eq_nil_or_concat' find).resolve_left hfind
  have hend : i + (anchorLines find).length - 1 = linesBefore (before ++ init) (c :: after) := by
    rw [hi, hinit, length_anchorLines, linesBefore_append, linesBefore_congr init c after,
      List.append_assoc]
    rfl
  have htext : before ++ init ++ c :: after = before ++ find ++ after := by simp [hinit]
  obtain ⟨last, hlast, _, hstop⟩ := onLine_linesBefore (before ++ init) c after
  rw [htext, ← hend] at hlast hstop
  rw [rangeSpan_eq hfirst hlast]
  refine ⟨hstart, ?_⟩
  have hsize : byteSize find = byteSize init + c.utf8Size := by
    rw [hinit, byteSize_append]
    rfl
  have hterminator : endsWithTerminator find = true ↔ IsTerminator c := by
    rw [hinit, endsWithTerminator_concat]
  simp only [hterminator]
  rw [byteSize_append] at hstop
  omega

theorem windowAt_of_matchesAt (h : MatchesAt content find i) :
    WindowAt SameUnindented content find i := by
  rcases h with ⟨hfits, hagree⟩ | ⟨_, h⟩
  · exact ⟨hfits, fun k line wanted hline hwanted =>
      congrArg trimStart (hagree k line wanted hline hwanted)⟩
  · exact h

/-- The lines that an anchor names hold it wherever it stands. -/
theorem covers_of_uniqueRange {range : LineRange}
    (h : uniqueRange (before ++ find ++ after) find = .ok range) :
    (rangeSpan (before ++ find ++ after) find range).start ≤ byteSize before ∧
      byteSize before + byteSize find ≤ (rangeSpan (before ++ find ++ after) find range).stop := by
  obtain ⟨hit, hhits, hlocate, hcovers⟩ := exists_hit_of_uniqueRange h
  obtain ⟨hw, i, rfl, hi, _⟩ := locateLines_eq_singleton hlocate
  have hfind : find ≠ [] := by
    rintro rfl
    exact hw words_nil
  have hcount : (hits (before ++ find ++ after) find).length = 1 := by rw [hhits]; rfl
  rw [hits_eq_singleton hw hcount, List.singleton_inj] at hhits
  simp only [← hhits, LineRange.covers, Bool.and_eq_true, decide_eq_true_eq] at hcovers
  have hstart := eq_linesBefore_of_covers hw (windowAt_of_matchesAt hi) hcovers.1 hcovers.2
  exact rangeSpan_covers hfind hstart

end Anchor

open Anchor

variable {path content find : String}

/-! ## What is named exactly, and what leniently -/

theorem locateUnique_strict_eq_ok {exact : Span}
    (h : locateUnique path content find .strict = .ok exact) :
    ∃ before after, content.toList = before ++ find.toList ++ after ∧
      exact = ⟨Text.byteSize before, Text.byteSize before + Text.byteSize find.toList⟩ := by
  simp only [locateUnique] at h
  split at h
  · rename_i start hstart
    cases h
    have hmem : start ∈ Text.occurrences content.toList find.toList := by
      rw [hstart]
      exact List.mem_singleton_self start
    obtain ⟨_, before, after, htext, rfl⟩ := Text.mem_occurrences_iff.mp hmem
    exact ⟨before, after, htext, by rw [Text.byteSize_toList]⟩
  · cases h

theorem locateUnique_fuzzy_eq_ok {lenient : Span}
    (h : locateUnique path content find .fuzzy = .ok lenient) :
    ∃ range, uniqueRange content.toList find.toList = .ok range ∧
      lenient = rangeSpan content.toList find.toList range := by
  simp only [locateUnique] at h
  split at h
  · rename_i range hrange
    cases h
    exact ⟨range, hrange, rfl⟩
  · cases h

/-- An empty text has no place that could be named. -/
theorem locateUnique_empty (path find : String) (mode : MatchMode) (span : Span) :
    locateUnique path "" find mode ≠ .ok span := by
  intro h
  cases mode with
  | strict => simp [locateUnique, Text.occurrences, Text.occurrencesFrom] at h
  | fuzzy =>
    obtain ⟨range, hrange, _⟩ := locateUnique_fuzzy_eq_ok h
    obtain ⟨_, _, hlines, _⟩ := exists_hit_of_uniqueRange hrange
    simp [locateLines, Text.lines, scan] at hlines

/-- An anchor that is ambiguous to an exact edit is found more than once. -/
theorem one_lt_countMatches_of_ambiguous {count : Nat} {preview : String}
    (h : locateUnique path content find .strict = .error (.ambiguous path count preview)) :
    1 < countMatches content find .strict := by
  simp only [locateUnique] at h
  split at h
  · cases h
  · rename_i hmany
    rw [countMatches]
    rcases hfound : Text.occurrences content.toList find.toList with _ | ⟨start, _ | ⟨next, more⟩⟩
    · rw [hfound] at h
      cases h
    · exact absurd hfound (hmany start)
    · simp

/-- What an anchor names leniently covers what it names exactly. An anchor with letters is found
leniently at least as often as exactly, and no anchor that is ambiguous to an exact edit names a
place leniently. -/
theorem fuzzy_covers_strict (path content find : String) :
    (∀ exact lenient, locateUnique path content find .strict = .ok exact →
      locateUnique path content find .fuzzy = .ok lenient →
        lenient.start ≤ exact.start ∧ exact.stop ≤ lenient.stop) ∧
    ((∃ c ∈ find.toList, Text.isBlank c = false) →
      countMatches content find .strict ≤ countMatches content find .fuzzy) ∧
    (∀ count preview,
      locateUnique path content find .strict = .error (.ambiguous path count preview) →
        ∀ lenient, locateUnique path content find .fuzzy ≠ .ok lenient) := by
  have hcount (hletter : ∃ c ∈ find.toList, Text.isBlank c = false) :
      countMatches content find .strict ≤ countMatches content find .fuzzy :=
    length_occurrences_le_hits content.toList (Text.words_ne_nil_iff.mpr hletter)
  refine ⟨fun exact lenient hstrict hfuzzy => ?_, hcount,
    fun count preview hstrict lenient hfuzzy => ?_⟩
  · obtain ⟨before, after, htext, rfl⟩ := locateUnique_strict_eq_ok hstrict
    obtain ⟨range, hrange, rfl⟩ := locateUnique_fuzzy_eq_ok hfuzzy
    rw [htext] at hrange ⊢
    exact covers_of_uniqueRange hrange
  · obtain ⟨range, hrange, rfl⟩ := locateUnique_fuzzy_eq_ok hfuzzy
    obtain ⟨hone, hlocate⟩ := of_uniqueRange hrange
    have hletter := Text.words_ne_nil_iff.mp (locateLines_eq_singleton hlocate).1
    have hmany := one_lt_countMatches_of_ambiguous hstrict
    have hle := hcount hletter
    rw [show countMatches content find .fuzzy = 1 from hone] at hle
    omega

/-- An anchor that starts after the indentation and ends within `\r\n`, and one with a letter that
stands on two lines with other blanks at their ends. -/
theorem fuzzy_covers_strict_cut :
    (locateUnique "f" "k\n  a \t\r\nb" "a \t\r" .strict = .ok ⟨4, 8⟩ ∧
      locateUnique "f" "k\n  a \t\r\nb" "a \t\r" .fuzzy = .ok ⟨2, 9⟩ ∧
      2 ≤ 4 ∧ 8 ≤ 9) ∧
    (∃ c ∈ "a ".toList, Text.isBlank c = false) ∧
    countMatches "a \n\ta \r" "a " .strict ≤ countMatches "a \n\ta \r" "a " .fuzzy ∧
    locateUnique "f" "a \n\ta \r" "a " .strict = .error (.ambiguous "f" 2 "a ") ∧
    ∀ lenient, locateUnique "f" "a \n\ta \r" "a " .fuzzy ≠ .ok lenient := by
  have hstrict : locateUnique "f" "k\n  a \t\r\nb" "a \t\r" .strict = .ok ⟨4, 8⟩ := by
    decide +kernel
  have hfuzzy : locateUnique "f" "k\n  a \t\r\nb" "a \t\r" .fuzzy = .ok ⟨2, 9⟩ := by
    decide +kernel
  have hletter : ∃ c ∈ "a ".toList, Text.isBlank c = false := ⟨'a', by decide, by decide⟩
  have hmany : locateUnique "f" "a \n\ta \r" "a " .strict = .error (.ambiguous "f" 2 "a ") := by
    decide +kernel
  have hnamed := (fuzzy_covers_strict "f" "k\n  a \t\r\nb" "a \t\r").1 _ _ hstrict hfuzzy
  obtain ⟨_, hcount, hrefused⟩ := fuzzy_covers_strict "f" "a \n\ta \r" "a "
  exact ⟨⟨hstrict, hfuzzy, hnamed⟩, hletter, hcount hletter, hmany, hrefused 2 "a " hmany⟩

end Anchored
