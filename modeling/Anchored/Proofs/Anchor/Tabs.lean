import Anchored.Proofs.Anchor.Counts
import Anchored.Proofs.Anchor.Spelling

/-!
# Tabs in a content

A tab stands for spaces. With the spaces in its place a content has the same normal form, so the
same occurrences of an anchor, and the same windows agree with the anchor. The search for whole
lines finds the same ranges too, as long as indentation is compared. Without it, tabs inside a line
are compared as they are, and a window that has one is seen only with the spaces (`HiddenAt`). The
answer is the same if there is no such window, or if the anchor is refused anyhow for ranges that do
not hold its occurrence (`tabs_ignored_iff`).
-/

namespace Anchored

namespace Anchor

open Text

variable {content find : List Char} {hit : LineRange}

/-! ## Two searches for windows -/

section Scan

variable {agree agree' : List Char → List Char → Bool} {wanted lines : List (List Char)} {n : Nat}

theorem windowAgrees_map (f : List Char → List Char) :
    windowAgrees agree wanted (lines.map f) =
      windowAgrees (fun line want => agree (f line) want) wanted lines := by
  rw [windowAgrees, windowAgrees, List.length_map, List.zip_map_left, List.all_map]
  rfl

theorem scan_map (f : List Char → List Char) :
    scan agree wanted n (lines.map f) =
      scan (fun line want => agree (f line) want) wanted n lines := by
  fun_induction scan (fun line want => agree (f line) want) wanted n lines with
  | case1 n => rw [List.map_nil, scan]
  | case2 n line rest hit ih =>
    have hit' := hit
    rw [← windowAgrees_map, List.map_cons] at hit'
    rw [if_pos hit, List.map_cons, scan, if_pos hit', ← List.map_drop, ih]
  | case3 n line rest miss ih =>
    have miss' := miss
    rw [← windowAgrees_map, List.map_cons] at miss'
    rw [if_neg miss, List.map_cons, scan, if_neg miss', ih]

/-- A search that sees more windows finds the same ranges if each of the others starts within one of
them. -/
theorem scan_eq_of_overlapped
    (hmore : ∀ j, windowAgrees agree wanted (lines.drop j) = true →
      windowAgrees agree' wanted (lines.drop j) = true)
    (hover : ∀ j, windowAgrees agree' wanted (lines.drop j) = true →
      ¬ windowAgrees agree wanted (lines.drop j) = true →
        ∃ r ∈ scan agree wanted n lines, r.first < n + j ∧ n + j ≤ r.last) :
    scan agree' wanted n lines = scan agree wanted n lines := by
  fun_induction scan agree wanted n lines with
  | case1 n => rw [scan]
  | case2 n line rest hit ih =>
    rw [if_pos hit] at hover ⊢
    rw [scan, if_pos ⟨hit.1, hmore 0 hit.2⟩, ih]
    · intro j hj
      rw [← drop_cons_add hit.1 line] at hj ⊢
      exact hmore _ hj
    · intro j hj hno
      rw [← drop_cons_add hit.1 line] at hj hno
      obtain ⟨r, hr, hfirst, hlast⟩ := hover _ hj hno
      rcases List.mem_cons.mp hr with rfl | hr
      · simp only at hlast
        have := List.length_pos_iff.mpr hit.1
        omega
      · exact ⟨r, hr, by omega, by omega⟩
  | case3 n line rest miss ih =>
    rw [if_neg miss] at hover ⊢
    have hmiss : ¬ (wanted ≠ [] ∧ windowAgrees agree' wanted (line :: rest) = true) := by
      rintro ⟨hw, hnew⟩
      obtain ⟨r, hr, hfirst, _⟩ := hover 0 hnew fun h => miss ⟨hw, h⟩
      obtain ⟨i, rfl, _⟩ := mem_scan hr
      simp only at hfirst
      omega
    rw [scan, if_neg hmiss, ih]
    · exact fun j hj => hmore (j + 1) hj
    · intro j hj hno
      obtain ⟨r, hr, hfirst, hlast⟩ := hover (j + 1) hj hno
      exact ⟨r, hr, by omega, by omega⟩

/-- A window that only the other search sees starts within a range, if both find the same ranges. -/
theorem overlapped_of_scan_eq (hw : wanted ≠ [])
    (h : scan agree' wanted n lines = scan agree wanted n lines) {j : Nat}
    (hnew : windowAgrees agree' wanted (lines.drop j) = true)
    (hno : ¬ windowAgrees agree wanted (lines.drop j) = true) :
    ∃ r ∈ scan agree wanted n lines, r.first < n + j ∧ n + j ≤ r.last := by
  obtain ⟨i, hle, hlt, hmem⟩ := exists_mem_scan n hw hnew
  rw [h] at hmem
  have hne : i ≠ j := by
    rintro rfl
    obtain ⟨i', hr, hi'⟩ := mem_scan hmem
    have : i = i' := by
      have := congrArg LineRange.first hr
      simp only at this
      omega
    rw [this] at hno
    exact hno hi'
  refine ⟨_, hmem, ?_, ?_⟩
  · simp only
    omega
  · simp only
    omega

end Scan

/-! ## What the search compares once tabs are expanded -/

theorem agrees_expandTabs (line wanted : List Char) :
    agrees (expandTabs line) wanted = agrees line wanted := by
  rw [agrees, agrees, expandTabs_of_not_mem (tab_not_mem_expandTabs line)]

theorem agreesUnindented_expandTabs_iff {line wanted : List Char} (h : '\t' ∉ wanted) :
    agreesUnindented (expandTabs line) wanted = true ↔ SameUnindented line wanted := by
  have hno : '\t' ∉ trim (expandTabs line) := by
    rw [trim_expandTabs]
    exact tab_not_mem_expandTabs _
  rw [agreesUnindented_iff h, SameUnindented, SameUnindented, normalLine_expandTabs]
  exact and_iff_left hno

theorem windowAt_expanded_iff {j : Nat} :
    WindowAt (fun line wanted => agreesUnindented (expandTabs line) wanted = true) content find j ↔
      WindowAt SameUnindented content find j := by
  constructor
  · rintro ⟨hfits, h⟩
    refine ⟨hfits, fun k line wanted hline hwanted => ?_⟩
    have htab := tab_not_mem_anchorLines (List.mem_of_getElem? hwanted)
    exact (agreesUnindented_expandTabs_iff htab).mp (h k line wanted hline hwanted)
  · rintro ⟨hfits, h⟩
    refine ⟨hfits, fun k line wanted hline hwanted => ?_⟩
    have htab := tab_not_mem_anchorLines (List.mem_of_getElem? hwanted)
    exact (agreesUnindented_expandTabs_iff htab).mpr (h k line wanted hline hwanted)

/-! ## Hidden windows -/

/-- The window at line `j` agrees with the anchor but for indentation, and no window agrees with it
indentation included. A tab inside a line keeps the search from seeing the window, which does not
start within a range that is found either. -/
structure HiddenAt (content find : List Char) (j : Nat) : Prop where
  none : ∀ k, ¬ WindowAt SameLine content find k
  window : WindowAt SameUnindented content find j
  tab : TabInside content find j
  apart : ∀ range ∈ locateLines content find, ¬ (range.first < j ∧ j ≤ range.last)

/-- A line with a tab between its letters is not blank, so that the anchor is not either. -/
theorem words_ne_nil_of_tabInside {j : Nat} (hwindow : WindowAt SameUnindented content find j)
    (htab : TabInside content find j) : words find ≠ [] := by
  obtain ⟨k, line, hk, hline, hmem⟩ := htab
  have hwanted := List.getElem?_eq_getElem hk
  have hsame := hwindow.agree k line _ hline hwanted
  intro hnil
  have hblank : words (anchorLines find)[k] = [] := by
    rw [words_eq_nil_iff]
    exact List.all_eq_true.mp ((all_allBlank_anchorLines_iff find).mpr hnil) _
      (List.getElem_mem hk)
  rw [← words_of_sameUnindented hsame, words_eq_nil_iff] at hblank
  have hstart : trimStart line.text = [] := by
    rw [← List.append_nil line.text, trimStart_append hblank]
    rfl
  rw [trim, hstart] at hmem
  cases hmem

theorem texts_expandTabs (content : List Char) :
    (lines (expandTabs content)).map (·.text) = ((lines content).map (·.text)).map expandTabs := by
  rw [lines_expandTabs, List.map_map, List.map_map]
  rfl

theorem scan_agrees_expandTabs (content find : List Char) :
    scan agrees (anchorLines find) 0 ((lines (expandTabs content)).map (·.text)) =
      scan agrees (anchorLines find) 0 ((lines content).map (·.text)) := by
  rw [texts_expandTabs, scan_map]
  simp only [agrees_expandTabs]

/-- Without indentation the search finds other ranges once tabs are expanded if and only if a window
is hidden. -/
theorem scan_agreesUnindented_expandTabs_iff
    (hnone : ∀ k, ¬ WindowAt SameLine content find k)
    (hlocate : locateLines content find =
      scan agreesUnindented (anchorLines find) 0 ((lines content).map (·.text))) :
    scan agreesUnindented (anchorLines find) 0 ((lines (expandTabs content)).map (·.text)) =
        scan agreesUnindented (anchorLines find) 0 ((lines content).map (·.text)) ↔
      ∀ j, ¬ HiddenAt content find j := by
  rw [texts_expandTabs, scan_map]
  constructor
  · intro heq j hj
    have hseen := windowAgrees_texts_iff.mpr (windowAt_expanded_iff.mpr hj.window)
    have hunseen : ¬ windowAgrees agreesUnindented (anchorLines find)
        (((lines content).map (·.text)).drop j) = true := fun h =>
      (windowAt_agreesUnindented_iff.mp (windowAgrees_texts_iff.mp h)).2 hj.tab
    obtain ⟨range, hrange, hfirst, hlast⟩ :=
      overlapped_of_scan_eq (anchorLines_ne_nil find) heq hseen hunseen
    rw [← hlocate] at hrange
    exact hj.apart range hrange ⟨by omega, by omega⟩
  · intro hno
    apply scan_eq_of_overlapped
    · intro j hj
      rw [windowAgrees_texts_iff] at hj ⊢
      exact windowAt_expanded_iff.mpr (windowAt_agreesUnindented_iff.mp hj).1
    · intro j hj hmiss
      rw [windowAgrees_texts_iff] at hj hmiss
      rw [windowAt_expanded_iff] at hj
      have htab : TabInside content find j := by
        by_contra htab
        exact hmiss (windowAt_agreesUnindented_iff.mpr ⟨hj, htab⟩)
      by_contra hapart
      refine hno j ⟨hnone, hj, htab, fun range hrange hin => hapart ?_⟩
      rw [hlocate] at hrange
      exact ⟨range, hrange, by omega, by omega⟩

/-- With tabs expanded the search finds the same ranges unless a window is hidden. -/
theorem locateLines_expandTabs_iff (content find : List Char) :
    locateLines (expandTabs content) find = locateLines content find ↔
      ∀ j, ¬ HiddenAt content find j := by
  by_cases hblank : (anchorLines find).all allBlank = true
  · refine iff_of_true ?_ fun j hj => ?_
    · rw [locateLines_of_blank hblank, locateLines_of_blank hblank]
    · exact words_ne_nil_of_tabInside hj.window hj.tab
        ((all_allBlank_anchorLines_iff find).mp hblank)
  have hexact := scan_agrees_expandTabs content find
  rcases hfound : scan agrees (anchorLines find) 0 ((lines content).map (·.text)) with _ | ⟨r, more⟩
  · have hlocate := locateLines_of_unindented hblank hfound
    have hnone : ∀ k, ¬ WindowAt SameLine content find k := fun k hk =>
      scan_eq_nil hfound k (windowAt_agrees_iff.mpr hk)
    rw [← scan_agreesUnindented_expandTabs_iff hnone hlocate, hlocate,
      locateLines_of_unindented hblank (hexact.trans hfound)]
  · refine iff_of_true ?_ fun j hj => ?_
    · rw [locateLines_of_exact hblank hfound, locateLines_of_exact hblank (hexact.trans hfound)]
    · have hmem : r ∈ scan agrees (anchorLines find) 0 ((lines content).map (·.text)) := by
        rw [hfound]
        exact List.mem_cons_self
      obtain ⟨i, _, hi⟩ := windowAt_of_mem_scan hmem
      exact hj.none i (windowAt_agrees_iff.mp hi)

/-! ## Ranges that do not hold the occurrence -/

/-- The ranges of lines that are found and do not hold the occurrence at `hit`. -/
def strays (content find : List Char) (hit : LineRange) : List LineRange :=
  (locateLines content find).filter (! ·.covers hit)

theorem uniqueRange_of_strays (hhits : hits content find = [hit])
    (h : strays content find hit ≠ []) :
    uniqueRange content find = .error (1 + (strays content find hit).length) := by
  have hlength : (strays content find hit).length ≠ 0 := mt List.length_eq_zero_iff.mp h
  simp only [strays] at hlength ⊢
  simp only [uniqueRange, hhits, List.partition_eq_filter_filter, Function.comp_def]
  split
  · rename_i hzero
    exact absurd hzero hlength
  · rename_i hzero
    exact absurd hzero hlength
  · rfl

/-- Where no other ranges are found, there is at most one that holds the occurrence. -/
theorem uniqueRange_of_no_strays (hhits : hits content find = [hit])
    (h : strays content find hit = []) :
    locateLines content find = [] ∧ uniqueRange content find = .error 0 ∨
      ∃ range, locateLines content find = [range] ∧ uniqueRange content find = .ok range := by
  have hmem : hit ∈ hits content find := by
    rw [hhits]
    exact List.mem_singleton_self hit
  have hone := length_filter_covers_le (locateLines_pairwise content find) (hits_forward hmem)
  have hcovers : ∀ range ∈ locateLines content find, range.covers hit = true := by
    simpa [strays] using h
  rw [List.filter_eq_self.mpr hcovers] at hone
  rcases hlocate : locateLines content find with _ | ⟨range, _ | ⟨next, more⟩⟩
  · exact Or.inl ⟨rfl, by simp [uniqueRange, hhits, hlocate]⟩
  · have hrange := hcovers range (by simp [hlocate])
    exact Or.inr ⟨range, rfl, uniqueRange_of_covers hhits hlocate hrange⟩
  · rw [hlocate, List.length_cons, List.length_cons] at hone
    omega

/-- Where no other ranges are found, the answer is not the refusal that they would give. -/
theorem uniqueRange_ne_of_no_strays (hhits : hits content find = [hit])
    (h : strays content find hit = []) (n : Nat) : uniqueRange content find ≠ .error (1 + n) := by
  rcases uniqueRange_of_no_strays hhits h with ⟨_, hu⟩ | ⟨_, _, hu⟩
  · rw [hu, ne_eq, Except.error.injEq]
    omega
  · rw [hu]
    exact fun he => by cases he

section Two

variable {content' : List Char} (hhits : hits content find = [hit])
  (hhits' : hits content' find = [hit])

include hhits hhits'

/-- Where no other ranges are found, the answer tells which are found. -/
theorem locateLines_eq_of_no_strays (h : strays content find hit = [])
    (h' : strays content' find hit = [])
    (heq : uniqueRange content' find = uniqueRange content find) :
    locateLines content' find = locateLines content find := by
  rcases uniqueRange_of_no_strays hhits h with ⟨hl, hu⟩ | ⟨range, hl, hu⟩
  · rcases uniqueRange_of_no_strays hhits' h' with ⟨hl', _⟩ | ⟨_, _, hu'⟩
    · rw [hl, hl']
    · rw [hu, hu'] at heq
      cases heq
  · rcases uniqueRange_of_no_strays hhits' h' with ⟨_, hu'⟩ | ⟨range', hl', hu'⟩
    · rw [hu, hu'] at heq
      cases heq
    · rw [hu, hu', Except.ok.injEq] at heq
      rw [hl, hl', heq]

/-- Of two contents with the same single occurrence of an anchor but different ranges, either both
are refused for equally many ranges that do not hold it, or the answers differ. -/
theorem uniqueRange_eq_iff (hne : locateLines content' find ≠ locateLines content find) :
    uniqueRange content' find = uniqueRange content find ↔ strays content find hit ≠ [] ∧
      (strays content' find hit).length = (strays content find hit).length := by
  by_cases h : strays content find hit = []
  · refine iff_of_false (fun heq => ?_) fun hboth => hboth.1 h
    by_cases h' : strays content' find hit = []
    · exact hne (locateLines_eq_of_no_strays hhits hhits' h h' heq)
    · rw [uniqueRange_of_strays hhits' h'] at heq
      exact uniqueRange_ne_of_no_strays hhits h _ heq.symm
  · rw [uniqueRange_of_strays hhits h, ne_eq, and_iff_right h]
    by_cases h' : strays content' find hit = []
    · refine iff_of_false (uniqueRange_ne_of_no_strays hhits' h' _) fun heq => h ?_
      rw [h', List.length_nil, eq_comm] at heq
      exact List.length_eq_zero_iff.mp heq
    · rw [uniqueRange_of_strays hhits' h', Except.error.injEq, Nat.add_left_cancel_iff]

end Two

end Anchor

open Anchor Text

/-- The text with spaces for every tab. -/
def withSpaces (t : String) : String :=
  String.ofList (expandTabs t.toList)

/-- **When tabs do not matter to a lenient search.** With spaces for the tabs of the content the
anchor has as many occurrences. The same lines are named or the same refusal is given unless the
search misses a window for the tabs in it; and even then, if the one occurrence is refused for
ranges that do not hold it, as many with tabs as with spaces. -/
theorem tabs_ignored_iff (path content find : String) :
    countMatches (withSpaces content) find .fuzzy = countMatches content find .fuzzy ∧
      ((∃ answer, AnswersInLines path content find answer ∧
          AnswersInLines path (withSpaces content) find answer) ↔
        (∀ j, ¬ HiddenAt content.toList find.toList j) ∨
          ∀ hit, hits content.toList find.toList = [hit] →
            strays content.toList find.toList hit ≠ [] ∧
              (strays (withSpaces content).toList find.toList hit).length =
                (strays content.toList find.toList hit).length) := by
  have htabs : (withSpaces content).toList = expandTabs content.toList := String.toList_ofList
  have hhits : hits (withSpaces content).toList find.toList = hits content.toList find.toList :=
    hits_congr (by rw [htabs, normalize_expandTabs]) rfl
  refine ⟨by rw [countMatches, countMatches, hhits], ?_⟩
  have hshared : (∃ answer, AnswersInLines path content find answer ∧
      AnswersInLines path (withSpaces content) find answer) ↔
        uniqueRange (withSpaces content).toList find.toList =
          uniqueRange content.toList find.toList := by
    simp only [answersInLines_iff, exists_eq_left]
    exact eq_comm
  rw [hshared, ← locateLines_expandTabs_iff, ← htabs]
  by_cases hlocate : locateLines (withSpaces content).toList find.toList =
      locateLines content.toList find.toList
  · exact iff_of_true (uniqueRange_congr hhits hlocate) (Or.inl hlocate)
  · rw [or_iff_right hlocate]
    by_cases hone : ∃ hit, hits content.toList find.toList = [hit]
    · obtain ⟨hit, hhit⟩ := hone
      rw [uniqueRange_eq_iff hhit (hhits.trans hhit) hlocate, hhit]
      simp only [List.cons.injEq, and_true, forall_eq']
    · refine iff_of_true ?_ fun hit hhit => absurd ⟨hit, hhit⟩ hone
      have hmany (c : List Char) (hc : hits c find.toList = hits content.toList find.toList) :
          uniqueRange c find.toList = .error (hits content.toList find.toList).length := by
        rw [uniqueRange, hc]
        split
        · rename_i hit hhit
          exact absurd ⟨hit, hhit⟩ hone
        · rfl
      rw [hmany _ hhits, hmany _ rfl]

/-- An anchor without the indentation of its line is not found where the line has a tab between its
letters. -/
theorem tabs_not_ignored :
    locateUnique "f" "\ta\tb\n" "a\tb" .fuzzy = .error (.anchorNotFound "f" "a\tb") ∧
      locateUnique "f" (withSpaces "\ta\tb\n") "a\tb" .fuzzy = .ok ⟨0, 10⟩ ∧
      ¬ ∃ answer, AnswersInLines "f" "\ta\tb\n" "a\tb" answer ∧
        AnswersInLines "f" (withSpaces "\ta\tb\n") "a\tb" answer := by
  have htabs : locateUnique "f" "\ta\tb\n" "a\tb" .fuzzy = .error (.anchorNotFound "f" "a\tb") := by
    decide +kernel
  have hspaces : locateUnique "f" (withSpaces "\ta\tb\n") "a\tb" .fuzzy = .ok ⟨0, 10⟩ := by
    decide +kernel
  refine ⟨htabs, hspaces, ?_⟩
  rintro ⟨_, hanswer, hanswer'⟩
  cases hanswer with
  | named _ _ hnamed =>
    rw [htabs] at hnamed
    cases hnamed
  | refused _ _ =>
    cases hanswer' with
    | refused _ hrefused =>
      rw [hspaces] at hrefused
      cases hrefused

end Anchored
