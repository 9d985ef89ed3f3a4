import Anchored.Anchor
import Anchored.Proofs.Text.Lines

/-!
# Windows of lines

A window is a run of lines of a text that is as long as an anchor. The search for whole lines finds
windows only (`mem_scan`), and misses one only if it overlaps a window that it finds
(`exists_mem_scan`).
-/

namespace Anchored.Anchor

open Text

variable {content find : List Char} {i j : Nat}

/-! ## The lines of an anchor -/

theorem normalLines_eq_anchorLines (find : List Char) :
    normalLines find = anchorLines find ++ if endsWithTerminator find then [[]] else [] := by
  unfold anchorLines
  by_cases h : endsWithTerminator find = true
  · have hopen : openLine find = [[]] := by simp [openLine, h]
    rw [if_pos h, if_pos h, normalLines_eq, hopen, List.dropLast_concat]
  · rw [if_neg h, if_neg h, List.append_nil]

theorem normalLines_of_open (h : endsWithTerminator find = false) :
    normalLines find = anchorLines find := by
  rw [normalLines_eq_anchorLines, h]
  exact List.append_nil _

theorem anchorLines_ne_nil (find : List Char) : anchorLines find ≠ [] := by
  unfold anchorLines
  by_cases h : endsWithTerminator find = true
  · have hopen : openLine find = [[]] := by simp [openLine, h]
    have hfind : find ≠ [] := by
      rintro rfl
      cases h
    rw [if_pos h, normalLines_eq, hopen, List.dropLast_concat, ne_eq, List.map_eq_nil_iff]
    exact lines_ne_nil hfind
  · rw [if_neg h]
    exact normalLines_ne_nil find

/-- An anchor has the words of its lines. -/
theorem flatMap_words_anchorLines (find : List Char) :
    (anchorLines find).flatMap words = words find := by
  have h := flatMap_words_normalLines find
  rw [normalLines_eq_anchorLines, List.flatMap_append] at h
  rw [← h]
  split_ifs <;> simp

theorem all_allBlank_anchorLines_iff (find : List Char) :
    (anchorLines find).all allBlank = true ↔ words find = [] := by
  rw [← flatMap_words_anchorLines, List.flatMap_eq_nil_iff, List.all_eq_true]
  simp only [words_eq_nil_iff]

theorem tab_not_mem_anchorLines {wanted : List Char} (h : wanted ∈ anchorLines find) :
    '\t' ∉ wanted := by
  have hmem : wanted ∈ normalLines find := by
    rw [normalLines_eq_anchorLines]
    exact List.mem_append_left _ h
  obtain ⟨piece, _, rfl⟩ := List.mem_map.mp hmem
  obtain ⟨b, _, hb⟩ := exists_trimEnd (expandTabs piece)
  intro htab
  have hexp : '\t' ∈ expandTabs piece := by
    rw [hb]
    exact List.mem_append_left b htab
  rcases mem_expandTabs hexp with hc | ⟨hc, _⟩
  · cases hc
  · exact hc rfl

/-! ## Windows that agree with an anchor -/

/-- The line is the wanted one with tabs expanded and without the blanks at its end. -/
def SameLine (line wanted : List Char) : Prop :=
  normalLine line = wanted

/-- The line is the wanted one, whatever its indentation. -/
def SameUnindented (line wanted : List Char) : Prop :=
  trimStart (normalLine line) = trimStart wanted

/-- The lines of `content` from line `i` on agree with those of `find`, one by one. -/
structure WindowAt (same : List Char → List Char → Prop) (content find : List Char) (i : Nat) :
    Prop where
  fits : i + (anchorLines find).length ≤ (lines content).length
  agree : ∀ k line wanted, (lines content)[i + k]? = some line →
    (anchorLines find)[k]? = some wanted → same line.text wanted

/-- Every line of an anchor has its line in a window that agrees. -/
theorem WindowAt.exists_line {same : List Char → List Char → Prop} {k : Nat} {wanted : List Char}
    (h : WindowAt same content find i) (hw : (anchorLines find)[k]? = some wanted) :
    ∃ line, (lines content)[i + k]? = some line ∧ same line.text wanted := by
  have hline : i + k < (lines content).length := by
    obtain ⟨hk, _⟩ := List.getElem?_eq_some_iff.mp hw
    have := h.fits
    omega
  exact ⟨_, List.getElem?_eq_getElem hline, h.agree k _ _ (List.getElem?_eq_getElem hline) hw⟩

/-- What lines that agree have in common, a window has in common with the anchor. -/
theorem WindowAt.map_lines {same : List Char → List Char → Prop} {β : Type} {f : Line → β}
    {g : List Char → β} (h : WindowAt same content find i)
    (hfg : ∀ (line : Line) wanted, same line.text wanted → f line = g wanted) :
    (((lines content).drop i).take (anchorLines find).length).map f =
      (anchorLines find).map g := by
  apply List.ext_getElem?
  intro k
  rw [List.getElem?_map, List.getElem?_map, List.getElem?_take, List.getElem?_drop]
  split_ifs with hk
  · have hw := List.getElem?_eq_getElem hk
    obtain ⟨line, hline, hsame⟩ := h.exists_line hw
    rw [hline, hw, Option.map_some, Option.map_some, hfg line _ hsame]
  · rw [List.getElem?_eq_none (by omega), Option.map_none, Option.map_none]

/-- Some line of the window at line `i` has a tab between its letters. -/
def TabInside (content find : List Char) (i : Nat) : Prop :=
  ∃ k line, k < (anchorLines find).length ∧ (lines content)[i + k]? = some line ∧
    '\t' ∈ trim line.text

/-- The window at line `i` agrees with the anchor: with tabs expanded and without the blanks at the
ends of lines if some window does, otherwise whatever the indentation. -/
def MatchesAt (content find : List Char) (i : Nat) : Prop :=
  WindowAt SameLine content find i ∨
    (∀ j, ¬ WindowAt SameLine content find j) ∧ WindowAt SameUnindented content find i

theorem agrees_iff {line wanted : List Char} :
    agrees line wanted = true ↔ SameLine line wanted := by
  simp [agrees, SameLine, normalLine]

/-- What the search compares without indentation are lines with their tabs. -/
theorem agreesUnindented_iff {line wanted : List Char} (h : '\t' ∉ wanted) :
    agreesUnindented line wanted = true ↔ SameUnindented line wanted ∧ '\t' ∉ trim line := by
  have hstart : '\t' ∉ trimStart wanted := fun htab =>
    h ((List.dropWhile_sublist isBlank).subset htab)
  simp only [agreesUnindented, SameUnindented, beq_iff_eq, normalLine, trimStart_trimEnd,
    trim_expandTabs]
  constructor
  · intro he
    have htab : '\t' ∉ trim line := by rwa [he]
    exact ⟨(expandTabs_of_not_mem htab).trans he, htab⟩
  · rintro ⟨he, htab⟩
    rwa [expandTabs_of_not_mem htab] at he

/-! ## The search for windows -/

theorem windowAgrees_iff {agree : List Char → List Char → Bool} {wanted lines : List (List Char)} :
    windowAgrees agree wanted lines = true ↔ wanted.length ≤ lines.length ∧
      ∀ (k : Nat) line want, lines[k]? = some line → wanted[k]? = some want →
        agree line want = true := by
  simp only [windowAgrees, Bool.and_eq_true, decide_eq_true_eq, List.all_eq_true, Prod.forall]
  constructor
  · rintro ⟨hlen, h⟩
    refine ⟨hlen, fun k line want hl hw => h line want ?_⟩
    exact List.mem_of_getElem? (List.getElem?_zip_eq_some.mpr ⟨hl, hw⟩)
  · rintro ⟨hlen, h⟩
    refine ⟨hlen, fun line want hmem => ?_⟩
    obtain ⟨k, hk⟩ := List.getElem?_of_mem hmem
    obtain ⟨hl, hw⟩ := List.getElem?_zip_eq_some.mp hk
    exact h k line want hl hw

section Scan

variable {agree : List Char → List Char → Bool} {wanted lines : List (List Char)} {n : Nat}

theorem drop_cons_add (hw : wanted ≠ []) (line : List Char) (rest : List (List Char)) (j : Nat) :
    (line :: rest).drop (wanted.length + j) = (rest.drop (wanted.length - 1)).drop j := by
  have hpos := List.length_pos_iff.mpr hw
  rw [List.drop_drop, show wanted.length + j = (wanted.length - 1 + j) + 1 by omega,
    List.drop_succ_cons]

theorem mem_scan {r : LineRange} (h : r ∈ scan agree wanted n lines) :
    ∃ i, r = ⟨n + i, n + i + wanted.length - 1⟩ ∧
      windowAgrees agree wanted (lines.drop i) = true := by
  fun_induction scan agree wanted n lines with
  | case1 n => cases h
  | case2 n line rest hit ih =>
    rw [if_pos hit] at h
    rcases List.mem_cons.mp h with rfl | h
    · exact ⟨0, rfl, hit.2⟩
    · obtain ⟨i, rfl, hi⟩ := ih h
      refine ⟨wanted.length + i, by rw [Nat.add_assoc], ?_⟩
      rwa [drop_cons_add hit.1]
  | case3 n line rest miss ih =>
    rw [if_neg miss] at h
    obtain ⟨i, rfl, hi⟩ := ih h
    refine ⟨i + 1, ?_, by rwa [List.drop_succ_cons]⟩
    rw [show n + (i + 1) = n + 1 + i by omega]

/-- A window that agrees overlaps one that is found. -/
theorem exists_mem_scan (n : Nat) (hw : wanted ≠ []) {j : Nat}
    (h : windowAgrees agree wanted (lines.drop j) = true) :
    ∃ i, i ≤ j ∧ j < i + wanted.length ∧
      ⟨n + i, n + i + wanted.length - 1⟩ ∈ scan agree wanted n lines := by
  have hpos := List.length_pos_iff.mpr hw
  fun_induction scan agree wanted n lines generalizing j with
  | case1 n =>
    have := (windowAgrees_iff.mp h).1
    simp at this
    exact absurd this hw
  | case2 n line rest hit ih =>
    rw [if_pos hit]
    by_cases hj : j < wanted.length
    · exact ⟨0, Nat.zero_le j, by omega, List.mem_cons_self⟩
    · rw [show j = wanted.length + (j - wanted.length) by omega, drop_cons_add hit.1] at h
      obtain ⟨i, hle, hlt, hmem⟩ := ih h
      refine ⟨wanted.length + i, by omega, by omega, List.mem_cons_of_mem _ ?_⟩
      rwa [← Nat.add_assoc]
  | case3 n line rest miss ih =>
    rw [if_neg miss]
    rcases j with _ | j
    · exact absurd ⟨hw, h⟩ miss
    · rw [List.drop_succ_cons] at h
      obtain ⟨i, hle, hlt, hmem⟩ := ih h
      refine ⟨i + 1, by omega, by omega, ?_⟩
      rwa [show n + (i + 1) = n + 1 + i by omega]

end Scan

theorem windowAgrees_texts_iff {agree : List Char → List Char → Bool} :
    windowAgrees agree (anchorLines find) (((lines content).map (·.text)).drop i) = true ↔
      WindowAt (fun line wanted => agree line wanted = true) content find i := by
  have hpos := List.length_pos_iff.mpr (anchorLines_ne_nil find)
  rw [windowAgrees_iff, List.length_drop, List.length_map]
  constructor
  · rintro ⟨hlen, h⟩
    refine ⟨by omega, fun k line wanted hl hw => h k line.text wanted ?_ hw⟩
    rw [List.getElem?_drop, List.getElem?_map, hl]
    rfl
  · rintro ⟨hfits, h⟩
    refine ⟨by omega, fun k text wanted hl hw => ?_⟩
    rw [List.getElem?_drop, List.getElem?_map] at hl
    obtain ⟨line, hline, rfl⟩ := Option.map_eq_some_iff.mp hl
    exact h k line wanted hline hw

theorem windowAt_agrees_iff :
    WindowAt (fun line wanted => agrees line wanted = true) content find i ↔
      WindowAt SameLine content find i := by
  simp only [agrees_iff]

theorem windowAt_agreesUnindented_iff :
    WindowAt (fun line wanted => agreesUnindented line wanted = true) content find i ↔
      WindowAt SameUnindented content find i ∧ ¬ TabInside content find i := by
  constructor
  · rintro ⟨hfits, h⟩
    refine ⟨⟨hfits, fun k line wanted hl hw => ?_⟩, ?_⟩
    · have htab := tab_not_mem_anchorLines (List.mem_of_getElem? hw)
      exact ((agreesUnindented_iff htab).mp (h k line wanted hl hw)).1
    · rintro ⟨k, line, hk, hl, hmem⟩
      have hw := List.getElem?_eq_getElem hk
      have htab := tab_not_mem_anchorLines (List.mem_of_getElem? hw)
      exact ((agreesUnindented_iff htab).mp (h k line _ hl hw)).2 hmem
  · rintro ⟨⟨hfits, h⟩, hno⟩
    refine ⟨hfits, fun k line wanted hl hw => ?_⟩
    have htab := tab_not_mem_anchorLines (List.mem_of_getElem? hw)
    obtain ⟨hk, _⟩ := List.getElem?_eq_some_iff.mp hw
    exact (agreesUnindented_iff htab).mpr ⟨h k line wanted hl hw, fun hmem =>
      hno ⟨k, line, hk, hl, hmem⟩⟩

instance {line wanted : List Char} : Decidable (SameLine line wanted) :=
  inferInstanceAs (Decidable (_ = _))

instance {line wanted : List Char} : Decidable (SameUnindented line wanted) :=
  inferInstanceAs (Decidable (_ = _))

instance {same : List Char → List Char → Prop} [∀ line wanted, Decidable (same line wanted)] :
    Decidable (WindowAt same content find i) :=
  decidable_of_iff (windowAgrees (fun line wanted => decide (same line wanted)) (anchorLines find)
    (((lines content).map (·.text)).drop i) = true)
    (by simp only [windowAgrees_texts_iff, decide_eq_true_eq])

theorem WindowAt.lt_length {same : List Char → List Char → Prop}
    (h : WindowAt same content find i) : i < (lines content).length := by
  have := h.fits
  have := List.length_pos_iff.mpr (anchorLines_ne_nil find)
  omega

instance : Decidable (MatchesAt content find i) :=
  decidable_of_iff (WindowAt SameLine content find i ∨
    (∀ j < (lines content).length, ¬ WindowAt SameLine content find j) ∧
      WindowAt SameUnindented content find i)
    (or_congr_right (and_congr_left' ⟨fun h j hj => h j hj.lt_length hj, fun h j _ => h j⟩))

/-- A search that finds one window finds one that agrees, and all others that agree overlap it. -/
theorem scan_eq_singleton {agree : List Char → List Char → Bool} {range : LineRange}
    (h : scan agree (anchorLines find) 0 ((lines content).map (·.text)) = [range]) :
    ∃ i, range = ⟨i, i + (anchorLines find).length - 1⟩ ∧
      WindowAt (fun line wanted => agree line wanted = true) content find i ∧
      ∀ j, WindowAt (fun line wanted => agree line wanted = true) content find j →
        i ≤ j ∧ j < i + (anchorLines find).length := by
  have hmem : range ∈ scan agree (anchorLines find) 0 ((lines content).map (·.text)) := by
    rw [h]
    exact List.mem_singleton_self range
  obtain ⟨i, hr, hi⟩ := mem_scan hmem
  rw [Nat.zero_add] at hr
  refine ⟨i, hr, windowAgrees_texts_iff.mp hi, fun j hj => ?_⟩
  obtain ⟨i', hle, hlt, hfound⟩ :=
    exists_mem_scan 0 (anchorLines_ne_nil find) (windowAgrees_texts_iff.mpr hj)
  rw [h, List.mem_singleton, hr, LineRange.mk.injEq] at hfound
  omega

/-- A search that finds nothing leaves no window that agrees. -/
theorem scan_eq_nil {agree : List Char → List Char → Bool}
    (h : scan agree (anchorLines find) 0 ((lines content).map (·.text)) = []) (j : Nat) :
    ¬ WindowAt (fun line wanted => agree line wanted = true) content find j := by
  intro hj
  obtain ⟨i, _, _, hfound⟩ :=
    exists_mem_scan 0 (anchorLines_ne_nil find) (windowAgrees_texts_iff.mpr hj)
  rw [h] at hfound
  cases hfound

theorem locateLines_of_blank (h : (anchorLines find).all allBlank = true) :
    locateLines content find = [] := by
  simp only [locateLines, if_pos h]

theorem locateLines_of_exact {range : LineRange} {more : List LineRange}
    (hblank : ¬ (anchorLines find).all allBlank = true)
    (h : scan agrees (anchorLines find) 0 ((lines content).map (·.text)) = range :: more) :
    locateLines content find = range :: more := by
  simp only [locateLines, if_neg hblank, h]

theorem locateLines_of_unindented (hblank : ¬ (anchorLines find).all allBlank = true)
    (h : scan agrees (anchorLines find) 0 ((lines content).map (·.text)) = []) :
    locateLines content find =
      scan agreesUnindented (anchorLines find) 0 ((lines content).map (·.text)) := by
  simp only [locateLines, if_neg hblank, h]

/-- A single range of lines is a window that agrees with the anchor. All others that agree overlap
it, or have tabs where the search without indentation does not expand them. -/
theorem locateLines_eq_singleton {range : LineRange} (h : locateLines content find = [range]) :
    words find ≠ [] ∧ ∃ i, range = ⟨i, i + (anchorLines find).length - 1⟩ ∧
      MatchesAt content find i ∧ ∀ j, MatchesAt content find j →
        (i ≤ j ∧ j < i + (anchorLines find).length) ∨
          (∀ k, ¬ WindowAt SameLine content find k) ∧ TabInside content find j := by
  unfold locateLines at h
  simp only at h
  split_ifs at h with hblank
  refine ⟨fun hw => hblank ((all_allBlank_anchorLines_iff find).mpr hw), ?_⟩
  split at h
  · rename_i hnil
    have hnone : ∀ k, ¬ WindowAt SameLine content find k := fun k hk =>
      scan_eq_nil hnil k (windowAt_agrees_iff.mpr hk)
    obtain ⟨i, hr, hi, hall⟩ := scan_eq_singleton h
    refine ⟨i, hr, Or.inr ⟨hnone, (windowAt_agreesUnindented_iff.mp hi).1⟩, fun j hj => ?_⟩
    by_cases htab : TabInside content find j
    · exact Or.inr ⟨hnone, htab⟩
    · rcases hj with hj | ⟨_, hj⟩
      · exact absurd hj (hnone j)
      · exact Or.inl (hall j (windowAt_agreesUnindented_iff.mpr ⟨hj, htab⟩))
  · obtain ⟨i, hr, hi, hall⟩ := scan_eq_singleton h
    have hexact := windowAt_agrees_iff.mp hi
    refine ⟨i, hr, Or.inl hexact, fun j hj => Or.inl ?_⟩
    rcases hj with hj | ⟨hnone, _⟩
    · exact hall j (windowAt_agrees_iff.mpr hj)
    · exact absurd hexact (hnone i)

end Anchored.Anchor
