import Anchored.Proofs.Anchor.Counts
import Anchored.Proofs.Anchor.Spelling

/-!
# What the search for whole lines finds

The search takes windows from the top, each after the end of the one before. Of the windows that agree
with an anchor there is one selection in which no two overlap and every other window starts inside a
selected one (`Picks.unique`). The search makes this selection among the windows that agree with the
anchor, indentation included, and, exactly if there are none of these, overlapping ones included,
among the windows that agree but for indentation (`located_ranges`).
-/

namespace Anchored

namespace Anchor

open Text

variable {content find : List Char} {ranges ranges' : List LineRange} {r : LineRange}

/-! ## Selections of windows -/

/-- The ranges are windows of `size` lines for which `P` holds, in order and apart from each other,
and every window for which `P` holds starts in one of them. -/
structure Picks (P : Nat → Prop) (size : Nat) (ranges : List LineRange) : Prop where
  apart : ranges.Pairwise fun r r' => r.last < r'.first
  size_eq : ∀ r ∈ ranges, r.last + 1 = r.first + size
  holds : ∀ r ∈ ranges, P r.first
  meets : ∀ j, P j → ∃ r ∈ ranges, r.first ≤ j ∧ j ≤ r.last

section Picks

variable {P : Nat → Prop} {size j : Nat}

theorem Picks.eq_nil_iff (h : Picks P size ranges) : ranges = [] ↔ ∀ j, ¬ P j := by
  constructor
  · rintro rfl j hj
    obtain ⟨r, hr, _⟩ := h.meets j hj
    cases hr
  · intro hnone
    rcases ranges with _ | ⟨r, rest⟩
    · rfl
    · exact absurd (h.holds r List.mem_cons_self) (hnone r.first)

/-- The first range is the first window. -/
theorem Picks.first_le (h : Picks P size (r :: ranges)) (hj : P j) : r.first ≤ j := by
  obtain ⟨r', hr', hfirst, hlast⟩ := h.meets j hj
  rcases List.mem_cons.mp hr' with rfl | hrest
  · exact hfirst
  · have hlt := (List.pairwise_cons.mp h.apart).1 r' hrest
    have hsize := h.size_eq r List.mem_cons_self
    have hsize' := h.size_eq r' hr'
    omega

/-- The other ranges are selected among the windows after the first one. -/
theorem Picks.tail (h : Picks P size (r :: ranges)) :
    Picks (fun j => P j ∧ r.last < j) size ranges where
  apart := h.apart.of_cons
  size_eq := fun r' hr' => h.size_eq r' (List.mem_cons_of_mem r hr')
  holds := fun r' hr' =>
    ⟨h.holds r' (List.mem_cons_of_mem r hr'), (List.pairwise_cons.mp h.apart).1 r' hr'⟩
  meets := by
    rintro j ⟨hj, hlt⟩
    obtain ⟨r', hr', hfirst, hlast⟩ := h.meets j hj
    rcases List.mem_cons.mp hr' with rfl | hrest
    · omega
    · exact ⟨r', hrest, hfirst, hlast⟩

theorem Picks.unique (h : Picks P size ranges) (h' : Picks P size ranges') : ranges = ranges' := by
  -- Both start with the first window, and go on as selections among the windows after it.
  induction ranges generalizing P ranges' with
  | nil => exact (h'.eq_nil_iff.mpr (h.eq_nil_iff.mp rfl)).symm
  | cons r rest ih =>
    rcases ranges' with _ | ⟨r', rest'⟩
    · exact h.eq_nil_iff.mpr (h'.eq_nil_iff.mp rfl)
    have hfirst : r.first = r'.first := Nat.le_antisymm
      (h.first_le (h'.holds r' List.mem_cons_self)) (h'.first_le (h.holds r List.mem_cons_self))
    have hlast : r.last = r'.last := by
      have hsize := h.size_eq r List.mem_cons_self
      have hsize' := h'.size_eq r' List.mem_cons_self
      omega
    have hrest := h'.tail
    rw [← hlast] at hrest
    rw [ih h.tail hrest, List.cons.injEq]
    refine ⟨?_, rfl⟩
    rcases r with ⟨first, last⟩
    rw [LineRange.mk.injEq]
    exact ⟨hfirst, hlast⟩

end Picks

theorem scan_picks (agree : List Char → List Char → Bool) (content find : List Char) :
    Picks (WindowAt (fun line wanted => agree line wanted = true) content find)
      (anchorLines find).length
      (scan agree (anchorLines find) 0 ((lines content).map (·.text))) where
  apart := scan_pairwise _ _ _ _
  size_eq := by
    intro r hr
    have hpos := List.length_pos_iff.mpr (anchorLines_ne_nil find)
    obtain ⟨i, rfl, _⟩ := windowAt_of_mem_scan hr
    simp only
    omega
  holds := by
    intro r hr
    obtain ⟨i, rfl, hi⟩ := windowAt_of_mem_scan hr
    exact hi
  meets := by
    intro j hj
    obtain ⟨i, hle, hlt, hmem⟩ :=
      exists_mem_scan 0 (anchorLines_ne_nil find) (windowAgrees_texts_iff.mpr hj)
    rw [Nat.zero_add] at hmem
    refine ⟨_, hmem, hle, ?_⟩
    simp only
    omega

/-! ## The two comparisons -/

/-- No line of the text has a letter. -/
def BlankLines (t : List Char) : Prop :=
  ∀ line ∈ lines t, allBlank line.text = true

/-- The ranges of lines that an anchor stands for. -/
inductive Locates (content find : List Char) : List LineRange → Prop where
  /-- An anchor of blank lines stands for no lines, and nothing is compared. -/
  | blank (blank : BlankLines find) : Locates content find []
  /-- Some window agrees with the anchor, indentation included. -/
  | indented (ranges : List LineRange) (letters : ¬ BlankLines find)
    (some : ∃ j, WindowAt SameLine content find j)
    (picks : Picks (WindowAt SameLine content find) (lines find).length ranges) :
    Locates content find ranges
  /-- No window does, overlapping ones included, and indentation is ignored. -/
  | unindented (ranges : List LineRange) (letters : ¬ BlankLines find)
    (none : ∀ j, ¬ WindowAt SameLine content find j)
    (picks : Picks (WindowAt SameTrimmed content find) (lines find).length ranges) :
    Locates content find ranges

theorem all_allBlank_anchorLines_iff_blankLines :
    (anchorLines find).all allBlank = true ↔ BlankLines find := by
  by_cases hfind : find = []
  · subst hfind
    exact iff_of_true ((all_allBlank_anchorLines_iff []).mpr words_nil) (List.forall_mem_nil _)
  · simp only [BlankLines, anchorLines_eq_map_lines hfind, List.all_map, List.all_eq_true,
      Function.comp_apply, ← words_eq_nil_iff, words_normalLine]

theorem locates_locateLines (content find : List Char) :
    Locates content find (locateLines content find) := by
  by_cases hblank : (anchorLines find).all allBlank = true
  · rw [locateLines_of_blank hblank]
    exact .blank (all_allBlank_anchorLines_iff_blankLines.mp hblank)
  have hletters : ¬ BlankLines find := mt all_allBlank_anchorLines_iff_blankLines.mpr hblank
  have hlength : (anchorLines find).length = (lines find).length := by
    have hfind : find ≠ [] := by
      rintro rfl
      exact hletters (List.forall_mem_nil _)
    rw [anchorLines_eq_map_lines hfind, List.length_map]
  have hexact := scan_picks agrees content find
  have hloose := scan_picks agreesUnindented content find
  simp only [agrees_iff, agreesUnindented_iff_sameTrimmed, hlength] at hexact hloose
  rcases hscan : scan agrees (anchorLines find) 0 ((lines content).map (·.text)) with _ | ⟨r, rest⟩
  · rw [locateLines_of_unindented hblank hscan]
    exact .unindented _ hletters (hexact.eq_nil_iff.mp hscan) hloose
  · rw [hscan] at hexact
    rw [locateLines_of_exact hblank hscan]
    exact .indented _ hletters ⟨r.first, hexact.holds r List.mem_cons_self⟩ hexact

theorem Locates.unique (h : Locates content find ranges) (h' : Locates content find ranges') :
    ranges = ranges' := by
  cases h with
  | blank hblank =>
    cases h' with
    | blank _ => rfl
    | indented _ letters _ _ => exact absurd hblank letters
    | unindented _ letters _ _ => exact absurd hblank letters
  | indented _ letters some picks =>
    cases h' with
    | blank hblank => exact absurd hblank letters
    | indented _ _ _ picks' => exact picks.unique picks'
    | unindented _ _ none _ => exact absurd some (not_exists.mpr none)
  | unindented _ letters none picks =>
    cases h' with
    | blank hblank => exact absurd hblank letters
    | indented _ _ some _ => exact absurd some (not_exists.mpr none)
    | unindented _ _ _ picks' => exact picks.unique picks'

/-! ## The spans -/

theorem NamesLines.stop_le_start {span span' : Span} {r' : LineRange}
    (h : NamesLines content find r.first r.last span)
    (h' : NamesLines content find r'.first r'.last span') (hlt : r.last < r'.first) :
    span.stop ≤ span'.start := by
  obtain ⟨tail, line, htail, hline, hstop⟩ := h.stop_eq
  obtain ⟨head, hhead, hstart⟩ := h'.start_eq
  rw [getElem?_lineSpans] at htail hhead
  obtain ⟨_, _, rfl⟩ := Option.map_eq_some_iff.mp hhead
  rw [hline, Option.map_some, Option.some.injEq] at htail
  have hle := sizeOfLines_take_le content (Nat.succ_le_of_lt hlt)
  rw [sizeOfLines_take_succ hline, Line.chars, byteSize_append] at hle
  rw [hstop, hstart, ← htail]
  simp only
  split_ifs
  · omega
  · omega

end Anchor

open Anchor

/-- **What the search for whole lines finds.** For an anchor of blank lines it finds nothing. For any
other anchor it ignores indentation if and only if no window of the content agrees with it,
indentation included. The ranges are windows that agree in this comparison, each as long as the
anchor; they are in order and apart from each other, and every window that agrees overlaps one of
them. No other ranges are like that. The spans that are given for them are those of their lines, in
order and apart as well. -/
theorem located_ranges (content find : String) :
    let ranges := locateLines content.toList find.toList
    (∀ found, Locates content.toList find.toList found ↔ found = ranges) ∧
    List.Forall₂ (fun r span => NamesLines content.toList find.toList r.first r.last span)
      ranges (locate content find) ∧
    (locate content find).Pairwise fun span span' => span.stop ≤ span'.start := by
  intro ranges
  have hlocates : Locates content.toList find.toList ranges := locates_locateLines _ _
  have hnames : ∀ r ∈ ranges, NamesLines content.toList find.toList r.first r.last
      (rangeSpan content.toList find.toList r) := fun r hr => namesLines_of_mem_locateLines hr
  refine ⟨fun found => ⟨fun h => h.unique hlocates, fun h => h ▸ hlocates⟩, ?_, ?_⟩
  · rw [locate, List.forall₂_map_right_iff, List.forall₂_same]
    exact hnames
  · rw [locate, List.pairwise_map]
    exact (locateLines_pairwise content.toList find.toList).imp_of_mem
      fun hr hr' hlt => (hnames _ hr).stop_le_start (hnames _ hr') hlt

/-- Of two windows that overlap, the first is found. -/
example : locateLines "a\n\ta\na\n\ta\na".toList "a\n    a\na".toList = [⟨0, 2⟩] := by
  decide +kernel

end Anchored
