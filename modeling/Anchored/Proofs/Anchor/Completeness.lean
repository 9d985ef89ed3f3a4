import Anchored.Proofs.Anchor.Counts
import Anchored.Proofs.Anchor.WholeLines

/-!
# Lenient anchors that are found

A lenient search may refuse an anchor for reasons that are hard to see in the file. There is one case
in which it does not: where just one window of lines agrees with the anchor, indentation included, and
the normal form of the anchor stands just once in that of the content. The search for whole lines then
finds this window and no other (`locateLines_of_lone`), and the one occurrence lies in it, for it
starts with the window's first line (`hits_of_window`). So the anchor names the window
(`lone_window_named`).
-/

namespace Anchored

namespace Anchor

open Text

variable {content find : List Char} {i : Nat}

/-- The search for whole lines finds the only window that agrees with the anchor: it finds windows
only, and no two of the ranges it finds are the same. -/
theorem locateLines_of_lone (hw : words find ≠ []) (hi : WindowAt SameLine content find i)
    (hlone : ∀ j, WindowAt SameLine content find j → j = i) :
    locateLines content find = [⟨i, i + (anchorLines find).length - 1⟩] := by
  have hblank : ¬ (anchorLines find).all allBlank = true :=
    mt (all_allBlank_anchorLines_iff find).mp hw
  have hall : ∀ range ∈ scan agrees (anchorLines find) 0 ((lines content).map (·.text)),
      range = ⟨i, i + (anchorLines find).length - 1⟩ := by
    intro range hrange
    obtain ⟨j, rfl, hj⟩ := windowAt_of_mem_scan hrange
    rw [hlone j (windowAt_agrees_iff.mp hj)]
  have hapart := scan_pairwise agrees (anchorLines find) 0 ((lines content).map (·.text))
  rcases hscan : scan agrees (anchorLines find) 0 ((lines content).map (·.text)) with
    _ | ⟨range, _ | ⟨next, more⟩⟩
  · exact absurd (windowAt_agrees_iff.mpr hi) (scan_eq_nil hscan i)
  · rw [locateLines_of_exact hblank hscan, hall range (by simp [hscan])]
  · have hpos := List.length_pos_iff.mpr (anchorLines_ne_nil find)
    rw [hscan] at hapart
    have hlt := List.rel_of_pairwise_cons hapart List.mem_cons_self
    rw [hall range (by simp [hscan]), hall next (by simp [hscan])] at hlt
    simp only at hlt
    omega

/-- A single occurrence of an anchor in normal form starts on the first line of a window that agrees
with the anchor. -/
theorem hits_of_window (hw : words find ≠ []) (hi : WindowAt SameLine content find i)
    (hend : endsWithTerminator find = true → endsWithTerminator content = true)
    (hone : (occurrences (normalize content) (normalize find)).length = 1) :
    hits content find = [⟨i, i + (normalize find).dropLast.count '\n'⟩] := by
  have hfits := hi.fits
  have hlen : (normalLines content).length =
      (lines content).length + (openLine content).length := by
    rw [normalLines_eq, List.length_append, List.length_map]
  -- A terminator at the end of the content leaves an empty line behind the window.
  have hmore : endsWithTerminator find = true →
      (normalLines content).drop (i + (anchorLines find).length) ≠ [] := by
    intro hfind hnil
    have hopen : openLine content = [[]] := by simp [openLine, hend hfind]
    rw [List.drop_eq_nil_iff, hlen, hopen, List.length_singleton] at hnil
    omega
  obtain ⟨after, hcut⟩ := exists_normal_cut hi hmore
  have hcount : (((normalLines content).take i).flatMap (· ++ ['\n'])).count '\n' = i := by
    rw [count_flatMap_concat fun line hline =>
      newline_not_mem_of_mem_normalLines (List.mem_of_mem_take hline), List.length_take]
    omega
  rw [hits_of_normal hw hcut hone, hcount]

end Anchor

open Anchor Text

/-- The normal form of a text. -/
def normalForm (t : String) : String :=
  String.ofList (normalize t.toList)

/-- **A lone window is found.** Let an anchor end with a terminator only if the content does, and let
its normal form have a letter and stand at just one place of that of the content. If just one window of
lines of the content has the lines of the anchor, with tabs expanded and without the blanks at their
ends, then the anchor names leniently that window: the lines from `first` on, as many as the anchor
has, with what ends the last of them exactly if the anchor ends with a terminator. -/
theorem lone_window_named (path : String) {content find : String} {first : Nat}
    (hend : endsWithTerminator find.toList = true → endsWithTerminator content.toList = true)
    (hletter : ∃ c ∈ (normalForm find).toList, isBlank c = false)
    (honce : ∃! n, OccursAt (normalForm content) (normalForm find) n)
    (hwindow : WindowAt SameLine content.toList find.toList first)
    (hlone : ∀ j, WindowAt SameLine content.toList find.toList j → j = first) :
    ∃ span, locateUnique path content find .fuzzy = .ok span ∧
      NamesLines content.toList find.toList first (first + (lines find.toList).length - 1) span ∧
      anchorLines find.toList =
        (lines find.toList).map (fun line => trimEnd (expandTabs line.text)) := by
  have hw : words find.toList ≠ [] := by
    rwa [normalForm, String.toList_ofList, ← words_ne_nil_iff, words_normalize] at hletter
  have hfind : find.toList ≠ [] := by
    intro hnil
    rw [hnil] at hw
    exact hw words_nil
  have hlines := anchorLines_eq_map_lines hfind
  have hone : (occurrences (normalize content.toList) (normalize find.toList)).length = 1 := by
    obtain ⟨n, hn, hall⟩ := honce
    have hne : normalForm find ≠ "" := by
      intro he
      rw [he] at hletter
      simp at hletter
    have hocc := occurrences_eq_singleton hne hn hall
    rw [normalForm, normalForm, String.toList_ofList, String.toList_ofList] at hocc
    rw [hocc]
    rfl
  have hcovers : LineRange.covers ⟨first, first + (anchorLines find.toList).length - 1⟩
      ⟨first, first + (normalize find.toList).dropLast.count '\n'⟩ = true := by
    have hlt := count_dropLast_normalize_lt find.toList
    simp only [LineRange.covers, Bool.and_eq_true, decide_eq_true_eq]
    omega
  have hrange := uniqueRange_of_covers (hits_of_window hw hwindow hend hone)
    (locateLines_of_lone hw hwindow hlone) hcovers
  rw [show (anchorLines find.toList).length = (lines find.toList).length by
    rw [hlines, List.length_map]] at hrange
  refine ⟨_, ?_, namesLines_rangeSpan hfind hwindow, hlines⟩
  simp only [locateUnique, hrange]

/-- A block that starts with an empty line, whose lines end otherwise than those of the content. -/
theorem lone_window_named_blank :
    let content := "k\r\n\r\n\tx  \r\n\r\nk\r\n"
    let find := "\n    x\n"
    (endsWithTerminator find.toList = true → endsWithTerminator content.toList = true) ∧
      (∃ c ∈ (normalForm find).toList, isBlank c = false) ∧
      (∃! n, OccursAt (normalForm content) (normalForm find) n) ∧
      WindowAt SameLine content.toList find.toList 1 ∧
      (∀ j, WindowAt SameLine content.toList find.toList j → j = 1) ∧
      ∃ span, locateUnique "f" content find .fuzzy = .ok span ∧
        NamesLines content.toList find.toList 1 2 span := by
  intro content find
  have hend : endsWithTerminator find.toList = true → endsWithTerminator content.toList = true :=
    fun _ => by decide +kernel
  have hletter : ∃ c ∈ (normalForm find).toList, isBlank c = false :=
    ⟨'x', by decide +kernel, by decide⟩
  have honce : ∃! n, OccursAt (normalForm content) (normalForm find) n := by
    have hocc : occurrences (normalForm content).toList (normalForm find).toList = [2] := by
      decide +kernel
    have hn : normalForm find ≠ "" := by decide +kernel
    have hiff (n : Nat) : OccursAt (normalForm content) (normalForm find) n ↔ n = 2 := by
      rw [← List.mem_singleton, ← hocc, mem_occurrences_iff_occursAt, and_iff_right hn]
    exact ⟨2, (hiff 2).mpr rfl, fun n hoccurs => (hiff n).mp hoccurs⟩
  have hwindow : WindowAt SameLine content.toList find.toList 1 := by decide +kernel
  have hlone : ∀ j, WindowAt SameLine content.toList find.toList j → j = 1 := by
    have hlines : ∀ j < (lines content.toList).length,
        WindowAt SameLine content.toList find.toList j → j = 1 := by
      decide +kernel
    exact fun j hj => hlines j hj.lt_length hj
  obtain ⟨span, hspan, hnames, _⟩ := lone_window_named "f" hend hletter honce hwindow hlone
  have hlines : (lines find.toList).length = 2 := by decide +kernel
  rw [hlines] at hnames
  exact ⟨hend, hletter, honce, hwindow, hlone, span, hspan, hnames⟩

end Anchored
