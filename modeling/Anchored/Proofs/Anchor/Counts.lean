import Anchored.Proofs.Anchor.Images

/-!
# The counts of a lenient search

A lenient anchor that names no range of lines is refused with a count. This is never one
(`uniqueRange_error_ne_one`): an occurrence runs forwards, from its first line to its last
(`hits_forward`), and the ranges that the search for whole lines finds come one after another
(`locateLines_pairwise`), so that no two of them hold the same occurrence.
-/

namespace Anchored

namespace Text

variable {t piece : List Char} {n m : Nat}

/-- A piece between separators has none in it. -/
theorem not_separator_of_mem_splitWhere {p : Char → Bool} (h : piece ∈ splitWhere p t) :
    ∀ c ∈ piece, p c = false := by
  induction t generalizing piece with
  | nil =>
    obtain rfl := List.mem_singleton.mp h
    exact fun c hc => by cases hc
  | cons d t ih =>
    rw [splitWhere] at h
    split_ifs at h with hd
    · rcases List.mem_cons.mp h with rfl | h
      · exact fun c hc => by cases hc
      · exact ih h
    · rcases hs : splitWhere p t with _ | ⟨first, others⟩
      · rw [hs] at h
        cases h
      · rw [hs, List.modifyHead_cons] at h
        rcases List.mem_cons.mp h with rfl | h
        · refine List.forall_mem_cons.mpr ⟨by simpa using hd, ih ?_⟩
          rw [hs]
          exact List.mem_cons_self
        · refine ih ?_
          rw [hs]
          exact List.mem_cons_of_mem _ h

theorem space_not_mem_word {word : List Char} (h : word ∈ words t) : ' ' ∉ word := fun hmem => by
  have hblank := not_separator_of_mem_splitWhere (List.mem_filter.mp h).1 ' ' hmem
  cases hblank

/-- Collapsed words have a space between any two of them, and no others. -/
theorem count_space_collapse (hw : words t ≠ []) :
    (collapse t).count ' ' + 1 = (words t).length := by
  have hsplit : splitWhere (· == ' ') (collapse t) = words t := by
    rw [splitWhere_eq_splitOnP, ← List.splitOn_eq_splitOnP, collapse,
      List.splitOn_intercalate ' ' (fun word hword => space_not_mem_word hword) hw]
  rw [← hsplit, length_splitWhere]
  rfl

/-! ## What stands before a byte -/

theorem takeBytes_begins (n : Nat) (t : List Char) : takeBytes n t <+: t := by
  induction t generalizing n with
  | nil => exact List.prefix_refl []
  | cons c t ih =>
    rw [takeBytes]
    split_ifs
    · exact List.prefix_cons_inj c |>.mpr (ih _)
    · exact List.nil_prefix

theorem takeBytes_begins_of_le (h : n ≤ m) (t : List Char) : takeBytes n t <+: takeBytes m t := by
  induction t generalizing n m with
  | nil => exact List.prefix_refl []
  | cons c t ih =>
    rw [takeBytes, takeBytes]
    split_ifs
    · exact List.prefix_cons_inj c |>.mpr (ih (by omega))
    · omega
    · exact List.nil_prefix
    · exact List.nil_prefix

end Text

namespace Anchor

open Text

variable {content find : List Char} {hit : LineRange}

theorem countBefore_mono (sep : Char) (t : List Char) {n m : Nat} (h : n ≤ m) :
    countBefore sep t n ≤ countBefore sep t m :=
  (takeBytes_begins_of_le h t).sublist.count_le sep

theorem countBefore_le_count (sep : Char) (t : List Char) (n : Nat) :
    countBefore sep t n ≤ t.count sep :=
  (takeBytes_begins n t).sublist.count_le sep

/-! ## Occurrences run forwards -/

/-- The words of a text are numbered in the order of its lines. -/
theorem numberedWords_pairwise (content : List Char) :
    (numberedWords content).Pairwise fun a b => a.1 ≤ b.1 := by
  rw [numberedWords, List.pairwise_flatMap]
  constructor
  · rintro ⟨line, n⟩ _
    rw [List.pairwise_map]
    exact List.pairwise_of_forall fun _ _ => le_rfl
  · have hlt : (((splitWhere (· == '\n') (normalize content)).zipIdx).map Prod.snd).Pairwise
        (· < ·) := by
      rw [List.zipIdx_map_snd]
      exact List.pairwise_lt_range'
    rw [List.pairwise_map] at hlt
    refine hlt.imp fun hab a ha b hb => ?_
    obtain ⟨_, _, rfl⟩ := List.mem_map.mp ha
    obtain ⟨_, _, rfl⟩ := List.mem_map.mp hb
    exact Nat.le_of_lt hab

theorem lineOfWord_mono {i j : Nat} (hij : i ≤ j) (hj : j < (numberedWords content).length) :
    (((numberedWords content)[i]?).map (·.1)).getD 0 ≤
      (((numberedWords content)[j]?).map (·.1)).getD 0 := by
  rw [List.getElem?_eq_getElem hj, List.getElem?_eq_getElem (Nat.lt_of_le_of_lt hij hj)]
  rcases Nat.eq_or_lt_of_le hij with rfl | hlt
  · exact le_rfl
  · exact List.pairwise_iff_getElem.mp (numberedWords_pairwise content) i j _ hj hlt

theorem normalHits_forward (h : hit ∈ normalHits content find) : hit.first ≤ hit.last := by
  simp only [normalHits] at h
  split_ifs at h
  · cases h
  · obtain ⟨start, hstart, rfl⟩ := List.mem_map.mp h
    have hne := (mem_occurrences_iff.mp hstart).1
    have hpos : byteSize (normalize find) ≠ 0 := mt byteSize_eq_zero.mp hne
    exact countBefore_mono _ _ (by omega)

theorem collapsedHits_forward (h : hit ∈ collapsedHits content find) : hit.first ≤ hit.last := by
  simp only [collapsedHits] at h
  obtain ⟨start, hstart, rfl⟩ := List.mem_map.mp h
  rw [map_snd_numberedWords] at hstart ⊢
  obtain ⟨hne, before, after, htext, _⟩ := mem_occurrences_iff.mp hstart
  have hw : words content ≠ [] := by
    intro hnil
    rw [hnil, List.intercalate_nil, eq_comm, List.append_eq_nil_iff,
      List.append_eq_nil_iff] at htext
    exact hne htext.1.2
  have hcount := count_space_collapse hw
  have hlast := countBefore_le_count ' ' (collapse content) (start + byteSize (collapse find) - 1)
  have hpos : byteSize (collapse find) ≠ 0 := mt byteSize_eq_zero.mp hne
  refine lineOfWord_mono (countBefore_mono ' ' _ (by omega)) ?_
  rw [← List.length_map (·.2), map_snd_numberedWords, ← hcount]
  exact Nat.lt_succ_of_le hlast

theorem hits_forward (h : hit ∈ hits content find) : hit.first ≤ hit.last := by
  unfold hits at h
  split at h
  · exact collapsedHits_forward h
  · exact normalHits_forward h

/-! ## Ranges of lines come one after another -/

theorem scan_pairwise (agree : List Char → List Char → Bool) (wanted : List (List Char)) (n : Nat)
    (lines : List (List Char)) :
    (scan agree wanted n lines).Pairwise fun r r' => r.last < r'.first := by
  fun_induction scan agree wanted n lines with
  | case1 n => exact .nil
  | case2 n line rest found ih =>
    rw [if_pos found]
    have hpos := List.length_pos_iff.mpr found.1
    refine List.pairwise_cons.mpr ⟨fun r hr => ?_, ih⟩
    obtain ⟨i, rfl, _⟩ := mem_scan hr
    simp only
    omega
  | case3 n line rest missed ih =>
    rw [if_neg missed]
    exact ih

theorem locateLines_pairwise (content find : List Char) :
    (locateLines content find).Pairwise fun r r' => r.last < r'.first := by
  unfold locateLines
  simp only
  split_ifs
  · exact .nil
  · split
    · exact scan_pairwise _ _ _ _
    · exact scan_pairwise _ _ _ _

/-- No two ranges that come one after another hold the same lines. -/
theorem length_filter_covers_le {ranges : List LineRange}
    (h : ranges.Pairwise fun r r' => r.last < r'.first) (hf : hit.first ≤ hit.last) :
    (ranges.filter (·.covers hit)).length ≤ 1 := by
  have hholding := h.filter (·.covers hit)
  have hcovers : ∀ r ∈ ranges.filter (·.covers hit), r.first ≤ hit.first ∧ hit.last ≤ r.last := by
    intro r hr
    simpa [LineRange.covers] using (List.mem_filter.mp hr).2
  generalize ranges.filter (·.covers hit) = holding at hholding hcovers ⊢
  rcases holding with _ | ⟨r, _ | ⟨r', more⟩⟩
  · exact Nat.zero_le 1
  · exact le_rfl
  · have hlt := (List.pairwise_cons.mp hholding).1 r' (by simp)
    have hr := hcovers r (by simp)
    have hr' := hcovers r' (by simp)
    omega

/-- A lenient anchor is never refused for being found once. -/
theorem uniqueRange_error_ne_one {count : Nat} (h : uniqueRange content find = .error count) :
    count ≠ 1 := by
  unfold uniqueRange at h
  split at h
  · rename_i hit hhits
    have hmem : hit ∈ hits content find := by
      rw [hhits]
      exact List.mem_singleton_self hit
    have hone :=
      length_filter_covers_le (locateLines_pairwise content find) (hits_forward hmem)
    rw [List.partition_eq_filter_filter] at h
    simp only at h
    split at h
    · cases h
    · cases h
      decide
    · rename_i hsingle hnone
      cases h
      intro hn
      rcases hholding : (locateLines content find).filter (·.covers hit) with _ | ⟨r, _ | ⟨_, _⟩⟩
      · exact hnone hholding (by omega)
      · exact hsingle r hholding (by omega)
      · rw [hholding, List.length_cons, List.length_cons] at hone
        omega
  · rename_i found hno
    cases h
    intro hone
    obtain ⟨hit, hhit⟩ := List.length_eq_one_iff.mp hone
    exact hno hit hhit

end Anchor

/-- An anchor is refused with a count that is not one. In strict mode it is that of all its
occurrences. -/
theorem exists_count_of_locateUnique {path content find : String} {mode : MatchMode}
    {error : EditError} (h : locateUnique path content find mode = .error error) :
    ∃ count, error = .ofCount path find count ∧ count ≠ 1 ∧
      (mode = .strict → count = (Text.occurrences content.toList find.toList).length) := by
  cases mode with
  | strict =>
    simp only [locateUnique] at h
    split at h
    · cases h
    · rename_i hmany
      cases h
      refine ⟨_, rfl, fun hone => ?_, fun _ => rfl⟩
      obtain ⟨start, hstart⟩ := List.length_eq_one_iff.mp hone
      exact hmany start hstart
  | fuzzy =>
    simp only [locateUnique] at h
    split at h
    · cases h
    · rename_i count hcount
      cases h
      refine ⟨count, rfl, Anchor.uniqueRange_error_ne_one hcount, fun hmode => ?_⟩
      cases hmode

end Anchored
