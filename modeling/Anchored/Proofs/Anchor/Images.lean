import Anchored.Proofs.Anchor.Uniqueness
import Anchored.Proofs.Text.Places

/-!
# Exact occurrences in the normal form

An anchor with letters that stands in a text stands in the normal form of the text as well, in
normal form (`normalOffset_mem`), and two places at which it stands have two places there
(`normalOffset_lt`). So there are at least as many lenient occurrences as exact ones
(`length_occurrences_le_hits`). A single lenient occurrence starts and ends on the lines on which
the exact one does (`hits_eq_singleton`).
-/

namespace Anchored.Anchor

open Text

variable {content find before after : List Char} {i j : Nat}

/-! ## The place in the normal form -/

/-- The byte of the normal form at which that stands which stands at byte `n` of a text. -/
def normalOffset (t : List Char) (n : Nat) : Nat :=
  match splitAtByte? n t with
  | some (before, after) => byteSize (keptOf before after)
  | none => 0

theorem normalOffset_append (before after : List Char) :
    normalOffset (before ++ after) (byteSize before) = byteSize (keptOf before after) := by
  rw [normalOffset, splitAtByte?_append]

/-- What stands in a text stands in its normal form. -/
theorem exists_normalize_eq (before find after : List Char) :
    ∃ more, normalize (before ++ find ++ after) =
      keptOf before (find ++ after) ++ normalize find ++ more := by
  obtain ⟨more, hmore⟩ := normalize_begins find after
  exact ⟨more, by rw [List.append_assoc, normalize_append, ← hmore, List.append_assoc]⟩

theorem keptOf_mem_occurrences (hw : words find ≠ []) (before after : List Char) :
    byteSize (keptOf before (find ++ after)) ∈
      occurrences (normalize (before ++ find ++ after)) (normalize find) := by
  obtain ⟨more, hmore⟩ := exists_normalize_eq before find after
  exact mem_occurrences_iff.mpr ⟨normalize_ne_nil hw, _, more, hmore, rfl⟩

theorem normalOffset_mem (hw : words find ≠ []) (h : i ∈ occurrences content find) :
    normalOffset content i ∈ occurrences (normalize content) (normalize find) := by
  obtain ⟨_, before, after, rfl, rfl⟩ := mem_occurrences_iff.mp h
  rw [List.append_assoc, normalOffset_append, ← List.append_assoc]
  exact keptOf_mem_occurrences hw before after

theorem takeWhile_isBlank_append (hw : words find ≠ []) (after : List Char) :
    (find ++ after).takeWhile isBlank = find.takeWhile isBlank := by
  rw [List.takeWhile_append, if_neg]
  intro hlen
  apply hw
  rw [words_eq_nil_iff]
  have hall : find.takeWhile isBlank = find := (List.takeWhile_prefix isBlank).eq_of_length hlen
  rw [← hall]
  exact List.all_takeWhile

/-- Between two places at which an anchor stands there are letters. -/
theorem not_allBlank_between {between after' : List Char} (hw : words find ≠ [])
    (hne : between ≠ []) (h : find ++ after = between ++ (find ++ after')) :
    ¬ allBlank between = true := by
  intro hblank
  have hfirst := congrArg (List.takeWhile isBlank) h
  simp only [allBlank, List.all_eq_true] at hblank
  rw [takeWhile_isBlank_append hw, List.takeWhile_append_of_pos hblank,
    takeWhile_isBlank_append hw] at hfirst
  exact hne (List.self_eq_append_left.mp hfirst)

theorem normalOffset_lt (hw : words find ≠ []) (hi : i ∈ occurrences content find)
    (hj : j ∈ occurrences content find) (hij : i < j) :
    normalOffset content i < normalOffset content j := by
  obtain ⟨_, before, after, htext, rfl⟩ := mem_occurrences_iff.mp hi
  obtain ⟨_, before', after', htext', rfl⟩ := mem_occurrences_iff.mp hj
  rw [List.append_assoc] at htext htext'
  have hpre : before <+: before' := by
    have h : before <+: content := ⟨_, htext.symm⟩
    have h' : before' <+: content := ⟨_, htext'.symm⟩
    rcases List.prefix_or_prefix_of_prefix h h' with hpre | ⟨more, rfl⟩
    · exact hpre
    · rw [byteSize_append] at hij
      omega
  obtain ⟨between, rfl⟩ := hpre
  have hne : between ≠ [] := by
    rintro rfl
    simp at hij
  have hletters : ¬ allBlank between = true := by
    apply not_allBlank_between hw hne
    rw [htext, List.append_assoc, List.append_cancel_left_eq] at htext'
    exact htext'
  have hkept : byteSize (keptOf between (find ++ after')) ≠ 0 := by
    rw [ne_eq, byteSize_eq_zero]
    exact keptOf_ne_nil hletters _
  have hoffset : normalOffset content (byteSize before) =
      byteSize (keptOf before (between ++ (find ++ after'))) := by
    rw [htext', List.append_assoc, normalOffset_append]
  have hoffset' : normalOffset content (byteSize (before ++ between)) =
      byteSize (keptOf (before ++ between) (find ++ after')) := by
    rw [htext', normalOffset_append]
  rw [hoffset, hoffset', keptOf_append, byteSize_append]
  omega

/-- The normal form of an anchor with letters occurs at least as often as the anchor. -/
theorem length_occurrences_le (content : List Char) (hw : words find ≠ []) :
    (occurrences content find).length ≤
      (occurrences (normalize content) (normalize find)).length := by
  have hnodup : ((occurrences content find).map (normalOffset content)).Nodup := by
    rw [List.Nodup, List.pairwise_map]
    refine (occurrences_pairwise content find).imp_of_mem fun hi hj hij => ?_
    exact Nat.ne_of_lt (normalOffset_lt hw hi hj hij)
  have hsub : (occurrences content find).map (normalOffset content) ⊆
      occurrences (normalize content) (normalize find) := by
    intro offset hoffset
    obtain ⟨i, hi, rfl⟩ := List.mem_map.mp hoffset
    exact normalOffset_mem hw hi
  have := (hnodup.subperm hsub).length_le
  rwa [List.length_map] at this

theorem length_occurrences_le_hits (content : List Char) (hw : words find ≠ []) :
    (occurrences content find).length ≤ (hits content find).length := by
  have hle := length_occurrences_le content hw
  by_cases hnone : occurrences (normalize content) (normalize find) = []
  · rw [hnone] at hle
    exact le_trans hle (Nat.zero_le _)
  · rwa [length_hits_of_normal hnone hw]

/-! ## The lines of a single occurrence -/

theorem takeBytes_append (before : List Char) {c : Char} {n : Nat} (hle : byteSize before ≤ n)
    (hlt : n < byteSize before + c.utf8Size) (after : List Char) :
    takeBytes n (before ++ c :: after) = before := by
  induction before generalizing n with
  | nil =>
    simp only [byteSize] at hlt
    rw [List.nil_append, takeBytes, if_neg (by omega)]
  | cons d before ih =>
    simp only [byteSize] at hle hlt
    rw [List.cons_append, takeBytes, if_pos (by omega), ih (by omega) (by omega)]

theorem countBefore_first (sep : Char) (before after : List Char) {text : List Char}
    (htext : text ≠ []) :
    countBefore sep (before ++ text ++ after) (byteSize before) = before.count sep := by
  obtain ⟨c, text, rfl⟩ := List.exists_cons_of_ne_nil htext
  have := c.utf8Size_pos
  rw [List.append_assoc, List.cons_append, countBefore, takeBytes_append before le_rfl (by omega)]

/-- The separators before the last byte of a text are those before its last character. -/
theorem countBefore_last (sep : Char) (before after : List Char) {text : List Char}
    (htext : text ≠ []) :
    countBefore sep (before ++ text ++ after) (byteSize before + byteSize text - 1) =
      before.count sep + text.dropLast.count sep := by
  obtain ⟨init, c, rfl⟩ := (List.eq_nil_or_concat' text).resolve_left htext
  have hpos := c.utf8Size_pos
  have hsize : byteSize [c] = c.utf8Size := rfl
  rw [← List.append_assoc, List.append_assoc, List.singleton_append, countBefore,
    takeBytes_append (before ++ init) (by simp only [byteSize_append, hsize]; omega)
      (by simp only [byteSize_append, hsize]; omega), List.count_append, List.dropLast_concat]

/-- Where the normal form of an anchor stands once, its lines are those of the lenient occurrence. -/
theorem hits_of_normal (hw : words find ≠ [])
    (htext : normalize content = before ++ normalize find ++ after)
    (hone : (occurrences (normalize content) (normalize find)).length = 1) :
    hits content find = [⟨before.count '\n',
      before.count '\n' + (normalize find).dropLast.count '\n'⟩] := by
  have hblank : ¬ allBlank (normalize find) = true := by
    rwa [← words_eq_nil_iff, words_normalize]
  have hne := normalize_ne_nil hw
  have hocc : occurrences (normalize content) (normalize find) = [byteSize before] := by
    obtain ⟨offset, hoffset⟩ := List.length_eq_one_iff.mp hone
    have hmem := mem_occurrences_iff.mpr ⟨hne, before, after, htext, rfl⟩
    rw [hoffset, List.mem_singleton] at hmem
    rw [hoffset, hmem]
  have hnormal : normalHits content find = [⟨before.count '\n',
      before.count '\n' + (normalize find).dropLast.count '\n'⟩] := by
    rw [htext] at hocc
    simp only [normalHits, if_neg hblank, htext, hocc, List.map_cons, List.map_nil,
      countBefore_first '\n' _ after hne, countBefore_last '\n' _ after hne]
  rw [hits, hnormal]

/-- A single lenient occurrence of an anchor that stands in the content is where that is. -/
theorem hits_eq_singleton (hw : words find ≠ [])
    (h : (hits (before ++ find ++ after) find).length = 1) :
    hits (before ++ find ++ after) find =
      [⟨linesBefore before (find ++ after),
        linesBefore before (find ++ after) + (normalize find).dropLast.count '\n'⟩] := by
  have hmem := keptOf_mem_occurrences hw before after
  obtain ⟨more, hmore⟩ := exists_normalize_eq before find after
  rw [length_hits_of_normal (List.ne_nil_of_mem hmem) hw] at h
  exact hits_of_normal hw hmore h

end Anchored.Anchor
