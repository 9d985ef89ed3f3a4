import Anchored.Anchor
import Anchored.Proofs.Text.Bytes

/-!
# Exact anchors

A strict anchor is looked for byte by byte. The search goes from character to character, and it
misses nothing by that (`startsAt_iff_occursAt`): it finds every byte at which the anchor stands, and
each once. The anchor is accepted if there is one such byte, and names the bytes from there on
(`exact_search_finds_all`).
-/

namespace Anchored

variable {content find : String}

/-- The search finds one byte alone if the anchor stands there and nowhere else. -/
theorem occurrences_eq_singleton_iff (hn : find ≠ "") {i : Nat} :
    Text.occurrences content.toList find.toList = [i] ↔ ∀ j, StartsAt content find j ↔ j = i := by
  constructor
  · intro h j
    rw [startsAt_iff_occursAt hn, ← List.mem_singleton, ← h, mem_occurrences_iff_occursAt]
    exact (and_iff_right hn).symm
  · intro h
    refine occurrences_eq_singleton hn ((startsAt_iff_occursAt hn).mp ((h i).mpr rfl)) fun j hj => ?_
    exact (h j).mp ((startsAt_iff_occursAt hn).mpr hj)

/-- A strict anchor is accepted if the search finds one byte alone. -/
theorem locateUnique_strict_eq_ok_iff {path : String} {span : Span} :
    locateUnique path content find .strict = .ok span ↔
      ∃ i, Text.occurrences content.toList find.toList = [i] ∧
        span = ⟨i, i + find.utf8ByteSize⟩ := by
  simp only [locateUnique]
  split
  · rename_i start hstart
    constructor
    · rintro ⟨⟩
      exact ⟨start, hstart, rfl⟩
    · rintro ⟨i, hi, rfl⟩
      obtain rfl : start = i := List.singleton_inj.mp (hstart.symm.trans hi)
      rfl
  · rename_i hmany
    constructor
    · intro h
      cases h
    · rintro ⟨i, hi, _⟩
      exact absurd hi (hmany i)

/-- **The search for a strict anchor is exact.** It finds, in ascending order and each once, just the
bytes from which on the content goes on with the bytes of the anchor, overlapping places included.
The count of a strict anchor is the number of these bytes. The anchor is accepted exactly if there is
one of them, and its span is that of the bytes from there on. -/
theorem exact_search_finds_all (hn : find ≠ "") :
    (Text.occurrences content.toList find.toList).Pairwise (· < ·) ∧
    (∀ i, i ∈ Text.occurrences content.toList find.toList ↔ StartsAt content find i) ∧
    countMatches content find .strict = {i | StartsAt content find i}.ncard ∧
    ∀ path span, locateUnique path content find .strict = .ok span ↔
      ∃ i, (∀ j, StartsAt content find j ↔ j = i) ∧ span = ⟨i, i + find.utf8ByteSize⟩ := by
  have hplaces : {i | StartsAt content find i} = {i | OccursAt content find i} :=
    Set.ext fun i => startsAt_iff_occursAt hn
  refine ⟨Text.occurrences_pairwise _ _, fun i => ?_, ?_, fun path span => ?_⟩
  · rw [mem_occurrences_iff_occursAt, startsAt_iff_occursAt hn]
    exact and_iff_right hn
  · rw [hplaces, ← length_occurrences hn]
    rfl
  · simp only [locateUnique_strict_eq_ok_iff, occurrences_eq_singleton_iff hn]

/-- An anchor of two-byte characters that overlaps itself, and one that is found once. -/
theorem exact_search_finds_all_overlapping :
    (("éé" ≠ "" ∧ Text.occurrences "aéééa".toList "éé".toList = [1, 3]) ∧
      StartsAt "aéééa" "éé" 3 ∧ ¬ StartsAt "aéééa" "éé" 2 ∧
      {i | StartsAt "aéééa" "éé" i}.ncard = 2) ∧
    locateUnique "f" "aéb" "é" .strict = .ok ⟨1, 3⟩ ∧ ∀ j, StartsAt "aéb" "é" j ↔ j = 1 := by
  have hmany : Text.occurrences "aéééa".toList "éé".toList = [1, 3] := by decide +kernel
  have hone : locateUnique "f" "aéb" "é" .strict = .ok ⟨1, 3⟩ := by decide +kernel
  obtain ⟨_, hmem, hcount, _⟩ := @exact_search_finds_all "aéééa" "éé" (by decide)
  obtain ⟨_, _, _, hnamed⟩ := @exact_search_finds_all "aéb" "é" (by decide)
  obtain ⟨i, hi, hspan⟩ := (hnamed "f" _).mp hone
  obtain rfl : 1 = i := congrArg Span.start hspan
  rw [countMatches, hmany] at hcount
  rw [hmany] at hmem
  refine ⟨⟨⟨by decide, hmany⟩, (hmem 3).mp (by decide), fun h => ?_, hcount.symm⟩, hone, hi⟩
  exact absurd ((hmem 2).mpr h) (by decide)

end Anchored
