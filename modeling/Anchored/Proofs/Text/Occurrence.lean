import Anchored.Proofs.Text.Measure
import Anchored.Text.Occurrence
import Mathlib.Data.Set.Card

/-!
# Occurrences of one text in another

The search finds every offset at which the one text stands in the other, and each once, in ascending
order (`mem_occurrences_iff`, `occurrences_pairwise`).
-/

namespace Anchored

namespace Text

variable {needle t : List Char}

theorem occurrencesFrom_cons (needle : List Char) (start : Nat) (c : Char) (r : List Char) :
    occurrencesFrom needle start (c :: r) =
      (if needle <+: c :: r then [start] else []) ++
        occurrencesFrom needle (start + c.utf8Size) r := by
  rw [occurrencesFrom]
  by_cases h : needle <+: c :: r
  · rw [if_pos (List.isPrefixOf_iff_prefix.mpr h), if_pos h]
    rfl
  · rw [if_neg (fun hp => h (List.isPrefixOf_iff_prefix.mp hp)), if_neg h]
    rfl

theorem mem_occurrencesFrom_iff (hn : needle ≠ []) {start i : Nat} :
    i ∈ occurrencesFrom needle start t ↔
      ∃ before after, t = before ++ needle ++ after ∧ start + byteSize before = i := by
  induction t generalizing start with
  | nil =>
    constructor
    · intro h
      simp [occurrencesFrom] at h
    · rintro ⟨before, after, h, _⟩
      simp [hn] at h
  | cons c r ih =>
    rw [occurrencesFrom_cons, List.mem_append, ih]
    constructor
    · rintro (h | ⟨before, after, rfl, rfl⟩)
      · split_ifs at h with hp
        · obtain ⟨after, ha⟩ := hp
          have hi : i = start := by simpa using h
          exact ⟨[], after, ha.symm, by simp [byteSize, hi]⟩
        · cases h
      · refine ⟨c :: before, after, rfl, ?_⟩
        simp only [byteSize]
        omega
    · rintro ⟨before, after, h, rfl⟩
      rcases before with _ | ⟨d, before⟩
      · left
        have hp : needle <+: c :: r := ⟨after, h.symm⟩
        rw [if_pos hp]
        simp [byteSize]
      · right
        obtain ⟨rfl, rfl⟩ := List.cons.inj h
        refine ⟨before, after, rfl, ?_⟩
        simp only [byteSize]
        omega

theorem le_of_mem_occurrencesFrom {start i : Nat} (h : i ∈ occurrencesFrom needle start t) :
    start ≤ i := by
  induction t generalizing start with
  | nil => simp [occurrencesFrom] at h
  | cons c r ih =>
    rw [occurrencesFrom_cons, List.mem_append] at h
    rcases h with h | h
    · split_ifs at h
      · simp at h
        omega
      · cases h
    · have := ih h
      omega

theorem occurrencesFrom_pairwise (needle : List Char) (start : Nat) (t : List Char) :
    (occurrencesFrom needle start t).Pairwise (· < ·) := by
  induction t generalizing start with
  | nil => exact List.Pairwise.nil
  | cons c r ih =>
    rw [occurrencesFrom_cons, List.pairwise_append]
    refine ⟨by split_ifs <;> simp, ih _, fun i hi j hj => ?_⟩
    have := le_of_mem_occurrencesFrom hj
    have := c.utf8Size_pos
    split_ifs at hi
    · simp at hi
      omega
    · cases hi

theorem mem_occurrences_iff {i : Nat} :
    i ∈ occurrences t needle ↔
      needle ≠ [] ∧ ∃ before after, t = before ++ needle ++ after ∧ byteSize before = i := by
  unfold occurrences
  by_cases hn : needle = []
  · simp [hn]
  · rw [if_neg (by simpa using hn), mem_occurrencesFrom_iff hn]
    simp [hn]

theorem occurrences_pairwise (t needle : List Char) : (occurrences t needle).Pairwise (· < ·) := by
  unfold occurrences
  split_ifs
  · exact List.Pairwise.nil
  · exact occurrencesFrom_pairwise needle 0 t

theorem occurrences_nodup (t needle : List Char) : (occurrences t needle).Nodup :=
  (occurrences_pairwise t needle).imp fun h => Nat.ne_of_lt h

end Text

/-- `find` stands in `content` at byte `i`. -/
def OccursAt (content find : String) (i : Nat) : Prop :=
  ∃ before after, content = before ++ find ++ after ∧ before.utf8ByteSize = i

theorem mem_occurrences_iff_occursAt {content find : String} {i : Nat} :
    i ∈ Text.occurrences content.toList find.toList ↔ find ≠ "" ∧ OccursAt content find i := by
  rw [Text.mem_occurrences_iff]
  constructor
  · rintro ⟨hn, before, after, h, hi⟩
    refine ⟨fun he => hn (by simp [he]), String.ofList before, String.ofList after, ?_, ?_⟩
    · apply String.toList_injective
      simp [h]
    · rw [Text.byteSize_ofList, hi]
  · rintro ⟨hn, before, after, rfl, hi⟩
    refine ⟨by simpa using hn, before.toList, after.toList, by simp, ?_⟩
    rw [Text.byteSize_toList, hi]

/-- The search finds one offset alone if the one text stands there and nowhere else. -/
theorem occurrences_eq_singleton {content find : String} {i : Nat} (hn : find ≠ "")
    (hi : OccursAt content find i) (hall : ∀ j, OccursAt content find j → j = i) :
    Text.occurrences content.toList find.toList = [i] := by
  apply List.perm_singleton.mp
  rw [List.perm_ext_iff_of_nodup (Text.occurrences_nodup _ _) (List.nodup_singleton i)]
  intro j
  rw [mem_occurrences_iff_occursAt, List.mem_singleton]
  exact ⟨fun hj => hall j hj.2, fun hj => hj ▸ ⟨hn, hi⟩⟩

theorem setOf_occursAt {content find : String} (hn : find ≠ "") :
    {i | OccursAt content find i} =
      ((Text.occurrences content.toList find.toList).toFinset : Set Nat) := by
  ext i
  simp [mem_occurrences_iff_occursAt, hn]

/-- The search finds as many occurrences as there are. -/
theorem length_occurrences {content find : String} (hn : find ≠ "") :
    (Text.occurrences content.toList find.toList).length = {i | OccursAt content find i}.ncard := by
  rw [setOf_occursAt hn, Set.ncard_coe_finset,
    List.toFinset_card_of_nodup (Text.occurrences_nodup _ _)]

end Anchored
