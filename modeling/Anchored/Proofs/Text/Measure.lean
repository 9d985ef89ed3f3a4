import Anchored.Text.Measure
import Mathlib.Tactic.Common

/-!
# Offsets and pieces of a text

An offset of a text stands for a way to cut it in two: `splitAtByte?` finds the cut exactly if there
is one. Sizes of lists of characters are those of the strings that they make.
-/

namespace Anchored.Text

@[simp]
theorem byteSize_append (a b : List Char) : byteSize (a ++ b) = byteSize a + byteSize b := by
  induction a with
  | nil => simp [byteSize]
  | cons c a ih =>
    simp only [List.cons_append, byteSize, ih]
    omega

@[simp]
theorem byteSize_eq_zero {t : List Char} : byteSize t = 0 ↔ t = [] := by
  cases t with
  | nil => simp [byteSize]
  | cons c t =>
    have := c.utf8Size_pos
    simp [byteSize]
    omega

theorem byteSize_ofList (t : List Char) : (String.ofList t).utf8ByteSize = byteSize t := by
  induction t with
  | nil => rfl
  | cons c t ih =>
    rw [String.ofList_cons, String.utf8ByteSize_append, ih]
    simp [byteSize]

theorem byteSize_toList (s : String) : byteSize s.toList = s.utf8ByteSize := by
  rw [← byteSize_ofList, String.ofList_toList]

theorem splitAtByte?_append (a b : List Char) :
    splitAtByte? (byteSize a) (a ++ b) = some (a, b) := by
  induction a with
  | nil => simp [byteSize, splitAtByte?]
  | cons c a ih =>
    have hpos := c.utf8Size_pos
    obtain ⟨n, hn⟩ : ∃ n, byteSize (c :: a) = n + 1 := ⟨byteSize (c :: a) - 1, by
      simp only [byteSize]
      omega⟩
    have hrest : n + 1 - c.utf8Size = byteSize a := by
      simp only [byteSize] at hn
      omega
    have hfits : c.utf8Size ≤ n + 1 := by
      simp only [byteSize] at hn
      omega
    rw [hn, List.cons_append, splitAtByte?, if_pos hfits, hrest, ih]
    rfl

theorem splitAtByte?_eq_some_iff {n : Nat} {t a b : List Char} :
    splitAtByte? n t = some (a, b) ↔ t = a ++ b ∧ byteSize a = n := by
  constructor
  · intro h
    induction n, t using splitAtByte?.induct generalizing a b with
    | case1 t =>
      simp [splitAtByte?] at h
      simp [← h.1, h.2]
    | case2 n => simp [splitAtByte?] at h
    | case3 n c r hle ih =>
      rw [splitAtByte?, if_pos hle] at h
      obtain ⟨⟨x, y⟩, hx, hab⟩ := Option.map_eq_some_iff.mp h
      obtain ⟨rfl, rfl⟩ := Prod.mk.inj hab
      obtain ⟨rfl, hs⟩ := ih hx
      refine ⟨rfl, ?_⟩
      simp only [byteSize]
      omega
    | case4 n c r hle =>
      rw [splitAtByte?, if_neg hle] at h
      cases h
  · rintro ⟨rfl, rfl⟩
    exact splitAtByte?_append a b

/-- A text is cut at a byte in one way only. -/
theorem append_inj_of_byteSize_eq {a b a' b' : List Char} (h : a ++ b = a' ++ b')
    (hsize : byteSize a = byteSize a') : a = a' ∧ b = b' := by
  have hcut := splitAtByte?_append a b
  rw [h, hsize, splitAtByte?_append] at hcut
  obtain ⟨rfl, rfl⟩ := Prod.mk.inj (Option.some.inj hcut)
  exact ⟨rfl, rfl⟩

end Anchored.Text

namespace Anchored.Span

open Text

/-- A span cuts a text into three pieces exactly if the sizes of the first two are its offsets. -/
theorem cut?_eq_some_iff {s : Span} {t before covered after : List Char} :
    s.cut? t = some (before, covered, after) ↔
      t = before ++ covered ++ after ∧ byteSize before = s.start ∧
        byteSize before + byteSize covered = s.stop := by
  unfold cut?
  constructor
  · intro h
    split_ifs at h with hlt
    obtain ⟨⟨x, rest⟩, h1, h⟩ := Option.bind_eq_some_iff.mp h
    obtain ⟨⟨y, z⟩, h2, h⟩ := Option.bind_eq_some_iff.mp h
    cases h
    obtain ⟨rfl, hx⟩ := splitAtByte?_eq_some_iff.mp h1
    obtain ⟨rfl, hy⟩ := splitAtByte?_eq_some_iff.mp h2
    refine ⟨by rw [List.append_assoc], hx, ?_⟩
    omega
  · rintro ⟨rfl, h1, h2⟩
    have hcut : s.stop - s.start = byteSize covered := by omega
    rw [if_neg (by omega), List.append_assoc, ← h1, splitAtByte?_append]
    simp only [Option.bind_eq_bind, Option.bind_some, h1, hcut, splitAtByte?_append]
    rfl

end Anchored.Span
