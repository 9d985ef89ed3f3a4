import Mathlib.Data.Nat.Basic
import Anchored.Proofs.Json.Tokens

/-!
# Reading numbers that are spelled

A number is taken up to where it stops. Whole numbers of 64 bits are read as what their digits say
(`denotes_natural`, `denotes_negative`).
-/

namespace Anchored.Json

variable {c : Cursor} {x : Char} {ds t rest : List Char} {n significand : Nat} {positive : Bool}

/-! ## Where digits end -/

/-- No digit comes next. -/
def NoDigit (t : List Char) : Prop :=
  ∀ x ∈ t.head?, x.isDigit = false

theorem noDigit_cons (h : x.isDigit = false) (t : List Char) : NoDigit (x :: t) := by
  simpa [NoDigit] using h

theorem Stops.noDigit (h : Stops rest) : NoDigit rest := by
  intro x hx
  have hstop := h x hx
  rw [goesOn, Bool.or_eq_false_iff] at hstop
  exact hstop.1

theorem Stops.not_mem (h : Stops rest) : ∀ x ∈ rest.head?, x ∉ ['.', 'e', 'E'] := by
  intro x hx hmem
  have hstop := h x hx
  rw [goesOn, Bool.or_eq_false_iff] at hstop
  rw [← List.contains_iff_mem, hstop.2] at hmem
  exact Bool.false_ne_true hmem

theorem Stops.noLetter (h : Stops rest) : ∀ x ∈ rest.head?, x ∉ ['e', 'E'] :=
  fun x hx hmem => h.not_mem x hx (List.mem_cons_of_mem _ hmem)

theorem ExponentPart.noDigit (h : ExponentPart t) (hrest : NoDigit rest) : NoDigit (t ++ rest) := by
  obtain rfl | ⟨letter, sign, ds, rfl, hletter, -⟩ := h
  · exact hrest
  · simp only [List.mem_cons, List.not_mem_nil, or_false] at hletter
    obtain rfl | rfl := hletter <;> exact noDigit_cons rfl _

theorem ExponentPart.noPoint (h : ExponentPart t) (hrest : Stops rest) :
    ∀ x ∈ (t ++ rest).head?, x ∉ ['.'] := by
  obtain rfl | ⟨letter, sign, ds, rfl, hletter, -⟩ := h
  · exact fun x hx hmem => hrest.not_mem x hx (List.mem_append_left ['e', 'E'] hmem)
  · simp only [List.mem_cons, List.not_mem_nil, or_false] at hletter
    obtain rfl | rfl := hletter <;> simp

theorem FractionPart.noDigit (h : FractionPart t) (hrest : NoDigit rest) : NoDigit (t ++ rest) := by
  obtain rfl | ⟨ds, rfl, -⟩ := h
  · exact hrest
  · exact noDigit_cons rfl _

namespace Cursor

theorem nextIn_eq_false {xs : List Char} (hc : c.rest = rest)
    (h : ∀ x ∈ rest.head?, x ∉ xs) : c.nextIn xs = false := by
  cases rest with
  | nil => simp [nextIn, hc]
  | cons x rest => simpa [nextIn_eq hc] using h x rfl

theorem digits_append (hds : ∀ d ∈ ds, d.isDigit = true) (hc : c.rest = ds ++ rest)
    (hrest : NoDigit rest) : c.digits.1 = ds ∧ c.digits.2.rest = rest := by
  have hstop : rest.takeWhile Char.isDigit = [] := by
    cases rest with
    | nil => rfl
    | cons x rest => exact List.takeWhile_cons_of_neg (by simp [hrest x rfl])
  have htake : c.rest.takeWhile Char.isDigit = ds := by
    rw [hc, List.takeWhile_append_of_pos hds, hstop, List.append_nil]
  simp only [digits, htake, true_and]
  rw [hc, List.drop_left]

theorem digit?_of_isDigit (hc : c.rest = x :: rest) (hx : x.isDigit = true) :
    c.digit? = some (x.toNat - '0'.toNat) := by
  simp [digit?, hc, hx]

theorem digit?_eq_none (h : NoDigit rest) (hc : c.rest = rest) : c.digit? = none := by
  rw [digit?, hc]
  cases rest with
  | nil => rfl
  | cons x rest => simpa using h x rfl

theorem isSome_digit? (hds : Digits ds) (hc : c.rest = ds ++ rest) : c.digit?.isSome := by
  obtain ⟨hne, hall⟩ := hds
  obtain _ | ⟨x, ds⟩ := ds
  · exact absurd rfl hne
  · rw [digit?_of_isDigit hc (hall x List.mem_cons_self), Option.isSome_some]

/-- A digit is no sign. -/
theorem nextIn_digits (hds : Digits ds) (hc : c.rest = ds ++ rest) :
    c.nextIn ['+', '-'] = false := by
  obtain ⟨hne, hall⟩ := hds
  obtain _ | ⟨x, ds⟩ := ds
  · exact absurd rfl hne
  refine nextIn_eq_false hc fun y hy hmem => ?_
  obtain rfl : x = y := by simpa using hy
  have hx := hall x List.mem_cons_self
  simp only [List.mem_cons, List.not_mem_nil, or_false] at hmem
  obtain rfl | rfl := hmem <;> exact absurd hx (by decide)

/-- A whole part is a zero, or it begins with another digit. -/
theorem digit?_wholePart (hds : WholePart ds) (hc : c.rest = ds ++ rest) :
    (ds = ['0'] ∧ c.digit? = some 0) ∨ ∃ d, c.digit? = some (d + 1) := by
  obtain ⟨⟨hne, hall⟩, hzero⟩ := hds
  obtain _ | ⟨x, ds⟩ := ds
  · exact absurd rfl hne
  have hx := hall x List.mem_cons_self
  rw [digit?_of_isDigit hc hx]
  by_cases hx0 : x = '0'
  · subst hx0
    exact .inl ⟨hzero rfl, rfl⟩
  · have hle : '0'.toNat ≤ x.toNat := by
      rw [Char.isDigit, Bool.and_eq_true, decide_eq_true_eq] at hx
      exact hx.1
    have hne : '0'.toNat ≠ x.toNat := fun h => hx0 (Char.toNat_inj.mp h.symm)
    exact .inr ⟨x.toNat - '0'.toNat - 1, by congr; omega⟩

end Cursor

/-! ## Numbers that are passed over -/

theorem rest_skipDigits (hds : Digits ds) (hc : c.rest = ds ++ rest) (hrest : NoDigit rest) :
    (skipDigits c).rest = rest :=
  (Cursor.digits_append hds.2 hc hrest).2

/-- A number that is passed over is taken as a whole. -/
theorem leaves_skipNumber (ht : Unsigned t) (hc : c.rest = t ++ rest) (hrest : Stops rest) :
    Leaves (skipNumber c) rest := by
  obtain ⟨whole, fraction, exponent, rfl, hwhole, hfraction, hexponent⟩ := ht
  simp only [List.append_assoc] at hc
  have hdigit := hexponent.noDigit hrest.noDigit
  have hdigit' := hfraction.noDigit hdigit
  rw [skipNumber]
  -- One step for each part of the number. What follows a part does not go on with it.
  refine Leaves.and_then (fraction ++ (exponent ++ rest)) ?_ fun c hc => ?_
  · obtain ⟨rfl, hzero⟩ | ⟨d, hd⟩ := Cursor.digit?_wholePart hwhole hc
    · have hskip : c.skip.rest = fraction ++ (exponent ++ rest) := by simp [hc]
      simp only [hzero, Cursor.digit?_eq_none hdigit' hskip]
      exact ⟨_, rfl, hskip⟩
    · simp only [hd]
      exact ⟨_, rfl, rest_skipDigits hwhole.1 hc hdigit'⟩
  refine Leaves.and_then (exponent ++ rest) ?_ fun c hc => ?_
  · obtain rfl | ⟨ds, rfl, hds⟩ := hfraction
    · rw [Cursor.nextIn_eq_false hc (hexponent.noPoint hrest)]
      exact ⟨_, rfl, hc⟩
    · have hskip : c.skip.rest = ds ++ (exponent ++ rest) := by simp [hc]
      rw [Cursor.nextIn_eq hc]
      simp only [Cursor.isSome_digit? hds hskip]
      exact ⟨_, rfl, rest_skipDigits hds hskip hdigit⟩
  · obtain rfl | ⟨letter, sign, ds, rfl, hletter, hsign, hds⟩ := hexponent
    · rw [Cursor.nextIn_eq_false hc hrest.noLetter]
      exact ⟨_, rfl, hc⟩
    · have hskip : c.skip.rest = sign ++ (ds ++ rest) := by simp [hc]
      have hsigned : (if c.skip.nextIn ['+', '-'] then c.skip.skip else c.skip).rest =
          ds ++ rest := by
        simp only [List.mem_cons, List.not_mem_nil, or_false] at hsign
        obtain rfl | rfl | rfl := hsign
        · rw [Cursor.nextIn_digits hds hskip]
          exact hskip
        · rw [Cursor.nextIn_eq hskip]
          simpa using congrArg List.tail hskip
        · rw [Cursor.nextIn_eq hskip]
          simpa using congrArg List.tail hskip
      rw [Cursor.nextIn_eq hc, List.contains_iff_mem.mpr hletter]
      simp only [Cursor.isSome_digit? hds hsigned]
      exact ⟨_, rfl, rest_skipDigits hds hsigned hrest.noDigit⟩

/-! ## Whole numbers -/

theorem digits_toDigits (n : Nat) : Digits (Nat.toDigits 10 n) :=
  ⟨Nat.toDigits_ne_nil, fun _ hd => Nat.isDigit_of_mem_toDigits (by decide) (by decide) hd⟩

theorem head?_toDigits_ne_zero (h : n ≠ 0) : (Nat.toDigits 10 n).head? ≠ some '0' := by
  induction n using Nat.strongRecOn with
  | _ n ih =>
    obtain hlt | hle := Nat.lt_or_ge n 10
    · rw [Nat.toDigits_of_lt_base hlt]
      simpa using h
    · rw [Nat.toDigits_of_base_le (by decide) hle,
        List.head?_append, Option.or_of_isSome (by simp [Nat.toDigits_ne_nil])]
      exact ih _ (by omega) (by omega)

theorem wholePart_toDigits (n : Nat) : WholePart (Nat.toDigits 10 n) := by
  refine ⟨digits_toDigits n, fun hhead => ?_⟩
  obtain rfl | hne := eq_or_ne n 0
  · exact Nat.toDigits_zero 10
  · exact absurd hhead (head?_toDigits_ne_zero hne)

theorem unsigned_toDigits (n : Nat) : Unsigned (Nat.toDigits 10 n) :=
  ⟨_, [], [], (by simp), wholePart_toDigits n, .inl rfl, .inl rfl⟩

theorem le_ofDigitChars (ds : List Char) (s : Nat) : s ≤ Nat.ofDigitChars 10 ds s := by
  induction ds generalizing s with
  | nil => exact le_rfl
  | cons d ds ih =>
    rw [Nat.ofDigitChars_cons]
    exact le_trans (by omega) (ih _)

/-- Digits whose number fits 64 bits all go into the significand. -/
theorem gather_eq (h : Nat.ofDigitChars 10 ds significand ≤ maxNatural) :
    gather significand ds = (Nat.ofDigitChars 10 ds significand, ds.length, []) := by
  induction ds generalizing significand with
  | nil => rw [gather, Nat.ofDigitChars_nil, List.length_nil]
  | cons d ds ih =>
    rw [Nat.ofDigitChars_cons] at h ⊢
    have hnext := Nat.le_trans (le_ofDigitChars ds _) h
    rw [gather, if_neg (Nat.not_lt.mpr hnext), ih h, List.length_cons]

/-- The digits of a number that fits 64 bits are read as it. -/
theorem readNumber_toDigits (positive : Bool) (h : n ≤ maxNatural)
    (hc : c.rest = Nat.toDigits 10 n ++ rest) (hrest : Stops rest) :
    ∃ c', readNumber c positive = readNumber.finish positive c' n ∧ c'.rest = rest := by
  obtain ⟨x, ds, hds⟩ := List.exists_cons_of_ne_nil (@Nat.toDigits_ne_nil n 10)
  have hpeek : c.peek? = some x := Cursor.peek?_eq (t := ds ++ rest) (by rw [hc, hds]; rfl)
  obtain ⟨hzero, hdigit⟩ | ⟨d, hd⟩ := Cursor.digit?_wholePart (wholePart_toDigits n) hc
  · have hn : n = 0 := by
      rw [← @Nat.ofDigitChars_ten_toDigits n, hzero]
      rfl
    have hskip : c.skip.rest = rest := by simp [hc, hzero]
    refine ⟨c.skip, ?_, hskip⟩
    simp [readNumber, hpeek, hdigit, Cursor.digit?_eq_none hrest.noDigit hskip, hn]
  · obtain ⟨htake, hleft⟩ := Cursor.digits_append (digits_toDigits n).2 hc hrest.noDigit
    refine ⟨c.digits.2, ?_, hleft⟩
    have hgather : gather 0 c.digits.1 = (n, c.digits.1.length, []) := by
      rw [htake, gather_eq (by rwa [Nat.ofDigitChars_ten_toDigits]), Nat.ofDigitChars_ten_toDigits]
    simp [readNumber, hpeek, hd, hgather]

/-- Nothing that would make a double of it stands behind the number. -/
theorem finish_eq (hc : c.rest = rest) (hrest : Stops rest) :
    readNumber.finish positive c n =
      if positive then .ok (.natural n, c)
      else if n = 0 ∨ Nat.pow 2 63 < n then .ok (.double (-(UInt64.ofNat n).toFloat).toBits, c)
      else .ok (.negative (-n), c) := by
  rw [readNumber.finish, Cursor.nextIn_eq_false hc hrest.not_mem]
  rfl

theorem denotes_natural (h : n ≤ maxNatural) : Denotes true (Nat.toDigits 10 n) (.natural n) := by
  intro c rest hc hrest
  obtain ⟨c', hread, hc'⟩ := readNumber_toDigits true h hc hrest
  exact ⟨c', by rw [hread, finish_eq hc' hrest]; rfl, hc'⟩

theorem denotes_negative (hpos : 0 < n) (h : n ≤ Nat.pow 2 63) :
    Denotes false (Nat.toDigits 10 n) (.negative (-n)) := by
  intro c rest hc hrest
  have hmax : n ≤ maxNatural := Nat.le_trans h (by decide)
  obtain ⟨c', hread, hc'⟩ := readNumber_toDigits false hmax hc hrest
  refine ⟨c', ?_, hc'⟩
  rw [hread, finish_eq hc' hrest, if_neg Bool.false_ne_true, if_neg (by omega)]

/-- A number is spelled by its sign and the rest of its text, which reads as it. -/
theorem Spells.exists_signed {n : Number} (h : Spells t (.number n)) :
    ∃ positive u, t = signed positive u ∧ Unsigned u ∧ Denotes positive u n := by
  cases h with
  | natural h => exact ⟨true, _, rfl, unsigned_toDigits _, denotes_natural h⟩
  | negative hpos h => exact ⟨false, _, rfl, unsigned_toDigits _, denotes_negative hpos h⟩
  | double ht h => exact ⟨_, _, rfl, ht, h⟩

end Anchored.Json
