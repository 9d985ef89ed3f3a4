import Anchored.Proofs.Text.Lines

/-!
# The normal form, character by character

What the normal form keeps of a character depends on that character and on what follows it
(`kept`, `normalize_cons`). So the normal form of a text has that of every end of it at its own end
(`normalize_append`), and that of every beginning at its own beginning (`normalize_begins`). What
stands in a text stands therefore in its normal form as well, in normal form.
-/

namespace Anchored.Text

variable {c : Char} {t a b : List Char}

/-! ## One character -/

/-- A text up to its first terminator. -/
def firstLine (t : List Char) : List Char :=
  t.takeWhile fun c => c ≠ '\n' ∧ c ≠ '\r'

/-- What the normal form keeps of a character that `rest` follows. A carriage return goes with the
line feed after it, and blanks go where only blanks follow on the line. -/
def kept (c : Char) (rest : List Char) : List Char :=
  if c = '\n' then ['\n']
  else if c = '\r' then if rest.head? = some '\n' then [] else ['\n']
  else if isBlank c ∧ allBlank (firstLine rest) then []
  else expandTabs [c]

theorem kept_newline (rest : List Char) : kept '\n' rest = ['\n'] := if_pos rfl

theorem kept_return (rest : List Char) :
    kept '\r' rest = if rest.head? = some '\n' then [] else ['\n'] := rfl

theorem kept_other (hn : c ≠ '\n') (hr : c ≠ '\r') (rest : List Char) :
    kept c rest =
      if isBlank c ∧ allBlank (firstLine rest) then [] else expandTabs [c] := by
  rw [kept, if_neg hn, if_neg hr]

theorem firstLine_cons (hn : c ≠ '\n') (hr : c ≠ '\r') (t : List Char) :
    firstLine (c :: t) = c :: firstLine t := by
  simp [firstLine, hn, hr]

theorem unifyEndings_return (t : List Char) :
    unifyEndings ('\r' :: t) =
      if t.head? = some '\n' then unifyEndings t else '\n' :: unifyEndings t := by
  rcases t with _ | ⟨d, t⟩
  · rfl
  by_cases hd : d = '\n'
  · subst hd
    rw [unifyEndings, List.head?_cons, if_pos rfl, unifyEndings, if_neg (by decide)]
    exact fun _ hc _ => by cases hc
  · have hhead : ¬ (d :: t).head? = some '\n' := by simpa using hd
    rw [if_neg hhead, unifyEndings, if_pos rfl]
    exact fun _ _ hr => hd (List.cons.inj hr).1

theorem unifyEndings_cons (hr : c ≠ '\r') (t : List Char) :
    unifyEndings (c :: t) = c :: unifyEndings t := by
  rw [unifyEndings, if_neg hr]
  exact fun _ hc _ => hr hc

/-- The first piece between line feeds is the first line. -/
theorem exists_splitWhere_unifyEndings (t : List Char) :
    ∃ pieces, splitWhere (· == '\n') (unifyEndings t) = firstLine t :: pieces := by
  induction t with
  | nil => exact ⟨[], rfl⟩
  | cons c t ih =>
    by_cases hn : c = '\n'
    · subst hn
      rw [unifyEndings_cons (by decide)]
      exact ⟨_, rfl⟩
    by_cases hr : c = '\r'
    · subst hr
      rw [unifyEndings_return]
      split_ifs with hd
      · obtain ⟨rest, rfl⟩ : ∃ rest, t = '\n' :: rest := by
          rcases t with _ | ⟨d, rest⟩
          · cases hd
          · exact ⟨rest, by rw [(Option.some.inj hd)]⟩
        rw [unifyEndings_cons (by decide)]
        exact ⟨_, rfl⟩
      · exact ⟨_, rfl⟩
    obtain ⟨pieces, hpieces⟩ := ih
    refine ⟨pieces, ?_⟩
    rw [unifyEndings_cons hr, splitWhere, if_neg (by simpa using hn), hpieces,
      firstLine_cons hn hr]
    rfl

theorem trimEnd_of_allBlank (hb : allBlank b = true) : trimEnd b = [] :=
  trimEnd_append hb []

theorem trimEnd_append_of_not_allBlank (hb : ¬ allBlank b = true) (a : List Char) :
    trimEnd (a ++ b) = a ++ trimEnd b := by
  obtain ⟨m, hm, h⟩ := exists_trimEnd b
  have hne : trimEnd b ≠ [] := by
    intro hnil
    rw [hnil, List.nil_append] at h
    rw [h] at hb
    exact hb hm
  conv_lhs => rw [h, ← List.append_assoc, trimEnd_append hm]
  apply trimEnd_of_getLast
  rw [List.getLast?_append_of_ne_nil a hne]
  exact getLast_trimEnd b

theorem allBlank_expandTabs_iff : allBlank (expandTabs t) = true ↔ allBlank t = true := by
  rw [← words_eq_nil_iff, words_expandTabs, words_eq_nil_iff]

theorem normalLine_of_allBlank (h : allBlank t = true) : normalLine t = [] :=
  trimEnd_of_allBlank (allBlank_expandTabs h)

theorem normalLine_cons (c : Char) (line : List Char) :
    normalLine (c :: line) =
      (if isBlank c ∧ allBlank line then [] else expandTabs [c]) ++ normalLine line := by
  have hcons : expandTabs (c :: line) = expandTabs [c] ++ expandTabs line :=
    expandTabs_append [c] line
  by_cases hl : allBlank line = true
  · rw [normalLine_of_allBlank hl, List.append_nil]
    by_cases hc : isBlank c = true
    · rw [if_pos ⟨hc, hl⟩]
      apply normalLine_of_allBlank
      rw [allBlank, List.all_cons, hc]
      exact hl
    · have hsolid : expandTabs [c] = [c] := expandTabs_of_not_mem fun htab => by
        rw [List.mem_singleton] at htab
        exact hc (htab ▸ isBlank_tab)
      rw [if_neg fun h => hc h.1, normalLine, hcons, trimEnd_append (allBlank_expandTabs hl),
        hsolid]
      exact trimEnd_of_getLast fun d hd => by
        cases hd
        simpa using hc
  · rw [if_neg fun h => hl h.2, normalLine, hcons,
      trimEnd_append_of_not_allBlank (by rwa [allBlank_expandTabs_iff])]
    rfl

theorem normalize_newline (t : List Char) : normalize ('\n' :: t) = '\n' :: normalize t := by
  have hlines : normalLines ('\n' :: t) = [] :: normalLines t := by
    rw [normalLines, unifyEndings_cons (by decide)]
    rfl
  rw [normalize, hlines, List.intercalate_cons_of_ne_nil (normalLines_ne_nil t)]
  rfl

/-- The normal form of a text is what it keeps of the first character, and the normal form of the
rest. -/
theorem normalize_cons (c : Char) (t : List Char) :
    normalize (c :: t) = kept c t ++ normalize t := by
  by_cases hn : c = '\n'
  · subst hn
    rw [kept_newline, normalize_newline]
    rfl
  by_cases hr : c = '\r'
  · subst hr
    have hreturn : normalize ('\r' :: t) =
        if t.head? = some '\n' then normalize t else normalize ('\n' :: t) := by
      have hn : unifyEndings ('\n' :: t) = '\n' :: unifyEndings t := unifyEndings_cons (by decide) t
      simp only [normalize, normalLines, unifyEndings_return, hn]
      split_ifs <;> rfl
    rw [hreturn, kept_return, normalize_newline]
    split_ifs <;> rfl
  obtain ⟨pieces, hpieces⟩ := exists_splitWhere_unifyEndings t
  have hlines : normalLines t = normalLine (firstLine t) :: pieces.map normalLine := by
    rw [normalLines, hpieces, List.map_cons]
  have hcons : normalLines (c :: t) =
      (kept c t ++ normalLine (firstLine t)) :: pieces.map normalLine := by
    rw [normalLines, unifyEndings_cons hr, splitWhere, if_neg (by simpa using hn), hpieces,
      kept_other hn hr, ← normalLine_cons]
    rfl
  rw [normalize, normalize, hcons, hlines]
  rcases pieces.map normalLine with _ | ⟨piece, pieces⟩
  · simp
  · simp [List.intercalate_cons_cons]

theorem kept_of_letter (hc : isBlank c = false) (rest : List Char) : kept c rest = [c] := by
  have hne : ∀ d, isBlank d = true → c ≠ d := by
    rintro d hd rfl
    rw [hc] at hd
    cases hd
  rw [kept_other (hne '\n' (by decide)) (hne '\r' (by decide)), if_neg (by simp [hc])]
  exact expandTabs_of_not_mem (by simpa using (hne '\t' isBlank_tab).symm)

/-! ## The beginning and the end of a text -/

/-- What the normal form keeps of `a` where `b` follows. -/
def keptOf : List Char → List Char → List Char
  | [], _ => []
  | c :: a, b => kept c (a ++ b) ++ keptOf a b

theorem normalize_append (a b : List Char) : normalize (a ++ b) = keptOf a b ++ normalize b := by
  induction a with
  | nil => rfl
  | cons c a ih => rw [List.cons_append, normalize_cons, ih, keptOf, List.append_assoc]

theorem keptOf_append (a b t : List Char) :
    keptOf (a ++ b) t = keptOf a (b ++ t) ++ keptOf b t := by
  induction a with
  | nil => rfl
  | cons c a ih => rw [List.cons_append, keptOf, ih, keptOf, List.append_assoc, List.append_assoc]

/-- Letters are kept. -/
theorem keptOf_ne_nil (h : ¬ allBlank a = true) (b : List Char) : keptOf a b ≠ [] := by
  induction a with
  | nil => exact absurd rfl h
  | cons c a ih =>
    rw [keptOf]
    by_cases hc : isBlank c = true
    · have ha : ¬ allBlank a = true := by
        rwa [allBlank, List.all_cons, hc, Bool.true_and] at h
      exact List.append_ne_nil_of_right_ne_nil _ (ih ha)
    · rw [kept_of_letter (by simpa using hc)]
      exact List.cons_ne_nil _ _

/-- A text keeps its first line when something follows, unless that line goes on. -/
theorem firstLine_append (a b : List Char) :
    firstLine (a ++ b) = firstLine a ∨ firstLine a = a ∧ firstLine (a ++ b) = a ++ firstLine b := by
  induction a with
  | nil => exact Or.inr ⟨rfl, rfl⟩
  | cons c a ih =>
    by_cases hc : c ≠ '\n' ∧ c ≠ '\r'
    · rw [List.cons_append, firstLine_cons hc.1 hc.2, firstLine_cons hc.1 hc.2]
      rcases ih with hsame | ⟨hwhole, hgoes⟩
      · exact Or.inl (congrArg (c :: ·) hsame)
      · exact Or.inr ⟨congrArg (c :: ·) hwhole, congrArg (c :: ·) hgoes⟩
    · refine Or.inl ?_
      simp only [firstLine, List.cons_append]
      rw [List.takeWhile_cons_of_neg (by simpa using hc),
        List.takeWhile_cons_of_neg (by simpa using hc)]

theorem normalize_of_firstLine_eq (h : firstLine t = t) : normalize t = normalLine t := by
  obtain ⟨pieces, hpieces⟩ := exists_splitWhere_unifyEndings t
  have hunbroken : Unbroken t := by
    intro c hc
    rw [← h] at hc
    simpa using List.all_eq_true.mp List.all_takeWhile c hc
  have hunify : unifyEndings t = t := by
    simpa [unifyEndings] using unifyEndings_of_unbroken hunbroken []
  rw [normalize, normalLines, hunify, splitWhere_of_unbroken hunbroken]
  simp

/-- The normal form of a text begins like the text. -/
theorem normalize_begins (a b : List Char) : normalize a <+: normalize (a ++ b) := by
  induction a with
  | nil => exact List.nil_prefix
  | cons c a ih =>
    rw [List.cons_append, normalize_cons, normalize_cons]
    by_cases hkept : kept c (a ++ b) = kept c a
    · rw [hkept]
      exact (List.prefix_append_right_inj _).mpr ih
    by_cases hn : c = '\n'
    · rw [hn, kept_newline, kept_newline] at hkept
      exact absurd rfl hkept
    by_cases hr : c = '\r'
    · -- The line feed that the carriage return goes with comes after `a`.
      subst hr
      rcases a with _ | ⟨d, a⟩
      · rcases b with _ | ⟨d, b⟩
        · exact absurd rfl hkept
        · by_cases hd : d = '\n'
          · subst hd
            rw [List.nil_append, normalize_newline]
            exact ⟨normalize b, rfl⟩
          · have hd' : ¬ (d :: b).head? = some '\n' := by simpa using hd
            rw [List.nil_append, kept_return, kept_return, if_neg hd'] at hkept
            exact absurd rfl hkept
      · exact absurd rfl hkept
    rw [kept_other hn hr, kept_other hn hr] at hkept
    rcases firstLine_append a b with hsame | ⟨hwhole, hgoes⟩
    · rw [hsame] at hkept
      exact absurd rfl hkept
    by_cases hblank : isBlank c ∧ allBlank (firstLine a)
    · -- All of `a` is blank, and nothing of it is kept.
      rw [kept_other hn hr a, if_pos hblank, List.nil_append, normalize_of_firstLine_eq hwhole,
        normalLine_of_allBlank (hwhole ▸ hblank.2)]
      exact List.nil_prefix
    · have hmore : ¬ (isBlank c ∧ allBlank (firstLine (a ++ b))) := by
        rintro ⟨hc, hab⟩
        rw [hgoes, allBlank, List.all_append, Bool.and_eq_true] at hab
        exact hblank ⟨hc, hwhole.symm ▸ hab.1⟩
      rw [if_neg hblank, if_neg hmore] at hkept
      exact absurd rfl hkept

/-! ## Counting lines -/

/-- How many lines have ended where `a` stands before and `b` after. A carriage return ends a line
together with the line feed after it. -/
def linesBefore (a b : List Char) : Nat :=
  (keptOf a b).count '\n'

@[simp]
theorem linesBefore_nil (b : List Char) : linesBefore [] b = 0 := rfl

theorem linesBefore_newline (a b : List Char) :
    linesBefore ('\n' :: a) b = linesBefore a b + 1 := by
  rw [linesBefore, keptOf, kept_newline]
  simp [linesBefore]

theorem linesBefore_return (a b : List Char) :
    linesBefore ('\r' :: a) b =
      if (a ++ b).head? = some '\n' then linesBefore a b else linesBefore a b + 1 := by
  rw [linesBefore, keptOf, kept_return]
  split_ifs <;> simp [linesBefore]

theorem linesBefore_other (hn : c ≠ '\n') (hr : c ≠ '\r') (a b : List Char) :
    linesBefore (c :: a) b = linesBefore a b := by
  have hkept : '\n' ∉ kept c (a ++ b) := by
    rw [kept_other hn hr]
    split_ifs
    · exact List.not_mem_nil
    · intro hmem
      rcases mem_expandTabs hmem with h | ⟨_, h⟩
      · cases h
      · exact hn (List.mem_singleton.mp h).symm
  rw [linesBefore, keptOf, List.count_append, List.count_eq_zero_of_not_mem hkept, Nat.zero_add]
  rfl

theorem linesBefore_append (a b t : List Char) :
    linesBefore (a ++ b) t = linesBefore a (b ++ t) + linesBefore b t := by
  rw [linesBefore, keptOf_append, List.count_append]
  rfl

/-- Only the next character decides whether a line has ended. -/
theorem linesBefore_congr (a : List Char) (c : Char) (b : List Char) :
    linesBefore a (c :: b) = linesBefore a [c] := by
  induction a with
  | nil => rfl
  | cons d a ih =>
    by_cases hn : d = '\n'
    · rw [hn, linesBefore_newline, linesBefore_newline, ih]
    by_cases hr : d = '\r'
    · have hhead : (a ++ c :: b).head? = (a ++ [c]).head? := by
        cases a <;> rfl
      rw [hr, linesBefore_return, linesBefore_return, ih, hhead]
    · rw [linesBefore_other hn hr, linesBefore_other hn hr, ih]

theorem length_splitWhere (p : Char → Bool) (t : List Char) :
    (splitWhere p t).length = t.countP p + 1 := by
  induction t with
  | nil => rfl
  | cons c t ih =>
    rw [splitWhere]
    split_ifs with hc
    · rw [List.length_cons, ih, List.countP_cons_of_pos hc]
    · rw [List.length_modifyHead, ih, List.countP_cons_of_neg hc]

/-- What follows a text does not change the pieces that have ended in it. -/
theorem getElem?_splitWhere_append_left (p : Char → Bool) (b : List Char) {k : Nat}
    (hk : k < a.countP p) : (splitWhere p (a ++ b))[k]? = (splitWhere p a)[k]? := by
  induction a generalizing k with
  | nil => cases hk
  | cons c a ih =>
    rw [List.cons_append, splitWhere, splitWhere]
    split_ifs with hc
    · rcases k with _ | k
      · rfl
      · rw [List.countP_cons_of_pos hc] at hk
        rw [List.getElem?_cons_succ, List.getElem?_cons_succ, ih (by omega)]
    · rw [List.countP_cons_of_neg hc] at hk
      rw [List.getElem?_modifyHead, List.getElem?_modifyHead, ih hk]

/-- What stands before a text may only make its first piece longer. -/
theorem getElem?_splitWhere_append_right (p : Char → Bool) (a : List Char) {k : Nat}
    {piece : List Char} (h : (splitWhere p b)[k]? = some piece) :
    ∃ x, (splitWhere p (a ++ b))[a.countP p + k]? = some (x ++ piece) := by
  induction a with
  | nil => exact ⟨[], by simpa using h⟩
  | cons c a ih =>
    obtain ⟨x, hx⟩ := ih
    rw [List.cons_append, splitWhere]
    split_ifs with hc
    · refine ⟨x, ?_⟩
      rw [List.countP_cons_of_pos hc, Nat.add_right_comm, List.getElem?_cons_succ, hx]
    · rw [List.countP_cons_of_neg hc, List.getElem?_modifyHead, hx]
      split_ifs
      · exact ⟨c :: x, rfl⟩
      · exact ⟨x, rfl⟩

/-- The normal form has a line feed between any two of its lines. -/
theorem length_normalLines (t : List Char) :
    (normalLines t).length = (normalize t).count '\n' + 1 := by
  rw [← splitWhere_normalize, length_splitWhere]
  rfl

/-- A line feed at the end of the normal form leaves an empty last line. -/
theorem getElem?_normalLines_of_getLast (h : (normalize t).getLast? = some '\n') :
    (normalLines t)[(normalize t).count '\n']? = some [] := by
  obtain ⟨init, hinit⟩ := List.getLast?_eq_some_iff.mp h
  have hsplit : normalLines t = splitWhere (· == '\n') init ++ [[]] := by
    rw [← splitWhere_normalize, hinit, splitWhere_eq_splitOnP, splitWhere_eq_splitOnP,
      List.splitOnP_append_cons init [] (by rfl)]
    rfl
  have hlen : (normalize t).count '\n' = (splitWhere (· == '\n') init).length := by
    have := length_normalLines t
    rw [hsplit, List.length_append, List.length_singleton] at this
    omega
  rw [hsplit, hlen, List.getElem?_concat_length]

end Anchored.Text
