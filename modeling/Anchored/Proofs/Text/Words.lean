import Anchored.Proofs.Text.Occurrence
import Anchored.Text.Normal

/-!
# Words, blanks and pieces

The words of a text do not change with the blanks around and between them: not when blanks are
trimmed, and not when tabs are expanded. Trimming and expanding may change places
(`trim_expandTabs`). The last section is on texts put together from pieces with a separator between
them.
-/

namespace Anchored.Text

variable {t : List Char} {c : Char}

theorem splitWhere_eq_splitOnP (p : Char → Bool) (t : List Char) :
    splitWhere p t = t.splitOnP p := by
  induction t with
  | nil => simp [splitWhere]
  | cons c t ih => rw [splitWhere, List.splitOnP_cons_eq_if_modifyHead, ih]

/-! ## Blanks -/

/-- Some blanks stand before a text without its first blanks. -/
theorem exists_trimStart (t : List Char) : ∃ a, allBlank a = true ∧ t = a ++ trimStart t := by
  refine ⟨t.takeWhile isBlank, ?_, (List.takeWhile_append_dropWhile).symm⟩
  exact List.all_takeWhile

theorem exists_trimEnd (t : List Char) : ∃ b, allBlank b = true ∧ t = trimEnd t ++ b := by
  obtain ⟨a, ha, h⟩ := exists_trimStart t.reverse
  refine ⟨a.reverse, ?_, ?_⟩
  · simpa [allBlank] using ha
  · have := congrArg List.reverse h
    rwa [List.reverse_reverse, List.reverse_append] at this

theorem exists_trim (t : List Char) :
    ∃ a b, allBlank a = true ∧ allBlank b = true ∧ t = a ++ trim t ++ b := by
  obtain ⟨a, ha, h⟩ := exists_trimStart t
  obtain ⟨b, hb, h'⟩ := exists_trimEnd (trimStart t)
  refine ⟨a, b, ha, hb, ?_⟩
  rw [List.append_assoc, trim, ← h', ← h]

theorem trimStart_append {a : List Char} (ha : allBlank a = true) (t : List Char) :
    trimStart (a ++ t) = trimStart t := by
  simp only [allBlank, List.all_eq_true] at ha
  exact List.dropWhile_append_of_pos ha

theorem trimEnd_append {b : List Char} (hb : allBlank b = true) (t : List Char) :
    trimEnd (t ++ b) = trimEnd t := by
  have hr : allBlank b.reverse = true := by simpa [allBlank] using hb
  unfold trimEnd
  rw [List.reverse_append]
  exact congrArg List.reverse (trimStart_append hr t.reverse)

theorem trimStart_of_head (h : ∀ c ∈ t.head?, isBlank c = false) : trimStart t = t := by
  cases t with
  | nil => rfl
  | cons c t =>
    have hc : isBlank c = false := h c rfl
    simp [trimStart, hc]

theorem trimEnd_of_getLast (h : ∀ c ∈ t.getLast?, isBlank c = false) : trimEnd t = t := by
  have hr : ∀ c ∈ t.reverse.head?, isBlank c = false := by simpa using h
  have := congrArg List.reverse (trimStart_of_head hr)
  rwa [List.reverse_reverse] at this

theorem head_trimStart (t : List Char) : ∀ c ∈ (trimStart t).head?, isBlank c = false := by
  intro c hc
  have := List.head?_dropWhile_not isBlank t
  unfold trimStart at hc
  rw [hc] at this
  simpa using this

theorem getLast_trimEnd (t : List Char) : ∀ c ∈ (trimEnd t).getLast?, isBlank c = false := by
  intro c hc
  unfold trimEnd at hc
  rw [List.getLast?_reverse] at hc
  exact head_trimStart t.reverse c hc

/-- The only text between blanks that neither starts nor ends with a blank. -/
theorem trim_eq_of {a m b : List Char} (ha : allBlank a = true) (hb : allBlank b = true)
    (hfirst : ∀ c ∈ m.head?, isBlank c = false) (hlast : ∀ c ∈ m.getLast?, isBlank c = false) :
    trim (a ++ m ++ b) = m := by
  rw [trim, List.append_assoc, trimStart_append ha]
  rcases m with _ | ⟨c, m⟩
  · rw [List.nil_append, ← List.append_nil b, trimStart_append hb]
    rfl
  · have hstart : trimStart (c :: m ++ b) = c :: m ++ b := trimStart_of_head fun d hd => hfirst d hd
    rw [hstart, trimEnd_append hb, trimEnd_of_getLast hlast]

/-- Both ends can be trimmed in either order. -/
theorem trimStart_trimEnd (t : List Char) : trimStart (trimEnd t) = trim t := by
  obtain ⟨a, ha, h⟩ := exists_trimStart (trimEnd t)
  obtain ⟨b, hb, h'⟩ := exists_trimEnd t
  have hlast : ∀ c ∈ (trimStart (trimEnd t)).getLast?, isBlank c = false := by
    intro c hc
    apply getLast_trimEnd t c
    rw [h, List.getLast?_append, hc]
    rfl
  rw [h] at h'
  conv_rhs => rw [h']
  exact (trim_eq_of ha hb (head_trimStart _) hlast).symm

theorem head_trim (t : List Char) : ∀ c ∈ (trim t).head?, isBlank c = false := by
  rw [← trimStart_trimEnd]
  exact head_trimStart _

theorem getLast_trim (t : List Char) : ∀ c ∈ (trim t).getLast?, isBlank c = false :=
  getLast_trimEnd _

/-! ## Tabs -/

theorem isBlank_tab : isBlank '\t' = true := by decide

theorem expandTabs_append (a b : List Char) : expandTabs (a ++ b) = expandTabs a ++ expandTabs b :=
  List.flatMap_append

theorem expandTabs_cons_tab (t : List Char) :
    expandTabs ('\t' :: t) = List.replicate tabWidth ' ' ++ expandTabs t := rfl

theorem expandTabs_cons (h : c ≠ '\t') (t : List Char) :
    expandTabs (c :: t) = c :: expandTabs t := by
  simp [expandTabs, h]

theorem expandTabs_of_not_mem (h : '\t' ∉ t) : expandTabs t = t := by
  induction t with
  | nil => rfl
  | cons c t ih =>
    simp only [List.mem_cons, not_or] at h
    rw [expandTabs_cons (Ne.symm h.1), ih h.2]

theorem mem_expandTabs (h : c ∈ expandTabs t) : c = ' ' ∨ (c ≠ '\t' ∧ c ∈ t) := by
  obtain ⟨d, hd, hc⟩ := List.mem_flatMap.mp h
  split_ifs at hc with htab
  · exact Or.inl (List.eq_of_mem_replicate hc)
  · rw [List.mem_singleton] at hc
    subst hc
    exact Or.inr ⟨htab, hd⟩

theorem allBlank_expandTabs (h : allBlank t = true) : allBlank (expandTabs t) = true := by
  simp only [allBlank, List.all_eq_true] at h ⊢
  intro c hc
  rcases mem_expandTabs hc with rfl | ⟨_, hmem⟩
  · decide
  · exact h c hmem

/-- Expanding the tabs between the first and the last letter is expanding all and trimming. -/
theorem trim_expandTabs (t : List Char) : trim (expandTabs t) = expandTabs (trim t) := by
  have hsolid : ∀ c, isBlank c = false → c ≠ '\t' := by
    rintro c hc rfl
    rw [isBlank_tab] at hc
    cases hc
  obtain ⟨a, b, ha, hb, h⟩ := exists_trim t
  have hfirst : ∀ c ∈ (expandTabs (trim t)).head?, isBlank c = false := by
    rcases hm : trim t with _ | ⟨d, m⟩
    · intro c hc
      cases hc
    · have hd : isBlank d = false := head_trim t d (by rw [hm]; rfl)
      rw [expandTabs_cons (hsolid d hd)]
      intro c hc
      cases hc
      exact hd
  have hlast : ∀ c ∈ (expandTabs (trim t)).getLast?, isBlank c = false := by
    rcases List.eq_nil_or_concat' (trim t) with hm | ⟨m, d, hm⟩
    · rw [hm]
      intro c hc
      cases hc
    · have hd : isBlank d = false := getLast_trim t d (by rw [hm]; simp)
      rw [hm, expandTabs_append, expandTabs_cons (hsolid d hd)]
      intro c hc
      have hcd : d = c := by simpa [expandTabs] using hc
      rwa [← hcd]
  conv_lhs => rw [h, expandTabs_append, expandTabs_append]
  exact trim_eq_of (allBlank_expandTabs ha) (allBlank_expandTabs hb) hfirst hlast

/-! ## Words -/

@[simp]
theorem words_nil : words [] = [] := by simp [words, splitWhere]

/-- A blank ends one word and starts another. -/
theorem words_append_cons (hc : isBlank c = true) (a b : List Char) :
    words (a ++ c :: b) = words a ++ words b := by
  unfold words
  simp only [splitWhere_eq_splitOnP]
  rw [List.splitOnP_append_cons a b hc, List.filter_append]

theorem words_cons (hc : isBlank c = true) (t : List Char) : words (c :: t) = words t := by
  simpa using words_append_cons hc [] t

theorem words_append_of_allBlank {m : List Char} (hm : allBlank m = true) (t : List Char) :
    words (m ++ t) = words t := by
  induction m with
  | nil => rfl
  | cons c m ih =>
    simp only [allBlank, List.all_cons, Bool.and_eq_true] at hm
    rw [List.cons_append, words_cons hm.1, ih hm.2]

theorem words_append_between {m : List Char} (hm : allBlank m = true) (hne : m ≠ [])
    (a b : List Char) : words (a ++ m ++ b) = words a ++ words b := by
  rcases m with _ | ⟨c, m⟩
  · exact absurd rfl hne
  · simp only [allBlank, List.all_cons, Bool.and_eq_true] at hm
    rw [List.append_assoc, List.cons_append, words_append_cons hm.1,
      words_append_of_allBlank hm.2]

theorem words_append_right {m : List Char} (hm : allBlank m = true) (t : List Char) :
    words (t ++ m) = words t := by
  by_cases hne : m = []
  · rw [hne, List.append_nil]
  · simpa using words_append_between hm hne t []

theorem words_trimStart (t : List Char) : words (trimStart t) = words t := by
  obtain ⟨a, ha, h⟩ := exists_trimStart t
  conv_rhs => rw [h, words_append_of_allBlank ha]

theorem words_trimEnd (t : List Char) : words (trimEnd t) = words t := by
  obtain ⟨b, hb, h⟩ := exists_trimEnd t
  conv_rhs => rw [h, words_append_right hb]

theorem words_expandTabs (t : List Char) : words (expandTabs t) = words t := by
  -- The letters that were read since the last blank stand in front.
  suffices h : ∀ a, words (a ++ expandTabs t) = words (a ++ t) from h []
  induction t with
  | nil => simp [expandTabs]
  | cons c t ih =>
    intro a
    by_cases hc : c = '\t'
    · subst hc
      rw [expandTabs_cons_tab, ← List.append_assoc, words_append_between (by decide) (by decide),
        words_append_cons isBlank_tab]
      exact congrArg (words a ++ ·) (ih [])
    · have := ih (a ++ [c])
      rwa [List.append_assoc, List.append_assoc, List.singleton_append, List.singleton_append,
        ← expandTabs_cons hc] at this

theorem words_normalLine (line : List Char) : words (normalLine line) = words line := by
  rw [normalLine, words_trimEnd, words_expandTabs]

theorem words_eq_nil_iff : words t = [] ↔ allBlank t = true := by
  constructor
  · intro h
    induction t with
    | nil => rfl
    | cons c t ih =>
      by_cases hc : isBlank c = true
      · rw [words_cons hc] at h
        have := ih h
        simp only [allBlank, List.all_cons, Bool.and_eq_true] at this ⊢
        exact ⟨hc, this⟩
      · rw [words, splitWhere, if_neg hc] at h
        rcases hs : splitWhere isBlank t with _ | ⟨piece, pieces⟩
        · rw [splitWhere_eq_splitOnP] at hs
          exact absurd hs (List.splitOnP_ne_nil _ _)
        · simp [hs] at h
  · intro h
    simpa using words_append_of_allBlank h []

theorem words_ne_nil_iff : words t ≠ [] ↔ ∃ c ∈ t, isBlank c = false := by
  simp [words_eq_nil_iff, allBlank]

/-! ## Pieces with a separator between them -/

section Pieces

variable {sep : Char} {before pieces : List (List Char)}

/-- The byte at which the piece after some others starts. -/
def offsetAfter (sep : Char) (before : List (List Char)) : Nat :=
  byteSize (before.flatMap (· ++ [sep]))

theorem offsetAfter_lt {pieces : List (List Char)} (hp : before <+: pieces)
    (hlen : before.length < pieces.length) : offsetAfter sep before < offsetAfter sep pieces := by
  obtain ⟨more, rfl⟩ := hp
  rcases more with _ | ⟨piece, more⟩
  · simp at hlen
  · have := sep.utf8Size_pos
    simp only [offsetAfter, List.flatMap_append, List.flatMap_cons, byteSize_append, byteSize]
    omega

theorem intercalate_append (hp : pieces ≠ []) :
    [sep].intercalate (before ++ pieces) =
      before.flatMap (· ++ [sep]) ++ [sep].intercalate pieces := by
  induction before with
  | nil => rfl
  | cons piece before ih =>
    rw [List.cons_append, List.intercalate_cons_of_ne_nil (by simp [hp]), ih, List.flatMap_cons]
    simp only [List.append_assoc]

/-- Pieces without separators have one after each. -/
theorem count_flatMap_concat (h : ∀ piece ∈ pieces, sep ∉ piece) :
    (pieces.flatMap (· ++ [sep])).count sep = pieces.length := by
  induction pieces with
  | nil => rfl
  | cons piece pieces ih =>
    rw [List.forall_mem_cons] at h
    rw [List.flatMap_cons, List.count_append, List.count_append, ih h.2,
      List.count_eq_zero_of_not_mem h.1, List.count_singleton_self, List.length_cons]
    omega

/-- Pieces begin a text of which they are the first pieces, where the last may go on. -/
theorem intercalate_begins (sep : Char) (pieces : List (List Char)) (piece more : List Char)
    (after : List (List Char)) :
    [sep].intercalate (pieces ++ [piece]) <+:
      [sep].intercalate (pieces ++ (piece ++ more) :: after) := by
  rw [intercalate_append (by simp), intercalate_append (by simp), List.prefix_append_right_inj,
    List.intercalate_singleton]
  rcases after with _ | ⟨next, after⟩
  · rw [List.intercalate_singleton]
    exact List.prefix_append piece more
  · rw [List.intercalate_cons_cons, List.append_assoc, List.append_assoc]
    exact List.prefix_append piece _

theorem intercalate_begins_append (sep : Char) (hp : pieces ≠ []) (after : List (List Char)) :
    [sep].intercalate pieces <+: [sep].intercalate (pieces ++ after) := by
  obtain ⟨init, last, hinit⟩ := (List.eq_nil_or_concat' pieces).resolve_left hp
  rw [hinit, List.append_assoc, List.singleton_append]
  simpa using intercalate_begins sep init last [] after

/-- A blank between two texts is no part of a word. -/
theorem words_intercalate (hs : isBlank sep = true) (pieces : List (List Char)) :
    words ([sep].intercalate pieces) = pieces.flatMap words := by
  induction pieces with
  | nil => simp
  | cons piece pieces ih =>
    by_cases hp : pieces = []
    · simp [hp]
    · rw [List.intercalate_cons_of_ne_nil hp, words_append_between (by simpa [allBlank] using hs)
        (by simp), ih, List.flatMap_cons]

/-- What begins at a piece occurs at the byte at which that piece starts. -/
theorem offsetAfter_mem_occurrences {needle : List Char} (before : List (List Char))
    (hn : needle ≠ []) (hp : pieces ≠ []) (h : needle <+: [sep].intercalate pieces) :
    offsetAfter sep before ∈ occurrences ([sep].intercalate (before ++ pieces)) needle := by
  obtain ⟨rest, hrest⟩ := h
  refine mem_occurrences_iff.mpr ⟨hn, before.flatMap (· ++ [sep]), rest, ?_, rfl⟩
  rw [intercalate_append hp, ← hrest, List.append_assoc]

end Pieces

end Anchored.Text
