import Anchored.Proofs.Json.Grammar

/-!
# Reading the tokens of JSON

A reader that stands before a token that is spelled takes it and no more: words, strings and
numbers, whether their value is wanted or they are only passed over. What a reader does is told by
what it leaves of the text (`Leaves`, `Answers`), not by the lines and columns it counts.
-/

namespace Anchored.Json

variable {α β : Type} {c : Cursor} {x : Char} {w t rest more : List Char} {fuel : Nat}

/-! ## Cursors -/

namespace Cursor

@[simp]
theorem rest_skip (c : Cursor) : c.skip.rest = c.rest.tail := by
  rw [skip]
  split <;> simp [*]

@[simp]
theorem rest_drop (n : Nat) (c : Cursor) : (c.drop n).rest = c.rest.drop n := by
  induction n generalizing c with
  | zero => rfl
  | succ n ih => rw [drop, ih, rest_skip, List.drop_tail]

theorem rest_skipSpaceFrom (c : Cursor) (t : List Char) (h : c.rest = t) :
    (c.skipSpaceFrom t).rest = t.dropWhile isSpace := by
  induction t generalizing c with
  | nil => simpa [skipSpaceFrom] using h
  | cons x t ih =>
    rw [skipSpaceFrom, List.dropWhile_cons]
    split
    · exact ih _ (by simp [h])
    · exact h

theorem rest_skipSpace (c : Cursor) : c.skipSpace.rest = c.rest.dropWhile isSpace :=
  c.rest_skipSpaceFrom c.rest rfl

/-- White space is passed over up to a character that is none. -/
theorem rest_skipSpace_append (hc : c.rest = w ++ x :: t) (hw : Spaces w)
    (hx : isSpace x = false) : c.skipSpace.rest = x :: t := by
  rw [rest_skipSpace, hc, List.dropWhile_append_of_pos hw,
    List.dropWhile_cons_of_neg (by simp [hx])]

theorem rest_skipSpace_eq_nil (hc : c.rest = w) (hw : Spaces w) : c.skipSpace.rest = [] := by
  rw [rest_skipSpace, hc, ← List.append_nil w, List.dropWhile_append_of_pos hw, List.dropWhile_nil]

theorem peek?_eq (hc : c.rest = x :: t) : c.peek? = some x := by
  rw [peek?, hc, List.head?_cons]

theorem nextIn_eq (hc : c.rest = x :: t) (xs : List Char) : c.nextIn xs = xs.contains x := by
  rw [nextIn, hc, List.head?_cons, Option.any_some]

theorem nextIn_of_ne {y : Char} (hc : c.rest = x :: t) (h : x ≠ y) : c.nextIn [y] = false := by
  simpa [nextIn_eq hc] using h

end Cursor

/-! ## What is left behind -/

@[simp]
theorem ok_bind {ε : Type} (a : α) (k : α → Except ε β) : (Except.ok a >>= k) = k a :=
  rfl

@[simp]
theorem pure_eq_ok {ε : Type} (a : α) : (pure a : Except ε α) = .ok a :=
  rfl

@[simp]
theorem error_bind {ε : Type} (e : ε) (k : α → Except ε β) : (Except.error e >>= k) = .error e :=
  rfl

/-- The reader succeeds and leaves `rest`. -/
def Leaves (result : Except Error Cursor) (rest : List Char) : Prop :=
  ∃ c, result = .ok c ∧ c.rest = rest

/-- The reader gives the answer that is expected and leaves a text that is `left`; if none is
expected, it fails. -/
def Answers (result : Except Error (α × Cursor)) (expected : Option α)
    (left : List Char → Prop) : Prop :=
  match expected with
  | some a => ∃ c, result = .ok (a, c) ∧ left c.rest
  | none => ∃ e, result = .error e

theorem Leaves.and_then {result : Except Error Cursor} {k : Cursor → Except Error Cursor}
    (rest : List Char) (h : Leaves result rest) (hk : ∀ c, c.rest = rest → Leaves (k c) more) :
    Leaves (result >>= k) more := by
  obtain ⟨c, rfl, hc⟩ := h
  exact hk c hc

/-- One reader after another: the second goes on where the first stopped. -/
theorem Answers.bind {result : Except Error (α × Cursor)} {left left' : List Char → Prop}
    {k : α × Cursor → Except Error (β × Cursor)} {expected : Option α} {f : α → Option β}
    (h : Answers result expected left)
    (hk : ∀ a c, left c.rest → Answers (k (a, c)) (f a) left') :
    Answers (result >>= k) (expected.bind f) left' := by
  cases expected with
  | none =>
    obtain ⟨e, rfl⟩ := h
    exact ⟨e, rfl⟩
  | some a =>
    obtain ⟨c, rfl, hc⟩ := h
    exact hk a c hc

theorem Answers.map {result : Except Error (α × Cursor)} {expected : Option α}
    {left : List Char → Prop} (h : Answers result expected left) (f : α → β) :
    Answers (result >>= fun p => pure (f p.1, p.2)) (expected.map f) left := by
  rw [Option.map_eq_bind]
  exact h.bind fun a c hc => ⟨c, rfl, hc⟩

/-! ## Words -/

theorem leaves_readWord (word : List Char) (hc : c.rest = word ++ rest) :
    Leaves (readWord c word) rest := by
  induction word generalizing c with
  | nil => exact ⟨c, rfl, hc⟩
  | cons x word ih =>
    rw [readWord, Cursor.peek?_eq hc]
    simp only [if_true]
    exact ih (by simp [hc])

/-- The rest of a word is taken behind its first character. -/
theorem leaves_readWord_skip (word : List Char) (hc : c.rest = x :: (word ++ rest)) :
    Leaves (readWord c.skip word) rest :=
  leaves_readWord word (by simp [hc])

/-! ## Strings -/

theorem readHex_eq {ds : List Char} {n : Nat} (h : SpellsUnit ds n) (hc : c.rest = ds ++ rest) :
    readHex c = .ok (n, c.drop 4) ∧ (c.drop 4).rest = rest := by
  cases h with
  | digits ha hb hd he => simp [readHex, hc, ha, hb, hd, he]

theorem leaves_expectPair (hc : c.rest = x :: rest) : Leaves (expectPair c x) rest := by
  rw [expectPair, Cursor.peek?_eq hc]
  exact ⟨c.skip, if_pos rfl, by simp [hc]⟩

theorem readUnicode_unit {ds : List Char} {n : Nat} (h : SpellsUnit ds n)
    (hleading : isLeading n = false) (htrailing : isTrailing n = false) (hc : c.rest = ds ++ rest) :
    Answers (readUnicode c) (some (Char.ofNat n)) (· = rest) := by
  obtain ⟨hread, hrest⟩ := readHex_eq h hc
  exact ⟨c.drop 4, by simp [readUnicode, hread, hleading, htrailing], hrest⟩

theorem readUnicode_pair {ds ds' : List Char} {n n' : Nat} (h : SpellsUnit ds n)
    (h' : SpellsUnit ds' n') (hleading : isLeading n = true) (htrailing : isTrailing n' = true)
    (hc : c.rest = ds ++ '\\' :: 'u' :: (ds' ++ rest)) :
    Answers (readUnicode c)
      (some (Char.ofNat (0x10000 + (n - 0xD800) * 0x400 + (n' - 0xDC00)))) (· = rest) := by
  have hnot : isTrailing n = false := by
    simp only [isLeading, isTrailing, Bool.and_eq_true, decide_eq_true_eq, Bool.and_eq_false_iff,
      decide_eq_false_iff_not] at hleading ⊢
    omega
  obtain ⟨hread, hrest⟩ := readHex_eq h hc
  obtain ⟨c₁, hc₁, hrest₁⟩ := leaves_expectPair hrest
  obtain ⟨c₂, hc₂, hrest₂⟩ := leaves_expectPair hrest₁
  obtain ⟨hread', hrest'⟩ := readHex_eq h' hrest₂
  refine ⟨c₂.drop 4, ?_, hrest'⟩
  simp [readUnicode, hread, hnot, hleading, hc₁, hc₂, hread', htrailing]

/-- Where its value does not matter, a Unicode escape is taken by itself. -/
theorem readStringFrom_unit {ds : List Char} {n : Nat} (fuel : Nat) (acc : List Char)
    (h : SpellsUnit ds n) (hc : c.rest = '\\' :: 'u' :: (ds ++ rest)) :
    ∃ c', readStringFrom false (fuel + 1) acc c = readStringFrom false fuel acc c' ∧
      c'.rest = rest := by
  have hds : c.skip.skip.rest = ds ++ rest := by simp [hc]
  obtain ⟨hread, hrest⟩ := readHex_eq h hds
  refine ⟨_, ?_, hrest⟩
  rw [readStringFrom, hc]
  simp [Cursor.peek?, hc, hread]

/-- One character of a string is taken. Where its value does not matter, the two escapes of a pair
are taken one after the other. -/
theorem readStringFrom_char (strict : Bool) (acc : List Char) (h : SpellsChar t x)
    (hc : c.rest = t ++ rest) (hfuel : t.length ≤ fuel) :
    ∃ fuel' acc' c', readStringFrom strict fuel acc c = readStringFrom strict fuel' acc' c' ∧
      fuel ≤ fuel' + t.length ∧ c'.rest = rest ∧ (strict = true → acc' = x :: acc) := by
  obtain _ | fuel := fuel
  · cases h <;> simp at hfuel
  -- Every escape takes one unit of fuel and has at least two characters, so there is fuel for a pair.
  cases h with
  | plain hcontrol hquote hescape =>
    refine ⟨fuel, x :: acc, c.skip, ?_, by simp, by simp [hc], fun _ => rfl⟩
    rw [readStringFrom, hc]
    simp [hcontrol]
  | @letter y _ h =>
    refine ⟨fuel, x :: acc, c.skip.skip, ?_, by simp, by simp [hc], fun _ => rfl⟩
    have hu : y ≠ 'u' := by
      rintro rfl
      cases h
    rw [readStringFrom, hc]
    simp [Cursor.peek?, hc, h]
  | @unit ds _ h hleading htrailing =>
    cases strict with
    | true =>
      have hds : c.skip.skip.rest = ds ++ rest := by simp [hc]
      obtain ⟨c', hread, hrest⟩ := readUnicode_unit h hleading htrailing hds
      refine ⟨fuel, _, c', ?_, by simp, hrest, fun _ => rfl⟩
      rw [readStringFrom, hc]
      simp [Cursor.peek?, hc, hread]
    | false =>
      obtain ⟨c', hread, hrest⟩ := readStringFrom_unit fuel acc h hc
      exact ⟨fuel, acc, c', hread, by simp, hrest, by simp⟩
  | @pair ds ds' _ _ h h' hleading htrailing =>
    rw [List.cons_append, List.cons_append, List.append_assoc] at hc
    cases strict with
    | true =>
      have hds : c.skip.skip.rest = ds ++ '\\' :: 'u' :: (ds' ++ rest) := by simp [hc]
      obtain ⟨c', hread, hrest⟩ := readUnicode_pair h h' hleading htrailing hds
      refine ⟨fuel, _, c', ?_, by simp, hrest, fun _ => rfl⟩
      rw [readStringFrom, hc]
      simp [Cursor.peek?, hc, hread]
    | false =>
      obtain _ | fuel := fuel
      · simp at hfuel
      obtain ⟨c₁, hread₁, hrest₁⟩ := readStringFrom_unit (fuel + 1) acc h hc
      obtain ⟨c₂, hread₂, hrest₂⟩ := readStringFrom_unit fuel acc h' hrest₁
      refine ⟨fuel, acc, c₂, hread₁.trans hread₂, ?_, hrest₂, by simp⟩
      simp only [List.length_cons, List.length_append]
      omega

/-- The characters of a string are taken, up to its closing quote and with it. -/
theorem readStringFrom_chars (strict : Bool) (acc : List Char) {body s : List Char}
    (h : SpellsChars body s) (hc : c.rest = body ++ '"' :: rest) (hfuel : body.length < fuel) :
    ∃ s' c', readStringFrom strict fuel acc c = .ok (s', c') ∧ c'.rest = rest ∧
      (strict = true → s' = acc.reverse ++ s) := by
  induction h generalizing fuel acc c with
  | nil =>
    obtain _ | fuel := fuel
    · simp at hfuel
    refine ⟨acc.reverse, c.skip, ?_, by simp [hc], by simp⟩
    rw [readStringFrom, hc]
    rfl
  | @cons t text s x hx hs ih =>
    rw [List.length_append] at hfuel
    rw [List.append_assoc] at hc
    obtain ⟨fuel', acc', c', hread, hfuel', hrest, hacc⟩ :=
      readStringFrom_char strict acc hx hc (show t.length ≤ fuel by omega)
    obtain ⟨s', c₂, hread₂, hrest₂, hs'⟩ := ih acc' hrest (show text.length < fuel' by omega)
    refine ⟨s', c₂, hread.trans hread₂, hrest₂, fun hstrict => ?_⟩
    rw [hs' hstrict, hacc hstrict, List.reverse_cons, List.append_assoc, List.singleton_append]

theorem answers_readString {text : List Char} {s : String} (h : SpellsString ('"' :: text) s)
    (hc : c.rest = text ++ rest) : Answers (readString c) (some s) (· = rest) := by
  obtain ⟨body, htext, hbody⟩ := h
  obtain rfl := (List.cons.inj htext).2
  rw [List.append_assoc, List.singleton_append] at hc
  obtain ⟨s', c', hread, hrest, hs⟩ := readStringFrom_chars true [] hbody hc
    (show body.length < c.rest.length + 1 by rw [hc, List.length_append]; omega)
  refine ⟨c', ?_, hrest⟩
  simp [readString, hread, hs rfl]

theorem leaves_skipString {text : List Char} {s : String} (h : SpellsString ('"' :: text) s)
    (hc : c.rest = text ++ rest) : Leaves (skipString c) rest := by
  obtain ⟨body, htext, hbody⟩ := h
  obtain rfl := (List.cons.inj htext).2
  rw [List.append_assoc, List.singleton_append] at hc
  obtain ⟨s', c', hread, hrest, -⟩ := readStringFrom_chars false [] hbody hc
    (show body.length < c.rest.length + 1 by rw [hc, List.length_append]; omega)
  exact ⟨c', by rw [skipString, hread]; rfl, hrest⟩

end Anchored.Json
