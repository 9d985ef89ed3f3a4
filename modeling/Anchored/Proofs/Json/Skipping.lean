import Anchored.Proofs.Json.Numbers

/-!
# Passing over values that are spelled

A value whose content does not matter is passed over as a whole, however deep it is nested. The fuel
of the reader is a bound on the length of the text.
-/

namespace Anchored.Json

variable {c : Cursor} {x y : Char} {t text w rest : List Char} {v : Value} {items : List Value}
  {members : List (String × Value)} {first : Bool} {fuel : Nat}

/-! ## Where a value begins and ends -/

/-- A value can begin with the character. -/
def opens (x : Char) : Bool :=
  x.isDigit || ['n', 't', 'f', '-', '"', '[', '\x7b'].contains x

theorem ne_of_opens (hx : opens x = true) (hy : opens y = false) : x ≠ y := by
  rintro rfl
  rw [hx] at hy
  exact Bool.noConfusion hy

/-- A digit begins nothing but a number. -/
theorem ne_of_isDigit (hx : x.isDigit = true) :
    x ≠ 'n' ∧ x ≠ 't' ∧ x ≠ 'f' ∧ x ≠ '-' ∧ x ≠ '"' ∧ x ≠ '[' ∧ x ≠ '\x7b' := by
  refine ⟨?_, ?_, ?_, ?_, ?_, ?_, ?_⟩ <;>
    · rintro rfl
      exact absurd hx (by decide)

theorem isSpace_of_opens (hx : opens x = true) : Cursor.isSpace x = false := by
  rw [← Bool.not_eq_true]
  intro hspace
  simp only [Cursor.isSpace, Bool.or_eq_true, beq_iff_eq] at hspace
  obtain ((rfl | rfl) | rfl) | rfl := hspace <;> exact absurd hx (by decide)

theorem Digits.exists_cons (h : Digits t) : ∃ x u, t = x :: u ∧ x.isDigit = true := by
  obtain ⟨hne, hall⟩ := h
  obtain ⟨x, u, rfl⟩ := List.exists_cons_of_ne_nil hne
  exact ⟨x, u, rfl, hall x List.mem_cons_self⟩

theorem Unsigned.exists_cons (h : Unsigned t) : ∃ x u, t = x :: u ∧ x.isDigit = true := by
  obtain ⟨whole, fraction, exponent, rfl, hwhole, -⟩ := h
  obtain ⟨x, u, rfl, hx⟩ := hwhole.1.exists_cons
  exact ⟨x, u ++ (fraction ++ exponent), rfl, hx⟩

/-- A text of the value can begin with the character. -/
def Value.starts : Value → Char → Bool
  | .null, x => x == 'n'
  | .bool true, x => x == 't'
  | .bool false, x => x == 'f'
  | .number _, x => x == '-' || x.isDigit
  | .string _, x => x == '"'
  | .array _, x => x == '['
  | .object _, x => x == '\x7b'

theorem Value.opens_of_starts (h : v.starts x = true) : opens x = true := by
  match v with
  | .number _ =>
    rw [starts, Bool.or_eq_true, beq_iff_eq] at h
    obtain rfl | h := h
    · rfl
    · rw [opens, h, Bool.true_or]
  | .bool true | .bool false | .null | .string _ | .array _ | .object _ =>
    obtain rfl := eq_of_beq h
    rfl

/-- No text of a value is empty or begins with white space. -/
theorem Spells.exists_cons (h : Spells t v) : ∃ x u, t = x :: u ∧ v.starts x = true := by
  cases v with
  | number n =>
    obtain ⟨positive, u, rfl, hu, -⟩ := h.exists_signed
    cases positive with
    | true =>
      obtain ⟨x, u, rfl, hx⟩ := hu.exists_cons
      exact ⟨x, u, rfl, by rw [Value.starts, hx, Bool.or_true]⟩
    | false => exact ⟨_, _, rfl, rfl⟩
  | string s =>
    cases h with
    | string h =>
      obtain ⟨body, rfl, -⟩ := h
      exact ⟨_, _, rfl, rfl⟩
  | _ => cases h <;> exact ⟨_, _, rfl, rfl⟩

theorem SpellsString.exists_cons {s : String} (h : SpellsString t s) : ∃ u, t = '"' :: u := by
  obtain ⟨body, rfl, -⟩ := h
  exact ⟨_, rfl⟩

theorem Spells.length_pos (h : Spells t v) : 0 < t.length := by
  obtain ⟨x, u, rfl, -⟩ := h.exists_cons
  exact Nat.succ_pos _

theorem Spells.rest_skipSpace (h : Spells t v) (hw : Spaces w) (hc : c.rest = w ++ (t ++ rest)) :
    c.skipSpace.rest = t ++ rest := by
  obtain ⟨x, u, rfl, hx⟩ := h.exists_cons
  exact Cursor.rest_skipSpace_append hc hw (isSpace_of_opens (v.opens_of_starts hx))

theorem goesOn_of_isSpace (h : Cursor.isSpace x = true) : goesOn x = false := by
  simp only [Cursor.isSpace, Bool.or_eq_true, beq_iff_eq] at h
  obtain ((rfl | rfl) | rfl) | rfl := h <;> rfl

theorem Spaces.stops (hw : Spaces w) : Stops w :=
  fun x hx => goesOn_of_isSpace (hw x (List.mem_of_mem_head? hx))

theorem stops_append (hw : Spaces w) (hx : goesOn x = false) (t : List Char) :
    Stops (w ++ x :: t) := by
  cases w with
  | nil => simpa [Stops] using hx
  | cons y w => simpa [Stops] using goesOn_of_isSpace (hw y List.mem_cons_self)

/-- An item is followed by a comma or by the end of the array. -/
theorem SpellsItems.stops (h : SpellsItems false text items) (rest : List Char) :
    Stops (text ++ ']' :: rest) := by
  cases h with
  | nil hw => exact stops_append hw rfl rest
  | cons hsep =>
    obtain ⟨w, w', rfl, hw, -⟩ := hsep
    simpa using stops_append hw rfl _

/-- A member is followed by a comma or by the end of the object. -/
theorem SpellsMembers.stops (h : SpellsMembers false text members) (rest : List Char) :
    Stops (text ++ '\x7d' :: rest) := by
  cases h with
  | nil hw => exact stops_append hw rfl rest
  | cons hsep =>
    obtain ⟨w, w', rfl, hw, -⟩ := hsep
    simpa using stops_append hw rfl _

/-! ## Passing over -/

theorem skipValue_digit (hc : c.skipSpace.rest = x :: rest) (hx : x.isDigit = true) :
    skipValue (fuel + 1) c = skipNumber c.skipSpace := by
  obtain ⟨hn, ht, hf, hsign, hquote, harray, hobject⟩ := ne_of_isDigit hx
  rw [skipValue]
  simp [Cursor.peek?_eq hc, hx]

/-- With this much fuel values are passed over. -/
def SkipsValues (fuel : Nat) : Prop :=
  ∀ ⦃c : Cursor⦄ ⦃t w rest : List Char⦄ ⦃v : Value⦄, Spells t v → Spaces w →
    c.rest = w ++ (t ++ rest) → Stops rest → t.length ≤ fuel → Leaves (skipValue fuel c) rest

/-- With this much fuel an item and those behind it are passed over. -/
def SkipsItems (fuel : Nat) : Prop :=
  ∀ ⦃c : Cursor⦄ ⦃t w text rest : List Char⦄ ⦃v : Value⦄ ⦃items : List Value⦄, Spells t v →
    SpellsItems false text items → Spaces w → c.rest = w ++ (t ++ (text ++ ']' :: rest)) →
      t.length + text.length < fuel → Leaves (skipItems fuel c) rest

/-- With this much fuel members are passed over, the first of which has no comma before it. -/
def SkipsMembers (fuel : Nat) : Prop :=
  ∀ ⦃c : Cursor⦄ ⦃text rest : List Char⦄ ⦃m : String × Value⦄ ⦃members : List (String × Value)⦄,
    SpellsMembers true text (m :: members) → c.rest = text ++ '\x7d' :: rest →
      text.length < fuel → Leaves (skipMembers fuel c) rest

theorem skipsItems_succ (hvalues : SkipsValues fuel) (hitems : SkipsItems fuel) :
    SkipsItems (fuel + 1) := by
  intro c t w text rest v items hv htext hw hc hfuel
  rw [skipItems]
  obtain ⟨c₁, hskip, hc₁⟩ := hvalues hv hw hc (htext.stops rest) (by omega)
  rw [hskip, ok_bind]
  have hpos := hv.length_pos
  cases htext with
  | nil hw =>
    have hend := Cursor.rest_skipSpace_append hc₁ hw rfl
    simp only [Cursor.peek?_eq hend]
    exact ⟨_, rfl, by simp [hend]⟩
  | cons hsep hv' htext' =>
    -- Behind the comma another item has to come, which has no comma before it any more.
    obtain ⟨w₁, w₂, rfl, hw₁, hw₂⟩ := hsep
    simp only [List.append_assoc, List.cons_append] at hc₁
    have hcomma := Cursor.rest_skipSpace_append hc₁ hw₁ rfl
    simp only [Cursor.peek?_eq hcomma]
    simp only [List.length_append, List.length_cons] at hfuel
    exact hitems hv' htext' hw₂ (by simp [hcomma]) (by omega)

theorem skipsMembers_succ (hvalues : SkipsValues fuel) (hmembers : SkipsMembers fuel) :
    SkipsMembers (fuel + 1) := by
  intro c text rest m members htext hc hfuel
  rw [skipMembers]
  cases htext with
  | @cons _ sep key w w' t text name v _ hsep hname hw hw' hv htext =>
    obtain ⟨u, rfl⟩ := hname.exists_cons
    simp only [List.append_assoc, List.cons_append] at hc
    have hkey := Cursor.rest_skipSpace_append hc hsep rfl
    simp only [Cursor.peek?_eq hkey]
    obtain ⟨c₁, hskip, hc₁⟩ := leaves_skipString hname
      (show c.skipSpace.skip.rest = u ++ (w ++ _) by rw [Cursor.rest_skip, hkey, List.tail_cons])
    have hcolon := Cursor.rest_skipSpace_append hc₁ hw rfl
    simp only [hskip, ok_bind, Cursor.peek?_eq hcolon]
    simp only [List.length_append, List.length_cons] at hfuel
    obtain ⟨c₂, hskip₂, hc₂⟩ := hvalues hv hw' (by rw [Cursor.rest_skip, hcolon, List.tail_cons])
      (htext.stops rest) (by omega)
    rw [hskip₂, ok_bind]
    cases htext with
    | nil hw =>
      have hend := Cursor.rest_skipSpace_append hc₂ hw rfl
      simp only [Cursor.peek?_eq hend]
      exact ⟨_, rfl, by simp [hend]⟩
    | cons hsep hname hw hw' hv htext =>
      obtain ⟨w₁, w₂, rfl, hw₁, hw₂⟩ := hsep
      simp only [List.append_assoc, List.cons_append] at hc₂
      have hcomma := Cursor.rest_skipSpace_append hc₂ hw₁ rfl
      simp only [Cursor.peek?_eq hcomma]
      refine hmembers (SpellsMembers.cons hw₂ hname hw hw' hv htext) (by simp [hcomma]) ?_
      simp only [List.length_append, List.length_cons] at hfuel ⊢
      omega

theorem skipsValues_succ (hitems : SkipsItems fuel) (hmembers : SkipsMembers fuel) :
    SkipsValues (fuel + 1) := by
  intro c t w rest v hv hw hc hrest hfuel
  have hstart := hv.rest_skipSpace hw hc
  cases v with
  | null =>
    cases hv
    rw [skipValue, Cursor.peek?_eq hstart]
    exact leaves_readWord_skip _ hstart
  | bool b =>
    cases hv with
    | yes =>
      rw [skipValue, Cursor.peek?_eq hstart]
      exact leaves_readWord_skip _ hstart
    | no =>
      rw [skipValue, Cursor.peek?_eq hstart]
      exact leaves_readWord_skip _ hstart
  | number n =>
    obtain ⟨positive, u, rfl, hu, -⟩ := hv.exists_signed
    cases positive with
    | true =>
      obtain ⟨x, u', rfl, hx⟩ := hu.exists_cons
      rw [skipValue_digit hstart hx]
      exact leaves_skipNumber hu hstart hrest
    | false =>
      rw [skipValue, Cursor.peek?_eq hstart]
      exact leaves_skipNumber hu (by rw [Cursor.rest_skip, hstart]; rfl) hrest
  | string s =>
    cases hv with
    | string h =>
      obtain ⟨u, rfl⟩ := h.exists_cons
      rw [skipValue, Cursor.peek?_eq hstart]
      exact leaves_skipString h (by simp [hstart])
  | array items =>
    cases hv with
    | @array text _ h =>
      simp only [List.cons_append, List.append_assoc] at hstart
      have hopen : c.skipSpace.skip.rest = text ++ ']' :: rest := by simp [hstart]
      rw [skipValue, Cursor.peek?_eq hstart]
      cases h with
      | nil hw =>
        have hend := Cursor.rest_skipSpace_append hopen hw rfl
        simp only [Cursor.nextIn_eq hend]
        exact ⟨_, rfl, by simp [hend]⟩
      | cons hsep hv htext =>
        -- The reader of items starts behind the white space, before the first item.
        simp only [List.append_assoc] at hopen
        have hitem := hv.rest_skipSpace hsep hopen
        simp only [List.length_append, List.length_cons] at hfuel
        have hskip := hitems (w := []) hv htext (List.forall_mem_nil _) hitem (by omega)
        obtain ⟨x, u, rfl, hx⟩ := hv.exists_cons
        have hne : x ≠ ']' := ne_of_opens (Value.opens_of_starts hx) (by decide)
        simp only [Cursor.nextIn_of_ne hitem hne, Cursor.peek?_eq hitem]
        exact hskip
  | object members =>
    cases hv with
    | @object text _ h =>
      simp only [List.cons_append, List.append_assoc] at hstart
      have hopen : c.skipSpace.skip.rest = text ++ '\x7d' :: rest := by simp [hstart]
      rw [skipValue, Cursor.peek?_eq hstart]
      cases h with
      | nil hw =>
        have hend := Cursor.rest_skipSpace_append hopen hw rfl
        simp only [Cursor.nextIn_eq hend]
        exact ⟨_, rfl, by simp [hend]⟩
      | cons hsep hname hw hw' hv htext =>
        obtain ⟨u, rfl⟩ := hname.exists_cons
        simp only [List.append_assoc, List.cons_append] at hopen
        have hmember := Cursor.rest_skipSpace_append hopen hsep rfl
        have hfirst : Separates true [] := List.forall_mem_nil _
        simp only [List.length_append, List.length_cons] at hfuel
        have hskip : Leaves (skipMembers fuel c.skipSpace.skip.skipSpace) rest :=
          hmembers (SpellsMembers.cons hfirst hname hw hw' hv htext) (by simpa using hmember)
            (by simp only [List.length_append, List.length_cons]; omega)
        simp only [Cursor.nextIn_of_ne hmember (show '"' ≠ '\x7d' by decide)]
        exact hskip

/-- A value is passed over with no more fuel than its text has characters. -/
theorem skips (fuel : Nat) : SkipsValues fuel ∧ SkipsItems fuel ∧ SkipsMembers fuel := by
  induction fuel with
  | zero =>
    refine ⟨?_, ?_, ?_⟩
    · intro c t w rest v hv hw hc hrest hfuel
      exact absurd hv.length_pos (Nat.not_lt.mpr hfuel)
    · intro c t w text rest v items hv htext hw hc hfuel
      exact absurd hfuel (Nat.not_lt_zero _)
    · intro c text rest m members htext hc hfuel
      exact absurd hfuel (Nat.not_lt_zero _)
  | succ fuel ih =>
    obtain ⟨hvalues, hitems, hmembers⟩ := ih
    exact ⟨skipsValues_succ hitems hmembers, skipsItems_succ hvalues hitems,
      skipsMembers_succ hvalues hmembers⟩

theorem leaves_skipValue (hv : Spells t v) (hw : Spaces w) (hc : c.rest = w ++ (t ++ rest))
    (hrest : Stops rest) (hfuel : t.length ≤ fuel) : Leaves (skipValue fuel c) rest :=
  (skips fuel).1 hv hw hc hrest hfuel

end Anchored.Json
