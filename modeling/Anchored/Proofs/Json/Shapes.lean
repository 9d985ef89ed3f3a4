import Anchored.Proofs.Json.Skipping

/-!
# Reading values of a shape

What a shape makes of a value is said first without a text (`Shape.take`). A shape that `Reads` a
value answers with it wherever a text of the value begins. Here this is proved of every shape but
records.
-/

namespace Anchored.Json

/-! ## What a shape makes of a value -/

mutual

/-- The value of the shape that a value tells, if it tells one. -/
def Shape.take : Shape → Value → Option Value
  | .any, v => some v
  | .text, .string s => some (.string s)
  | .flag, .bool b => some (.bool b)
  | .natural _, .number (.natural n) => some (.number (.natural n))
  | .nullable _, .null => some .null
  | .nullable shape, v => shape.take v
  | .list shape, .array items => (items.mapM shape.take).map .array
  | .record _ fields, .object members => (Shape.takeMembers fields members).map .object
  | .record _ fields, .array items => (Shape.takeItems fields items).map .object
  | _, _ => none

/-- The fields of a record told by members with their names, wherever these stand. A member with
another name tells nothing, and no field may be told twice. -/
def Shape.takeMembers : List (String × Shape × Option Value) → List (String × Value) →
    Option (List (String × Value))
  | [], _ => some []
  | (name, shape, default) :: fields, members =>
    let value : Option Value := match members.filter (·.1 == name) with
      | [] => default
      | [(_, v)] => shape.take v
      | _ => none
    value.bind fun value => (Shape.takeMembers fields members).map ((name, value) :: ·)

/-- The fields of a record told by items in their order. -/
def Shape.takeItems : List (String × Shape × Option Value) → List Value →
    Option (List (String × Value))
  | [], [] => some []
  | [], _ :: _ => none
  | (name, _, default) :: fields, [] =>
    default.bind fun value => (Shape.takeItems fields []).map ((name, value) :: ·)
  | (name, shape, _) :: fields, v :: items =>
    (shape.take v).bind fun value => (Shape.takeItems fields items).map ((name, value) :: ·)

end

/-- What a value is made of. -/
def Value.parts : Value → List Value
  | .array items => items
  | .object members => members.map (·.2)
  | _ => []

/-- Arrays and objects nest at most `depth` deep in the value. -/
def Value.Nests : Nat → Value → Prop
  | 0, .array _ => False
  | 0, .object _ => False
  | 0, _ => True
  | depth + 1, v => ∀ part ∈ v.parts, part.Nests depth

variable {c : Cursor} {x : Char} {t text w sep rest : List Char} {v : Value} {items : List Value}
  {members : List (String × Value)} {first : Bool} {fuel depth slack : Nat} {shape : Shape}
  {name : String}

/-- A reader of the shape answers with what the shape makes of the value, wherever a text that
spells it begins. `slack` is what it needs of fuel besides the length of the text. -/
def Shape.Reads (shape : Shape) (depth slack : Nat) (v : Value) : Prop :=
  ∀ ⦃c : Cursor⦄ ⦃t w rest : List Char⦄ ⦃fuel : Nat⦄, Spells t v → Spaces w →
    c.rest = w ++ (t ++ rest) → Stops rest → t.length + slack ≤ fuel →
      Answers (readAs fuel depth shape c) (shape.take v) (· = rest)

theorem Shape.Reads.mono {slack' : Nat} (h : shape.Reads depth slack v) (hle : slack ≤ slack') :
    shape.Reads depth slack' v :=
  fun _ _ _ _ _ hv hw hc hrest hfuel => h hv hw hc hrest (by omega)

/-- It is enough to read from where a text of the value begins. -/
theorem Shape.Reads.of_start
    (h : ∀ ⦃c : Cursor⦄ ⦃x : Char⦄ ⦃u rest : List Char⦄ ⦃fuel : Nat⦄, Spells (x :: u) v →
      v.starts x = true → c.skipSpace.rest = x :: (u ++ rest) → Stops rest →
        u.length + slack ≤ fuel →
          Answers (readAs (fuel + 1) depth shape c) (shape.take v) (· = rest)) :
    shape.Reads depth slack v := by
  intro c t w rest fuel hv hw hc hrest hfuel
  have hstart := hv.rest_skipSpace hw hc
  obtain ⟨x, u, rfl, hx⟩ := hv.exists_cons
  obtain _ | fuel := fuel
  · simp at hfuel
  · rw [List.length_cons] at hfuel
    exact h hv hx hstart hrest (by omega)

/-! ## The frame of arrays and objects -/

/-- White space and a closing bracket come next, and then `rest`. -/
def Closes (close : Char) (rest text : List Char) : Prop :=
  ∃ w, Spaces w ∧ text = w ++ close :: rest

theorem nextItem?_end (first : Bool) (h : Closes ']' rest c.rest) :
    nextItem? first c = .ok none := by
  obtain ⟨w, hw, hc⟩ := h
  have hend := Cursor.rest_skipSpace_append hc hw rfl
  rw [nextItem?, Cursor.peek?_eq hend]
  rfl

theorem nextItem?_item (hsep : Separates first sep) (hv : Spells t v)
    (hc : c.rest = sep ++ (t ++ rest)) :
    ∃ c', nextItem? first c = .ok (some c') ∧ c'.rest = t ++ rest := by
  cases first with
  | true =>
    have hitem := hv.rest_skipSpace hsep hc
    refine ⟨_, ?_, hitem⟩
    obtain ⟨x, u, rfl, hx⟩ := hv.exists_cons
    have hne : x ≠ ']' := ne_of_opens (Value.opens_of_starts hx) (by decide)
    rw [nextItem?, Cursor.peek?_eq hitem]
    simp
  | false =>
    obtain ⟨w, w', rfl, hw, hw'⟩ := hsep
    rw [List.append_assoc] at hc
    have hcomma := Cursor.rest_skipSpace_append hc hw rfl
    have hskip : c.skipSpace.skip.rest = w' ++ (t ++ rest) := by rw [Cursor.rest_skip, hcomma]; rfl
    have hitem := hv.rest_skipSpace hw' hskip
    refine ⟨_, ?_, hitem⟩
    obtain ⟨x, u, rfl, hx⟩ := hv.exists_cons
    have hne : x ≠ ']' := ne_of_opens (Value.opens_of_starts hx) (by decide)
    rw [nextItem?, Cursor.peek?_eq hcomma]
    simp [Cursor.peek?_eq hitem]

theorem nextMember?_end (first : Bool) (h : Closes '\x7d' rest c.rest) :
    nextMember? first c = .ok none := by
  obtain ⟨w, hw, hc⟩ := h
  have hend := Cursor.rest_skipSpace_append hc hw rfl
  rw [nextMember?, Cursor.peek?_eq hend]
  rfl

theorem nextMember?_member (hsep : Separates first sep) (hc : c.rest = sep ++ '"' :: rest) :
    ∃ c', nextMember? first c = .ok (some c') ∧ c'.rest = rest := by
  cases first with
  | true =>
    have hkey := Cursor.rest_skipSpace_append hc hsep rfl
    refine ⟨c.skipSpace.skip, ?_, by simp [hkey]⟩
    rw [nextMember?, Cursor.peek?_eq hkey]
    simp
  | false =>
    obtain ⟨w, w', rfl, hw, hw'⟩ := hsep
    rw [List.append_assoc] at hc
    have hcomma := Cursor.rest_skipSpace_append hc hw rfl
    have hskip : c.skipSpace.skip.rest = w' ++ '"' :: rest := by
      rw [Cursor.rest_skip, hcomma]
      rfl
    have hkey := Cursor.rest_skipSpace_append hskip hw' rfl
    refine ⟨c.skipSpace.skip.skipSpace.skip, ?_, by simp [hkey]⟩
    rw [nextMember?, Cursor.peek?_eq hcomma]
    simp [Cursor.peek?_eq hkey]

theorem leaves_readColon (hw : Spaces w) (hc : c.rest = w ++ ':' :: rest) :
    Leaves (readColon c) rest := by
  have hcolon := Cursor.rest_skipSpace_append hc hw rfl
  rw [readColon, Cursor.peek?_eq hcolon]
  exact ⟨_, rfl, by simp [hcolon]⟩

theorem leaves_endArray (h : Closes ']' rest c.rest) : Leaves (endArray c) rest := by
  obtain ⟨w, hw, hc⟩ := h
  have hend := Cursor.rest_skipSpace_append hc hw rfl
  rw [endArray, Cursor.peek?_eq hend]
  exact ⟨_, rfl, by simp [hend]⟩

theorem leaves_endObject (h : Closes '\x7d' rest c.rest) : Leaves (endObject c) rest := by
  obtain ⟨w, hw, hc⟩ := h
  have hend := Cursor.rest_skipSpace_append hc hw rfl
  rw [endObject, Cursor.peek?_eq hend]
  exact ⟨_, rfl, by simp [hend]⟩

/-! ## Texts, flags and natural numbers -/

theorem exists_error_bind {α β : Type} {result : Except Error α} {k : α → Except Error β}
    (h : ∀ a, ∃ e, k a = .error e) : ∃ e, (result >>= k) = .error e := by
  cases result with
  | error e => exact ⟨e, rfl⟩
  | ok a => exact h a

/-- A value of the wrong kind is always refused. -/
theorem exists_readMismatch {α : Type} (c : Cursor) (expected : String) :
    ∃ e, (readMismatch c expected : Except Error α) = .error e := by
  rw [readMismatch]
  split
  · exact exists_error_bind fun _ => ⟨_, rfl⟩
  · exact exists_error_bind fun _ => ⟨_, rfl⟩
  · exact exists_error_bind fun _ => ⟨_, rfl⟩
  · exact exists_error_bind fun _ => ⟨_, rfl⟩
  · exact exists_error_bind fun _ => ⟨_, rfl⟩
  · exact ⟨_, rfl⟩
  · exact ⟨_, rfl⟩
  · split
    · exact exists_error_bind fun _ => ⟨_, rfl⟩
    · exact ⟨_, rfl⟩
  · exact ⟨_, rfl⟩

theorem Value.eq_string_of_starts (h : v.starts '"' = true) : ∃ s, v = .string s := by
  match v, h with
  | .string s, _ => exact ⟨s, rfl⟩

theorem Value.eq_true_of_starts (h : v.starts 't' = true) : v = .bool true := by
  match v, h with
  | .bool true, _ => rfl

theorem Value.eq_false_of_starts (h : v.starts 'f' = true) : v = .bool false := by
  match v, h with
  | .bool false, _ => rfl

theorem Value.eq_null_of_starts (h : v.starts 'n' = true) : v = .null := by
  match v, h with
  | .null, _ => rfl

theorem Value.eq_array_of_starts (h : v.starts '[' = true) : ∃ items, v = .array items := by
  match v, h with
  | .array items, _ => exact ⟨items, rfl⟩

theorem Value.eq_object_of_starts (h : v.starts '\x7b' = true) :
    ∃ members, v = .object members := by
  match v, h with
  | .object members, _ => exact ⟨members, rfl⟩

theorem Value.eq_number_of_starts (h : v.starts x = true) (hx : x = '-' ∨ x.isDigit = true) :
    ∃ n, v = .number n := by
  match v, h with
  | .number n, _ => exact ⟨n, rfl⟩
  | .bool true, h | .bool false, h | .null, h | .string _, h | .array _, h | .object _, h =>
    obtain rfl := eq_of_beq h
    exact absurd hx (by decide)

theorem reads_text (depth : Nat) (v : Value) : Shape.text.Reads depth 0 v := by
  refine Shape.Reads.of_start fun c x u rest fuel hv hx hstart hrest hfuel => ?_
  rw [readAs, Cursor.peek?_eq hstart]
  by_cases hquote : x = '"'
  · subst hquote
    obtain ⟨s, rfl⟩ := Value.eq_string_of_starts hx
    have hskip : c.skipSpace.skip.rest = u ++ rest := by simp [hstart]
    obtain ⟨c', hread, hc'⟩ := answers_readString hv.spellsString hskip
    exact ⟨c', by simp [hread], hc'⟩
  · have htake : Shape.text.take v = none := by
      cases v with
      | string s => exact absurd (eq_of_beq hx) hquote
      | _ => rfl
    rw [htake]
    simp only
    exact exists_readMismatch _ _

theorem reads_flag (depth : Nat) (v : Value) : Shape.flag.Reads depth 0 v := by
  refine Shape.Reads.of_start fun c x u rest fuel hv hx hstart hrest hfuel => ?_
  rw [readAs, Cursor.peek?_eq hstart]
  by_cases htrue : x = 't'
  · subst htrue
    obtain rfl := Value.eq_true_of_starts hx
    obtain rfl := (List.cons.inj hv.eq_true).2
    obtain ⟨c', hread, hc'⟩ := leaves_readWord_skip ['r', 'u', 'e'] hstart
    exact ⟨c', by simp [hread], hc'⟩
  by_cases hfalse : x = 'f'
  · subst hfalse
    obtain rfl := Value.eq_false_of_starts hx
    obtain rfl := (List.cons.inj hv.eq_false).2
    obtain ⟨c', hread, hc'⟩ := leaves_readWord_skip ['a', 'l', 's', 'e'] hstart
    exact ⟨c', by simp [hread], hc'⟩
  have htake : Shape.flag.take v = none := by
    cases v with
    | bool b =>
      cases b with
      | true => exact absurd (eq_of_beq hx) htrue
      | false => exact absurd (eq_of_beq hx) hfalse
    | _ => rfl
  rw [htake]
  simp only
  exact exists_readMismatch _ _

theorem answers_readNatural {positive : Bool} {n : Number} (name : String)
    (h : Denotes positive t n) (hc : c.rest = t ++ rest) (hrest : Stops rest) :
    Answers (readNatural c positive name) ((Shape.natural name).take (.number n)) (· = rest) := by
  obtain ⟨c', hread, hc'⟩ := h hc hrest
  rw [readNatural, hread, ok_bind]
  cases n with
  | natural n => exact ⟨c', rfl, hc'⟩
  | negative n => exact ⟨_, rfl⟩
  | double bits => exact ⟨_, rfl⟩

theorem reads_natural (name : String) (depth : Nat) (v : Value) :
    (Shape.natural name).Reads depth 0 v := by
  refine Shape.Reads.of_start fun c x u rest fuel hv hx hstart hrest hfuel => ?_
  rw [readAs, Cursor.peek?_eq hstart]
  by_cases hnumber : x = '-' ∨ x.isDigit = true
  · obtain ⟨n, rfl⟩ := Value.eq_number_of_starts hx hnumber
    obtain ⟨positive, u', htext, hu, hdenotes⟩ := hv.exists_signed
    cases positive with
    | true =>
      obtain rfl : x :: u = u' := htext
      obtain ⟨y, u'', hcons, hdigit⟩ := hu.exists_cons
      obtain rfl := (List.cons.inj hcons).1
      have hne := (ne_of_isDigit hdigit).2.2.2.1
      simp only [hdigit]
      exact answers_readNatural name hdenotes hstart hrest
    | false =>
      obtain ⟨rfl, rfl⟩ := List.cons.inj htext
      have hskip : c.skipSpace.skip.rest = u ++ rest := by simp [hstart]
      exact answers_readNatural name hdenotes hskip hrest
  · rw [not_or] at hnumber
    obtain ⟨hminus, hdigit⟩ := hnumber
    have htake : (Shape.natural name).take v = none := by
      cases v with
      | number n =>
        rw [Value.starts, Bool.or_eq_true, beq_iff_eq] at hx
        exact absurd hx (not_or.mpr ⟨hminus, hdigit⟩)
      | _ => rfl
    rw [htake]
    simp only [hdigit]
    exact exists_readMismatch _ _

/-! ## Shapes made of others -/

theorem reads_nullable (h : shape.Reads depth slack v) :
    (Shape.nullable shape).Reads depth (slack + 1) v := by
  refine Shape.Reads.of_start fun c x u rest fuel hv hx hstart hrest hfuel => ?_
  rw [readAs]
  by_cases hnull : x = 'n'
  · subst hnull
    obtain rfl := Value.eq_null_of_starts hx
    obtain rfl := (List.cons.inj hv.eq_null).2
    obtain ⟨c', hread, hc'⟩ := leaves_readWord_skip ['u', 'l', 'l'] hstart
    exact ⟨c', by simp [Cursor.nextIn_eq hstart, hread], hc'⟩
  · have htake : (Shape.nullable shape).take v = shape.take v := by
      cases v with
      | null => exact absurd (eq_of_beq hx) hnull
      | _ => rw [Shape.take]; simp
    rw [htake]
    simp only [Cursor.nextIn_of_ne hstart hnull]
    exact h (w := []) hv (List.forall_mem_nil _) hstart hrest (by rw [List.length_cons]; omega)

theorem answers_readItems (h : SpellsItems first text items)
    (hreads : ∀ item ∈ items, shape.Reads depth slack item) (hc : c.rest = text ++ ']' :: rest)
    (hfuel : text.length + slack < fuel) :
    Answers (readItems fuel depth shape first c) (items.mapM shape.take) (Closes ']' rest) := by
  -- On the items: each has a character at least, which pays for the unit of fuel of its round.
  induction items generalizing first text c fuel with
  | nil =>
    obtain _ | fuel := fuel
    · omega
    cases h with
    | nil hw =>
      have hclose : Closes ']' rest c.rest := ⟨text, hw, hc⟩
      rw [readItems, nextItem?_end first hclose]
      exact ⟨c, rfl, hclose⟩
  | cons v items ih =>
    obtain _ | fuel := fuel
    · omega
    rw [List.forall_mem_cons] at hreads
    cases h with
    | @cons _ sep t text _ _ hsep hv hitems =>
      simp only [List.append_assoc] at hc
      simp only [List.length_append] at hfuel
      obtain ⟨c', hnext, hc'⟩ := nextItem?_item hsep hv hc
      have hitem := hreads.1 (w := []) hv (List.forall_mem_nil _) hc' (hitems.stops rest)
        (show t.length + slack ≤ fuel by omega)
      have hpos := hv.length_pos
      rw [readItems, hnext, List.mapM_cons]
      exact hitem.bind fun item c hc =>
        (ih hitems hreads.2 hc (by omega)).bind fun items c hclose => ⟨c, rfl, hclose⟩

theorem reads_list (hdepth : 0 < depth) (h : ∀ part ∈ v.parts, shape.Reads depth slack part) :
    (Shape.list shape).Reads (depth + 1) slack v := by
  refine Shape.Reads.of_start fun c x u rest fuel hv hx hstart hrest hfuel => ?_
  rw [readAs, Cursor.peek?_eq hstart]
  by_cases harray : x = '['
  · subst harray
    obtain ⟨items, rfl⟩ := Value.eq_array_of_starts hx
    obtain ⟨text, htext, hitems⟩ := hv.exists_items
    obtain rfl := (List.cons.inj htext).2
    simp only [List.cons_append, List.append_assoc] at hstart
    have hskip : c.skipSpace.skip.rest = text ++ ']' :: rest := by simp [hstart]
    simp only [List.length_cons, List.length_append] at hfuel
    have hread := answers_readItems hitems h hskip (show text.length + slack < fuel by omega)
    simp only [show ¬depth + 1 ≤ 1 by omega]
    rw [Shape.take, Option.map_eq_bind]
    exact hread.bind fun items c hclose => by
      obtain ⟨c', hend, hc'⟩ := leaves_endArray hclose
      exact ⟨c', by simp [hend], hc'⟩
  · have htake : (Shape.list shape).take v = none := by
      cases v with
      | array items => exact absurd (eq_of_beq hx) harray
      | _ => rfl
    rw [htake]
    simp only
    exact exists_readMismatch _ _

/-- The name of a member and what stands around it are taken. -/
theorem exists_member {key w' more : List Char} (hsep : Separates first sep)
    (hname : SpellsString key name) (hw : Spaces w)
    (hc : c.rest = sep ++ (key ++ (w ++ ':' :: (w' ++ more)))) :
    ∃ c₁ c₂ c₃, nextMember? first c = .ok (some c₁) ∧ readString c₁ = .ok (name, c₂) ∧
      readColon c₂ = .ok c₃ ∧ c₃.rest = w' ++ more := by
  obtain ⟨u, rfl⟩ := hname.exists_cons
  obtain ⟨c₁, hnext, hc₁⟩ := nextMember?_member hsep hc
  obtain ⟨c₂, hstring, hc₂⟩ := answers_readString hname hc₁
  obtain ⟨c₃, hcolon, hc₃⟩ := leaves_readColon hw hc₂
  exact ⟨c₁, c₂, c₃, hnext, hstring, hcolon, hc₃⟩

theorem answers_readMembers (h : SpellsMembers first text members)
    (hreads : ∀ m ∈ members, Shape.any.Reads depth slack m.2)
    (hc : c.rest = text ++ '\x7d' :: rest) (hfuel : text.length + slack < fuel) :
    Answers (readMembers fuel depth first c) (some members) (Closes '\x7d' rest) := by
  induction members generalizing first text c fuel with
  | nil =>
    obtain _ | fuel := fuel
    · omega
    cases h with
    | nil hw =>
      have hclose : Closes '\x7d' rest c.rest := ⟨text, hw, hc⟩
      rw [readMembers, nextMember?_end first hclose]
      exact ⟨c, rfl, hclose⟩
  | cons m members ih =>
    obtain _ | fuel := fuel
    · omega
    rw [List.forall_mem_cons] at hreads
    cases h with
    | @cons _ sep key w w' t text name v _ hsep hname hw hw' hv hmembers =>
      simp only [List.append_assoc, List.cons_append] at hc
      simp only [List.length_append, List.length_cons] at hfuel
      obtain ⟨c₁, c₂, c₃, hnext, hstring, hcolon, hc₃⟩ := exists_member hsep hname hw hc
      have hpos := hv.length_pos
      obtain ⟨c₄, hread, hc₄⟩ := hreads.1 hv hw' hc₃ (hmembers.stops rest)
        (show t.length + slack ≤ fuel by omega)
      obtain ⟨c₅, htail, hclose⟩ := ih hmembers hreads.2 hc₄
        (show text.length + slack < fuel by omega)
      refine ⟨c₅, ?_, hclose⟩
      rw [readMembers, hnext]
      simp [hstring, hcolon, hread, htail]

theorem mapM_take_any (items : List Value) : items.mapM Shape.any.take = some items := by
  have htake : Shape.any.take = fun v => pure (id v) := funext fun _ => rfl
  rw [htake, List.mapM_pure, List.map_id]
  rfl

theorem reads_any_of_parts (hdepth : v.Nests 0 ∨ 0 < depth)
    (h : ∀ part ∈ v.parts, Shape.any.Reads depth 0 part) : Shape.any.Reads (depth + 1) 0 v := by
  intro c t w rest fuel hv hw hc hrest hfuel
  have hstart := hv.rest_skipSpace hw hc
  obtain _ | fuel := fuel
  · have hpos := hv.length_pos
    omega
  rw [readAs, Shape.take]
  cases v with
  | null =>
    obtain rfl := hv.eq_null
    obtain ⟨c', hread, hc'⟩ := leaves_readWord_skip ['u', 'l', 'l'] hstart
    exact ⟨c', by simp [Cursor.peek?_eq hstart, hread], hc'⟩
  | bool b =>
    cases b with
    | true =>
      obtain rfl := hv.eq_true
      obtain ⟨c', hread, hc'⟩ := leaves_readWord_skip ['r', 'u', 'e'] hstart
      exact ⟨c', by simp [Cursor.peek?_eq hstart, hread], hc'⟩
    | false =>
      obtain rfl := hv.eq_false
      obtain ⟨c', hread, hc'⟩ := leaves_readWord_skip ['a', 'l', 's', 'e'] hstart
      exact ⟨c', by simp [Cursor.peek?_eq hstart, hread], hc'⟩
  | number n =>
    obtain ⟨positive, u, rfl, hu, hdenotes⟩ := hv.exists_signed
    cases positive with
    | true =>
      obtain ⟨c', hread, hc'⟩ := hdenotes hstart hrest
      obtain ⟨x, u, rfl, hx⟩ := hu.exists_cons
      obtain ⟨hn, ht, hf, hsign, hquote, harray, hobject⟩ := ne_of_isDigit hx
      exact ⟨c', by simp [Cursor.peek?_eq hstart, hx, hread], hc'⟩
    | false =>
      have hskip : c.skipSpace.skip.rest = u ++ rest := by
        rw [Cursor.rest_skip, hstart]
        rfl
      obtain ⟨c', hread, hc'⟩ := hdenotes hskip hrest
      exact ⟨c', by simp [Cursor.peek?_eq hstart, hread], hc'⟩
  | string s =>
    obtain ⟨u, rfl⟩ := hv.spellsString.exists_cons
    have hskip : c.skipSpace.skip.rest = u ++ rest := by simp [hstart]
    obtain ⟨c', hread, hc'⟩ := answers_readString hv.spellsString hskip
    exact ⟨c', by simp [Cursor.peek?_eq hstart, hread], hc'⟩
  | array items =>
    have hnot : ¬depth + 1 ≤ 1 := by
      have hpos := hdepth.resolve_left id
      omega
    obtain ⟨text, rfl, hitems⟩ := hv.exists_items
    simp only [List.cons_append, List.append_assoc] at hstart
    have hskip : c.skipSpace.skip.rest = text ++ ']' :: rest := by simp [hstart]
    simp only [List.length_cons, List.length_append] at hfuel
    have hread := answers_readItems hitems h hskip (show text.length + 0 < fuel by omega)
    rw [mapM_take_any] at hread
    obtain ⟨c₁, hread, hclose⟩ := hread
    obtain ⟨c₂, hend, hc₂⟩ := leaves_endArray hclose
    exact ⟨c₂, by simp [Cursor.peek?_eq hstart, hnot, hread, hend], hc₂⟩
  | object members =>
    have hnot : ¬depth + 1 ≤ 1 := by
      have hpos := hdepth.resolve_left id
      omega
    obtain ⟨text, rfl, hmembers⟩ := hv.exists_members
    simp only [List.cons_append, List.append_assoc] at hstart
    have hskip : c.skipSpace.skip.rest = text ++ '\x7d' :: rest := by simp [hstart]
    simp only [List.length_cons, List.length_append] at hfuel
    obtain ⟨c₁, hread, hclose⟩ := answers_readMembers hmembers
      (fun m hm => h m.2 (List.mem_map_of_mem hm)) hskip (show text.length + 0 < fuel by omega)
    obtain ⟨c₂, hend, hc₂⟩ := leaves_endObject hclose
    exact ⟨c₂, by simp [Cursor.peek?_eq hstart, hnot, hread, hend], hc₂⟩

/-- Any value is read as it is, unless it nests too deep. -/
theorem reads_any {n : Nat} (h : v.Nests n) (hdepth : n < depth) : Shape.any.Reads depth 0 v := by
  obtain _ | depth := depth
  · omega
  induction n generalizing depth v with
  | zero =>
    refine reads_any_of_parts (.inl h) fun part hpart => ?_
    cases v with
    | array items => exact absurd h id
    | object members => exact absurd h id
    | _ => exact absurd hpart List.not_mem_nil
  | succ n ih =>
    refine reads_any_of_parts (.inr (by omega)) fun part hpart => ?_
    obtain ⟨depth, rfl⟩ : ∃ d, depth = d + 1 := ⟨depth - 1, by omega⟩
    exact ih (h part hpart) depth (by omega)

end Anchored.Json
