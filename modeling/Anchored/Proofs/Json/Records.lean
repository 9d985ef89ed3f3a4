import Mathlib.Data.List.Nodup
import Anchored.Proofs.Json.Shapes

/-!
# Reading records

A record is told by an object, one member for each field in any order, or by an array of its fields.
The reader looks at one member after another and fills in defaults at the end; what it makes of an
object is yet a matter of each field alone (`collect_fill`), and so neither the order of members nor
those with other names matter. A shape that reads the value of a text reads the text
(`toOption_read`).
-/

namespace Anchored.Json

variable {c : Cursor} {t text w sep rest : List Char} {v : Value} {items : List Value}
  {members seen : List (String × Value)} {first : Bool} {fuel depth slack : Nat}
  {fields : List (String × Shape × Option Value)} {name : String}

/-! ## Fields told in order -/

/-- Items that are left over are refused. -/
theorem exists_endArray (h : SpellsItems first text (v :: items))
    (hc : c.rest = text ++ ']' :: rest) : ∃ e, endArray c = .error e := by
  cases h with
  | cons hsep hv hitems =>
    simp only [List.append_assoc] at hc
    cases first with
    | true =>
      have hitem := hv.rest_skipSpace hsep hc
      obtain ⟨x, u, rfl, hx⟩ := hv.exists_cons
      have hend : x ≠ ']' := ne_of_opens (Value.opens_of_starts hx) (by decide)
      have hcomma : x ≠ ',' := ne_of_opens (Value.opens_of_starts hx) (by decide)
      rw [endArray, Cursor.peek?_eq hitem]
      simp only
      exact ⟨_, rfl⟩
    | false =>
      obtain ⟨w, w', rfl, hw, hw'⟩ := hsep
      rw [List.append_assoc] at hc
      have hcomma := Cursor.rest_skipSpace_append hc hw rfl
      rw [endArray, Cursor.peek?_eq hcomma]
      simp only
      split <;> exact ⟨_, rfl⟩

/-- The fields are read up to the end of the array, which is taken. -/
theorem answers_readPositional (index : Nat) (expected : String)
    (h : SpellsItems (index == 0) text items)
    (hreads : ∀ item ∈ items, ∀ field ∈ fields, field.2.1.Reads depth slack item)
    (hc : c.rest = text ++ ']' :: rest) (hfuel : text.length + slack + fields.length < fuel) :
    Answers
      (do
        let (values, c) ← readPositional fuel depth expected index fields c
        let c ← endArray c
        return (values, c))
      (Shape.takeItems fields items) (· = rest) := by
  -- On the fields, since one may take its default where no item is left. The end of the array is
  -- read along with them: only there does it show that items are left over.
  induction fields generalizing index text items c fuel with
  | nil =>
    obtain _ | fuel := fuel
    · omega
    cases items with
    | nil =>
      cases h with
      | nil hw =>
        obtain ⟨c', hend, hc'⟩ := leaves_endArray ⟨text, hw, hc⟩
        exact ⟨c', by simp [readPositional, hend], hc'⟩
    | cons v items =>
      obtain ⟨e, he⟩ := exists_endArray h hc
      exact ⟨e, by simp [readPositional, he]⟩
  | cons field fields ih =>
    obtain ⟨name, shape, default⟩ := field
    obtain _ | fuel := fuel
    · omega
    rw [List.length_cons] at hfuel
    cases items with
    | nil =>
      cases h with
      | nil hw =>
        have hnext := nextItem?_end (index == 0) ⟨text, hw, hc⟩
        cases default with
        | none =>
          rw [readPositional, hnext]
          exact ⟨_, rfl⟩
        | some value =>
          have hfields := ih (index + 1) (SpellsItems.nil hw) (fun _ h => absurd h List.not_mem_nil)
            hc (show text.length + slack + fields.length < fuel by omega)
          have hall := hfields.map ((name, value) :: ·)
          rw [readPositional, hnext]
          simp only [ok_bind, bind_assoc, pure_bind] at hall ⊢
          exact hall
    | cons v items =>
      rw [List.forall_mem_cons] at hreads
      cases h with
      | @cons _ sep t text _ _ hsep hv hitems =>
        simp only [List.append_assoc] at hc
        simp only [List.length_append] at hfuel
        have hpos := hv.length_pos
        obtain ⟨c', hnext, hc'⟩ := nextItem?_item hsep hv hc
        have hitem := hreads.1 _ List.mem_cons_self (w := []) hv (List.forall_mem_nil _) hc'
          (hitems.stops rest) (show t.length + slack ≤ fuel by omega)
        rw [readPositional, hnext]
        simp only [ok_bind, bind_assoc, pure_bind]
        refine hitem.bind fun value c hc => ?_
        have hfields := ih (index + 1) hitems
          (fun item hi field hf => hreads.2 item hi field (List.mem_cons_of_mem _ hf)) hc
          (show text.length + slack + fields.length < fuel by omega)
        have hall := hfields.map ((name, value) :: ·)
        simp only [bind_assoc, pure_bind] at hall
        exact hall

/-! ## Fields told by name -/

/-- What is read of the fields told by members, in the order of the members; `seen` is what was read
before. -/
def collect (fields : List (String × Shape × Option Value)) :
    List (String × Value) → List (String × Value) → Option (List (String × Value))
  | seen, [] => some seen
  | seen, (name, v) :: members =>
    match fields.find? (·.1 == name) with
    | some (_, shape, _) =>
      if seen.any (·.1 == name) then none
      else (shape.take v).bind fun value => collect fields (seen ++ [(name, value)]) members
    | none => collect fields seen members

theorem answers_readFields (seen : List (String × Value)) (h : SpellsMembers first text members)
    (hreads : ∀ m ∈ members, ∀ field ∈ fields, field.2.1.Reads depth slack m.2)
    (hc : c.rest = text ++ '\x7d' :: rest) (hfuel : text.length + slack < fuel) :
    Answers (readFields fuel depth fields seen first c) (collect fields seen members)
      (Closes '\x7d' rest) := by
  induction members generalizing first text c fuel seen with
  | nil =>
    obtain _ | fuel := fuel
    · omega
    cases h with
    | nil hw =>
      have hclose : Closes '\x7d' rest c.rest := ⟨text, hw, hc⟩
      rw [readFields, nextMember?_end first hclose]
      exact ⟨c, rfl, hclose⟩
  | cons m members ih =>
    obtain _ | fuel := fuel
    · omega
    rw [List.forall_mem_cons] at hreads
    cases h with
    | @cons _ sep key w w' t text name v _ hsep hname hw hw' hv hmembers =>
      simp only [List.append_assoc, List.cons_append] at hc
      simp only [List.length_append, List.length_cons] at hfuel
      have hpos := hv.length_pos
      obtain ⟨c₁, c₂, c₃, hnext, hstring, hcolon, hc₃⟩ := exists_member hsep hname hw hc
      rw [readFields, hnext]
      simp only [ok_bind, hstring]
      rw [collect]
      cases hfind : fields.find? (·.1 == name) with
      | none =>
        obtain ⟨c₄, hskip, hc₄⟩ := leaves_skipValue hv hw' hc₃ (hmembers.stops rest)
          (show t.length ≤ fuel by omega)
        simp only [hcolon, ok_bind, hskip]
        exact ih seen hmembers hreads.2 hc₄ (by omega)
      | some field =>
        obtain ⟨name', shape, default⟩ := field
        by_cases hseen : seen.any (·.1 == name)
        · -- A field that is told twice is refused before its value is looked at.
          simp only [hseen]
          exact ⟨_, rfl⟩
        · have hfield := hreads.1 _ (List.mem_of_find?_eq_some hfind) hv hw' hc₃
            (hmembers.stops rest) (show t.length + slack ≤ fuel by omega)
          simp only [hseen, hcolon, ok_bind]
          exact hfield.bind fun value c hc => ih _ hmembers hreads.2 hc (by omega)

/-- What a field becomes, whatever becomes of the others: it is told once, in `seen` or by one of
the members, or it takes its default. -/
def fieldValue (seen members : List (String × Value)) (field : String × Shape × Option Value) :
    Option Value :=
  match seen.find? (·.1 == field.1), members.filter (·.1 == field.1) with
  | some (_, value), [] => some value
  | none, [] => field.2.2
  | none, [(_, v)] => field.2.1.take v
  | _, _ => none

section

variable {field : String × Shape × Option Value}

theorem fieldValue_cons_of_ne (h : name ≠ field.1) (v : Value) :
    fieldValue seen ((name, v) :: members) field = fieldValue seen members field := by
  rw [fieldValue, fieldValue, List.filter_cons_of_neg (by simpa using h)]

theorem fieldValue_cons_self (name : String) (shape : Shape) (default : Option Value) (v : Value) :
    fieldValue seen ((name, v) :: members) (name, shape, default) =
      if (seen.find? (·.1 == name)).isNone && (members.filter (·.1 == name)).isEmpty then
        shape.take v
      else none := by
  rw [fieldValue, List.filter_cons_of_pos (by simp)]
  generalize members.filter (·.1 == name) = told
  cases seen.find? (·.1 == name) <;> cases told <;> rfl

theorem fieldValue_append_of_ne (h : name ≠ field.1) (value : Value) :
    fieldValue (seen ++ [(name, value)]) members field = fieldValue seen members field := by
  have hnone : [(name, value)].find? (·.1 == field.1) = none := by simpa using h
  rw [fieldValue, fieldValue, List.find?_append, hnone, Option.or_none]

theorem fieldValue_append_self (shape : Shape) (default : Option Value)
    (hseen : seen.find? (·.1 == name) = none) (value : Value) :
    fieldValue (seen ++ [(name, value)]) members (name, shape, default) =
      if (members.filter (·.1 == name)).isEmpty then some value else none := by
  rw [fieldValue, List.find?_append, hseen, Option.none_or, List.find?_cons_of_pos (by simp)]
  cases members.filter (·.1 == name) <;> rfl

end

/-- All fields with what they become. -/
def fieldValues (seen members : List (String × Value)) :
    List (String × Shape × Option Value) → Option (List (String × Value))
  | [] => some []
  | field :: fields => (fieldValue seen members field).bind fun value =>
    (fieldValues seen members fields).map ((field.1, value) :: ·)

theorem takeMembers_eq (fields : List (String × Shape × Option Value))
    (members : List (String × Value)) :
    Shape.takeMembers fields members = fieldValues [] members fields := by
  induction fields with
  | nil => rfl
  | cons field fields ih =>
    obtain ⟨name, shape, default⟩ := field
    simp only [Shape.takeMembers, fieldValues, ih, fieldValue]
    generalize members.filter (·.1 == name) = told
    rcases told with _ | ⟨m, _ | ⟨m', told⟩⟩ <;> rfl

theorem toOption_fill (seen : List (String × Value))
    (fields : List (String × Shape × Option Value)) :
    (fill seen fields).toOption = fieldValues seen [] fields := by
  induction fields with
  | nil => rfl
  | cons field fields ih =>
    obtain ⟨name, shape, default⟩ := field
    cases hfind : seen.find? (·.1 == name) with
    | none =>
      cases default with
      | none => simp [fill, fieldValues, fieldValue, hfind, Except.toOption]
      | some value =>
        simp only [fill, fieldValues, fieldValue, hfind, ← ih]
        cases fill seen fields <;> rfl
    | some told =>
      simp only [fill, fieldValues, fieldValue, hfind, ← ih]
      cases fill seen fields <;> rfl

theorem fieldValues_eq_none {field : String × Shape × Option Value} (hfield : field ∈ fields)
    (h : fieldValue seen members field = none) : fieldValues seen members fields = none := by
  induction fields with
  | nil => exact absurd hfield List.not_mem_nil
  | cons other fields ih =>
    rw [fieldValues]
    obtain rfl | hmem := List.mem_cons.mp hfield
    · rw [h, Option.bind_none]
    · simp [ih hmem]

theorem fieldValues_congr {seen' members' : List (String × Value)}
    (h : ∀ field ∈ fields, fieldValue seen members field = fieldValue seen' members' field) :
    fieldValues seen members fields = fieldValues seen' members' fields := by
  induction fields with
  | nil => rfl
  | cons field fields ih =>
    rw [List.forall_mem_cons] at h
    rw [fieldValues, fieldValues, h.1, ih h.2]

/-- Looking at one member after another gives each field its own value. -/
theorem collect_fill (hnodup : (fields.map (·.1)).Nodup) (seen members : List (String × Value)) :
    (collect fields seen members).bind (fun read => (fill read fields).toOption) =
      fieldValues seen members fields := by
  -- On the members: one that tells a field moves its value into `seen`, which changes the value of
  -- no field but that one, and of that one only if it is told again.
  induction members generalizing seen with
  | nil => exact toOption_fill seen fields
  | cons m members ih =>
    obtain ⟨name, v⟩ := m
    rw [collect]
    cases hfind : fields.find? (·.1 == name) with
    | none =>
      rw [List.find?_eq_none] at hfind
      refine (ih seen).trans (fieldValues_congr fun field hfield => ?_)
      have hne : name ≠ field.1 := fun h => hfind field hfield (beq_iff_eq.mpr h.symm)
      rw [fieldValue, fieldValue, List.filter_cons_of_neg (by simpa using hne)]
    | some field =>
      obtain ⟨name', shape, default⟩ := field
      have hmem := List.mem_of_find?_eq_some hfind
      obtain rfl : name' = name := by simpa using List.find?_some hfind
      have heq : ∀ field ∈ fields, field.1 = name' → field = (name', shape, default) :=
        fun field hfield hname => List.inj_on_of_nodup_map hnodup hfield hmem hname
      cases hseen : seen.find? (·.1 == name') with
      | some told =>
        have hnone : fieldValue seen ((name', v) :: members) (name', shape, default) = none := by
          simp [fieldValue_cons_self, hseen]
        have hany : seen.any (·.1 == name') = true := by rw [← List.isSome_find?, hseen]; rfl
        rw [fieldValues_eq_none hmem hnone]
        simp [hany]
      | none =>
        have hany : seen.any (·.1 == name') = false := by rw [← List.isSome_find?, hseen]; rfl
        simp only [hany]
        cases htake : shape.take v with
        | none =>
          have hnone : fieldValue seen ((name', v) :: members) (name', shape, default) = none := by
            simp [fieldValue_cons_self, hseen, htake]
          rw [fieldValues_eq_none hmem hnone]
          rfl
        | some value =>
          refine (ih _).trans (fieldValues_congr fun field hfield => ?_)
          by_cases hname : name' = field.1
          · obtain rfl := heq field hfield hname.symm
            rw [fieldValue_append_self shape default hseen, fieldValue_cons_self, hseen, htake]
            rfl
          · rw [fieldValue_append_of_ne hname, fieldValue_cons_of_ne hname]

/-! ## Records and whole texts -/

/-- A record is read if its fields are. -/
theorem reads_record (name : String) (hnodup : (fields.map (·.1)).Nodup) (hdepth : 0 < depth)
    (h : ∀ part ∈ v.parts, ∀ field ∈ fields, field.2.1.Reads depth slack part) :
    (Shape.record name fields).Reads (depth + 1) (slack + fields.length) v := by
  refine Shape.Reads.of_start fun c x u rest fuel hv hx hstart hrest hfuel => ?_
  have hnot : ¬depth + 1 ≤ 1 := by omega
  rw [readAs, Cursor.peek?_eq hstart]
  by_cases harray : x = '['
  · subst harray
    obtain ⟨items, rfl⟩ := Value.eq_array_of_starts hx
    obtain ⟨text, htext, hitems⟩ := hv.exists_items
    obtain rfl := (List.cons.inj htext).2
    simp only [List.cons_append, List.append_assoc] at hstart
    have hskip : c.skipSpace.skip.rest = text ++ ']' :: rest := by simp [hstart]
    simp only [List.length_cons, List.length_append] at hfuel
    have hread := answers_readPositional 0 (recordLength name fields.length) hitems h hskip
      (show text.length + slack + fields.length < fuel by omega)
    have hall := hread.map Value.object
    simp only [bind_assoc, pure_bind] at hall
    simp only [hnot]
    exact hall
  by_cases hobject : x = '\x7b'
  · subst hobject
    obtain ⟨members, rfl⟩ := Value.eq_object_of_starts hx
    obtain ⟨text, htext, hmembers⟩ := hv.exists_members
    obtain rfl := (List.cons.inj htext).2
    simp only [List.cons_append, List.append_assoc] at hstart
    have hskip : c.skipSpace.skip.rest = text ++ '\x7d' :: rest := by simp [hstart]
    simp only [List.length_cons, List.length_append] at hfuel
    have hread := answers_readFields [] hmembers
      (fun m hm field hf => h m.2 (List.mem_map_of_mem hm) field hf) hskip
      (show text.length + slack < fuel by omega)
    simp only [hnot]
    rw [Shape.take, takeMembers_eq, ← collect_fill hnodup, Option.map_bind]
    refine hread.bind fun read c hclose => ?_
    cases hfill : fill read fields with
    | error missing =>
      rw [Function.comp_apply, hfill]
      exact ⟨_, rfl⟩
    | ok values =>
      rw [Function.comp_apply, hfill]
      obtain ⟨c', hend, hc'⟩ := leaves_endObject hclose
      exact ⟨c', by simp [hend], hc'⟩
  · have htake : (Shape.record name fields).take v = none := by
      cases v with
      | array items => exact absurd (eq_of_beq hx) harray
      | object members => exact absurd (eq_of_beq hx) hobject
      | _ => rfl
    rw [htake]
    simp only
    exact exists_readMismatch _ _

/-- A whole text is read as what the shape makes of the value that it spells. -/
theorem toOption_read {text : String} {shape : Shape} (h : SpellsDocument text v)
    (hreads : shape.Reads depthLimit slack v) (hslack : slack ≤ 16) :
    (Json.read shape text).toOption = shape.take v := by
  obtain ⟨w, body, w', htext, hw, hv, hw'⟩ := h
  have hlength : text.toList.length = w.length + (body.length + w'.length) := by
    rw [htext, List.length_append, List.length_append]
  have hread := hreads (c := Cursor.start text.toList) hv hw htext hw'.stops
    (show body.length + slack ≤ 2 * text.toList.length + 16 by omega)
  rw [Json.read]
  cases htake : shape.take v with
  | none =>
    rw [htake] at hread
    obtain ⟨e, he⟩ := hread
    simp [he, Except.toOption]
  | some value =>
    rw [htake] at hread
    obtain ⟨c, hc, hrest⟩ := hread
    have hend := Cursor.rest_skipSpace_eq_nil hrest hw'
    simp [hc, Cursor.peek?, hend, Except.toOption]

/-- What is read as a value is then read as what the value stands for. -/
theorem bind_eq_ok {α : Type} (ofValue? : Value → Option α) {result : Except Error Value} {a : α}
    {k : Value → Except Error α} (h : result.toOption.bind ofValue? = some a)
    (hk : ∀ v, ofValue? v = some a → k v = .ok a) : (result >>= k) = .ok a := by
  cases result with
  | error e => exact absurd h (Option.some_ne_none a).symm
  | ok v => exact hk v h

theorem exists_bind_error {α : Type} {result : Except Error Value} (h : result.toOption = none)
    (k : Value → Except Error α) : ∃ e, (result >>= k) = .error e := by
  cases result with
  | error e => exact ⟨e, rfl⟩
  | ok v => exact absurd h (Option.some_ne_none v)

end Anchored.Json
