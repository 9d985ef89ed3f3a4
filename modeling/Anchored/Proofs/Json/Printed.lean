import Anchored.Json.Printer
import Anchored.Proofs.Json.Shapes

/-!
# Printed texts

The text that is printed for a value spells it (`spells_pretty`), whatever characters its strings
hold: each is escaped to what reads as it again.
-/

namespace Anchored.Json

variable {x : Char} {w : List Char} {v : Value} {items : List Value}
  {members : List (String × Value)} {depth : Nat}

/-! ## Strings -/

theorem hexValue?_hexDigit : ∀ n < 16, hexValue? (hexDigit n) = some n := by decide

/-- A control character without a letter of its own is written by its number. -/
theorem spellsChar_control (h : x.toNat < 0x20) :
    SpellsChar ['\\', 'u', '0', '0', hexDigit (x.toNat / 16), hexDigit (x.toNat % 16)] x := by
  have hunit : SpellsUnit ['0', '0', hexDigit (x.toNat / 16), hexDigit (x.toNat % 16)]
      (((0 * 16 + 0) * 16 + x.toNat / 16) * 16 + x.toNat % 16) :=
    .digits rfl rfl (hexValue?_hexDigit _ (by omega)) (hexValue?_hexDigit _ (by omega))
  have hnat : ((0 * 16 + 0) * 16 + x.toNat / 16) * 16 + x.toNat % 16 = x.toNat := by omega
  rw [hnat] at hunit
  have hlow : isLeading x.toNat = false ∧ isTrailing x.toNat = false := by
    simp only [isLeading, isTrailing, Bool.and_eq_false_iff, decide_eq_false_iff_not]
    omega
  have hspells := SpellsChar.unit hunit (by simp [hlow.1]) (by simp [hlow.2])
  rwa [Char.ofNat_toNat] at hspells

theorem spellsChar_escape (x : Char) : SpellsChar (escape x) x := by
  rw [escape]
  split_ifs with hquote hescape hfeed hreturn htab hback hform hcontrol
  · subst hquote
    exact .letter rfl
  · subst hescape
    exact .letter rfl
  · subst hfeed
    exact .letter rfl
  · subst hreturn
    exact .letter rfl
  · subst htab
    exact .letter rfl
  · subst hback
    exact .letter rfl
  · subst hform
    exact .letter rfl
  · exact spellsChar_control hcontrol
  · exact .plain (by simpa [isControl] using hcontrol) hquote hescape

theorem spellsString_writeString (s : String) : SpellsString (writeString s) s := by
  refine ⟨s.toList.flatMap escape, rfl, ?_⟩
  induction s.toList with
  | nil => exact .nil
  | cons x s ih => exact .cons (spellsChar_escape x) ih

/-! ## Values -/

/-- The number is whole and fits 64 bits. -/
def Number.Fits : Number → Prop
  | .natural n => n ≤ maxNatural
  | .negative n => -Nat.pow 2 63 ≤ n ∧ n < 0
  | .double _ => False

/-- All numbers of the value are whole and fit 64 bits, and it nests at most `depth` deep. -/
def Value.Fits : Nat → Value → Prop
  | _, .number n => n.Fits
  | 0, .array _ => False
  | 0, .object _ => False
  | 0, _ => True
  | depth + 1, v => ∀ part ∈ v.parts, part.Fits depth

@[simp]
theorem fits_null (depth : Nat) : Value.null.Fits depth := by
  cases depth <;> simp [Value.Fits, Value.parts]

@[simp]
theorem fits_bool (b : Bool) (depth : Nat) : (Value.bool b).Fits depth := by
  cases depth <;> simp [Value.Fits, Value.parts]

@[simp]
theorem fits_number (n : Number) (depth : Nat) : (Value.number n).Fits depth ↔ n.Fits := by
  cases depth <;> rfl

@[simp]
theorem fits_string (s : String) (depth : Nat) : (Value.string s).Fits depth := by
  cases depth <;> simp [Value.Fits, Value.parts]

@[simp]
theorem fits_array (items : List Value) (depth : Nat) :
    (Value.array items).Fits (depth + 1) ↔ ∀ item ∈ items, item.Fits depth :=
  Iff.rfl

@[simp]
theorem fits_object (members : List (String × Value)) (depth : Nat) :
    (Value.object members).Fits (depth + 1) ↔ ∀ m ∈ members, m.2.Fits depth :=
  List.forall_mem_map

theorem fits_ofOption {α : Type} {encode : α → Value} {o : Option α}
    (h : ∀ a ∈ o, (encode a).Fits depth) : (Value.ofOption encode o).Fits depth := by
  cases o with
  | none => exact fits_null depth
  | some a => exact h a rfl

theorem fits_ofInt {n : Int} (hle : -Nat.pow 2 63 ≤ n) (hlt : n < Nat.pow 2 63) (depth : Nat) :
    (Value.ofInt n).Fits depth := by
  rw [Value.ofInt, fits_number]
  split
  case isTrue hneg => exact ⟨hle, hneg⟩
  case isFalse hpos =>
    have hmax : Nat.pow 2 63 ≤ maxNatural := by decide
    show n.toNat ≤ maxNatural
    omega

/-- The parts of a value nest less deep. -/
theorem Value.Fits.exists_part {part : Value} (h : v.Fits depth) (hpart : part ∈ v.parts) :
    ∃ d < depth, part.Fits d := by
  cases v with
  | array items =>
    cases depth with
    | zero => exact absurd h id
    | succ depth => exact ⟨depth, depth.lt_succ_self, h part hpart⟩
  | object members =>
    cases depth with
    | zero => exact absurd h id
    | succ depth => exact ⟨depth, depth.lt_succ_self, h part hpart⟩
  | _ => exact absurd hpart List.not_mem_nil

theorem Value.Fits.nests (h : v.Fits depth) : v.Nests depth := by
  induction depth generalizing v with
  | zero => cases v <;> first | exact h | exact trivial
  | succ depth ih =>
    intro part hpart
    cases v with
    | array items => exact ih (h part hpart)
    | object members => exact ih (h part hpart)
    | _ => exact absurd hpart List.not_mem_nil

theorem spells_writeNumber {n : Number} (h : n.Fits) : Spells n.write (.number n) := by
  cases n with
  | natural n =>
    rw [Number.write, Nat.toString_eq_ofList_toDigits, String.toList_ofList]
    exact .natural h
  | negative n =>
    obtain ⟨hle, hlt⟩ := h
    obtain ⟨k, rfl⟩ := Int.eq_negSucc_of_lt_zero hlt
    have htext : toString (Int.negSucc k) = "-" ++ toString (k + 1) := rfl
    rw [Number.write, htext, String.toList_append, Nat.toString_eq_ofList_toDigits]
    simp only [String.toList_ofList]
    exact .negative k.succ_pos (show k + 1 ≤ Nat.pow 2 63 by omega)
  | double bits => exact absurd h id

theorem spaces_nil : Spaces [] :=
  List.forall_mem_nil _

theorem spaces_blank : Spaces [' '] :=
  List.forall_mem_singleton.mpr rfl

theorem spaces_lineBreak (depth : Nat) : Spaces (lineBreak depth) := by
  intro x hx
  rw [lineBreak, List.mem_cons, List.mem_replicate] at hx
  obtain rfl | ⟨-, rfl⟩ := hx <;> rfl

theorem spells_writeItems (h : ∀ item ∈ items, Spells (item.write depth) item) (hw : Spaces w) :
    SpellsItems false (writeItems depth items ++ w) items := by
  induction items with
  | nil => exact .nil hw
  | cons v items ih =>
    rw [List.forall_mem_cons] at h
    have hsep : Separates false ([','] ++ lineBreak depth) :=
      ⟨[], lineBreak depth, rfl, List.forall_mem_nil _, spaces_lineBreak depth⟩
    have hall := SpellsItems.cons hsep h.1 (ih h.2)
    rw [writeItems]
    simpa only [List.append_assoc] using hall

theorem spells_writeMembers (h : ∀ m ∈ members, Spells (m.2.write depth) m.2) (hw : Spaces w) :
    SpellsMembers false (writeMembers depth members ++ w) members := by
  induction members with
  | nil => exact .nil hw
  | cons m members ih =>
    obtain ⟨name, v⟩ := m
    rw [List.forall_mem_cons] at h
    have hsep : Separates false ([','] ++ lineBreak depth) :=
      ⟨[], lineBreak depth, rfl, List.forall_mem_nil _, spaces_lineBreak depth⟩
    have hall := SpellsMembers.cons hsep (spellsString_writeString name) spaces_nil spaces_blank h.1
      (ih h.2)
    rw [writeMembers]
    simpa only [List.append_assoc, List.cons_append, List.nil_append] using hall

theorem spells_write_of_parts (hnumber : ∀ n, v = .number n → n.Fits)
    (hparts : ∀ part ∈ v.parts, ∀ depth, Spells (part.write depth) part) (depth : Nat) :
    Spells (v.write depth) v := by
  match v with
  | .null => exact .null
  | .bool true => exact .yes
  | .bool false => exact .no
  | .number n => exact spells_writeNumber (hnumber n rfl)
  | .string s => exact .string (spellsString_writeString s)
  | .array [] =>
    have hnone : SpellsItems true [] [] := .nil (List.forall_mem_nil _)
    exact .array hnone
  | .array (v :: items) =>
    have hitems := List.forall_mem_cons.mp hparts
    have hrest := spells_writeItems (fun item hitem => hitems.2 item hitem (depth + 1))
      (spaces_lineBreak depth)
    have hfirst : Separates true (lineBreak (depth + 1)) := spaces_lineBreak (depth + 1)
    have hall := Spells.array (.cons hfirst (hitems.1 (depth + 1)) hrest)
    rw [Value.write]
    simpa only [List.append_assoc, List.cons_append, List.nil_append] using hall
  | .object [] =>
    have hnone : SpellsMembers true [] [] := .nil (List.forall_mem_nil _)
    exact .object hnone
  | .object ((name, v) :: members) =>
    have hmembers := List.forall_mem_cons.mp (List.forall_mem_map.mp hparts)
    have hrest := spells_writeMembers (fun m hm => hmembers.2 m hm (depth + 1))
      (spaces_lineBreak depth)
    have hfirst : Separates true (lineBreak (depth + 1)) := spaces_lineBreak (depth + 1)
    have hall := Spells.object (.cons hfirst (spellsString_writeString name) spaces_nil spaces_blank
      (hmembers.1 (depth + 1)) hrest)
    rw [Value.write]
    simpa only [List.append_assoc, List.cons_append, List.nil_append] using hall

/-- What is written for a value spells it. -/
theorem spells_write {d : Nat} (h : v.Fits d) (depth : Nat) : Spells (v.write depth) v := by
  -- On the depth that the value fits, not the one that it is written at, which grows.
  induction d using Nat.strongRecOn generalizing v depth with
  | _ d ih =>
    refine spells_write_of_parts (fun n hn => ?_) (fun part hpart depth => ?_) depth
    · subst hn
      exact (fits_number n d).mp h
    · obtain ⟨d', hlt, hfits⟩ := h.exists_part hpart
      exact ih d' hlt hfits depth

/-- What is printed for a value spells it, also with white space behind it. -/
theorem spells_pretty {d : Nat} (h : v.Fits d) (hw : Spaces w) :
    SpellsDocument (v.pretty ++ String.ofList w) v := by
  refine ⟨[], v.write 0, w, ?_, spaces_nil, spells_write h 0, hw⟩
  rw [Value.pretty, String.toList_append, String.toList_ofList, String.toList_ofList,
    List.nil_append]

theorem spells_pretty_self {d : Nat} (h : v.Fits d) : SpellsDocument v.pretty v := by
  have hspells := spells_pretty h spaces_nil
  rwa [String.ofList_nil, String.append_empty] at hspells

end Anchored.Json
