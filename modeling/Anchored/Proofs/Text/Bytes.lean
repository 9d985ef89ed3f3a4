import Anchored.Proofs.Text.Occurrence
import Mathlib.Data.String.Basic

/-!
# Texts as bytes

Offsets count the bytes of the UTF-8 form. In that form a text can stand in another at the start of
a character only, since the first byte of a character is never one of the others. So the places at
which the bytes of one text stand among those of another are the places at which the text stands in
the other (`startsAt_iff_occursAt`). A span of bytes that starts and ends with characters cuts the
text in three (`Span.within_iff`). The byte of an ASCII character is in no other character, so that
counting it counts the character (`count_take_bytes`).
-/

namespace Anchored

namespace Text

/-- The UTF-8 form of a text. -/
def bytes (t : List Char) : List UInt8 :=
  t.flatMap String.utf8EncodeChar

@[simp]
theorem bytes_nil : bytes [] = [] := rfl

@[simp]
theorem bytes_cons (c : Char) (t : List Char) :
    bytes (c :: t) = String.utf8EncodeChar c ++ bytes t := rfl

@[simp]
theorem bytes_append (a b : List Char) : bytes (a ++ b) = bytes a ++ bytes b :=
  List.flatMap_append

@[simp]
theorem length_bytes (t : List Char) : (bytes t).length = byteSize t := by
  induction t with
  | nil => rfl
  | cons c t ih => rw [bytes_cons, List.length_append, String.length_utf8EncodeChar, ih, byteSize]

theorem toList_toUTF8 (s : String) : s.toUTF8.data.toList = bytes s.toList := by
  have h : s.toUTF8 = (bytes s.toList).toByteArray := by
    rw [String.toUTF8_eq_toByteArray]
    conv_lhs => rw [← String.ofList_toList (s := s)]
    rw [String.toByteArray_ofList]
    rfl
  rw [h, List.data_toByteArray]

theorem bytes_toList_inj {s t : String} : bytes s.toList = bytes t.toList ↔ s = t := by
  rw [← toList_toUTF8, ← toList_toUTF8, Array.toList_inj, String.toUTF8_eq_toByteArray,
    String.toUTF8_eq_toByteArray]
  constructor
  · exact fun h => String.toByteArray_inj.mp (ByteArray.ext h)
  · rintro rfl
    rfl

/-! ## The bytes of ASCII characters -/

variable {c sep : Char} {b : UInt8}

theorem toNat_toUInt8 (h : c.toNat < 128) : c.toUInt8.toNat = c.toNat := by
  show c.val.toUInt8.toNat = c.toNat
  rw [UInt32.toNat_toUInt8]
  exact Nat.mod_eq_of_lt (Nat.lt_of_lt_of_le h (by decide))

theorem utf8EncodeChar_ascii (h : c.toNat < 128) : String.utf8EncodeChar c = [c.toUInt8] := by
  have hle : c.val.toNat ≤ 127 := Nat.le_of_lt_succ h
  simp only [String.utf8EncodeChar, if_pos hle]
  rfl

theorem le_of_mem_utf8EncodeChar (h : 128 ≤ c.toNat) (hb : b ∈ String.utf8EncodeChar c) :
    128 ≤ b.toNat := by
  have hgt : ¬ c.val.toNat ≤ 127 := Nat.not_le_of_lt h
  simp only [String.utf8EncodeChar, if_neg hgt] at hb
  split_ifs at hb
  all_goals
    simp only [List.mem_cons, List.not_mem_nil, or_false] at hb
    rcases hb with rfl | rfl | rfl | rfl <;> rw [UInt8.toNat_ofNat'] <;> omega

/-- The byte of an ASCII character is in no other character. -/
theorem mem_utf8EncodeChar_iff (h : sep.toNat < 128) :
    sep.toUInt8 ∈ String.utf8EncodeChar c ↔ c = sep := by
  constructor
  · intro hmem
    have hsep := toNat_toUInt8 h
    by_cases hc : c.toNat < 128
    · rw [utf8EncodeChar_ascii hc, List.mem_singleton, ← UInt8.toNat_inj, hsep,
        toNat_toUInt8 hc] at hmem
      exact (Char.toNat_inj.mp hmem).symm
    · have := le_of_mem_utf8EncodeChar (Nat.le_of_not_lt hc) hmem
      omega
  · rintro rfl
    rw [utf8EncodeChar_ascii h]
    exact List.mem_singleton_self _

/-- Among the first bytes of a text there are as many of an ASCII character as among the characters
that lie wholly within them. -/
theorem count_take_bytes (h : sep.toNat < 128) (t : List Char) (n : Nat) :
    ((bytes t).take n).count sep.toUInt8 = (takeBytes n t).count sep := by
  induction t generalizing n with
  | nil => simp [takeBytes]
  | cons c t ih =>
    rw [bytes_cons, takeBytes]
    by_cases hfits : c.utf8Size ≤ n
    · rw [if_pos hfits, List.take_append, List.take_of_length_le (by simpa using hfits),
        List.count_append, String.length_utf8EncodeChar, ih, List.count_cons]
      by_cases hc : c = sep
      · subst hc
        rw [utf8EncodeChar_ascii h]
        simp [Nat.add_comm]
      · rw [List.count_eq_zero.mpr (mt (mem_utf8EncodeChar_iff h).mp hc)]
        simp [hc]
    · have hne : c ≠ sep ∨ n = 0 := by
        by_cases hc : c = sep
        · subst hc
          have hsize := String.length_utf8EncodeChar c
          rw [utf8EncodeChar_ascii h, List.length_singleton] at hsize
          omega
        · exact Or.inl hc
      rw [if_neg hfits, List.take_append_of_le_length (by simp; omega), List.count_nil,
        List.count_eq_zero]
      rcases hne with hne | rfl
      · exact fun hmem => hne ((mem_utf8EncodeChar_iff h).mp (List.mem_of_mem_take hmem))
      · simp

end Text

/-! ## Where characters start -/

/-- A character of the text starts at byte `n`, or the text ends there. -/
def StartsCharacter (content : String) (n : Nat) : Prop :=
  (String.Pos.Raw.mk n).IsValid content

variable {content find : String} {n m i : Nat}

/-- A text is cut in two where a character starts. -/
theorem startsCharacter_iff :
    StartsCharacter content n ↔
      ∃ before after, content = before ++ after ∧ before.utf8ByteSize = n := by
  unfold StartsCharacter
  rw [String.Pos.Raw.isValid_iff_exists_append]
  constructor
  · rintro ⟨before, after, h, hn⟩
    exact ⟨before, after, h, (congrArg String.Pos.Raw.byteIdx hn).symm⟩
  · rintro ⟨before, after, h, rfl⟩
    exact ⟨before, after, h, rfl⟩

/-- A text is cut in three where two characters start. -/
theorem exists_pieces (hle : n ≤ m) (hn : StartsCharacter content n)
    (hm : StartsCharacter content m) : ∃ before covered after,
      content = before ++ covered ++ after ∧ before.utf8ByteSize = n ∧
        before.utf8ByteSize + covered.utf8ByteSize = m := by
  obtain ⟨before, rest, rfl, hbefore⟩ := startsCharacter_iff.mp hn
  obtain ⟨front, after, hfront, hsize⟩ := startsCharacter_iff.mp hm
  have hlists := congrArg String.toList hfront
  rw [String.toList_append, String.toList_append] at hlists
  rcases List.append_eq_append_iff.mp hlists with ⟨covered, hcovered, hrest⟩ | ⟨more, hmore, _⟩
  · refine ⟨before, String.ofList covered, after, ?_, hbefore, ?_⟩
    · apply String.toList_injective
      simp [hrest]
    · rw [← hsize, ← Text.byteSize_toList front, hcovered, Text.byteSize_append,
        Text.byteSize_toList, Text.byteSize_ofList]
  · -- The first cut is not behind the second one, so that nothing lies between them.
    have hsum := congrArg Text.byteSize hmore
    rw [Text.byteSize_append, Text.byteSize_toList, Text.byteSize_toList] at hsum
    exact ⟨before, "", rest, by simp, hbefore, by simp; omega⟩

/-- A span that runs forwards, and starts and ends where characters do. -/
structure Span.Within (span : Span) (content : String) : Prop where
  start_le : span.start ≤ span.stop
  start : StartsCharacter content span.start
  stop : StartsCharacter content span.stop

/-- Such a span cuts the text in three. -/
theorem Span.within_iff {span : Span} :
    span.Within content ↔ ∃ before covered after, content = before ++ covered ++ after ∧
      span = ⟨before.utf8ByteSize, before.utf8ByteSize + covered.utf8ByteSize⟩ := by
  constructor
  · rintro ⟨hle, hstart, hstop⟩
    obtain ⟨before, covered, after, h, hbefore, hcovered⟩ := exists_pieces hle hstart hstop
    refine ⟨before, covered, after, h, ?_⟩
    rw [hcovered, hbefore]
  · rintro ⟨before, covered, after, rfl, rfl⟩
    refine ⟨Nat.le_add_right _ _, startsCharacter_iff.mpr ?_, startsCharacter_iff.mpr ?_⟩
    · exact ⟨before, covered ++ after, String.append_assoc, rfl⟩
    · exact ⟨before ++ covered, after, rfl, String.utf8ByteSize_append⟩

theorem Span.within_iff_cut? {span : Span} :
    span.Within content ↔ ∃ pieces, span.cut? content.toList = some pieces := by
  rw [within_iff]
  constructor
  · rintro ⟨before, covered, after, rfl, rfl⟩
    refine ⟨(before.toList, covered.toList, after.toList), cut?_eq_some_iff.mpr ⟨?_, ?_, ?_⟩⟩
    · simp
    · exact Text.byteSize_toList before
    · rw [Text.byteSize_toList, Text.byteSize_toList]
  · rintro ⟨⟨before, covered, after⟩, hcut⟩
    obtain ⟨htext, hstart, hstop⟩ := cut?_eq_some_iff.mp hcut
    refine ⟨String.ofList before, String.ofList covered, String.ofList after, ?_, ?_⟩
    · apply String.toList_injective
      simp [htext]
    · rw [Text.byteSize_ofList, Text.byteSize_ofList, hstop, hstart]

theorem Span.Within.stop_le {span : Span} (h : span.Within content) :
    span.stop ≤ content.utf8ByteSize :=
  h.stop.le_utf8ByteSize

/-! ## Where the bytes of a text stand -/

/-- The bytes of `content` from byte `i` on start with those of `find`. -/
def StartsAt (content find : String) (i : Nat) : Prop :=
  find.toUTF8.data.toList <+: content.toUTF8.data.toList.drop i

theorem utf8ByteSize_pos (hn : find ≠ "") : 0 < find.utf8ByteSize := by
  have h : find.toList ≠ [] := fun hnil => hn (by simpa using hnil)
  rw [← Text.byteSize_toList]
  exact Nat.pos_of_ne_zero (mt Text.byteSize_eq_zero.mp h)

theorem startsAt_append (before rest find : String) :
    StartsAt (before ++ rest) find before.utf8ByteSize ↔
      Text.bytes find.toList <+: Text.bytes rest.toList := by
  rw [StartsAt, Text.toList_toUTF8, Text.toList_toUTF8, String.toList_append, Text.bytes_append,
    List.drop_left' (by rw [Text.length_bytes, Text.byteSize_toList])]

/-- The bytes that stand at byte `i` are those of the text, and there is room for them. -/
theorem StartsAt.extract_eq (h : StartsAt content find i) (hn : find ≠ "") :
    i + find.utf8ByteSize ≤ content.utf8ByteSize ∧
      content.toByteArray.extract i (i + find.utf8ByteSize) = find.toByteArray := by
  obtain ⟨rest, hrest⟩ := h
  have hpos := utf8ByteSize_pos hn
  rw [String.toUTF8_eq_toByteArray, String.toUTF8_eq_toByteArray] at hrest
  have hlen := congrArg List.length hrest
  simp only [List.length_append, List.length_drop, Array.length_toList, ByteArray.size_data,
    String.size_toByteArray] at hlen
  refine ⟨by omega, ?_⟩
  apply ByteArray.ext
  rw [ByteArray.data_extract, ← Array.toList_inj, Array.toList_extract, List.extract_eq_take_drop,
    Nat.add_sub_cancel_left, ← hrest]
  exact List.take_left' (by simp)

/-- A text stands where its bytes stand: its first byte is the first one of a character wherever it
stands, and so is what follows its last byte. -/
theorem startsAt_iff_occursAt (hn : find ≠ "") :
    StartsAt content find i ↔ OccursAt content find i := by
  have hpos := utf8ByteSize_pos hn
  constructor
  · intro h
    obtain ⟨hroom, hextract⟩ := h.extract_eq hn
    have hle : (⟨i⟩ : String.Pos.Raw) ≤ ⟨i + find.utf8ByteSize⟩ := by
      simp [String.Pos.Raw.le_iff]
    have hend : (⟨i + find.utf8ByteSize⟩ : String.Pos.Raw) ≤ content.rawEndPos := by
      simpa [String.Pos.Raw.le_iff] using hroom
    have hutf8 := (String.Pos.Raw.isValidUTF8_extract_iff _ _ hle hend).mp
      (hextract ▸ find.isValidUTF8)
    obtain ⟨hstart, hstop⟩ := hutf8.resolve_left (by simp; omega)
    obtain ⟨before, covered, after, rfl, rfl, hsize⟩ :=
      exists_pieces (Nat.le_add_right i _) hstart hstop
    rw [String.append_assoc, startsAt_append, String.toList_append, Text.bytes_append] at h
    have hlen : (Text.bytes find.toList).length = (Text.bytes covered.toList).length := by
      rw [Text.length_bytes, Text.length_bytes, Text.byteSize_toList, Text.byteSize_toList]
      omega
    have hsame : Text.bytes find.toList = Text.bytes covered.toList :=
      (List.prefix_of_prefix_length_le h (List.prefix_append _ _) hlen.le).eq_of_length hlen
    rw [Text.bytes_toList_inj] at hsame
    exact ⟨before, after, by rw [hsame], rfl⟩
  · rintro ⟨before, after, rfl, rfl⟩
    rw [String.append_assoc, startsAt_append, String.toList_append, Text.bytes_append]
    exact List.prefix_append _ _

end Anchored
