import Anchored.Proofs.Text.Places
import Anchored.Proofs.Text.Positions
import Anchored.Text.Preview

/-!
# Reading texts with guards

A text cannot be cut within a character, a list has no members past its end, and a difference of
offsets is not below zero. The functions here read a text as it is read step by step, from bytes and
offsets, and have a guard at every such step: where one fails, they have no answer. They answer
whatever the text is, and what they answer is what is read off the characters
(`occurrences?_eq`, `countUpTo?_eq`, `lineSpans?_eq`, `position?_eq`, `preview?_eq`).
-/

namespace Anchored.Guarded

open Text

/-! ## Steps that have a guard -/

/-- The difference, unless it is below zero. -/
def sub? (n m : Nat) : Option Nat :=
  if m ≤ n then some (n - m) else none

/-- The members of a list from number `first` to before number `stop`. -/
def slice? {α : Type} (xs : List α) (first stop : Nat) : Option (List α) :=
  if first ≤ stop ∧ stop ≤ xs.length then some ((xs.take stop).drop first) else none

/-- The text before byte `n`. -/
def upTo? (t : List Char) (n : Nat) : Option (List Char) :=
  (splitAtByte? n t).map (·.1)

/-- The text from byte `n` on. -/
def from? (t : List Char) (n : Nat) : Option (List Char) :=
  (splitAtByte? n t).map (·.2)

variable {t needle before after : List Char} {n m : Nat}

theorem sub?_eq (h : m ≤ n) : sub? n m = some (n - m) :=
  if_pos h

theorem slice?_zero {α : Type} {xs : List α} (h : n ≤ xs.length) :
    slice? xs 0 n = some (xs.take n) :=
  if_pos ⟨Nat.zero_le n, h⟩

theorem upTo?_append (before after : List Char) :
    upTo? (before ++ after) (byteSize before) = some before := by
  rw [upTo?, splitAtByte?_append]
  rfl

theorem from?_append (before after : List Char) :
    from? (before ++ after) (byteSize before) = some after := by
  rw [from?, splitAtByte?_append]
  rfl

theorem from?_eq_some_iff :
    from? t n = some after ↔ ∃ before, t = before ++ after ∧ byteSize before = n := by
  rw [from?, Option.map_eq_some_iff]
  constructor
  · rintro ⟨⟨before, _⟩, hcut, rfl⟩
    exact ⟨before, splitAtByte?_eq_some_iff.mp hcut⟩
  · rintro ⟨before, hcut⟩
    exact ⟨(before, after), splitAtByte?_eq_some_iff.mpr hcut, rfl⟩

/-! ## The search that starts again behind each find -/

/-- The byte at which `needle` occurs first. -/
def first? (needle : List Char) : List Char → Option Nat
  | [] => none
  | c :: r =>
    if needle.isPrefixOf (c :: r) then some 0 else (first? needle r).map (· + c.utf8Size)

/-- The bytes from `n` on at which `needle` occurs. The text from there on is searched for the first
one, and then the text from the character behind it on. -/
def occurrencesFrom? (t needle : List Char) (n : Nat) : Option (List Nat) :=
  match _hrest : from? t n with
  | none => none
  | some rest =>
    match first? needle rest with
    | none => some []
    | some found =>
      match from? t (n + found) with
      | none => none
      | some here =>
        let step := match here with
          | [] => 1
          | c :: _ => c.utf8Size
        (occurrencesFrom? t needle (n + found + step)).map ((n + found) :: ·)
termination_by byteSize t + 1 - n
decreasing_by
  obtain ⟨before, rfl, rfl⟩ := from?_eq_some_iff.mp _hrest
  have hstep : 0 < step := by
    simp only [step]
    split
    · exact Nat.one_pos
    · exact Char.utf8Size_pos _
  rw [byteSize_append]
  omega

/-- The bytes at which `needle` occurs in a text. The empty text occurs nowhere. -/
def occurrences? (t needle : List Char) : Option (List Nat) :=
  if needle.isEmpty then some [] else occurrencesFrom? t needle 0

theorem occurrencesFrom_of_first?_none (h : first? needle t = none) (start : Nat) :
    occurrencesFrom needle start t = [] := by
  induction t generalizing start with
  | nil => rfl
  | cons c r ih =>
    rw [first?] at h
    split_ifs at h with hprefix
    rw [occurrencesFrom, if_neg hprefix, ih (Option.map_eq_none_iff.mp h)]

/-- What stands before the first occurrence, and what is left behind its first character. -/
theorem exists_of_first?_some (h : first? needle t = some m) (start : Nat) :
    ∃ skipped c rest, t = skipped ++ c :: rest ∧ byteSize skipped = m ∧
      occurrencesFrom needle start t =
        (start + m) :: occurrencesFrom needle (start + m + c.utf8Size) rest := by
  induction t generalizing start m with
  | nil => cases h
  | cons c r ih =>
    rw [first?] at h
    split_ifs at h with hprefix
    · cases h
      exact ⟨[], c, r, rfl, rfl, by rw [occurrencesFrom, if_pos hprefix]; rfl⟩
    · obtain ⟨m, hm, rfl⟩ := Option.map_eq_some_iff.mp h
      obtain ⟨skipped, d, rest, rfl, hsize, hocc⟩ := ih hm (start + c.utf8Size)
      refine ⟨c :: skipped, d, rest, rfl, ?_, ?_⟩
      · rw [byteSize, hsize, Nat.add_comm]
      · rw [occurrencesFrom, if_neg hprefix, hocc, Nat.add_right_comm, Nat.add_assoc start]

/-- From a byte at which a character starts, the search finds what stands from there on. -/
theorem occurrencesFrom?_append (before rest needle : List Char) :
    occurrencesFrom? (before ++ rest) needle (byteSize before) =
      some (occurrencesFrom needle (byteSize before) rest) := by
  rw [occurrencesFrom?]
  split
  · rename_i hnone
    rw [from?_append] at hnone
    cases hnone
  rename_i rest' hrest
  rw [from?_append, Option.some.injEq] at hrest
  subst hrest
  rcases hfirst : first? needle rest with _ | m
  · simp only [occurrencesFrom_of_first?_none hfirst]
  · obtain ⟨skipped, c, behind, hsplit, rfl, hocc⟩ :=
      exists_of_first?_some hfirst (byteSize before)
    have hhere : from? (before ++ rest) (byteSize before + byteSize skipped) =
        some (c :: behind) := by
      rw [hsplit, ← List.append_assoc, ← byteSize_append, from?_append]
    -- The search goes on with the same text, cut one character behind the find.
    have ih := occurrencesFrom?_append (before ++ skipped ++ [c]) behind needle
    have htext : before ++ skipped ++ [c] ++ behind = before ++ rest := by
      rw [hsplit]
      simp
    have hsize : byteSize (before ++ skipped ++ [c]) =
        byteSize before + byteSize skipped + c.utf8Size := by
      simp only [byteSize_append]
      rfl
    rw [htext, hsize] at ih
    simp only [hhere, ih, hocc, Option.map_some]
termination_by rest.length
decreasing_by
  rw [hsplit, List.length_append, List.length_cons]
  omega

/-- The search from find to find cuts no character, and misses nothing. -/
theorem occurrences?_eq (t needle : List Char) :
    occurrences? t needle = some (occurrences t needle) := by
  unfold occurrences? occurrences
  split_ifs
  · rfl
  · exact occurrencesFrom?_append [] t needle

/-! ## Counts of bytes -/

/-- How many of the first `n` bytes of a text are that of an ASCII character. -/
def countUpTo? (sep : Char) (t : List Char) (n : Nat) : Option Nat :=
  (slice? (bytes t) 0 n).map (·.count sep.toUInt8)

theorem countUpTo?_eq {sep : Char} (h : sep.toNat < 128) (hn : n ≤ byteSize t) :
    countUpTo? sep t n = some ((takeBytes n t).count sep) := by
  rw [countUpTo?, slice?_zero (by rwa [length_bytes]), Option.map_some, count_take_bytes h]

/-! ## The spans of lines -/

/-- The spans of the lines from byte `i` on, where `start` is the byte at which the first of them
starts. -/
def spansFrom? (bytes : List UInt8) (start i : Nat) : Option (List Span) :=
  if i < bytes.length then
    match bytes[i]? with
    | none => none
    | some b =>
      if b = '\r'.toUInt8 ∧ bytes[i + 1]? = some '\n'.toUInt8 then
        (spansFrom? bytes (i + 2) (i + 2)).map (⟨start, i⟩ :: ·)
      else if b = '\n'.toUInt8 ∨ b = '\r'.toUInt8 then
        (spansFrom? bytes (i + 1) (i + 1)).map (⟨start, i⟩ :: ·)
      else spansFrom? bytes start (i + 1)
  else some (if start < bytes.length then [⟨start, bytes.length⟩] else [])
termination_by bytes.length - i

/-- The spans of the lines of a text. -/
def lineSpans? (t : List Char) : Option (List Span) :=
  spansFrom? (bytes t) 0 0

section Step

variable {bs : List UInt8} {b : UInt8} {i start : Nat}

theorem spansFrom?_crlf (hb : bs[i]? = some '\r'.toUInt8) (hnext : bs[i + 1]? = some '\n'.toUInt8) :
    spansFrom? bs start i = (spansFrom? bs (i + 2) (i + 2)).map (⟨start, i⟩ :: ·) := by
  obtain ⟨hlt, _⟩ := List.getElem?_eq_some_iff.mp hb
  rw [spansFrom?, if_pos hlt]
  simp only [hb, hnext, and_self, if_true]

theorem spansFrom?_single (hb : bs[i]? = some b) (hend : b = '\n'.toUInt8 ∨ b = '\r'.toUInt8)
    (hno : ¬ (b = '\r'.toUInt8 ∧ bs[i + 1]? = some '\n'.toUInt8)) :
    spansFrom? bs start i = (spansFrom? bs (i + 1) (i + 1)).map (⟨start, i⟩ :: ·) := by
  obtain ⟨hlt, _⟩ := List.getElem?_eq_some_iff.mp hb
  rw [spansFrom?, if_pos hlt]
  simp only [hb]
  rw [if_neg hno, if_pos hend]

theorem spansFrom?_other (hb : bs[i]? = some b) (hlf : b ≠ '\n'.toUInt8) (hcr : b ≠ '\r'.toUInt8) :
    spansFrom? bs start i = spansFrom? bs start (i + 1) := by
  obtain ⟨hlt, _⟩ := List.getElem?_eq_some_iff.mp hb
  rw [spansFrom?, if_pos hlt]
  simp only [hb]
  rw [if_neg (fun h => hcr h.1), if_neg (not_or.mpr ⟨hlf, hcr⟩)]

end Step

/-- Bytes that end no line are passed over. -/
theorem spansFrom?_pass (front middle back : List UInt8) (start : Nat)
    (h : ∀ b ∈ middle, b ≠ '\n'.toUInt8 ∧ b ≠ '\r'.toUInt8) :
    spansFrom? (front ++ (middle ++ back)) start front.length =
      spansFrom? (front ++ (middle ++ back)) start (front.length + middle.length) := by
  induction middle generalizing front with
  | nil => rfl
  | cons b middle ih =>
    obtain ⟨hlf, hcr⟩ := h b List.mem_cons_self
    have hnext := ih (front ++ [b]) fun b' hb' => h b' (List.mem_cons_of_mem b hb')
    rw [List.append_assoc, List.length_append, List.length_singleton, Nat.add_assoc,
      Nat.add_comm 1] at hnext
    rw [spansFrom?_other (b := b) (by simp) hlf hcr]
    exact hnext

theorem bytes_ne_of_unbroken (h : Unbroken t) :
    ∀ b ∈ bytes t, b ≠ '\n'.toUInt8 ∧ b ≠ '\r'.toUInt8 := by
  intro b hb
  obtain ⟨c, hc, hb⟩ := List.mem_flatMap.mp hb
  obtain ⟨hlf, hcr⟩ := h c hc
  constructor
  · rintro rfl
    exact hlf ((mem_utf8EncodeChar_iff (by decide)).mp hb)
  · rintro rfl
    exact hcr ((mem_utf8EncodeChar_iff (by decide)).mp hb)

/-- A text that starts with the byte of a line feed starts with a line feed. -/
theorem head?_bytes_ne (h : t.head? ≠ some '\n') : (bytes t)[0]? ≠ some '\n'.toUInt8 := by
  rcases t with _ | ⟨c, t⟩
  · simp
  · intro hbyte
    have hpos : 0 < (String.utf8EncodeChar c).length := by
      rw [String.length_utf8EncodeChar]
      exact c.utf8Size_pos
    rw [bytes_cons, List.getElem?_append_left hpos] at hbyte
    exact h (congrArg some ((mem_utf8EncodeChar_iff (by decide)).mp (List.mem_of_getElem? hbyte)))

/-- At the end of a line, the search for lines passes the terminator. -/
theorem spansFrom?_ended (front : List UInt8) {rest : List Char} {e : Ending} (start : Nat)
    (ended : e ≠ .none) (lone : e = .cr → rest.head? ≠ some '\n') :
    spansFrom? (front ++ (bytes e.chars ++ bytes rest)) start front.length =
      (spansFrom? (front ++ (bytes e.chars ++ bytes rest)) (front.length + byteSize e.chars)
        (front.length + byteSize e.chars)).map (⟨start, front.length⟩ :: ·) := by
  have hlf : String.utf8EncodeChar '\n' = ['\n'.toUInt8] := utf8EncodeChar_ascii (by decide)
  have hcr : String.utf8EncodeChar '\r' = ['\r'.toUInt8] := utf8EncodeChar_ascii (by decide)
  rcases e
  · apply spansFrom?_crlf
    · simp [Ending.chars, hcr]
    · simp [Ending.chars, hcr, hlf]
  · apply spansFrom?_single (b := '\n'.toUInt8)
    · simp [Ending.chars, hlf]
    · exact Or.inl rfl
    · exact fun h => absurd h.1 (by decide)
  · apply spansFrom?_single (b := '\r'.toUInt8)
    · simp [Ending.chars, hcr]
    · exact Or.inr rfl
    · intro h
      refine head?_bytes_ne (lone rfl) (Eq.trans ?_ h.2)
      simp [Ending.chars, hcr, List.getElem?_append_right]
  · exact absurd rfl ended

/-- From the start of a line on, the search finds the lines that are left. -/
theorem spansFrom?_append {ls : List Line} (h : Lined t ls) (front : List Char) :
    spansFrom? (bytes (front ++ t)) (byteSize front) (byteSize front) =
      some (spansFrom (byteSize front) ls) := by
  induction h generalizing front with
  | nil =>
    rw [spansFrom?, List.append_nil, if_neg (by simp), if_neg (by simp)]
    rfl
  | last text unbroken ne_nil =>
    have hpass := spansFrom?_pass (bytes front) (bytes text) [] (byteSize front)
      (bytes_ne_of_unbroken unbroken)
    have hpos := Nat.pos_of_ne_zero (mt byteSize_eq_zero.mp ne_nil)
    rw [List.append_nil, ← bytes_append, length_bytes, length_bytes] at hpass
    rw [hpass, spansFrom?, if_neg (by simp), if_pos (by simp; omega), length_bytes, byteSize_append]
    rfl
  | cons l rest ls unbroken ended lone _ ih =>
    have hpass := spansFrom?_pass (bytes front) (bytes l.text) (bytes (l.ending.chars ++ rest))
      (byteSize front) (bytes_ne_of_unbroken unbroken)
    have hended := spansFrom?_ended (bytes (front ++ l.text)) (byteSize front) ended lone
    have hrest := ih (front ++ l.text ++ l.ending.chars)
    simp only [length_bytes, ← bytes_append, byteSize_append, List.append_assoc]
      at hpass hended hrest ⊢
    rw [hpass, hended, Nat.add_assoc, hrest, spansFrom, Option.map_some, Nat.add_assoc]

/-- The spans that are read off the bytes are those of the lines. -/
theorem lineSpans?_eq (t : List Char) : lineSpans? t = some (lineSpans t) :=
  spansFrom?_append (lined_lines t) []

/-! ## Positions -/

/-- The position of byte `n` of a text; an offset past the end is taken as the end. The column counts
from the last line feed before it. -/
def position? (t : List Char) (n : Nat) : Option Position := do
  let offset := min n (byteSize t)
  let before ← slice? (bytes t) 0 offset
  let lineStart := (before.rdropWhile (· != '\n'.toUInt8)).length
  let column ← sub? offset lineStart
  return ⟨before.count '\n'.toUInt8 + 1, column + 1⟩

theorem position?_eq (t : List Char) (n : Nat) : position? t n = some (Position.ofByte t n) := by
  have hlen : ((bytes t).take (min n (byteSize t))).length = min n (byteSize t) := by simp
  have hle : (((bytes t).take (min n (byteSize t))).rdropWhile (· != '\n'.toUInt8)).length ≤
      min n (byteSize t) :=
    (List.rdropWhile_prefix _ _).length_le.trans hlen.le
  have htake : (bytes t).take (min n (byteSize t)) = (bytes t).take n := by
    rw [← length_bytes, ← List.take_take, List.take_length]
  rw [position?, slice?_zero (by simp)]
  simp only [Option.bind_eq_bind, Option.bind_some]
  rw [sub?_eq hle]
  simp only [Option.bind_some]
  rw [ofByte_eq_positionAfter, ← htake, positionAfter, hlen]
  rfl

/-! ## Previews -/

/-- A text cut before its character number `max`, with three dots for what was cut off. -/
def preview? (t : String) (max : Nat) : Option String :=
  if t.length ≤ max then some t
  else (upTo? t.toList (byteSize (t.toList.take max))).map fun cut => String.ofList cut ++ "..."

theorem preview?_eq (t : String) (max : Nat) : preview? t max = some (Text.preview t max) := by
  have hcut := upTo?_append (t.toList.take max) (t.toList.drop max)
  rw [List.take_append_drop] at hcut
  unfold preview? Text.preview
  split_ifs
  · rfl
  · rw [hcut, Option.map_some]

end Anchored.Guarded
