import Anchored.Proofs.Text.Spelling
import Mathlib.Data.List.Chain

/-!
# The spans of the lines partition a text

The spans of the lines are given without their terminators, and `terminatorEnd` finds the end of a
terminator by looking at the text again. The two agree on every text: from the first byte to the
last, each line with its terminator ends where the next one starts, and no other spans divide the
text into lines like that (`line_spans_partition`).
-/

namespace Anchored.Text

variable {t front text rest : List Char} {spans : List Span} {span : Span} {ls : List Line}
  {l : Line} {j n : Nat}

/-- From byte `n` on, the spans divide the text into lines: pieces without terminators inside, which
terminators part from each other. -/
structure Partitions (t : List Char) (n : Nat) (spans : List Span) : Prop where
  /-- There are no lines only where no text is left. -/
  eq_nil_iff : spans = [] ↔ byteSize t = n
  start_eq : ∀ first, spans.head? = some first → first.start = n
  /-- Every other line starts where the terminator of the line before it ends. -/
  next_eq : spans.IsChain fun span next => next.start = terminatorEnd t span.stop
  /-- The last terminator ends where the text ends. -/
  stop_eq : ∀ last, spans.getLast? = some last → terminatorEnd t last.stop = byteSize t
  unbroken : ∀ span ∈ spans, ∃ text, span.text? t = some text ∧ Unbroken text
  /-- Only the last line may lack a terminator. -/
  terminated : ∀ span ∈ spans.dropLast, span.stop < terminatorEnd t span.stop
  /-- An empty line has a terminator. -/
  not_empty : ∀ span ∈ spans, span.start < terminatorEnd t span.stop

/-- The text of a line, and the bytes after it up to the end of its terminator. -/
def wholeLine? (t : List Char) (span : Span) : Option (List Char) := do
  let text ← span.text? t
  let terminator ← (Span.mk span.stop (terminatorEnd t span.stop)).text? t
  return text ++ terminator

/-- Byte `n` is the line feed of a `\r\n`. -/
def PartsReturn (t : List Char) (n : Nat) : Prop :=
  ∃ a b, t = a ++ '\r' :: '\n' :: b ∧ n = byteSize a + 1

/-! ## The lines are a partition -/

theorem mem_lineSpans_iff :
    span ∈ lineSpans t ↔ ∃ j l, (lines t)[j]? = some l ∧ spanAt t j l = span := by
  rw [List.mem_iff_getElem?]
  simp only [getElem?_lineSpans_eq_some_iff]

/-- The terminator of a line ends where the lines up to it end. -/
theorem terminatorEnd_spanAt (hl : (lines t)[j]? = some l) :
    terminatorEnd t (spanAt t j l).stop = sizeOfLines ((lines t).take (j + 1)) := by
  rw [spanAt, terminatorEnd_of_getElem? hl, sizeOfLines_take_succ hl, Line.chars, byteSize_append,
    Nat.add_assoc]

theorem Lined.ending_ne_none (h : Lined t ls) (hl : ls[j]? = some l) (hj : j + 1 < ls.length) :
    l.ending ≠ .none := by
  induction h generalizing j with
  | nil => cases hl
  | last text _ _ => simp at hj
  | cons l' rest ls _ ended _ _ ih =>
    rcases j with _ | j
    · cases hl
      exact ended
    · exact ih hl (Nat.lt_of_succ_lt_succ hj)

theorem lineSpans_eq_nil_iff : lineSpans t = [] ↔ t = [] := by
  rw [← List.length_eq_zero_iff, length_lineSpans, List.length_eq_zero_iff]
  constructor
  · intro h
    by_contra hne
    exact lines_ne_nil hne h
  · rintro rfl
    rfl

theorem partitions_lineSpans (t : List Char) : Partitions t 0 (lineSpans t) where
  eq_nil_iff := lineSpans_eq_nil_iff.trans byteSize_eq_zero.symm
  start_eq := by
    intro first hfirst
    rw [List.head?_eq_getElem?] at hfirst
    obtain ⟨l, _, rfl⟩ := getElem?_lineSpans_eq_some_iff.mp hfirst
    rfl
  next_eq := by
    rw [List.isChain_iff_getElem]
    intro j hj
    obtain ⟨l, hl, hspan⟩ := getElem?_lineSpans_eq_some_iff.mp
      (List.getElem?_eq_getElem (Nat.lt_of_succ_lt hj))
    obtain ⟨next, _, hnext⟩ := getElem?_lineSpans_eq_some_iff.mp (List.getElem?_eq_getElem hj)
    rw [← hspan, ← hnext, terminatorEnd_spanAt hl]
    rfl
  stop_eq := by
    intro last hlast
    rw [List.getLast?_eq_getElem?, length_lineSpans] at hlast
    obtain ⟨l, hl, rfl⟩ := getElem?_lineSpans_eq_some_iff.mp hlast
    obtain ⟨hlt, _⟩ := List.getElem?_eq_some_iff.mp hl
    rw [terminatorEnd_spanAt hl, Nat.sub_add_cancel (Nat.one_le_of_lt hlt), List.take_length,
      sizeOfLines, flatMap_chars_lines]
  unbroken := by
    intro span hspan
    obtain ⟨j, l, hl, rfl⟩ := mem_lineSpans_iff.mp hspan
    exact ⟨l.text, text?_spanAt hl, (lined_lines t).unbroken l (List.mem_of_getElem? hl)⟩
  terminated := by
    intro span hspan
    obtain ⟨j, hj⟩ := List.mem_iff_getElem?.mp hspan
    obtain ⟨hlt, _⟩ := List.getElem?_eq_some_iff.mp hj
    rw [List.length_dropLast, length_lineSpans] at hlt
    rw [List.getElem?_dropLast, if_pos (by rwa [length_lineSpans])] at hj
    obtain ⟨l, hl, rfl⟩ := getElem?_lineSpans_eq_some_iff.mp hj
    have hended := (lined_lines t).ending_ne_none hl (by omega)
    have hpos := Nat.pos_of_ne_zero (mt byteSize_eq_zero.mp (Ending.chars_ne_nil hended))
    rw [terminatorEnd_spanAt hl, sizeOfLines_take_succ hl, Line.chars, byteSize_append, spanAt]
    simp only
    omega
  not_empty := by
    intro span hspan
    obtain ⟨j, l, hl, rfl⟩ := mem_lineSpans_iff.mp hspan
    obtain ⟨hlt, _⟩ := List.getElem?_eq_some_iff.mp hl
    rw [terminatorEnd_spanAt hl]
    exact sizeOfLines_take_lt t (Nat.lt_succ_self j) hlt

/-! ## No other spans are one -/

/-- What stands around a text that a span covers: a terminator behind it, if there is one. -/
theorem exists_pieces_of_text? (h : span.text? t = some text) : ∃ before e after,
    t = before ++ (text ++ (Ending.chars e ++ after)) ∧ byteSize before = span.start ∧
      span.stop = byteSize (before ++ text) ∧
      terminatorEnd t span.stop = byteSize (before ++ text ++ e.chars) ∧
      (e = .cr → after.head? ≠ some '\n') := by
  obtain ⟨⟨before, covered, behind⟩, hcut, hcovered⟩ := Option.map_eq_some_iff.mp h
  obtain rfl : covered = text := hcovered
  obtain ⟨htext, hstart, hstop⟩ := Span.cut?_eq_some_iff.mp hcut
  obtain ⟨e, after, rfl, lone, last⟩ := exists_ending behind
  have hend := terminatorEnd_append (before ++ covered) lone last
  rw [← byteSize_append] at hstop
  rw [← htext, ← byteSize_append, hstop] at hend
  refine ⟨before, e, after, ?_, hstart, hstop.symm, hend, lone⟩
  rw [htext, List.append_assoc]

/-- Behind the first line, the spans of the other ones are a partition. -/
theorem Partitions.tail (h : Partitions t n (span :: spans)) :
    Partitions t (terminatorEnd t span.stop) spans where
  eq_nil_iff := by
    constructor
    · rintro rfl
      exact (h.stop_eq span rfl).symm
    · intro hend
      rcases spans with _ | ⟨next, spans⟩
      · rfl
      · -- The next line would start where the text ends.
        have hnext : next ∈ span :: next :: spans := List.mem_cons_of_mem _ List.mem_cons_self
        obtain ⟨text, htext, _⟩ := h.unbroken next hnext
        obtain ⟨before, e, after, hwhole, _, _, hstop, _⟩ := exists_pieces_of_text? htext
        have hchain := (List.isChain_cons_cons.mp h.next_eq).1
        have hroom := h.not_empty next hnext
        rw [hchain, ← hend, hstop, hwhole] at hroom
        simp only [byteSize_append] at hroom
        omega
  start_eq := by
    intro next hnext
    obtain ⟨spans, rfl⟩ := List.head?_eq_some_iff.mp hnext
    exact (List.isChain_cons_cons.mp h.next_eq).1
  next_eq := h.next_eq.tail
  stop_eq := by
    intro last hlast
    apply h.stop_eq last
    rw [List.getLast?_cons, hlast]
    rfl
  unbroken := fun s hs => h.unbroken s (List.mem_cons_of_mem span hs)
  terminated := by
    intro s hs
    have hne : spans ≠ [] := by
      rintro rfl
      cases hs
    apply h.terminated s
    rw [List.dropLast_cons_of_ne_nil hne]
    exact List.mem_cons_of_mem span hs
  not_empty := fun s hs => h.not_empty s (List.mem_cons_of_mem span hs)

/-- Behind a line without a terminator there is no other one. -/
theorem Partitions.eq_nil_of_terminatorEnd_eq (h : Partitions t n (span :: spans))
    (hlast : terminatorEnd t span.stop = span.stop) : spans = [] := by
  by_contra hne
  have hmem : span ∈ (span :: spans).dropLast := by
    rw [List.dropLast_cons_of_ne_nil hne]
    exact List.mem_cons_self
  have hroom := h.terminated span hmem
  omega

/-- Spans that divide a text into lines are those of lines that it is divided into. -/
theorem Partitions.exists_lined (h : Partitions t (byteSize front) spans) (ht : t = front ++ rest) :
    ∃ ls, Lined rest ls ∧ spans = spansFrom (byteSize front) ls := by
  induction spans generalizing front rest with
  | nil =>
    have hsize := h.eq_nil_iff.mp rfl
    rw [ht, byteSize_append] at hsize
    obtain rfl : rest = [] := byteSize_eq_zero.mp (by omega)
    exact ⟨[], .nil, rfl⟩
  | cons span spans ih =>
    obtain ⟨text, htext, unbroken⟩ := h.unbroken span List.mem_cons_self
    obtain ⟨before, e, after, hwhole, hstart, hstop, hend, lone⟩ := exists_pieces_of_text? htext
    obtain ⟨rfl, rfl⟩ : front = before ∧ rest = text ++ (e.chars ++ after) :=
      append_inj_of_byteSize_eq (ht.symm.trans hwhole) ((h.start_eq span rfl).symm.trans hstart.symm)
    have htail := h.tail
    rw [hend] at htail
    have hspan : span = ⟨byteSize front, byteSize front + byteSize text⟩ := by
      rw [← byteSize_append, ← hstop, hstart]
    by_cases hnone : e = .none
    · subst hnone
      have hlast : terminatorEnd t span.stop = span.stop := by
        rw [hend, hstop, Ending.chars, List.append_nil]
      obtain rfl := h.eq_nil_of_terminatorEnd_eq hlast
      have hsize := htail.eq_nil_iff.mp rfl
      simp only [hwhole, byteSize_append, Ending.chars, List.nil_append, byteSize] at hsize
      obtain rfl : after = [] := byteSize_eq_zero.mp (by omega)
      have hne : text ≠ [] := by
        rintro rfl
        have hroom := h.not_empty span List.mem_cons_self
        rw [hlast, hspan] at hroom
        simp only [byteSize] at hroom
        omega
      refine ⟨[⟨text, .none⟩], ?_, ?_⟩
      · rw [Ending.chars, List.append_nil, List.append_nil]
        exact .last text unbroken hne
      · rw [spansFrom, hspan, spansFrom]
    · have hsplit : t = front ++ text ++ e.chars ++ after := by
        rw [hwhole]
        simp only [List.append_assoc]
      obtain ⟨ls, hlined, rfl⟩ := ih htail hsplit
      refine ⟨⟨text, e⟩ :: ls, ?_, ?_⟩
      · rw [← List.append_assoc]
        exact .cons ⟨text, e⟩ after ls unbroken hnone lone hlined
      · rw [spansFrom, hspan]
        simp only [byteSize_append]

theorem Partitions.eq_lineSpans (h : Partitions t 0 spans) : spans = lineSpans t := by
  have hall : Partitions t (byteSize []) spans := h
  obtain ⟨ls, hlined, rfl⟩ := hall.exists_lined (List.nil_append t).symm
  rw [lineSpans, hlined.eq_lines]
  rfl

/-! ## The pieces -/

theorem wholeLine?_spanAt (hl : (lines t)[j]? = some l) :
    wholeLine? t (spanAt t j l) = some l.chars := by
  obtain ⟨before, after, htext, hstart, _⟩ := exists_around hl
  have hcut : (Span.mk (spanAt t j l).stop (terminatorEnd t (spanAt t j l).stop)).cut? t =
      some (before ++ l.text, l.ending.chars, after) := by
    refine Span.cut?_eq_some_iff.mpr ⟨?_, ?_, ?_⟩
    · rw [htext, List.append_assoc]
      simp only [List.append_assoc]
    · rw [byteSize_append, hstart]
      rfl
    · rw [byteSize_append, hstart, spanAt, terminatorEnd_of_getElem? hl]
  rw [wholeLine?, text?_spanAt hl, Span.text?, hcut]
  rfl

theorem map_wholeLine?_lineSpans (t : List Char) :
    (lineSpans t).map (wholeLine? t) = ((lines t).map Line.chars).map some :=
  map_lineSpans_eq fun _ _ hl => wholeLine?_spanAt hl

/-! ## The bytes at which lines are cut -/

/-- Where a text is cut within a `\r\n`, the carriage return comes before the cut, and the line feed
after it. -/
theorem partsReturn_append_iff {a b : List Char} :
    PartsReturn (a ++ b) (byteSize a) ↔ a.getLast? = some '\r' ∧ b.head? = some '\n' := by
  constructor
  · rintro ⟨before, after, htext, hsize⟩
    have hreturn : byteSize a = byteSize (before ++ ['\r']) := by
      rw [hsize, byteSize_append]
      rfl
    have hparts : a ++ b = before ++ ['\r'] ++ '\n' :: after := by
      rw [htext, List.append_assoc, List.singleton_append]
    obtain ⟨rfl, rfl⟩ := append_inj_of_byteSize_eq hparts hreturn
    exact ⟨List.getLast?_concat, rfl⟩
  · rintro ⟨ha, hb⟩
    obtain ⟨before, rfl⟩ := List.getLast?_eq_some_iff.mp ha
    obtain ⟨after, rfl⟩ := List.head?_eq_some_iff.mp hb
    refine ⟨before, after, by simp, ?_⟩
    rw [byteSize_append]
    rfl

/-- No terminator ends within a `\r\n`. -/
theorem not_partsReturn_terminatorEnd (hl : (lines t)[j]? = some l) :
    ¬ PartsReturn t (terminatorEnd t (spanAt t j l).stop) := by
  obtain ⟨before, after, htext, hstart, lone, last⟩ := exists_around hl
  have hsize : terminatorEnd t (spanAt t j l).stop =
      byteSize (before ++ l.text ++ l.ending.chars) := by
    rw [spanAt, terminatorEnd_of_getElem? hl, byteSize_append, byteSize_append, hstart]
    rfl
  rw [hsize, htext, ← List.append_assoc, partsReturn_append_iff]
  rintro ⟨hreturn, hfeed⟩
  rcases he : l.ending
  · rw [he] at hreturn
    simp [Ending.chars] at hreturn
  · rw [he] at hreturn
    simp [Ending.chars] at hreturn
  · exact lone he hfeed
  · rw [last he] at hfeed
    cases hfeed

/-- No line starts within a `\r\n`. -/
theorem not_partsReturn_start (hl : (lines t)[j]? = some l) :
    ¬ PartsReturn t (spanAt t j l).start := by
  rcases j with _ | j
  · rintro ⟨a, b, _, hsize⟩
    simp only [spanAt, List.take_zero, sizeOfLines_nil] at hsize
    omega
  · obtain ⟨hlt, _⟩ := List.getElem?_eq_some_iff.mp hl
    have hprev := List.getElem?_eq_getElem (Nat.lt_of_succ_lt hlt)
    have hend := not_partsReturn_terminatorEnd hprev
    rwa [terminatorEnd_spanAt hprev] at hend

/-- The text of no line ends within a `\r\n`. -/
theorem not_partsReturn_stop (hl : (lines t)[j]? = some l) :
    ¬ PartsReturn t (spanAt t j l).stop := by
  obtain ⟨before, after, htext, hstart, _⟩ := exists_around hl
  have hsize : (spanAt t j l).stop = byteSize (before ++ l.text) := by
    rw [byteSize_append, hstart]
    rfl
  by_cases hnil : l.text = []
  · have hsame : (spanAt t j l).stop = (spanAt t j l).start := by
      rw [hsize, hnil, List.append_nil, hstart]
    rw [hsame]
    exact not_partsReturn_start hl
  · rw [hsize, htext, partsReturn_append_iff, List.getLast?_append_of_ne_nil _ hnil]
    rintro ⟨hreturn, _⟩
    have hunbroken := (lined_lines t).unbroken l (List.mem_of_getElem? hl)
    exact (hunbroken '\r' (List.mem_of_getLast? hreturn)).2 rfl

/-- **The spans of the lines partition the text.** The first one starts where the text starts, each of
the others where the terminator of the line before it ends, and the last terminator ends where the
text ends; there is no line only if there is no text. No line has a terminator inside it, and only
the last one may have none behind it. No other spans divide the text like that. So the lines with
their terminators, one after another, are the text again, and none of them starts or ends within a
`\r\n`. -/
theorem line_spans_partition (t : List Char) :
    (∀ spans, Partitions t 0 spans ↔ spans = lineSpans t) ∧ (lineSpans t = [] ↔ t = []) ∧
      (∃ pieces : List (List Char),
        (lineSpans t).map (wholeLine? t) = pieces.map some ∧ pieces.flatten = t) ∧
      ∀ span ∈ lineSpans t, ¬ PartsReturn t span.start ∧ ¬ PartsReturn t span.stop ∧
        ¬ PartsReturn t (terminatorEnd t span.stop) := by
  refine ⟨fun spans => ⟨fun h => h.eq_lineSpans, ?_⟩, lineSpans_eq_nil_iff,
    ⟨(lines t).map Line.chars, map_wholeLine?_lineSpans t, ?_⟩, fun span hspan => ?_⟩
  · rintro rfl
    exact partitions_lineSpans t
  · rw [← List.flatMap_def, flatMap_chars_lines]
  · obtain ⟨j, l, hl, rfl⟩ := mem_lineSpans_iff.mp hspan
    exact ⟨not_partsReturn_start hl, not_partsReturn_stop hl, not_partsReturn_terminatorEnd hl⟩

end Anchored.Text
