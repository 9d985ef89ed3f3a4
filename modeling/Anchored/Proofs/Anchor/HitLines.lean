import Anchored.Proofs.Anchor.Guarded
import Anchored.Proofs.Anchor.NormalForms
import Anchored.Proofs.Anchor.NormalLines

/-!
# The lines of a lenient occurrence

A lenient search looks for an anchor in texts made of pieces: in the normal form, whose pieces are
lines, or in the collapsed content, whose pieces are words. It numbers a piece by counting the
separators before a byte of it, which is right because no piece has a separator inside it
(`inPiece_of_append`). So the first and the last byte of an occurrence are on the lines that the
search gives for it, or in words of these lines (`hits_lie_on_lines`).
-/

namespace Anchored

namespace Text

variable {sep c : Char} {t a b piece : List Char} {pieces : List (List Char)} {k start stop n : Nat}

/-! ## Bytes and pieces -/

/-- Of the text made of some pieces with `sep` between them, the bytes from `start` to `stop` lie in
piece `k`. -/
def InPiece (sep : Char) (pieces : List (List Char)) (k start stop : Nat) : Prop :=
  ∃ piece, pieces[k]? = some piece ∧ offsetAfter sep (pieces.take k) ≤ start ∧
    stop ≤ offsetAfter sep (pieces.take k) + byteSize piece

theorem InPiece.first (h : stop ≤ byteSize piece) : InPiece sep (piece :: pieces) 0 start stop :=
  ⟨piece, rfl, Nat.zero_le start, by rw [List.take_zero, offsetAfter]; simpa [byteSize] using h⟩

/-- A piece in front moves the others on by its bytes and those of the separator. -/
theorem InPiece.cons (h : InPiece sep pieces k start stop) (piece : List Char) :
    InPiece sep (piece :: pieces) (k + 1) (byteSize (piece ++ [sep]) + start)
      (byteSize (piece ++ [sep]) + stop) := by
  obtain ⟨piece', hpiece, hstart, hstop⟩ := h
  have hoffset : offsetAfter sep ((piece :: pieces).take (k + 1)) =
      byteSize (piece ++ [sep]) + offsetAfter sep (pieces.take k) := by
    rw [List.take_succ_cons, offsetAfter, List.flatMap_cons, byteSize_append, offsetAfter]
  refine ⟨piece', hpiece, ?_, ?_⟩
  · rw [hoffset]
    exact Nat.add_le_add_left hstart _
  · rw [hoffset, Nat.add_assoc]
    exact Nat.add_le_add_left hstop _

theorem InPiece.narrow {start' stop' : Nat} (h : InPiece sep pieces k start stop)
    (hstart : start ≤ start') (hstop : stop' ≤ stop) : InPiece sep pieces k start' stop' := by
  obtain ⟨piece, hpiece, hle, hle'⟩ := h
  exact ⟨piece, hpiece, hle.trans hstart, hstop.trans hle'⟩

/-- The separators before a character number the piece that it is in. A separator ends the piece
before it. -/
theorem inPiece_of_append (hfree : ∀ piece ∈ pieces, sep ∉ piece)
    (h : [sep].intercalate pieces = a ++ c :: b) :
    InPiece sep pieces (a.count sep) (byteSize a)
      (byteSize a + if c = sep then 0 else c.utf8Size) := by
  induction pieces generalizing a with
  | nil => simp at h
  | cons piece pieces ih =>
    rw [List.forall_mem_cons] at hfree
    by_cases hlast : pieces = []
    · rw [hlast, List.intercalate_singleton] at h
      have hmem : sep ∉ a ++ c :: b := h ▸ hfree.1
      simp only [List.mem_append, List.mem_cons, not_or] at hmem
      rw [List.count_eq_zero_of_not_mem hmem.1, if_neg (Ne.symm hmem.2.1)]
      apply InPiece.first
      rw [h, byteSize_append, byteSize]
      omega
    rw [List.intercalate_cons_of_ne_nil hlast, List.append_assoc, List.singleton_append,
      List.append_eq_append_iff] at h
    rcases h with ⟨x, rfl, hx⟩ | ⟨x, rfl, hx⟩
    · -- The first piece has ended: the character is its separator, or in the text behind that.
      rw [List.count_append, List.count_eq_zero_of_not_mem hfree.1, Nat.zero_add]
      rcases x with _ | ⟨d, x⟩
      · obtain ⟨rfl, _⟩ := List.cons.inj hx
        rw [List.append_nil, if_pos rfl]
        exact InPiece.first le_rfl
      · obtain ⟨rfl, hrest⟩ := List.cons.inj hx
        have hnext := (ih hfree.2 hrest).cons piece
        have hsize : byteSize (piece ++ sep :: x) = byteSize (piece ++ [sep]) + byteSize x := by
          rw [← byteSize_append, List.append_assoc, List.singleton_append]
        rwa [List.count_cons_self, hsize, Nat.add_assoc]
    · rw [List.mem_append, not_or] at hfree
      rw [List.count_eq_zero_of_not_mem hfree.1.1]
      apply InPiece.first
      rcases x with _ | ⟨d, x⟩
      · obtain ⟨rfl, _⟩ := List.cons.inj hx
        rw [if_pos rfl, List.append_nil, Nat.add_zero]
      · obtain ⟨rfl, _⟩ := List.cons.inj hx
        have hne : c ≠ sep := fun hc => hfree.1.2 (hc ▸ List.mem_cons_self)
        rw [if_neg hne, byteSize_append, byteSize]
        omega

/-- Every byte of a text is one of a character. -/
theorem exists_char_at (h : n < byteSize t) :
    ∃ a c b, t = a ++ c :: b ∧ byteSize a ≤ n ∧ n < byteSize a + c.utf8Size := by
  induction t generalizing n with
  | nil => cases h
  | cons d t ih =>
    by_cases hd : n < d.utf8Size
    · exact ⟨[], d, t, rfl, Nat.zero_le n, by simpa [byteSize] using hd⟩
    · rw [byteSize] at h
      obtain ⟨a, c, b, rfl, hle, hlt⟩ := ih (n := n - d.utf8Size) (by omega)
      refine ⟨d :: a, c, b, rfl, ?_, ?_⟩
      · rw [byteSize]
        omega
      · rw [byteSize]
        omega

theorem exists_of_forall₂ {α β : Type} {R : α → β → Prop} {xs : List α} {ys : List β} {y : β}
    (h : List.Forall₂ R xs ys) (hy : y ∈ ys) : ∃ x, R x y := by
  induction h with
  | nil => cases hy
  | cons hxy _ ih =>
    rcases List.mem_cons.mp hy with rfl | hy
    · exact ⟨_, hxy⟩
    · exact ih hy

/-- The words of numbered texts, each with the number of its text. -/
theorem exists_of_numbered {texts : List (List Char)} {word : List Char} {first j : Nat}
    (h : ((texts.zipIdx first).flatMap fun (text, n) => (words text).map fun word => (n, word))[k]? =
      some (j, word)) :
    ∃ m text i, j = first + m ∧ texts[m]? = some text ∧ (words text)[i]? = some word ∧
      k = ((texts.take m).flatMap words).length + i := by
  induction texts generalizing k first with
  | nil => cases h
  | cons text texts ih =>
    rw [List.zipIdx_cons, List.flatMap_cons] at h
    by_cases hk : k < (words text).length
    · rw [List.getElem?_append_left (by simpa using hk), List.getElem?_map] at h
      obtain ⟨word', hword, hpair⟩ := Option.map_eq_some_iff.mp h
      obtain ⟨rfl, rfl⟩ := Prod.mk.inj hpair
      exact ⟨0, text, k, rfl, rfl, hword, by simp⟩
    · rw [List.getElem?_append_right (by simpa using hk), List.length_map] at h
      obtain ⟨m, text', i, rfl, htext, hword, hsum⟩ := ih h
      refine ⟨m + 1, text', i, by omega, htext, hword, ?_⟩
      rw [List.take_succ_cons, List.flatMap_cons, List.length_append]
      omega

/-! ## The ends of a collapsed text -/

theorem ne_space_of_mem_word {word : List Char} (h : word ∈ words t) (hc : c ∈ word) : c ≠ ' ' := by
  rintro rfl
  exact space_not_mem_word h hc

theorem word_ne_nil {word : List Char} (h : word ∈ words t) : word ≠ [] := by
  simpa using (List.mem_filter.mp h).2

theorem head_collapse_ne (h : collapse t = c :: b) : c ≠ ' ' := by
  rcases hw : words t with _ | ⟨word, more⟩
  · rw [collapse, hw, List.intercalate_nil] at h
    cases h
  · have hmem : word ∈ words t := hw ▸ List.mem_cons_self
    obtain ⟨d, word, rfl⟩ := List.exists_cons_of_ne_nil (word_ne_nil hmem)
    rw [collapse, hw, List.intercalate_cons_cons_left, List.cons.injEq] at h
    exact h.1 ▸ ne_space_of_mem_word hmem List.mem_cons_self

theorem last_collapse_ne (h : collapse t = a ++ [c]) : c ≠ ' ' := by
  rcases List.eq_nil_or_concat' (words t) with hw | ⟨before, word, hw⟩
  · rw [collapse, hw, List.intercalate_nil, eq_comm, List.append_eq_nil_iff] at h
    cases h.2
  · have hmem : word ∈ words t := by simp [hw]
    obtain ⟨init, d, rfl⟩ := (List.eq_nil_or_concat' word).resolve_left (word_ne_nil hmem)
    rw [collapse, hw, intercalate_append (by simp), List.intercalate_singleton,
      ← List.append_assoc] at h
    obtain ⟨_, hlast⟩ := List.append_inj' h rfl
    exact (List.cons.inj hlast).1 ▸ ne_space_of_mem_word hmem (by simp)

end Text

namespace Anchor

open Text

variable {content find : List Char} {hit : LineRange} {j k n : Nat}

/-! ## Bytes of the normal form and of the collapsed text -/

/-- Byte `n` of the normal form is on its line `j`. A line feed is on the line that it ends. -/
def OnNormalLine (content : List Char) (j n : Nat) : Prop :=
  InPiece '\n' (splitWhere (· == '\n') (normalize content)) j n n

/-- Word `k` of the content is one of line `j`. -/
def WordOnLine (content : List Char) (k j : Nat) : Prop :=
  ∃ span text i, (lineSpans content)[j]? = some span ∧ span.text? content = some text ∧
    i < (words text).length ∧ k = (wordsBefore content j).length + i

/-- Byte `n` of the collapsed content lies in a word of line `j`. -/
def InWordOnLine (content : List Char) (j n : Nat) : Prop :=
  ∃ k, InPiece ' ' (words content) k n (n + 1) ∧ WordOnLine content k j

theorem InWordOnLine.lt_length (h : InWordOnLine content j n) : j < (lineSpans content).length := by
  obtain ⟨_, _, span, _, _, hspan, _⟩ := h
  exact (List.getElem?_eq_some_iff.mp hspan).1

/-- The line feeds before a byte of the normal form number the line that it is on, which is one of
the content. -/
theorem onNormalLine_countBefore {content : List Char} (n : Nat)
    (h : n < byteSize (normalize content)) :
    OnNormalLine content (countBefore '\n' (normalize content) n) n ∧
      countBefore '\n' (normalize content) n < (lineSpans content).length := by
  constructor
  · obtain ⟨a, c, b, htext, hle, hlt⟩ := exists_char_at h
    have hpiece : InPiece '\n' (normalLines content) (a.count '\n') (byteSize a)
        (byteSize a + if c = '\n' then 0 else c.utf8Size) :=
      inPiece_of_append (fun _ hline => newline_not_mem_of_mem_normalLines hline) htext
    rw [OnNormalLine, splitWhere_normalize, htext, countBefore, takeBytes_append a hle hlt]
    refine hpiece.narrow hle ?_
    split_ifs with hc
    · rw [hc] at hlt
      exact Nat.le_of_lt_succ hlt
    · exact hlt.le
  · rcases normalLineAt_or content n with ⟨_, _, hspan, _⟩ | ⟨hend, _⟩
    · exact (List.getElem?_eq_some_iff.mp hspan).1
    · exact absurd h (Nat.not_lt.mpr hend)

/-- Only lines of the content have words. -/
theorem exists_line_of_normalLine {line : List Char} (h : (normalLines content)[j]? = some line)
    (hwords : words line ≠ []) :
    ∃ l, (lines content)[j]? = some l ∧ words line = words l.text := by
  rw [normalLines_eq] at h
  by_cases hj : j < (lines content).length
  · have hl := List.getElem?_eq_getElem hj
    rw [List.getElem?_append_left (by simpa using hj), List.getElem?_map, hl, Option.map_some,
      Option.some.injEq] at h
    exact ⟨_, hl, by rw [← h, words_normalLine]⟩
  · rw [List.getElem?_append_right (by simpa using hj)] at h
    obtain ⟨_, rfl⟩ := openLine_of_mem (List.mem_of_getElem? h)
    exact absurd words_nil hwords

/-- The words before a line are those of the normal lines before it. -/
theorem length_wordsBefore (hj : j ≤ (lines content).length) :
    (wordsBefore content j).length = (((normalLines content).take j).flatMap words).length := by
  rw [normalLines_eq, List.take_append_of_le_length (by simpa using hj), ← List.map_take,
    List.flatMap_map, wordsBefore]
  simp only [words_normalLine]

/-- A word is numbered with the line of the content that it is on. -/
theorem wordOnLine_of_numbered {word : List Char} (h : (numberedWords content)[k]? = some (j, word)) :
    WordOnLine content k j := by
  rw [numberedWords, splitWhere_normalize] at h
  obtain ⟨m, line, i, rfl, hline, hword, hk⟩ := exists_of_numbered h
  rw [Nat.zero_add]
  obtain ⟨hi, _⟩ := List.getElem?_eq_some_iff.mp hword
  obtain ⟨l, hl, hwords⟩ := exists_line_of_normalLine hline (List.ne_nil_of_length_pos (by omega))
  obtain ⟨hm, _⟩ := List.getElem?_eq_some_iff.mp hl
  refine ⟨spanAt content m l, l.text, i, getElem?_lineSpans_eq_some_iff.mpr ⟨l, hl, rfl⟩,
    text?_spanAt hl, hwords ▸ hi, ?_⟩
  rw [hk, length_wordsBefore hm.le]

/-- The line that the search gives for byte `n` of the collapsed content. -/
def lineOfWordAt (content : List Char) (n : Nat) : Nat :=
  (((numberedWords content)[countBefore ' ' (collapse content) n]?).map (·.1)).getD 0

/-- The spaces before a byte of the collapsed content number the word that it is in, unless it is a
space itself. -/
theorem inWordOnLine_lineOfWordAt {a b : List Char} {c : Char} (htext : collapse content = a ++ c :: b)
    (hc : c ≠ ' ') (hle : byteSize a ≤ n) (hlt : n < byteSize a + c.utf8Size) :
    InWordOnLine content (lineOfWordAt content n) n := by
  have hcount : countBefore ' ' (collapse content) n = a.count ' ' := by
    rw [htext, countBefore, takeBytes_append a hle hlt]
  have hpiece : InPiece ' ' (words content) (a.count ' ') (byteSize a)
      (byteSize a + if c = ' ' then 0 else c.utf8Size) :=
    inPiece_of_append (fun _ hword => space_not_mem_word hword) htext
  rw [if_neg hc] at hpiece
  have hin := hpiece.narrow hle hlt
  obtain ⟨word, hword, _⟩ := hpiece
  rw [← map_snd_numberedWords, List.getElem?_map] at hword
  obtain ⟨⟨j, word'⟩, hnumbered, _⟩ := Option.map_eq_some_iff.mp hword
  refine ⟨a.count ' ', hin, ?_⟩
  rw [lineOfWordAt, hcount, hnumbered]
  exact wordOnLine_of_numbered hnumbered

/-! ## The two kinds of occurrences -/

/-- The first and the last byte of an occurrence of the normal form of `find`, which starts at byte
`start` of the normal form of the content, are on the first and the last of the lines. -/
def NormalHit (content find : List Char) (start : Nat) (hit : LineRange) : Prop :=
  OnNormalLine content hit.first start ∧
    OnNormalLine content hit.last (start + byteSize (normalize find) - 1)

/-- The first and the last byte of an occurrence of the collapsed `find`, which starts at byte `start`
of the collapsed content, are in words of the first and the last of the lines. -/
def CollapsedHit (content find : List Char) (start : Nat) (hit : LineRange) : Prop :=
  InWordOnLine content hit.first start ∧
    InWordOnLine content hit.last (start + byteSize (collapse find) - 1)

theorem forall₂_normalHits (content : List Char) (hblank : allBlank (normalize find) = false) :
    List.Forall₂ (fun start hit => NormalHit content find start hit ∧
        hit.last < (lineSpans content).length)
      (occurrences (normalize content) (normalize find)) (normalHits content find) := by
  simp only [normalHits, hblank, Bool.false_eq_true, if_false]
  rw [List.forall₂_map_right_iff, List.forall₂_same]
  intro start hstart
  obtain ⟨hpos, hend⟩ := Guarded.bounds_of_mem_occurrences hstart
  have hfirst := onNormalLine_countBefore start (Nat.lt_of_lt_of_le (by omega) hend)
  have hlast := onNormalLine_countBefore (start + byteSize (normalize find) - 1)
    (Nat.lt_of_lt_of_le (by omega) hend)
  exact ⟨⟨hfirst.1, hlast.1⟩, hlast.2⟩

theorem forall₂_collapsedHits (content find : List Char) :
    List.Forall₂ (CollapsedHit content find)
      (occurrences (collapse content) (collapse find)) (collapsedHits content find) := by
  simp only [collapsedHits, map_snd_numberedWords]
  rw [← collapse, List.forall₂_map_right_iff, List.forall₂_same]
  intro start hstart
  obtain ⟨hne, before, after, htext, rfl⟩ := mem_occurrences_iff.mp hstart
  constructor
  · obtain ⟨c, rest, hfind⟩ := List.exists_cons_of_ne_nil hne
    have hpos := c.utf8Size_pos
    rw [hfind, List.append_assoc, List.cons_append] at htext
    exact inWordOnLine_lineOfWordAt htext (head_collapse_ne hfind) le_rfl (by omega)
  · obtain ⟨init, c, hfind⟩ := (List.eq_nil_or_concat' (collapse find)).resolve_left hne
    have hpos := c.utf8Size_pos
    have hsize : byteSize (collapse find) = byteSize init + c.utf8Size := by
      rw [hfind, byteSize_append]
      rfl
    rw [hfind, ← List.append_assoc, List.append_assoc, List.singleton_append] at htext
    refine inWordOnLine_lineOfWordAt htext (last_collapse_ne hfind) ?_ ?_
    · rw [byteSize_append]
      omega
    · rw [byteSize_append]
      omega

/-- The search in the collapsed text is made exactly where that in the normal form finds nothing. -/
theorem hits_eq (content find : List Char) :
    hits content find =
      if allBlank (normalize find) = false ∧ occurrences (normalize content) (normalize find) ≠ []
      then normalHits content find else collapsedHits content find := by
  have hnil : normalHits content find = [] ↔ ¬ (allBlank (normalize find) = false ∧
      occurrences (normalize content) (normalize find) ≠ []) := by
    simp only [normalHits]
    split_ifs with hblank
    · simp [hblank]
    · simp [hblank]
  unfold hits
  split
  · rename_i h
    rw [if_neg (hnil.mp h)]
  · rename_i h
    rw [if_pos (not_not.mp (mt hnil.mpr h))]

/-- **Lenient occurrences lie on the lines that are given for them.** Every range of lines for an
occurrence runs forwards and ends within the content. If the anchor has letters and its normal form
occurs in that of the content, then the ranges stand for these occurrences, one for each in their
order, and the first and the last byte of an occurrence are on the first and the last line of its
range. Otherwise they stand in the same way for the occurrences of the collapsed anchor in the
collapsed content, whose first and last bytes are in words of these lines. -/
theorem hits_lie_on_lines (content find : List Char) :
    (∀ hit ∈ hits content find, hit.first ≤ hit.last ∧ hit.last < (lineSpans content).length) ∧
    if allBlank (normalize find) = false ∧ occurrences (normalize content) (normalize find) ≠ [] then
      List.Forall₂ (NormalHit content find) (occurrences (normalize content) (normalize find))
        (hits content find)
    else
      List.Forall₂ (CollapsedHit content find) (occurrences (collapse content) (collapse find))
        (hits content find) ∧
      (hits content find).length = (occurrences (collapse content) (collapse find)).length := by
  rw [hits_eq]
  split_ifs with hnormal
  · have hhits := forall₂_normalHits content hnormal.1
    refine ⟨fun hit hmem => ⟨normalHits_forward hmem, ?_⟩, hhits.imp fun _ _ h => h.1⟩
    obtain ⟨_, _, hlast⟩ := exists_of_forall₂ hhits hmem
    exact hlast
  · have hhits := forall₂_collapsedHits content find
    refine ⟨fun hit hmem => ⟨collapsedHits_forward hmem, ?_⟩, hhits, hhits.length_eq.symm⟩
    obtain ⟨_, _, hlast⟩ := exists_of_forall₂ hhits hmem
    exact hlast.lt_length

/-- An anchor that is found twice in the collapsed text: across two lines, and within one behind a
blank line. -/
theorem hits_lie_on_lines_collapsed :
    let content := "a  b\nc\n\nb c".toList
    let find := "b\n c".toList
    hits content find = [⟨0, 1⟩, ⟨3, 3⟩] ∧ 3 < (lineSpans content).length ∧
      CollapsedHit content find 2 ⟨0, 1⟩ ∧ CollapsedHit content find 6 ⟨3, 3⟩ := by
  intro content find
  have hhits : hits content find = [⟨0, 1⟩, ⟨3, 3⟩] := by decide +kernel
  have hstarts : occurrences (collapse content) (collapse find) = [2, 6] := by decide +kernel
  obtain ⟨hlines, hocc⟩ := hits_lie_on_lines content find
  rw [if_neg (by decide +kernel), hstarts, hhits] at hocc
  obtain ⟨hfirst, hmore⟩ := List.forall₂_cons.mp hocc.1
  refine ⟨hhits, ?_, hfirst, (List.forall₂_cons.mp hmore).1⟩
  exact (hlines ⟨3, 3⟩ (by rw [hhits]; simp)).2

end Anchor

end Anchored
