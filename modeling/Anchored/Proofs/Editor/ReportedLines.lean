import Anchored.Proofs.Anchor.Exact
import Anchored.Proofs.Anchor.Spelling
import Anchored.Proofs.Editor.Gate
import Anchored.Proofs.Text.Numbering

/-!
# The line that is reported

A check and an edit report the line of the first byte of what the anchor names, by the line feeds
before it. The search for whole lines also ends lines at lone carriage returns. So the reported
number is that of the line exactly if no line before it ends with a lone carriage return
(`reported_line_right_iff`).
-/

namespace Anchored

open Anchor Text

variable {path content find : String} {mode : MatchMode} {span : Span}

/-! ## The line of a span -/

/-- What an anchor names starts before the end of the content. -/
theorem start_lt_of_locateUnique (h : locateUnique path content find mode = .ok span) :
    span.start < byteSize content.toList := by
  cases mode with
  | strict =>
    obtain ⟨start, hstart, rfl⟩ := locateUnique_strict_eq_ok_iff.mp h
    obtain ⟨hne, before, after, htext, rfl⟩ :=
      mem_occurrences_iff.mp (hstart ▸ List.mem_singleton_self start)
    have hpos : byteSize find.toList ≠ 0 := mt byteSize_eq_zero.mp hne
    rw [htext, byteSize_append, byteSize_append]
    simp only
    omega
  | fuzzy =>
    obtain ⟨range, hrange, rfl⟩ := locateUnique_fuzzy_eq_ok h
    have hnames := namesLines_of_uniqueRange hrange
    obtain ⟨head, hhead, hstart⟩ := hnames.start_eq
    rw [getElem?_lineSpans] at hhead
    obtain ⟨line, hline, rfl⟩ := Option.map_eq_some_iff.mp hhead
    obtain ⟨hlt, _⟩ := List.getElem?_eq_some_iff.mp hline
    have hwhole : sizeOfLines ((lines content.toList).take (lines content.toList).length) =
        byteSize content.toList := by
      rw [List.take_length, sizeOfLines, flatMap_chars_lines]
    rw [hstart, ← hwhole]
    exact sizeOfLines_take_lt content.toList hlt hlt

/-- What stands before the place that an anchor names, and its first character. -/
theorem exists_before_of_locateUnique (h : locateUnique path content find mode = .ok span) :
    ∃ before c rest, content.toList = before ++ c :: rest ∧ span.start = byteSize before := by
  obtain ⟨⟨before, inside, after⟩, hcut⟩ := exists_cut?_of_locateUnique h
  obtain ⟨htext, hstart, _⟩ := Span.cut?_eq_some_iff.mp hcut
  rw [List.append_assoc] at htext
  rcases hrest : inside ++ after with _ | ⟨c, rest⟩
  · -- The place would start where the content ends.
    have hlt := start_lt_of_locateUnique h
    rw [htext, hrest, List.append_nil, hstart] at hlt
    exact absurd hlt (Nat.lt_irrefl _)
  · exact ⟨before, c, rest, by rw [htext, hrest], hstart.symm⟩

theorem exists_lineAt_of_locateUnique (h : locateUnique path content find mode = .ok span) :
    ∃ j, LineAt content.toList j span.start := by
  obtain ⟨before, c, rest, htext, hstart⟩ := exists_before_of_locateUnique h
  rw [htext, hstart]
  exact ⟨_, (onLine_linesBefore before c rest).lineAt⟩

theorem lineOf_add_loneReturns (h : locateUnique path content find mode = .ok span) {j : Nat}
    (hj : LineAt content.toList j span.start) :
    lineOf content span.start + loneReturns ((lines content.toList).take j) = j + 1 := by
  obtain ⟨before, c, rest, htext, hstart⟩ := exists_before_of_locateUnique h
  rw [htext, hstart] at hj
  rw [lineOf, htext, hstart]
  exact line_ofByte_add_loneReturns hj

/-! ## The reports -/

/-- Where the file at the path has this content, a check of the anchor reports the line, and so does
every edit with the anchor that is planned or made. -/
structure ReportsLine (path content find : String) (mode : MatchMode) (line : Nat) : Prop where
  check : ∀ s : Store, s.text path = .ok content →
    AnchorCheck.of s path find mode = .unique line
  edit : ∀ (ed : Editor) (s : Store) (replace : String) (dryRun : Bool) (result : EditResult),
    s.text path = .ok content →
    (ed.edit s ⟨path, find, replace, mode, dryRun⟩).1 = .ok result →
    result.deed.line? = some line

/-- An edit that is planned or made reports the line of its plan. -/
theorem Editor.line?_of_edit {ed : Editor} {s : Store} {e : Edit} {p : Plan} {result : EditResult}
    (hp : Plan.of s e = .ok p) (h : (ed.edit s e).1 = .ok result) :
    result.deed.line? = some p.line := by
  have hspec := ed.edit_spec s e
  generalize ed.edit s e = out at h hspec
  cases hspec with
  | unplanned error none => cases h
  | planned p' some _ =>
    cases h
    cases hp.symm.trans some
    rfl
  | withdrawn p' error t _ _ _ => cases h
  | committed p' t some _ _ =>
    cases h
    cases hp.symm.trans some
    rfl

theorem reportsLine_of_locateUnique (h : locateUnique path content find mode = .ok span) :
    ReportsLine path content find mode (lineOf content span.start) where
  check := by
    intro s ht
    rw [AnchorCheck.of, Document.read_of_text ht]
    simp only [h]
  edit := by
    intro ed s replace dryRun result ht hok
    rcases Plan.of_named (e := ⟨path, find, replace, mode, dryRun⟩) (Document.read_of_text ht) h
      with hnone | ⟨p, hp, hline⟩
    · rw [ed.edit_of_unplanned hnone] at hok
      cases hok
    · rw [Editor.line?_of_edit hp hok, hline]

/-- **When the reported line is the right one.** Where an anchor names a place, a check of the anchor
and every edit with it that is planned or made report one line, that of the position of the first
byte. The byte is in the text or the terminator of a line of the content, and the reported number is
behind that line's by the lone carriage returns that end lines before it. So it is the number of the
line if and only if no line before it ends with a lone carriage return. -/
theorem reported_line_right_iff (h : locateUnique path content find mode = .ok span) :
    let line := lineOf content span.start
    ReportsLine path content find mode line ∧
      (∃ j, LineAt content.toList j span.start) ∧
      ∀ j, LineAt content.toList j span.start →
        line + loneReturns ((lines content.toList).take j) = j + 1 ∧
        (line = j + 1 ↔ ∀ l ∈ (lines content.toList).take j, l.ending ≠ .cr) := by
  intro line
  refine ⟨reportsLine_of_locateUnique h, exists_lineAt_of_locateUnique h, fun j hj => ?_⟩
  have hline := lineOf_add_loneReturns h hj
  refine ⟨hline, ?_⟩
  have hnone : loneReturns ((lines content.toList).take j) = 0 ↔
      ∀ l ∈ (lines content.toList).take j, l.ending ≠ .cr := by
    simp [loneReturns, List.countP_eq_zero]
  rw [← hnone]
  omega

/-- An anchor that starts inside the terminator of the second line. -/
theorem reported_line_right_iff_inside :
    locateUnique "a.txt" "a\nb\r\nc" "\nc" .strict = .ok ⟨4, 6⟩ ∧
      LineAt "a\nb\r\nc".toList 1 4 ∧
      ReportsLine "a.txt" "a\nb\r\nc" "\nc" .strict 2 := by
  have h : locateUnique "a.txt" "a\nb\r\nc" "\nc" .strict = .ok ⟨4, 6⟩ := by decide +kernel
  have hj : LineAt "a\nb\r\nc".toList 1 4 := by decide +kernel
  obtain ⟨hreports, _, hright⟩ := reported_line_right_iff h
  have hline : lineOf "a\nb\r\nc" 4 = 2 := (hright 1 hj).2.mpr (by decide +kernel)
  exact ⟨h, hj, hline ▸ hreports⟩

/-- After a lone carriage return the first line is reported for an anchor on the second. -/
theorem reported_line_behind :
    let ed : Editor := ⟨.default, .empty 5, none⟩
    let s : Store := ⟨[(["a.txt"], .file "a\rb".toUTF8), ([], .directory)], none⟩
    let e : Edit := ⟨"a.txt", "b", "c", .fuzzy, true⟩
    s.text e.path = .ok "a\rb" ∧ locateUnique e.path "a\rb" e.find e.mode = .ok ⟨2, 3⟩ ∧
      LineAt "a\rb".toList 1 2 ∧ ¬ LineAt "a\rb".toList 0 2 ∧
      AnchorCheck.of s e.path e.find e.mode = .unique 1 ∧
      (ed.edit s e).1.toOption.map (·.deed) = some (.planned 1) := by
  decide +kernel

end Anchored
