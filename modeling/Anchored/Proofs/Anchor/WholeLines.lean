import Anchored.Proofs.Anchor.Covering
import Anchored.Proofs.Editor.Steps

/-!
# What a lenient edit replaces

A lenient anchor names a range of whole lines, as many as it has itself, each of which is the line of
the anchor in the same place: with tabs expanded and without the blanks at its end or, if no lines of
the content are that, at least without the blanks at either end. The span that is replaced starts
where the first of them starts and ends where the last of them ends (`NamesLines`). So the lines
around the range are the same before and after an edit (`fuzzy_names_whole_lines`).
-/

namespace Anchored

namespace Text

/-- The text `t` is cut around its lines from `first` to `last`. What ends the last of them goes with
them only if `terminated`. -/
structure CutAtLines (t : List Char) (first last : Nat) (terminated : Bool)
    (before inside after : List Char) : Prop where
  text_eq : t = before ++ inside ++ after
  before_eq : before = ((lines t).take first).flatMap Line.chars
  inside_eq : ∃ line, (lines t)[last]? = some line ∧
    inside = (((lines t).take last).drop first).flatMap Line.chars ++
      (line.text ++ if terminated then line.ending.chars else [])

variable {t : List Char} {first last : Nat} {line : Line}

theorem lines_eq_around (h : (lines t)[last]? = some line) (hle : first ≤ last) :
    lines t = (lines t).take first ++ ((lines t).take last).drop first ++
      line :: (lines t).drop (last + 1) := by
  obtain ⟨hlt, rfl⟩ := List.getElem?_eq_some_iff.mp h
  have htake : (lines t).take first = ((lines t).take last).take first := by
    rw [List.take_take, Nat.min_eq_left hle]
  rw [htake, List.take_append_drop, List.getElem_cons_drop, List.take_append_drop]

/-- Wherever there are lines, the text can be cut around them. -/
theorem exists_cutAtLines (h : (lines t)[last]? = some line) (hle : first ≤ last)
    (terminated : Bool) : ∃ before inside after, CutAtLines t first last terminated before inside
      after := by
  refine ⟨_, _, (if terminated then [] else line.ending.chars) ++
    ((lines t).drop (last + 1)).flatMap Line.chars, ?_, rfl, line, h, rfl⟩
  conv_lhs => rw [← flatMap_chars_lines t, lines_eq_around h hle]
  rw [List.flatMap_append, List.flatMap_append, List.flatMap_cons, Line.chars]
  rcases terminated with _ | _ <;> simp

/-- The pieces have the sizes of their lines. -/
theorem CutAtLines.byteSize_eq {terminated : Bool} {before inside after : List Char}
    (h : CutAtLines t first last terminated before inside after)
    (hline : (lines t)[last]? = some line) (hle : first ≤ last) :
    byteSize before = sizeOfLines ((lines t).take first) ∧
      byteSize before + byteSize inside = sizeOfLines ((lines t).take last) +
        byteSize line.text + if terminated then byteSize line.ending.chars else 0 := by
  obtain ⟨_, rfl, line', hline', rfl⟩ := h
  rw [hline, Option.some.injEq] at hline'
  subst hline'
  have hsplit : (lines t).take last = (lines t).take first ++ ((lines t).take last).drop first := by
    have happend := List.take_append_drop first ((lines t).take last)
    rwa [List.take_take, Nat.min_eq_left hle, eq_comm] at happend
  refine ⟨rfl, ?_⟩
  rw [sizeOfLines, hsplit, List.flatMap_append, ← hsplit]
  rcases terminated with _ | _ <;> simp <;> omega

end Text

namespace Anchor

open Text

variable {content find : List Char} {i : Nat} {range : LineRange}

/-! ## The ranges that are found -/

/-- The line without the blanks at either end is the wanted one without its indentation. -/
def SameTrimmed (line wanted : List Char) : Prop :=
  trim line = trimStart wanted

theorem agreesUnindented_iff_sameTrimmed {line wanted : List Char} :
    agreesUnindented line wanted = true ↔ SameTrimmed line wanted := by
  simp [agreesUnindented, SameTrimmed]

theorem windowAt_of_mem_scan {agree : List Char → List Char → Bool}
    (h : range ∈ scan agree (anchorLines find) 0 ((lines content).map (·.text))) :
    ∃ i, range = ⟨i, i + (anchorLines find).length - 1⟩ ∧
      WindowAt (fun line wanted => agree line wanted = true) content find i := by
  obtain ⟨i, hr, hi⟩ := mem_scan h
  rw [Nat.zero_add] at hr
  exact ⟨i, hr, windowAgrees_texts_iff.mp hi⟩

/-- Every range that is found agrees with the anchor: with tabs expanded and without the blanks at
the ends of lines, or, if no lines do, without the blanks at either end. -/
theorem windowAt_of_mem_locateLines (h : range ∈ locateLines content find) :
    ∃ i, range = ⟨i, i + (anchorLines find).length - 1⟩ ∧
      (WindowAt SameLine content find i ∨
        (∀ j, ¬ WindowAt SameLine content find j) ∧ WindowAt SameTrimmed content find i) := by
  unfold locateLines at h
  simp only at h
  split_ifs at h
  · cases h
  split at h
  · rename_i hnil
    obtain ⟨i, hr, hi⟩ := windowAt_of_mem_scan h
    simp only [agreesUnindented_iff_sameTrimmed] at hi
    exact ⟨i, hr, Or.inr ⟨fun j hj => scan_eq_nil hnil j (windowAt_agrees_iff.mpr hj), hi⟩⟩
  · obtain ⟨i, hr, hi⟩ := windowAt_of_mem_scan h
    exact ⟨i, hr, Or.inl (windowAt_agrees_iff.mp hi)⟩

/-- What is compared are the lines of the anchor in their normal form. -/
theorem anchorLines_eq_map_lines (h : find ≠ []) :
    anchorLines find = (lines find).map (normalLine ·.text) := by
  have hboth : anchorLines find ++ (if endsWithTerminator find then [[]] else []) =
      (lines find).map (normalLine ·.text) ++ openLine find := by
    rw [← normalLines_eq_anchorLines, normalLines_eq]
  have hopen : openLine find = if endsWithTerminator find then [[]] else [] := by
    simp [openLine, h]
  rw [hopen] at hboth
  exact List.append_cancel_right hboth

/-! ## The span that is replaced -/

/-- The span is that of the lines from `first` to `last` of the content, as many as the anchor has. It
takes in what ends the last of them exactly if the anchor ends with a terminator. -/
structure NamesLines (content find : List Char) (first last : Nat) (span : Span) : Prop where
  first_le : first ≤ last
  last_lt : last < (lineSpans content).length
  length_eq : last + 1 = first + (lines find).length
  start_eq : ∃ head, (lineSpans content)[first]? = some head ∧ span.start = head.start
  stop_eq : ∃ tail line, (lineSpans content)[last]? = some tail ∧
    (lines content)[last]? = some line ∧
    span.stop = tail.stop + if endsWithTerminator find then byteSize line.ending.chars else 0

theorem namesLines_rangeSpan {same : List Char → List Char → Prop} (hfind : find ≠ [])
    (h : WindowAt same content find i) :
    NamesLines content find i (i + (lines find).length - 1)
      (rangeSpan content find ⟨i, i + (lines find).length - 1⟩) := by
  have hpos := List.length_pos_iff.mpr (lines_ne_nil hfind)
  have hfits := h.fits
  rw [anchorLines_eq_map_lines hfind, List.length_map] at hfits
  have hhead : i < (lines content).length := by omega
  have htail : i + (lines find).length - 1 < (lines content).length := by omega
  have hhead := List.getElem?_eq_getElem hhead
  have htail := List.getElem?_eq_getElem htail
  refine ⟨by omega, ?_, by omega, ?_, ?_⟩
  · rw [lineSpans, length_spansFrom]
    omega
  · exact ⟨_, by rw [getElem?_lineSpans, hhead]; rfl, by rw [rangeSpan_eq hhead htail]⟩
  · refine ⟨_, _, by rw [getElem?_lineSpans, htail]; rfl, htail, by rw [rangeSpan_eq hhead htail]⟩

theorem namesLines_of_mem_locateLines (h : range ∈ locateLines content find) :
    NamesLines content find range.first range.last (rangeSpan content find range) := by
  have hfind : find ≠ [] := by
    rintro rfl
    rw [locateLines_of_blank ((all_allBlank_anchorLines_iff []).mpr words_nil)] at h
    cases h
  obtain ⟨i, rfl, hagree⟩ := windowAt_of_mem_locateLines h
  rw [anchorLines_eq_map_lines hfind, List.length_map]
  rcases hagree with hagree | ⟨_, hagree⟩
  · exact namesLines_rangeSpan hfind hagree
  · exact namesLines_rangeSpan hfind hagree

/-- The span of a range cuts the text around its lines. -/
theorem cut?_rangeSpan {first last : Nat} {before inside after : List Char} (hle : first ≤ last)
    (h : CutAtLines content first last (endsWithTerminator find) before inside after) :
    (rangeSpan content find ⟨first, last⟩).cut? content = some (before, inside, after) := by
  obtain ⟨line, hline, _⟩ := h.inside_eq
  obtain ⟨hlt, _⟩ := List.getElem?_eq_some_iff.mp hline
  have hhead := List.getElem?_eq_getElem (Nat.lt_of_le_of_lt hle hlt)
  obtain ⟨hstart, hstop⟩ := h.byteSize_eq hline hle
  rw [Span.cut?_eq_some_iff, rangeSpan_eq hhead hline]
  exact ⟨h.text_eq, hstart, hstop⟩

theorem exists_cut?_rangeSpan (h : range ∈ locateLines content find) :
    ∃ pieces, (rangeSpan content find range).cut? content = some pieces := by
  have hnames := namesLines_of_mem_locateLines h
  obtain ⟨_, line, _, hline, _⟩ := hnames.stop_eq
  obtain ⟨before, inside, after, hcut⟩ :=
    exists_cutAtLines hline hnames.first_le (endsWithTerminator find)
  exact ⟨_, cut?_rangeSpan hnames.first_le hcut⟩

end Anchor

open Anchor Text

/-! ## The edit -/

/-- An edit that is made at a span writes the text that is cut there with the new block between the
pieces, and the linter is run on that. -/
theorem Editor.edit_of_cut {ed : Editor} {s : Store} {e : Edit} {content : String} {span : Span}
    {before inside after : String} {result : EditResult} (ht : s.text e.path = .ok content)
    (hspan : locateUnique e.path content e.find e.mode = .ok span)
    (hcut : span.cut? content.toList = some (before.toList, inside.toList, after.toList))
    (wet : e.dryRun = false) (h : (ed.edit s e).1 = .ok result) :
    ∃ place, s.place e.path = .ok place ∧ (ed.edit s e).2.2 =
      (ed.lint e.path (s.put place (some (.file (before ++ e.replace ++ after).toUTF8)))).2 := by
  obtain ⟨place, p, hfound, _, hed⟩ := edit_made wet h
  have hp := Plan.of_eq_ok_iff.mpr ⟨place, hfound⟩
  rw [Plan.of_text ht] at hp
  simp only [hspan] at hp
  rcases hr : Replacement.of e.path content span e.replace with _ | r <;> simp only [hr] at hp
  · cases hp
  cases hp
  obtain ⟨_, _, _, hcut', hcontent, _, _⟩ := Replacement.exists_cut_of_ok hr
  rw [hcut] at hcut'
  cases hcut'
  have hsplice : r.content = before ++ e.replace ++ after := by
    rw [hcontent]
    simp [String.append_assoc]
  refine ⟨place, hfound.file.place_eq, ?_⟩
  rw [hed, ← hsplice]

/-- **A lenient edit replaces whole lines.** Where an anchor names a span leniently, there are as many
lines of the content as the anchor has, and the span is just theirs. They agree with the lines of the
anchor one by one: with tabs expanded and without the blanks at their ends; or, if no lines of the
content do that, whatever their indentation. An edit at the span writes what stands before these
lines, the new block, and what stands after them. -/
theorem fuzzy_names_whole_lines {path content find : String} {span : Span}
    (h : locateUnique path content find .fuzzy = .ok span) :
    ∃ first last, NamesLines content.toList find.toList first last span ∧
      anchorLines find.toList = (lines find.toList).map (fun line => trimEnd (expandTabs line.text)) ∧
      (WindowAt SameLine content.toList find.toList first ∨
        (∀ j, ¬ WindowAt SameLine content.toList find.toList j) ∧
          WindowAt SameTrimmed content.toList find.toList first) ∧
      ∃ before inside after : String,
        CutAtLines content.toList first last (endsWithTerminator find.toList)
          before.toList inside.toList after.toList ∧
        ∀ ed s replace result, s.text path = .ok content →
          (Editor.edit ed s ⟨path, find, replace, .fuzzy, false⟩).1 = .ok result →
          ∃ place, s.place path = .ok place ∧
            (Editor.edit ed s ⟨path, find, replace, .fuzzy, false⟩).2.2 =
              (ed.lint path (s.put place (some (.file (before ++ replace ++ after).toUTF8)))).2 := by
  obtain ⟨range, hrange, hspan⟩ := locateUnique_fuzzy_eq_ok h
  obtain ⟨_, hlocate⟩ := of_uniqueRange hrange
  obtain ⟨hw, _⟩ := locateLines_eq_singleton hlocate
  have hfind : find.toList ≠ [] := by
    intro hnil
    rw [hnil] at hw
    exact hw words_nil
  obtain ⟨first, hr, hagree⟩ := windowAt_of_mem_locateLines (hlocate ▸ List.mem_singleton_self range)
  rw [anchorLines_eq_map_lines hfind, List.length_map] at hr
  subst hr
  have hnames : NamesLines content.toList find.toList first
      (first + (lines find.toList).length - 1) span := by
    rw [hspan]
    rcases hagree with hagree | ⟨_, hagree⟩
    · exact namesLines_rangeSpan hfind hagree
    · exact namesLines_rangeSpan hfind hagree
  obtain ⟨_, line, _, hline, _⟩ := hnames.stop_eq
  obtain ⟨before, inside, after, hcut⟩ := exists_cutAtLines hline hnames.first_le
    (endsWithTerminator find.toList)
  refine ⟨first, _, hnames, anchorLines_eq_map_lines hfind, hagree, String.ofList before,
    String.ofList inside, String.ofList after, by simpa only [String.toList_ofList] using hcut, ?_⟩
  intro ed s replace result ht hok
  have hpieces : span.cut? content.toList = some ((String.ofList before).toList,
      (String.ofList inside).toList, (String.ofList after).toList) := by
    rw [hspan]
    simpa only [String.toList_ofList] using cut?_rangeSpan hnames.first_le hcut
  exact Editor.edit_of_cut (e := ⟨path, find, replace, .fuzzy, false⟩) ht h hpieces rfl hok

/-- An anchor with a terminator and without the indentation of its line, which ends with `\r\n`. -/
theorem fuzzy_names_whole_lines_indented :
    let ed : Editor := ⟨.default, .empty 5, none⟩
    let s : Store := ⟨[(["a.txt"], .file "a\r\n\tx = 1 \r\nb".toUTF8), ([], .directory)], none⟩
    let e : Edit := ⟨"a.txt", "x = 1\n", "y\n", .fuzzy, false⟩
    locateUnique e.path "a\r\n\tx = 1 \r\nb" e.find .fuzzy = .ok ⟨3, 12⟩ ∧
      s.text e.path = .ok "a\r\n\tx = 1 \r\nb" ∧ (∃ result, (ed.edit s e).1 = .ok result) ∧
      ∃ first last, NamesLines "a\r\n\tx = 1 \r\nb".toList e.find.toList first last ⟨3, 12⟩ ∧
        ∃ before inside after : String, CutAtLines "a\r\n\tx = 1 \r\nb".toList first last true
          before.toList inside.toList after.toList ∧ ∃ place, s.place e.path = .ok place ∧
            (ed.edit s e).2.2 = s.put place (some (.file (before ++ "y\n" ++ after).toUTF8)) := by
  intro ed s e
  have hspan : locateUnique e.path "a\r\n\tx = 1 \r\nb" e.find .fuzzy = .ok ⟨3, 12⟩ := by
    decide +kernel
  have htext : s.text e.path = .ok "a\r\n\tx = 1 \r\nb" := by decide +kernel
  have hok : ((ed.edit s e).1.toBool) = true := by decide +kernel
  obtain ⟨result, hresult⟩ : ∃ result, (ed.edit s e).1 = .ok result := by
    rcases hed : (ed.edit s e).1 with error | result
    · rw [hed] at hok
      cases hok
    · exact ⟨result, rfl⟩
  obtain ⟨first, last, hnames, _, _, before, inside, after, hcut, hedit⟩ :=
    fuzzy_names_whole_lines hspan
  have hend : endsWithTerminator e.find.toList = true := by decide +kernel
  rw [hend] at hcut
  exact ⟨hspan, htext, ⟨result, hresult⟩, first, last, hnames, before, inside, after, hcut,
    hedit ed s e.replace result htext hresult⟩

end Anchored
