import Anchored.Proofs.Editor.Steps
import Anchored.Proofs.Text.Occurrence

/-!
# Strict edits

What a strict edit comes to, said of the file alone: where the anchor stands in the text, and what
becomes of the text when something else is put in its place.
-/

namespace Anchored

/-! ## The place of a strict anchor -/

/-- An anchor that stands at one place names it. -/
theorem locateUnique_strict_of_unique {content find before after : String} (path : String)
    (hn : find ≠ "") (hc : content = before ++ find ++ after)
    (hu : ∀ i, OccursAt content find i → i = before.utf8ByteSize) :
    locateUnique path content find .strict =
      .ok ⟨before.utf8ByteSize, before.utf8ByteSize + find.utf8ByteSize⟩ := by
  simp only [locateUnique, occurrences_eq_singleton hn ⟨before, after, hc, rfl⟩ hu]

/-- An anchor that does not stand at one place is refused with the number of its places. -/
theorem locateUnique_strict_of_ne_one {content find : String} (path : String) {n : Nat}
    (hlen : (Text.occurrences content.toList find.toList).length = n) (hn : n ≠ 1) :
    locateUnique path content find .strict = .error (.ofCount path find n) := by
  simp only [locateUnique]
  split
  · rename_i start hs
    rw [hs] at hlen
    exact absurd hlen.symm hn
  · rw [hlen]

/-! ## Putting one text in the place of another -/

namespace Replacement

variable {before old after block : String} (path : String)

theorem cut?_splice (before old after : String) :
    (Span.mk before.utf8ByteSize (before.utf8ByteSize + old.utf8ByteSize)).cut?
      (before ++ old ++ after).toList = some (before.toList, old.toList, after.toList) := by
  rw [Span.cut?_eq_some_iff]
  refine ⟨by simp, Text.byteSize_toList before, ?_⟩
  rw [Text.byteSize_toList, Text.byteSize_toList]

theorem of_same (before old after : String) :
    Replacement.of path (before ++ old ++ after)
      ⟨before.utf8ByteSize, before.utf8ByteSize + old.utf8ByteSize⟩ old =
        .error (.noChange path) := by
  unfold Replacement.of
  simp only [cut?_splice]
  rw [if_pos]
  simp [String.append_assoc]

theorem of_splice (before after : String) (h : block ≠ old) :
    ∃ r, Replacement.of path (before ++ old ++ after)
      ⟨before.utf8ByteSize, before.utf8ByteSize + old.utf8ByteSize⟩ block = .ok r ∧
        r.content = before ++ block ++ after := by
  have hne : String.ofList (before.toList ++ block.toList ++ after.toList) ≠
      before ++ old ++ after := by
    intro he
    have := congrArg String.toList he
    simp only [String.toList_ofList, String.toList_append, List.append_assoc,
      List.append_cancel_left_eq, List.append_cancel_right_eq] at this
    exact h (String.toList_injective this)
  unfold Replacement.of
  simp only [cut?_splice]
  rw [if_neg hne]
  exact ⟨_, rfl, by simp [String.append_assoc]⟩

end Replacement

/-! ## The edit -/

/-- All that it takes to put `replace` in the place of `find`: the file at the path holds a text in
which `find` stands once, `replace` is another text, and what comes out is well-formed. -/
structure Replaces (s : Store) (path find replace before after : String) : Prop where
  text : s.text path = .ok (before ++ find ++ after)
  find_ne : find ≠ ""
  unique : ∀ i, OccursAt (before ++ find ++ after) find i → i = before.utf8ByteSize
  replace_ne : replace ≠ find
  valid : (validate path (before ++ replace ++ after) (before ++ find ++ after)).valid = true

/-- Why a strict edit is refused, in the order in which the reasons are looked for. -/
inductive StrictRefusal (s : Store) (path find replace : String) : EditError → Prop where
  /-- There is no regular file at the path. -/
  | fileNotFound (none : s.isFile path = false) :
    StrictRefusal s path find replace (.fileNotFound path)
  /-- The file does not hold a text. -/
  | notText (file : s.isFile path = true) (none : ∀ content, s.text path ≠ .ok content) :
    StrictRefusal s path find replace (.file (.notText path))
  /-- The anchor is empty or stands nowhere. -/
  | notFound (content : String) (text : s.text path = .ok content)
    (none : find = "" ∨ ∀ i, ¬ OccursAt content find i) :
    StrictRefusal s path find replace
      (.anchorNotFound path (Text.preview find EditError.anchorPreview))
  /-- The anchor stands at several places, which are counted even where they overlap. -/
  | ambiguous (content : String) (text : s.text path = .ok content) (find_ne : find ≠ "")
    (several : 2 ≤ {i | OccursAt content find i}.ncard) :
    StrictRefusal s path find replace
      (.ambiguous path {i | OccursAt content find i}.ncard
        (Text.preview find EditError.anchorPreview))
  /-- The anchor would be replaced by itself. -/
  | noChange (before after : String) (text : s.text path = .ok (before ++ find ++ after))
    (find_ne : find ≠ "")
    (unique : ∀ i, OccursAt (before ++ find ++ after) find i → i = before.utf8ByteSize)
    (same : replace = find) : StrictRefusal s path find replace (.noChange path)
  /-- What would come out is ill-formed. -/
  | invalid (before after reason : String) (text : s.text path = .ok (before ++ find ++ after))
    (find_ne : find ≠ "")
    (unique : ∀ i, OccursAt (before ++ find ++ after) find i → i = before.utf8ByteSize)
    (replace_ne : replace ≠ find)
    (ill : (validate path (before ++ replace ++ after) (before ++ find ++ after)).problem =
      some reason) : StrictRefusal s path find replace (.invalid path reason)

variable {s : Store} {path find replace : String}

/-- There is always something to do or a reason not to. -/
theorem replaces_or_refusal (s : Store) (path find replace : String) :
    (∃ before after, Replaces s path find replace before after) ∨
      ∃ error, StrictRefusal s path find replace error := by
  by_cases hf : s.isFile path = true
  swap
  · exact Or.inr ⟨_, .fileNotFound (by simpa using hf)⟩
  by_cases ht : ∃ content, s.text path = .ok content
  swap
  · push Not at ht
    exact Or.inr ⟨_, .notText hf ht⟩
  obtain ⟨content, ht⟩ := ht
  by_cases hn : find = ""
  · exact Or.inr ⟨_, .notFound content ht (Or.inl hn)⟩
  by_cases ho : ∃ i, OccursAt content find i
  swap
  · push Not at ho
    exact Or.inr ⟨_, .notFound content ht (Or.inr ho)⟩
  by_cases hm : 2 ≤ {i | OccursAt content find i}.ncard
  · exact Or.inr ⟨_, .ambiguous content ht hn hm⟩
  obtain ⟨i, before, after, rfl, hi⟩ := ho
  have hu : ∀ j, OccursAt (before ++ find ++ after) find j → j = before.utf8ByteSize := by
    intro j hj
    have hfin : {i | OccursAt (before ++ find ++ after) find i}.Finite := by
      rw [setOf_occursAt hn]
      exact Finset.finite_toSet _
    exact (Set.ncard_le_one hfin).mp (by omega) j hj _ ⟨before, after, rfl, rfl⟩
  by_cases hr : replace = find
  · exact Or.inr ⟨_, .noChange before after ht hn hu hr⟩
  rcases hp : (validate path (before ++ replace ++ after) (before ++ find ++ after)).problem with
    _ | reason
  · exact Or.inl ⟨before, after, ht, hn, hu, hr, by simp [Validation.valid, hp]⟩
  · exact Or.inr ⟨_, .invalid before after reason ht hn hu hr hp⟩

namespace Plan

/-- The plan where the anchor stands at one place. -/
theorem of_strict {before after : String} (ht : s.text path = .ok (before ++ find ++ after))
    (hn : find ≠ "") (hu : ∀ i, OccursAt (before ++ find ++ after) find i → i = before.utf8ByteSize)
    (hne : replace ≠ find) :
    ∃ p, Plan.of s ⟨path, find, replace, .strict, false⟩ = .ok p ∧ p.document.path = path ∧
      p.document.content = before ++ find ++ after ∧
      p.replacement.content = before ++ replace ++ after ∧
      p.problem =
        (validate path (before ++ replace ++ after) (before ++ find ++ after)).problem := by
  obtain ⟨r, hr, hc⟩ := Replacement.of_splice path before after hne
  refine ⟨⟨⟨path, before ++ find ++ after, checksum (before ++ find ++ after)⟩, r⟩, ?_, rfl, rfl,
    hc, ?_⟩
  · rw [of_text ht]
    simp only [locateUnique_strict_of_unique path hn rfl hu, hr]
  · rw [← hc]
    rfl

/-- The plan where the anchor does not stand at one place. -/
theorem of_strict_error {content : String} {n : Nat} (ht : s.text path = .ok content)
    (hlen : (Text.occurrences content.toList find.toList).length = n) (hn : n ≠ 1) :
    Plan.of s ⟨path, find, replace, .strict, false⟩ = .error (.ofCount path find n) := by
  rw [of_text ht]
  simp only [locateUnique_strict_of_ne_one path hlen hn]

end Plan

namespace Editor

theorem edit_of_unplanned (ed : Editor) {e : Edit} {error : EditError}
    (h : Plan.of s e = .error error) : (ed.edit s e).1 = .error error := by
  unfold edit
  rw [h]

theorem edit_of_withdrawn (ed : Editor) {e : Edit} {p : Plan} {error : EditError} {t : Store}
    (h : Plan.of s e = .ok p) (hd : e.dryRun = false) (hc : p.carryOut s = (.error error, t)) :
    ed.edit s e = (.error error, ed, t) := by
  unfold edit
  rw [h]
  simp only [hd, hc, Bool.false_eq_true, if_false]

theorem edit_of_committed (ed : Editor) {e : Edit} {p : Plan} {t : Store}
    (h : Plan.of s e = .ok p) (hd : e.dryRun = false) (hc : p.carryOut s = (.ok (), t)) :
    ed.edit s e = (.ok (p.result e ed.preview (.replaced p.line) none (ed.lint e.path t).1),
      { ed with history := ed.history.commit (p.committed e) }, (ed.lint e.path t).2) := by
  unfold edit
  rw [h]
  simp only [hd, hc, Bool.false_eq_true, if_false]

/-- Every reason to refuse a strict edit is given, if writes succeed. -/
theorem edit_of_refusal (ed : Editor) (hw : s.limit = none) {error : EditError}
    (h : StrictRefusal s path find replace error) :
    (ed.edit s ⟨path, find, replace, .strict, false⟩).1 = .error error := by
  cases h with
  | fileNotFound hf => exact ed.edit_of_unplanned (Plan.of_not_isFile hf)
  | notText hf ht => exact ed.edit_of_unplanned (Plan.of_not_text hf ht)
  | notFound content ht ho =>
    have hlen : (Text.occurrences content.toList find.toList).length = 0 := by
      rw [List.length_eq_zero_iff, List.eq_nil_iff_forall_not_mem]
      intro i hi
      obtain ⟨h1, h2⟩ := mem_occurrences_iff_occursAt.mp hi
      exact ho.elim h1 fun hno => hno i h2
    exact ed.edit_of_unplanned (Plan.of_strict_error ht hlen (by omega))
  | ambiguous content ht hn hm =>
    rw [ed.edit_of_unplanned (Plan.of_strict_error ht (length_occurrences hn) (by omega))]
    unfold EditError.ofCount
    simp only
    rw [if_neg (by omega)]
  | noChange before after ht hn hu hr =>
    apply ed.edit_of_unplanned
    subst hr
    rw [Plan.of_text ht]
    simp only [locateUnique_strict_of_unique path hn rfl hu, Replacement.of_same]
  | invalid before after reason ht hn hu hr hill =>
    obtain ⟨p, hp, h1, h2, _, h4⟩ := Plan.of_strict ht hn hu hr
    obtain ⟨place, hfile⟩ := Store.text_eq_ok_iff.mp ht
    obtain ⟨t, _, hco⟩ :=
      Plan.carryOut_of_ill hw (by rw [h1, h2]; exact hfile) (h4.trans hill)
    rw [ed.edit_of_withdrawn hp rfl hco, h1]

/-- What a strict edit makes of the files and of the history, if writes succeed. -/
theorem edit_of_replaces (ed : Editor) (hw : s.limit = none)
    (hl : ∀ linter, ed.linter = some linter → linter.WritesNothing) {before after : String}
    (h : Replaces s path find replace before after) :
    ∃ result ed' place t, s.place path = .ok place ∧
      t.Same (s.put place (some (.file (before ++ replace ++ after).toUTF8))) ∧
      ed'.history = ed.history.commit
        ⟨path, before ++ find ++ after, before ++ replace ++ after, find, replace⟩ ∧
      ed.edit s ⟨path, find, replace, .strict, false⟩ = (.ok result, ed', t) := by
  obtain ⟨ht, hn, hu, hr, hv⟩ := h
  obtain ⟨p, hp, h1, h2, h3, h4⟩ := Plan.of_strict ht hn hu hr
  obtain ⟨place, hfile⟩ := Store.text_eq_ok_iff.mp ht
  have hvalid : (validate path (before ++ replace ++ after) (before ++ find ++ after)).problem =
      none := by simpa [Validation.valid] using hv
  have hco := Plan.carryOut_of_valid hw (by rw [h1, h2]; exact hfile) (h4.trans hvalid)
  have hed := ed.edit_of_committed hp rfl hco
  rw [h3] at hed
  unfold Plan.committed at hed
  rw [h1, h2, h3] at hed
  exact ⟨_, _, place, _, hfile.place_eq, ed.lint_same hl _ _, rfl, hed⟩

end Editor

/-- **Strict edits, end to end.** Where writes succeed and the linter writes nothing, a strict edit
succeeds exactly if the file holds a text in which the anchor stands once, the replacement is
another text, and what comes out is well-formed. Then the file holds just that, all other files are
as they were, and the history has one entry more. Otherwise the error is the first of the reasons
against it. That the system does not let the file be read is none of them, since nothing in a `Store`
forbids it (`Document.read_cases`). -/
theorem strict_edit (ed : Editor) (s : Store) (path find replace : String) (hw : s.limit = none)
    (hl : ∀ linter, ed.linter = some linter → linter.WritesNothing) :
    ((∃ result, (ed.edit s ⟨path, find, replace, .strict, false⟩).1 = .ok result) ↔
      ∃ before after, Replaces s path find replace before after) ∧
    (∀ before after, Replaces s path find replace before after →
      (∃ place, s.place path = .ok place ∧
        ∀ other, (ed.edit s ⟨path, find, replace, .strict, false⟩).2.2.node other =
          if other = place then some (.file (before ++ replace ++ after).toUTF8)
          else s.node other) ∧
      (ed.edit s ⟨path, find, replace, .strict, false⟩).2.1.history = ed.history.commit
        ⟨path, before ++ find ++ after, before ++ replace ++ after, find, replace⟩) ∧
    ∀ error, (ed.edit s ⟨path, find, replace, .strict, false⟩).1 = .error error ↔
      StrictRefusal s path find replace error := by
  refine ⟨⟨?_, ?_⟩, ?_, fun error => ⟨?_, ed.edit_of_refusal hw⟩⟩
  · rintro ⟨result, hok⟩
    rcases replaces_or_refusal s path find replace with h | ⟨error, h⟩
    · exact h
    · rw [ed.edit_of_refusal hw h] at hok
      cases hok
  · rintro ⟨before, after, h⟩
    obtain ⟨result, _, _, _, _, _, _, hed⟩ := ed.edit_of_replaces hw hl h
    exact ⟨result, by rw [hed]⟩
  · intro before after h
    obtain ⟨_, _, place, _, hp, ht, hh, hed⟩ := ed.edit_of_replaces hw hl h
    rw [hed]
    exact ⟨⟨place, hp, fun other => (ht.node other).trans (Store.node_put s place other _)⟩, hh⟩
  · intro herr
    rcases replaces_or_refusal s path find replace with ⟨before, after, h⟩ | ⟨error', h⟩
    · obtain ⟨result, _, _, _, _, _, _, hed⟩ := ed.edit_of_replaces hw hl h
      rw [hed] at herr
      cases herr
    · rw [ed.edit_of_refusal hw h] at herr
      cases herr
      exact h

/-- An anchor between letters of two bytes each. -/
theorem strict_edit_between_letters :
    let ed : Editor := ⟨.default, .empty 5, none⟩
    let s : Store := ⟨[(["a.txt"], .file "é=é".toUTF8), ([], .directory)], none⟩
    (∃ result, (ed.edit s ⟨"a.txt", "=", ":", .strict, false⟩).1 = .ok result) ∧
      (ed.edit s ⟨"a.txt", "=", ":", .strict, false⟩).2.1.history =
        ed.history.commit ⟨"a.txt", "é=é", "é:é", "=", ":"⟩ := by
  intro ed s
  have hone : Text.occurrences "é=é".toList "=".toList = [2] := by decide +kernel
  have hrep : Replaces s "a.txt" "=" ":" "é" "é" := by
    refine ⟨by decide +kernel, by decide, fun i hi => ?_, by decide, by decide +kernel⟩
    have hmem := mem_occurrences_iff_occursAt.mpr ⟨by decide, hi⟩
    change i ∈ Text.occurrences "é=é".toList "=".toList at hmem
    rw [hone, List.mem_singleton] at hmem
    exact hmem
  obtain ⟨hok, hdone, _⟩ := strict_edit ed s "a.txt" "=" ":" rfl fun _ hl => by cases hl
  exact ⟨hok.mpr ⟨"é", "é", hrep⟩, (hdone "é" "é" hrep).2⟩

end Anchored
