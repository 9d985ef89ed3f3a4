import Anchored.Proofs.Anchor.Covering
import Anchored.Proofs.Editor.DryRun

/-!
# What an undo tells

An edit tells of the text that its span covers (`Replacement.Splices`), an undo of what the history
keeps: the whole contents, the anchor and the new block (`CommittedEdit.undone`). An undo of the
edit just made puts the covered text back, and what it tells is what the edit told with both sides
exchanged, but for the anchor: it is shown and its lines are counted in the place of the text that
is put back (`undo_mirrors_iff`). In strict mode the two are the same text.
-/

namespace Anchored

/-! ## What an undo tells -/

/-- What is told of the undo of an edit. -/
def CommittedEdit.undone (c : CommittedEdit) (preview : String → String) : EditResult where
  path := c.path
  deed := .undone
  oldPreview := preview c.replace
  newPreview := preview c.find
  linesChanged := linesChanged c.replace c.find
  byteShift := (c.before.utf8ByteSize : Int) - c.after.utf8ByteSize
  problem := none
  lintIssues := none
  oldChecksum := checksum c.after
  newChecksum := checksum c.before

namespace Editor

variable {ed : Editor} {s : Store} {e : Edit} {result : EditResult} {place : Place}

/-- Where writes succeed, the newest edit is undone if its file holds what it wrote. -/
theorem undo_of_holds {older : List CommittedEdit} {entry : CommittedEdit} (hs : s.limit = none)
    (htop : ed.history.entries = older ++ [entry])
    (hfile : s.FileAt entry.path place entry.after.toUTF8) :
    ed.undo s = (.ok (some (entry.undone ed.preview)),
      { ed with history := { ed.history with entries := older } },
      s.put place (some (.file entry.before.toUTF8))) := by
  have hpop : ed.history.pop? = some (entry, { ed.history with entries := older }) :=
    History.pop?_of_concat htop
  have hread : Document.read s entry.path = .ok ⟨entry.path, entry.after, checksum entry.after⟩ :=
    Document.read_eq_ok_iff.mpr ⟨place, hfile, rfl, rfl⟩
  unfold undo
  rw [hpop]
  simp only [hread, Document.write_of_fits hfile (Store.fits_of_unlimited hs _), ne_eq,
    not_true_eq_false, if_false]
  rfl

/-- An edit that is made can be undone at once, and its file holds the old content again. -/
theorem undo_made (hs : s.limit = none)
    (hl : ∀ linter, ed.linter = some linter → linter.WritesNothing) (wet : e.dryRun = false)
    (h : (ed.edit s e).1 = .ok result) :
    ∃ place p issues, Plan.Found s e place p ∧
      result = p.result e ed.preview (.replaced p.line) none issues ∧
      ((ed.edit s e).2.1.undo (ed.edit s e).2.2).1 =
        .ok (some ((p.committed e).undone ed.preview)) ∧
      ((ed.edit s e).2.1.undo (ed.edit s e).2.2).2.2.FileAt e.path place
        p.document.content.toUTF8 := by
  obtain ⟨place, p, hfound, _, hed⟩ := edit_made wet h
  rw [hed] at h ⊢
  let written := s.put place (some (.file p.replacement.content.toUTF8))
  let edited : Editor := { ed with history := ed.history.commit (p.committed e) }
  have hsame : (ed.lint e.path written).2.Same written := ed.lint_same hl e.path written
  have hafter : (ed.lint e.path written).2.FileAt (p.committed e).path place
      p.replacement.content.toUTF8 := (hfound.fileAt.put _).congr hsame
  obtain ⟨older, htop⟩ : ∃ older, edited.history.entries = older ++ [p.committed e] :=
    ed.history.exists_entries_commit (p.committed e)
  have hundo := undo_of_holds (hsame.limit.trans hs) htop hafter
  refine ⟨place, p, _, hfound, (Except.ok.inj h).symm, ?_, ?_⟩
  · exact congrArg Prod.fst hundo
  · have hpath : (p.committed e).path = e.path := hfound.path_eq
    rw [hpath] at hafter
    have hback := congrArg (·.2.2) hundo
    simp only at hback ⊢
    rw [hback]
    exact hafter.put _

end Editor

/-! ## An undo against its edit -/

/-- Of an undo is told what was told of the edit, with the two sides exchanged. -/
structure EditResult.Mirrors (undone made : EditResult) : Prop where
  oldPreview : undone.oldPreview = made.newPreview
  newPreview : undone.newPreview = made.oldPreview
  linesChanged : undone.linesChanged = made.linesChanged
  byteShift : undone.byteShift = -made.byteShift
  oldChecksum : undone.oldChecksum = made.newChecksum
  newChecksum : undone.newChecksum = made.oldChecksum

theorem linesChanged_comm (old new : String) : linesChanged old new = linesChanged new old :=
  Nat.max_comm _ _

/-- What a strict anchor names is the anchor. -/
theorem eq_find_of_strict {path content find before covered after : String}
    (hc : content = before ++ covered ++ after)
    (h : locateUnique path content find .strict =
      .ok ⟨before.utf8ByteSize, before.utf8ByteSize + covered.utf8ByteSize⟩) : covered = find := by
  obtain ⟨front, rest, htext, hspan⟩ := locateUnique_strict_eq_ok h
  have hcut := Replacement.cut?_splice before covered after
  rw [← hc, hspan] at hcut
  have hfind : (Span.mk (Text.byteSize front) _).cut? content.toList =
      some (front, find.toList, rest) := Span.cut?_eq_some_iff.mpr ⟨htext, rfl, rfl⟩
  rw [hfind] at hcut
  simp only [Option.some.injEq, Prod.mk.injEq] at hcut
  exact (String.toList_injective hcut.2.1).symm

/-- **When an undo tells the inverse of its edit.** An edit that is made can be undone at once,
where writes succeed and the linter writes nothing. The undo puts back the text that the anchor
named. It shows the new block first, takes the sizes and the checksums the other way round, and
tells the inverse of the edit if and only if the anchor is shown as the text that it named is, and
takes as many lines beside the new block. That is so for every strict edit. -/
theorem undo_mirrors_iff (ed : Editor) (s : Store) (e : Edit) (made : EditResult)
    (hs : s.limit = none) (hl : ∀ linter, ed.linter = some linter → linter.WritesNothing)
    (wet : e.dryRun = false) (h : (ed.edit s e).1 = .ok made) :
    let undo := (ed.edit s e).2.1.undo (ed.edit s e).2.2
    ∃ undone before covered after, undo.1 = .ok (some undone) ∧
      s.text e.path = .ok (before ++ covered ++ after) ∧
      undo.2.2.text e.path = .ok (before ++ covered ++ after) ∧
      locateUnique e.path (before ++ covered ++ after) e.find e.mode =
        .ok ⟨before.utf8ByteSize, before.utf8ByteSize + covered.utf8ByteSize⟩ ∧
      undone.path = made.path ∧ undone.oldPreview = made.newPreview ∧
      undone.byteShift = -made.byteShift ∧ undone.oldChecksum = made.newChecksum ∧
      undone.newChecksum = made.oldChecksum ∧
      (undone.Mirrors made ↔ ed.preview e.find = ed.preview covered ∧
        linesChanged e.find e.replace = linesChanged covered e.replace) ∧
      (e.mode = .strict → undone.Mirrors made) := by
  intro undo
  obtain ⟨place, p, issues, hfound, rfl, hundo, hback⟩ := Editor.undo_made hs hl wet h
  obtain ⟨before, covered, after, hsplices, hspan⟩ := hfound.exists_splices
  have hshift : (p.document.content.utf8ByteSize : Int) - p.replacement.content.utf8ByteSize =
      -p.replacement.byteShift := by
    have := hsplices.byteShift_total
    omega
  have holdChecksum := hfound.checksum_content
  have hnewChecksum := hfound.checksum_eq.symm
  have hmirrors : ((p.committed e).undone ed.preview).Mirrors
      (p.result e ed.preview (.replaced p.line) none issues) ↔
        ed.preview e.find = ed.preview covered ∧
          linesChanged e.find e.replace = linesChanged covered e.replace := by
    rw [linesChanged_comm e.find, ← hsplices.linesChanged_eq, ← hsplices.oldBlock_eq]
    exact ⟨fun hm => ⟨hm.newPreview, hm.linesChanged⟩, fun ⟨hpreview, hlines⟩ =>
      ⟨rfl, hpreview, hlines, hshift, holdChecksum, hnewChecksum⟩⟩
  refine ⟨_, before, covered, after, hundo, ?_, ?_, ?_, rfl, rfl, hshift, holdChecksum,
    hnewChecksum, hmirrors, fun hstrict => ?_⟩
  · rw [← hsplices.content_eq]
    exact Store.text_eq_ok_iff.mpr ⟨place, hfound.file⟩
  · rw [← hsplices.content_eq]
    exact Store.text_eq_ok_iff.mpr ⟨place, hback⟩
  · rw [← hsplices.content_eq]
    exact hspan
  · rw [hstrict] at hspan
    rw [hmirrors, eq_find_of_strict hsplices.content_eq hspan]
    exact ⟨rfl, rfl⟩

/-- A strict edit between letters of two bytes each. -/
theorem undo_mirrors_iff_strict :
    let ed : Editor := ⟨.default, .empty 5, none⟩
    let s : Store := ⟨[(["a.txt"], .file "é = 1\r\né".toUTF8), ([], .directory)], none⟩
    let e : Edit := ⟨"a.txt", "= 1\r\n", "= 22\n\n", .strict, false⟩
    s.limit = none ∧ e.dryRun = false ∧ ∃ made undone, (ed.edit s e).1 = .ok made ∧
      ((ed.edit s e).2.1.undo (ed.edit s e).2.2).1 = .ok (some undone) ∧ undone.Mirrors made := by
  intro ed s e
  have hok : (ed.edit s e).1.toBool = true := by decide +kernel
  rcases hmade : (ed.edit s e).1 with error | made
  · rw [hmade] at hok
    cases hok
  · obtain ⟨undone, _, _, _, hundo, _, _, _, _, _, _, _, _, _, hstrict⟩ :=
      undo_mirrors_iff ed s e made rfl (fun _ hl => by cases hl) rfl hmade
    exact ⟨rfl, rfl, made, undone, rfl, hundo, hstrict rfl⟩

/-- Two lenient edits whose undos do not tell their inverse. One shows the anchor, which has no tab
and no blanks at its end, in the place of the line that is put back. The other counts the lines of
the anchor, which has a line feed where the text that is put back has a carriage return. -/
theorem undo_not_mirrored :
    let ed : Editor := ⟨.default, .empty 5, none⟩
    let tabbed : Store := ⟨[(["a.txt"], .file "\tx = 1  \n".toUTF8), ([], .directory)], none⟩
    let unindent : Edit := ⟨"a.txt", "    x = 1", "y", .fuzzy, false⟩
    let returned : Store := ⟨[(["a.txt"], .file "a\rb\n".toUTF8), ([], .directory)], none⟩
    let join : Edit := ⟨"a.txt", "a\nb", "c", .fuzzy, false⟩
    ((ed.edit tabbed unindent).1.map (·.oldPreview)) = .ok "\tx = 1  " ∧
      (((ed.edit tabbed unindent).2.1.undo (ed.edit tabbed unindent).2.2).1.map
        fun undone => undone.map (·.newPreview)) = .ok (some "    x = 1") ∧
      ((ed.edit returned join).1.map (·.linesChanged)) = .ok 1 ∧
      (((ed.edit returned join).2.1.undo (ed.edit returned join).2.2).1.map
        fun undone => undone.map (·.linesChanged)) = .ok (some 2) := by
  decide +kernel

end Anchored
