import Anchored.Proofs.Editor.Steps

/-!
# Writes that are cut short

Where files can only grow to a limit, a content that is too long arrives in part, and the file has
lost what it held. An edit then writes the old content over what arrived, and reports if that fails
after the new content was found to be ill-formed. An undo does nothing of the kind. So there is one
way for an undo (`UndoCut`) and one for an edit (`EditCut`) to damage a file and not to tell, and no
other.
-/

namespace Anchored

variable {s t : Store}

/-! ## Failed undos -/

/-- Undoing the newest edit writes its old content in part, and that part is not what the file
holds. -/
structure UndoCut (ed : Editor) (s : Store) (entry : CommittedEdit) (place : Place) : Prop where
  top : ∃ older, ed.history.entries = older ++ [entry]
  file : s.FileAt entry.path place entry.after.toUTF8
  long : ¬ s.Fits entry.before
  differs : s.arriving entry.before ≠ entry.after.toUTF8

namespace UndoCut

variable {ed : Editor} {entry : CommittedEdit} {place : Place}

theorem undo_eq (h : UndoCut ed s entry place) :
    ed.undo s = (.error (.file (.fault entry.path .tooLarge)), ed,
      s.put place (some (.file (s.arriving entry.before)))) := by
  obtain ⟨older, htop⟩ := h.top
  have hread : Document.read s entry.path = .ok ⟨entry.path, entry.after, checksum entry.after⟩ :=
    Document.read_eq_ok_iff.mpr ⟨place, h.file, rfl, rfl⟩
  have hspec := ed.undo_spec s
  generalize ed.undo s = out at hspec ⊢
  cases hspec with
  | empty hnone => simp [hnone] at htop
  | unreadable older' entry' error htop' hr =>
    cases newest_unique htop htop'
    rw [hread] at hr
    cases hr
  | stale older' entry' document htop' hr changed =>
    cases newest_unique htop htop'
    rw [hread] at hr
    cases hr
    exact absurd rfl changed
  | unwritten older' entry' place' htop' file' _ =>
    cases newest_unique htop htop'
    rw [(h.file.unique file').1]
  | undone older' entry' place' result htop' _ fits =>
    cases newest_unique htop htop'
    exact absurd fits h.long

/-- A second try does not help: the file no longer holds what the edit wrote. -/
theorem not_undone_later (h : UndoCut ed s entry place) (result : EditResult) :
    (ed.undo (ed.undo s).2.2.unlimited).1 ≠ .ok (some result) := by
  intro hdone
  obtain ⟨older, entry', place', htop', hfile', _⟩ := Editor.undo_of_eq_some hdone
  obtain ⟨older', htop⟩ := h.top
  cases newest_unique htop htop'
  rw [h.undo_eq] at hfile'
  have hcut := (h.file.put (s.arriving entry.before)).unlimited
  exact h.differs (hcut.unique hfile').2.symm

end UndoCut

/-- A failed undo that did not cut the file wrote nothing, or what was there already. -/
theorem Editor.Undoes.same_of_error {ed ed' : Editor} {error : EditError}
    (h : Editor.Undoes ed s (.error error, ed', t)) :
    ed' = ed ∧ (t.Same s ∨ ∃ entry place, UndoCut ed s entry place) := by
  cases h with
  | unreadable _ _ _ _ _ => exact ⟨rfl, Or.inl (Store.Same.refl s)⟩
  | stale _ _ _ _ _ _ => exact ⟨rfl, Or.inl (Store.Same.refl s)⟩
  | unwritten older entry place top file long =>
    refine ⟨rfl, ?_⟩
    by_cases hsame : s.arriving entry.before = entry.after.toUTF8
    · rw [hsame]
      exact Or.inl (Store.put_node_same file.node_eq)
    · exact Or.inr ⟨entry, place, ⟨older, top⟩, file, long, hsame⟩

/-- **What a failed undo leaves behind.** The editor with its history is as it was. So are all files,
and the undo can be made good once nothing stands in its way, exactly if it did not cut the file
short. If it did, the file holds the first bytes of its old content, and the edit is not undone even
if nothing stands in the way of a second try. -/
theorem failed_undo_harmless_iff (ed : Editor) (s : Store) (error : EditError)
    (h : (ed.undo s).1 = .error error) :
    (ed.undo s).2.1 = ed ∧
      ((∀ place, (ed.undo s).2.2.node place = s.node place) ↔
        ¬ ∃ entry place, UndoCut ed s entry place) ∧
      ((¬ ∃ entry place, UndoCut ed s entry place) →
        (ed.undo (ed.undo s).2.2.unlimited).1 = (ed.undo s.unlimited).1) ∧
      ∀ entry place, UndoCut ed s entry place →
        error = .file (.fault entry.path .tooLarge) ∧
        (∀ other, (ed.undo s).2.2.node other =
          if other = place then some (.file (s.arriving entry.before)) else s.node other) ∧
        ∀ result, (ed.undo (ed.undo s).2.2.unlimited).1 ≠ .ok (some result) := by
  have hspec := ed.undo_spec s
  rcases hout : ed.undo s with ⟨answer, ed', t⟩
  rw [hout] at h hspec
  simp only at h ⊢
  subst h
  obtain ⟨hed, hfiles⟩ := hspec.same_of_error
  refine ⟨hed, ⟨?_, fun hno => (hfiles.resolve_right hno).node⟩, fun hno => ?_,
    fun entry place hcut => ?_⟩
  · rintro hsame ⟨entry, place, hcut⟩
    have hnode := hsame place
    have heq := hcut.undo_eq
    rw [hout] at heq
    cases heq
    rw [Store.node_put, if_pos rfl, hcut.file.node_eq] at hnode
    exact hcut.differs (Node.file.inj (Option.some.inj hnode))
  · exact (ed.undo_congr (hfiles.resolve_right hno).unlimited).1
  · have hlater := hcut.not_undone_later
    have heq := hcut.undo_eq
    rw [hout] at heq hlater
    cases heq
    exact ⟨rfl, fun other => Store.node_put s place other _, hlater⟩

/-- The file can hold what the edit left of it, which is how the old content begins. -/
theorem failed_undo_harmless_at_prefix :
    let ed : Editor := ⟨.default, ⟨[⟨"a.txt", "abcdef", "abc", "def", ""⟩], 5, by decide⟩, none⟩
    let s : Store := ⟨[(["a.txt"], .file "abc".toUTF8), ([], .directory)], some 3⟩
    (ed.undo s).1 = .error (.file (.fault "a.txt" .tooLarge)) ∧
      (ed.undo s).2.1 = ed ∧ ∀ place, (ed.undo s).2.2.node place = s.node place := by
  intro ed s
  have herror : (ed.undo s).1 = .error (.file (.fault "a.txt" .tooLarge)) := by decide +kernel
  obtain ⟨hed, hfiles, _⟩ := failed_undo_harmless_iff ed s _ herror
  refine ⟨herror, hed, hfiles.mpr ?_⟩
  -- What arrives of the old content is what the file holds.
  rintro ⟨entry, place, ⟨⟨older, htop⟩, _, _, hdiffers⟩⟩
  have hlast := congrArg List.getLast? htop
  rw [List.getLast?_concat] at hlast
  cases hlast
  exact hdiffers (by decide +kernel)

/-- A limit that the file keeps to, and the old content does not: an edit that made the file shorter
is not undone, and the file is cut. -/
theorem failed_undo_cuts_file :
    let ed : Editor := ⟨.default, .empty 5, none⟩
    let s : Store := ⟨[(["a.txt"], .file "abcdef".toUTF8), ([], .directory)], none⟩
    let made := ed.edit s ⟨"a.txt", "cdef", "C", .strict, false⟩
    let t : Store := { made.2.2 with limit := some 4 }
    t.bytes "a.txt" = .ok "abC".toUTF8 ∧ "abC".toUTF8.size ≤ 4 ∧
      (made.2.1.undo t).1 = .error (.file (.fault "a.txt" .tooLarge)) ∧
      (made.2.1.undo t).2.2.bytes "a.txt" = .ok "abcd".toUTF8 := by
  decide +kernel

/-! ## Refused edits -/

namespace Plan

/-- A plan that could not be carried out left as much of the old content as the file can hold. -/
theorem CarriesOut.arrived {place : Place} {p : Plan} {error : EditError}
    (h : CarriesOut s place p (.error error, t))
    (hf : s.FileAt p.document.path place p.document.content.toUTF8) :
    t.Same (s.put place (some (.file (s.arriving p.document.content)))) := by
  cases h with
  | invalid reason _ _ _ back same =>
    rw [Store.arriving_of_fits back]
    exact same.trans (Store.put_node_same hf.node_eq).symm
  | stuck _ _ _ _ _ cut => exact cut
  | unwritten _ _ cut => exact cut

/-- Where the old content does not fit, the error says so unless the new content did not fit
either. -/
theorem CarriesOut.revertFailed_iff {place : Place} {p : Plan} {error : EditError}
    (h : CarriesOut s place p (.error error, t)) :
    (∃ path reason cause, error = .revertFailed path reason cause) ↔
      s.Fits p.replacement.content ∧ ¬ s.Fits p.document.content := by
  cases h with
  | invalid reason _ _ _ back _ => simp [back]
  | stuck reason _ fits _ back _ => simp [fits, back]
  | unwritten _ long _ => simp [long]

theorem CarriesOut.eq_fault_of_not_fits {place : Place} {p : Plan} {error : EditError}
    (h : CarriesOut s place p (.error error, t)) (long : ¬ s.Fits p.replacement.content) :
    error = .file (.fault p.document.path .tooLarge) := by
  cases h with
  | invalid _ _ fits _ _ _ => exact absurd fits long
  | stuck _ _ fits _ _ _ => exact absurd fits long
  | unwritten _ _ _ => rfl

theorem not_revertFailed_of_error {e : Edit} {error : EditError}
    (h : Plan.of s e = .error error) (path reason : String) (cause : FileError) :
    error ≠ .revertFailed path reason cause := by
  intro he
  rcases Plan.of_error h with rfl | ⟨_, rfl⟩ | ⟨count, rfl⟩ | ⟨_, rfl⟩ | rfl
  · cases he
  · cases he
  · unfold EditError.ofCount at he
    split_ifs at he
  · cases he
  · cases he

end Plan

/-- The file is to be rewritten, and can hold neither its new content nor its old one. -/
structure EditCut (s : Store) (e : Edit) (p : Plan) : Prop where
  planned : Plan.of s e = .ok p
  wet : e.dryRun = false
  new_long : ¬ s.Fits p.replacement.content
  old_long : ¬ s.Fits p.document.content

theorem EditCut.eq_of_planned {e : Edit} {p p' : Plan} (h : EditCut s e p)
    (hp : Plan.of s e = .ok p') : p = p' := by
  have := h.planned.symm.trans hp
  cases this
  rfl

/-- **What a refused edit leaves behind.** All other files are as they were. The file of the edit
is, too, exactly if the error is not that the old content could not be written back and the new
content was not too long for a file that the old one is too long for as well. In that case the file
is cut, and the error only says that the new content could not be written. -/
theorem refused_edit_honest_iff (ed : Editor) (s : Store) (e : Edit) (error : EditError)
    (h : (ed.edit s e).1 = .error error) :
    (∀ other, s.place e.path ≠ .ok other → (ed.edit s e).2.2.node other = s.node other) ∧
      ((ed.edit s e).2.2.bytes e.path = s.bytes e.path ↔
        ¬ ((∃ path reason cause, error = .revertFailed path reason cause) ∨
          ∃ p, EditCut s e p)) ∧
      ∀ p, EditCut s e p → error = .file (.fault e.path .tooLarge) ∧
        (ed.edit s e).2.2.bytes e.path = .ok (s.arriving p.document.content) := by
  have hspec := Editor.edit_spec ed s e
  generalize ed.edit s e = out at h hspec
  cases hspec with
  | planned p _ _ => cases h
  | committed p t _ _ _ => cases h
  | unplanned cause hnone =>
    cases h
    have hcut : ∀ p, ¬ EditCut s e p := by
      intro p hcut
      rw [hcut.planned] at hnone
      cases hnone
    refine ⟨fun _ _ => rfl, ⟨?_, fun _ => rfl⟩, fun p hp => absurd hp (hcut p)⟩
    rintro - (⟨path, reason, cause, he⟩ | ⟨p, hp⟩)
    · exact Plan.not_revertFailed_of_error hnone path reason cause he
    · exact hcut p hp
  | withdrawn p cause t hp wet failed =>
    cases h
    obtain ⟨place, hfound⟩ := Plan.of_eq_ok_iff.mp hp
    have hout := p.carryOut_spec (hfound.path_eq ▸ hfound.file)
    rw [failed] at hout
    have harrived := hout.arrived (hfound.path_eq ▸ hfound.file)
    have hbytes : t.bytes e.path = .ok (s.arriving p.document.content) :=
      ((hfound.file.put _).congr harrived).bytes_eq
    refine ⟨fun other hother => ?_, ?_, fun p' hcut => ?_⟩
    · have hne : other ≠ place := by
        rintro rfl
        exact hother hfound.file.place_eq
      rw [harrived.node other, Store.node_put, if_neg hne]
    · have hsame : t.bytes e.path = s.bytes e.path ↔ s.Fits p.document.content := by
        rw [hbytes, hfound.file.bytes_eq, Except.ok.injEq]
        exact ⟨fun he => by_contra fun hno => Store.arriving_ne_of_not_fits hno he,
          Store.arriving_of_fits⟩
      have hcut : (∃ p, EditCut s e p) ↔
          ¬ s.Fits p.replacement.content ∧ ¬ s.Fits p.document.content := by
        constructor
        · rintro ⟨p', hcut⟩
          cases hcut.eq_of_planned hp
          exact ⟨hcut.new_long, hcut.old_long⟩
        · rintro ⟨hnew, hold⟩
          exact ⟨p, hp, wet, hnew, hold⟩
      rw [hsame, hout.revertFailed_iff, hcut, ← or_and_right]
      by_cases hold : s.Fits p.document.content
      · simp [hold]
      · simp [hold, Classical.em]
    · cases hcut.eq_of_planned hp
      rw [hout.eq_fault_of_not_fits hcut.new_long, hfound.path_eq]
      exact ⟨rfl, hbytes⟩

/-- A file that is longer already than any file may become, and a short but ill-formed replacement:
the error tells that the old content is lost. -/
theorem refused_edit_honest_iff_ill_formed :
    let ed : Editor := ⟨.default, .empty 5, none⟩
    let s : Store := ⟨[(["a.c"], .file "f(x); g();".toUTF8), ([], .directory)], some 4⟩
    let e : Edit := ⟨"a.c", "x); g();", "", .strict, false⟩
    (ed.edit s e).1 = .error (.revertFailed "a.c" "line 1: unclosed '('"
        (.fault "a.c" .tooLarge)) ∧
      (ed.edit s e).2.2.bytes "a.c" ≠ s.bytes "a.c" ∧ ¬ ∃ p, EditCut s e p := by
  intro ed s e
  have herror : (ed.edit s e).1 = .error (.revertFailed "a.c" "line 1: unclosed '('"
      (.fault "a.c" .tooLarge)) := by decide +kernel
  obtain ⟨_, hfile, hcut⟩ := refused_edit_honest_iff ed s e _ herror
  refine ⟨herror, fun hsame => hfile.mp hsame (Or.inl ⟨_, _, _, rfl⟩), ?_⟩
  rintro ⟨p, hp⟩
  cases (hcut p hp).1

/-- A file that is already longer than any file may become is cut by an edit that makes it longer
still, and the error does not tell. -/
theorem refused_edit_cuts_file :
    let ed : Editor := ⟨.default, .empty 5, none⟩
    let s : Store := ⟨[(["a.txt"], .file "0123456789".toUTF8), ([], .directory)], some 4⟩
    let e : Edit := ⟨"a.txt", "9", "nine", .strict, false⟩
    (ed.edit s e).1 = .error (.file (.fault "a.txt" .tooLarge)) ∧
      s.bytes "a.txt" = .ok "0123456789".toUTF8 ∧
      (ed.edit s e).2.2.bytes "a.txt" = .ok "0123".toUTF8 := by
  decide +kernel

end Anchored
