import Anchored.Proofs.Editor.Steps

/-!
# Refused edits

An edit that is refused leaves all files and the editor as they were, if the file could hold what
it held. The new content may well be too long for the file: then the write cuts it, and the old
content is written over what arrived.
-/

namespace Anchored

variable {s : Store}

namespace Plan

/-- A plan that could not be carried out left the files as they were, if the file could hold its old
content. -/
theorem CarriesOut.same_of_error {place : Place} {p : Plan} {error : EditError} {t : Store}
    (h : CarriesOut s place p (.error error, t))
    (hf : s.FileAt p.document.path place p.document.content.toUTF8)
    (hroom : s.Fits p.document.content) :
    t.Same s ∧ ∀ path reason cause, error ≠ .revertFailed path reason cause := by
  cases h with
  | invalid reason _ _ _ _ same => exact ⟨same, fun _ _ _ he => by cases he⟩
  | stuck _ _ _ _ back _ => exact absurd hroom back
  | unwritten _ _ cut =>
    rw [Store.arriving_of_fits hroom] at cut
    exact ⟨cut.trans (Store.put_node_same hf.node_eq), fun _ _ _ he => by cases he⟩

end Plan

/-- Where writes succeed, an edit that is refused leaves all files as they were. -/
theorem Editor.edit_same_of_error {ed : Editor} {e : Edit} {error : EditError}
    (hs : s.limit = none) (h : (ed.edit s e).1 = .error error) : (ed.edit s e).2.2.Same s := by
  have hspec := ed.edit_spec s e
  generalize ed.edit s e = out at h hspec ⊢
  cases hspec with
  | unplanned _ _ => exact Store.Same.refl s
  | planned _ _ _ => cases h
  | withdrawn p _ t hp _ failed =>
    obtain ⟨place, hfound, hout⟩ := Plan.exists_carriesOut hp
    rw [failed] at hout
    exact (hout.same_of_error hfound.fileAt (Store.fits_of_unlimited hs _)).1
  | committed _ _ _ _ _ => cases h

/-- **A refused edit changes nothing.** Whatever the reason, every file holds the bytes that it held
before, the editor with its history is as it was, and the old content is back on disk: the reason is
never that it could not be written back. -/
theorem edit_atomic (ed : Editor) (s : Store) (e : Edit) (error : EditError)
    (hroom : ∀ limit bytes, s.limit = some limit → s.bytes e.path = .ok bytes →
      bytes.size ≤ limit)
    (h : (ed.edit s e).1 = .error error) :
    (∀ place, (ed.edit s e).2.2.node place = s.node place) ∧ (ed.edit s e).2.1 = ed ∧
      ∀ path reason cause, error ≠ .revertFailed path reason cause := by
  have hspec := Editor.edit_spec ed s e
  generalize ed.edit s e = out at h hspec
  cases hspec with
  | unplanned cause hp =>
    cases h
    refine ⟨fun _ => rfl, rfl, fun path reason source he => ?_⟩
    rcases Plan.of_error hp with rfl | ⟨_, rfl⟩ | ⟨count, rfl⟩ | ⟨_, rfl⟩ | rfl
    · cases he
    · cases he
    · unfold EditError.ofCount at he
      split_ifs at he
    · cases he
    · cases he
  | planned p _ _ => cases h
  | committed p t _ _ _ => cases h
  | withdrawn p cause t hp _ hc =>
    cases h
    obtain ⟨place, hfound⟩ := Plan.of_eq_ok_iff.mp hp
    have hfile := hfound.path_eq ▸ hfound.file
    have hfits : s.Fits p.document.content := fun limit hl =>
      hroom limit _ hl hfound.file.bytes_eq
    have hout := p.carryOut_spec hfile
    rw [hc] at hout
    obtain ⟨hsame, herr⟩ := hout.same_of_error hfile hfits
    exact ⟨hsame.node, rfl, herr⟩

/-- The file may hold what it holds and no byte more, so that the new content arrives cut. -/
theorem edit_atomic_at_limit :
    let ed : Editor := ⟨.default, .empty 5, none⟩
    let s : Store := ⟨[(["a.json"], .file "[1]".toUTF8), ([], .directory)], some 3⟩
    let e : Edit := ⟨"a.json", "1", "1, 2", .strict, false⟩
    (ed.edit s e).1 = .error (.file (.fault "a.json" .tooLarge)) ∧
      (∀ place, (ed.edit s e).2.2.node place = s.node place) ∧ (ed.edit s e).2.1 = ed := by
  intro ed s e
  have hbytes : s.bytes e.path = .ok "[1]".toUTF8 := by decide +kernel
  have herror : (ed.edit s e).1 = .error (.file (.fault "a.json" .tooLarge)) := by
    decide +kernel
  have hroom : ∀ limit bytes, s.limit = some limit → s.bytes e.path = .ok bytes →
      bytes.size ≤ limit := by
    intro limit bytes hl hb
    cases hl
    rw [hbytes] at hb
    cases hb
    decide
  obtain ⟨hnode, hed, _⟩ := edit_atomic ed s e _ hroom herror
  exact ⟨herror, hnode, hed⟩

end Anchored
