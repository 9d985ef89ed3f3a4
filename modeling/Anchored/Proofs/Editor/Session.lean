import Anchored.Proofs.Editor.Atomicity

/-!
# Edits and undos in a row

A session is one editor at work where nobody else writes. Beside the editor and the files it
remembers how the files were just before each committed edit that is not undone yet. The history is
always in step with these memories (`Restorable`): the newest entry leads from the files as they are
back to the newest memory, the entry below it from there to the next, and so on, for as many entries
as the history has kept. Hence an undo restores all files, not only its own (`undo_restores`). It
never fails: a `Store` has no permissions, so that a file that was edited can be read and written.
-/

namespace Anchored

/-- A call of an editor. -/
inductive Call where
  | edit (e : Edit)
  | check (path find : String) (mode : MatchMode)
  | undo
  deriving DecidableEq, Repr

/-- An editor at work. -/
structure Session where
  editor : Editor
  store : Store
  /-- The files just before each committed edit that is not undone, newest first. -/
  saved : List Store

namespace Session

/-- The start of a session. -/
def start (editor : Editor) (store : Store) : Session :=
  ⟨editor, store, []⟩

/-- The answer to an undo, with the editor and the files after it. -/
def undo (w : Session) : Except EditError (Option EditResult) × Editor × Store :=
  w.editor.undo w.store

/-- The call is an edit that is made, and not only planned or refused. -/
def commits (w : Session) : Call → Bool
  | .edit e => !e.dryRun && (w.editor.edit w.store e).1.toBool
  | _ => false

/-- The session after a call. A check of an anchor only looks at the files. -/
def step (w : Session) (call : Call) : Session :=
  match call with
  | .edit e =>
    let (_, editor, store) := w.editor.edit w.store e
    ⟨editor, store, if w.commits call then w.store :: w.saved else w.saved⟩
  | .check .. => w
  | .undo =>
    match w.undo with
    | (.ok (some _), editor, store) => ⟨editor, store, w.saved.tail⟩
    | (_, editor, store) => ⟨editor, store, w.saved⟩

/-- The session after a number of calls. -/
def run (w : Session) (calls : List Call) : Session :=
  calls.foldl step w

/-- How many of the calls are edits that are made. -/
def countCommits (w : Session) : List Call → Nat
  | [] => 0
  | call :: calls => (if w.commits call then 1 else 0) + (w.step call).countCommits calls

end Session

/-! ## The history in step with the files -/

/-- Committed edits, newest first, that lead from the files as they are back to older files.
Memories older than the oldest entry do not matter. -/
inductive Restorable : List CommittedEdit → List Store → Store → Prop where
  | nil (saved : List Store) (s : Store) : Restorable [] saved s
  | cons {entry : CommittedEdit} {entries : List CommittedEdit} {s t : Store} {saved : List Store}
    {place : Place} (file : t.FileAt entry.path place entry.before.toUTF8)
    (same : s.Same (t.put place (some (.file entry.after.toUTF8))))
    (rest : Restorable entries saved t) : Restorable (entry :: entries) (t :: saved) s

theorem Restorable.congr {entries : List CommittedEdit} {saved : List Store} {s t : Store}
    (h : Restorable entries saved s) (hs : t.Same s) : Restorable entries saved t := by
  cases h with
  | nil => exact .nil saved t
  | cons file same rest => exact .cons file (hs.trans same) rest

/-- Losing the oldest entries does no harm. -/
theorem Restorable.take {entries : List CommittedEdit} {saved : List Store} {s : Store}
    (h : Restorable entries saved s) (n : Nat) : Restorable (entries.take n) saved s := by
  induction h generalizing n with
  | nil saved s =>
    rw [List.take_nil]
    exact .nil saved s
  | cons file same _ ih =>
    cases n with
    | zero => exact .nil _ _
    | succ n => exact .cons file same (ih n)

namespace Session

variable {w : Session}

/-- Nothing gets in the way of the session, and its history leads back to what it remembers. -/
structure Inv (w : Session) : Prop where
  unlimited : w.store.limit = none
  quiet : ∀ linter, w.editor.linter = some linter → linter.WritesNothing
  restorable : Restorable w.editor.history.entries.reverse w.saved w.store

theorem step_edit_eq {e : Edit} {answer : Except EditError EditResult} {editor : Editor}
    {store : Store} (h : w.editor.edit w.store e = (answer, editor, store)) :
    w.commits (.edit e) = (!e.dryRun && answer.toBool) ∧
      w.step (.edit e) =
        ⟨editor, store, if !e.dryRun && answer.toBool then w.store :: w.saved else w.saved⟩ := by
  have hc : w.commits (.edit e) = (!e.dryRun && answer.toBool) := by
    simp only [commits, h]
  refine ⟨hc, ?_⟩
  simp only [step, h, hc]

/-- An edit keeps the invariant. One that is made adds an entry to the history if it was not
full. -/
theorem step_edit (h : w.Inv) (e : Edit) :
    (w.step (.edit e)).Inv ∧
      (w.step (.edit e)).editor.history.maxEntries = w.editor.history.maxEntries ∧
      (w.step (.edit e)).editor.history.entries.length =
        if w.commits (.edit e) then
          min (w.editor.history.entries.length + 1) w.editor.history.maxEntries
        else w.editor.history.entries.length := by
  obtain ⟨hw, hl, hr⟩ := h
  have hspec := w.editor.edit_spec w.store e
  rcases hed : w.editor.edit w.store e with ⟨answer, editor, store⟩
  obtain ⟨hc, hs⟩ := step_edit_eq hed
  rw [hed] at hspec
  rw [hc, hs]
  cases hspec with
  | unplanned error _ =>
    rw [Except.toBool, Bool.and_false]
    exact ⟨⟨hw, hl, hr⟩, rfl, rfl⟩
  | planned p _ dry =>
    rw [dry, Bool.not_true, Bool.false_and]
    exact ⟨⟨hw, hl, hr⟩, rfl, rfl⟩
  | withdrawn p error _ hp _ failed =>
    obtain ⟨place, hfound, hout⟩ := Plan.exists_carriesOut hp
    rw [failed] at hout
    have hsame := (hout.same_of_error hfound.fileAt (Store.fits_of_unlimited hw _)).1
    rw [Except.toBool, Bool.and_false]
    exact ⟨⟨hsame.limit.trans hw, hl, hr.congr hsame⟩, rfl, rfl⟩
  | committed p t hp wet done =>
    obtain ⟨place, hfound, hout⟩ := Plan.exists_carriesOut hp
    rw [done] at hout
    cases hout with
    | written _ _ =>
      have hlint := w.editor.lint_same hl e.path
        (w.store.put place (some (.file p.replacement.content.toUTF8)))
      have hyes : ∀ result : EditResult,
          (!e.dryRun && (Except.ok result : Except EditError EditResult).toBool) = true := by
        simp [wet, Except.toBool]
      rw [hyes]
      refine ⟨⟨hlint.limit.trans hw, hl, ?_⟩, rfl, History.length_commit _ _⟩
      rw [History.reverse_commit]
      exact (Restorable.cons hfound.fileAt hlint hr).take _

/-- The newest entry leads back to the newest memory. -/
theorem undo_spec (h : w.Inv) :
    (w.editor.history.entries = [] ∧ w.undo = (.ok none, w.editor, w.store)) ∨
      ∃ older entry t saved result editor store,
        w.editor.history.entries = older ++ [entry] ∧ w.saved = t :: saved ∧
        w.undo = (.ok (some result), editor, store) ∧ store.Same t ∧
        editor.history.entries = older ∧ (Session.mk editor store saved).Inv := by
  obtain ⟨hw, hl, hr⟩ := h
  have hspec := w.editor.undo_spec w.store
  unfold undo
  rcases hout : w.editor.undo w.store with ⟨answer, editor, store⟩
  rw [hout] at hspec
  -- What the newest entry wrote is still there, so that nothing can get in the way of its undo.
  have hnewest : ∀ older entry, w.editor.history.entries = older ++ [entry] →
      ∃ t saved place, w.saved = t :: saved ∧ t.FileAt entry.path place entry.before.toUTF8 ∧
        w.store.Same (t.put place (some (.file entry.after.toUTF8))) ∧
        Restorable older.reverse saved t := by
    intro older entry htop
    rw [htop, List.reverse_append, List.reverse_singleton, List.singleton_append] at hr
    generalize hs : w.saved = stores at hr
    cases hr with
    | cons file same rest => exact ⟨_, _, _, rfl, file, same, rest⟩
  have hread : ∀ older entry, w.editor.history.entries = older ++ [entry] →
      Document.read w.store entry.path = .ok ⟨entry.path, entry.after, checksum entry.after⟩ := by
    intro older entry htop
    obtain ⟨t, saved, place, _, hfile, hsame, _⟩ := hnewest older entry htop
    exact Document.read_eq_ok_iff.mpr ⟨place, (hfile.put _).congr hsame, rfl, rfl⟩
  cases hspec with
  | empty hnone => exact Or.inl ⟨hnone, rfl⟩
  | unreadable older entry error htop hr =>
    rw [hread older entry htop] at hr
    cases hr
  | stale older entry document htop hr changed =>
    rw [hread older entry htop] at hr
    cases hr
    exact absurd rfl changed
  | unwritten older entry place htop _ long => exact absurd (Store.fits_of_unlimited hw _) long
  | undone older entry place result htop hfile _ =>
    obtain ⟨t, saved, place', hsaved, hold, hsame, hrest⟩ := hnewest older entry htop
    have hplace : place = place' := by
      have := hfile.place_eq.symm.trans ((hold.put _).congr hsame).place_eq
      cases this
      rfl
    subst hplace
    have hback : (w.store.put place (some (.file entry.before.toUTF8))).Same t :=
      ((hsame.put _ _).trans (Store.put_put_same _ _ _ _)).trans (Store.put_node_same hold.node_eq)
    exact Or.inr ⟨older, entry, t, saved, result, _, _, htop, hsaved, rfl, hback, rfl,
      hw, hl, hrest.congr hback⟩

/-- An undo takes the newest entry off the history, if there is one. -/
theorem step_undo (h : w.Inv) :
    (w.step .undo).Inv ∧
      (w.step .undo).editor.history.entries = w.editor.history.entries.dropLast := by
  rcases undo_spec h with ⟨hnone, hout⟩ | ⟨older, entry, t, saved, result, ed, s, htop, hs, hout, _,
    hold, hinv⟩
  · simp only [step, hout]
    refine ⟨h, ?_⟩
    rw [hnone]
    rfl
  · simp only [step, hout]
    rw [hs, htop, List.dropLast_concat]
    exact ⟨hinv, hold⟩

theorem step_inv (h : w.Inv) (call : Call) : (w.step call).Inv := by
  cases call with
  | edit e => exact (step_edit h e).1
  | check path find mode => exact h
  | undo => exact (step_undo h).1

theorem run_inv (h : w.Inv) (calls : List Call) : (w.run calls).Inv := by
  induction calls generalizing w with
  | nil => exact h
  | cons call calls ih => exact ih (step_inv h call)

theorem start_inv {ed : Editor} {s : Store} (he : ed.history.entries = []) (hw : s.limit = none)
    (hl : ∀ linter, ed.linter = some linter → linter.WritesNothing) : (start ed s).Inv := by
  refine ⟨hw, hl, ?_⟩
  unfold start
  rw [he]
  exact .nil [] s

/-- Without undos, the history grows by the edits that are made, up to its bound. -/
theorem length_run (h : w.Inv) {calls : List Call} (hno : ∀ call ∈ calls, call ≠ .undo)
    (hle : w.editor.history.entries.length ≤ w.editor.history.maxEntries) :
    (w.run calls).editor.history.entries.length =
      min (w.editor.history.entries.length + w.countCommits calls)
        w.editor.history.maxEntries := by
  induction calls generalizing w with
  | nil =>
    simp only [run, List.foldl_nil, countCommits]
    omega
  | cons call calls ih =>
    have hrest : ∀ call ∈ calls, call ≠ .undo := fun c hc => hno c (List.mem_cons_of_mem call hc)
    change ((w.step call).run calls).editor.history.entries.length = _
    cases call with
    | edit e =>
      obtain ⟨hinv, hmax, hlen⟩ := step_edit h e
      rw [ih hinv hrest (by rw [hlen, hmax]; split_ifs <;> omega), hmax, hlen]
      simp only [countCommits]
      split_ifs <;> omega
    | check path find mode =>
      have hcount : w.countCommits (.check path find mode :: calls) = w.countCommits calls := by
        simp [countCommits, commits, step]
      rw [hcount]
      exact ih h hrest hle
    | undo => exact absurd rfl (hno .undo (List.mem_cons_self ..))

/-- Undos in a row take one entry after another. -/
theorem length_run_undos (h : w.Inv) (k : Nat) :
    (w.run (List.replicate k .undo)).editor.history.entries.length =
      w.editor.history.entries.length - k := by
  induction k generalizing w with
  | zero => rfl
  | succ k ih =>
    obtain ⟨hinv, hdrop⟩ := step_undo h
    change ((w.step .undo).run (List.replicate k .undo)).editor.history.entries.length = _
    rw [ih hinv, hdrop, List.length_dropLast]
    omega

theorem undo_eq_none_iff (h : w.Inv) :
    w.undo.1 = .ok none ↔ w.editor.history.entries = [] := by
  rcases undo_spec h with ⟨hnone, hout⟩ | ⟨older, entry, _, _, result, _, _, htop, _, hout, _⟩
  · rw [hout]
    exact ⟨fun _ => hnone, fun _ => rfl⟩
  · rw [hout, htop]
    simp

/-- An undo that has an entry to undo puts all files back. -/
theorem undo_of_ne_nil (h : w.Inv) (hne : w.editor.history.entries ≠ []) :
    ∃ result t saved, w.undo.1 = .ok (some result) ∧ w.saved = t :: saved ∧ w.undo.2.2.Same t := by
  rcases undo_spec h with ⟨hnone, _⟩ | ⟨_, _, t, saved, result, _, _, _, hs, hout, hsame, _⟩
  · exact absurd hnone hne
  · rw [hout]
    exact ⟨result, t, saved, rfl, hs, hsame⟩

end Session

open Session

/-- An editor that starts with no history and whose writes succeed can always undo, after any number
of edits, checks and undos. Nothing is undone exactly if the history is empty; else all files are as
they were just before the newest edit that is made and not undone. So of the edits made in a row, as
many as the history keeps can be undone in a row, and no more. -/
theorem undo_restores (ed : Editor) (s : Store) (max : Nat) (he : ed.history = .empty max)
    (hw : s.limit = none) (hl : ∀ linter, ed.linter = some linter → linter.WritesNothing)
    (calls : List Call) :
    let w := (start ed s).run calls
    (∀ error, w.undo.1 ≠ .error error) ∧
      (w.undo.1 = .ok none ↔ w.editor.history.entries = []) ∧
      (w.editor.history.entries ≠ [] → ∃ result t saved, w.undo.1 = .ok (some result) ∧
        w.saved = t :: saved ∧ w.undo.2.2.Same t) ∧
      ((∀ call ∈ calls, call ≠ .undo) →
        let kept := min ((start ed s).countCommits calls) (Nat.max 1 max)
        (∀ k < kept, ∃ result, (w.run (List.replicate k .undo)).undo.1 = .ok (some result)) ∧
          (w.run (List.replicate kept .undo)).undo.1 = .ok none) := by
  intro w
  have hstart : (start ed s).Inv := start_inv (by rw [he]; rfl) hw hl
  have hinv : w.Inv := run_inv hstart calls
  refine ⟨fun error herror => ?_, undo_eq_none_iff hinv, undo_of_ne_nil hinv, fun hno => ?_⟩
  · by_cases hnil : w.editor.history.entries = []
    · rw [(undo_eq_none_iff hinv).mpr hnil] at herror
      cases herror
    · obtain ⟨result, _, _, hsome, _⟩ := undo_of_ne_nil hinv hnil
      rw [hsome] at herror
      cases herror
  intro kept
  have hkept : w.editor.history.entries.length = kept := by
    have hnone : (start ed s).editor.history.entries.length = 0 := by
      simp [start, he, History.empty]
    have hmax : (start ed s).editor.history.maxEntries = Nat.max 1 max := by
      simp [start, he, History.empty, Nat.max_comm]
    rw [length_run hstart hno (by omega), hnone, hmax, Nat.zero_add]
  constructor
  · intro k hk
    have hne : (w.run (List.replicate k .undo)).editor.history.entries ≠ [] := by
      have := length_run_undos hinv k
      rw [← List.length_pos_iff]
      omega
    obtain ⟨result, _, _, hsome, _⟩ := undo_of_ne_nil (run_inv hinv _) hne
    exact ⟨result, hsome⟩
  · have hnil : (w.run (List.replicate kept .undo)).editor.history.entries = [] := by
      have := length_run_undos hinv kept
      rw [← List.length_eq_zero_iff]
      omega
    exact (undo_eq_none_iff (run_inv hinv _)).mpr hnil

/-- Two edits in a row where the history keeps only one. -/
theorem undo_restores_newest :
    let ed : Editor := ⟨.default, .empty 1, none⟩
    let s : Store := ⟨[(["a.txt"], .file "one".toUTF8), ([], .directory)], none⟩
    let w := (start ed s).run [.edit ⟨"a.txt", "one", "two", .strict, false⟩,
      .edit ⟨"a.txt", "two", "three", .strict, false⟩]
    (∃ result, w.undo.1 = .ok (some result)) ∧ (w.run [.undo]).undo.1 = .ok none := by
  intro ed s w
  have hcount : (start ed s).countCommits [.edit ⟨"a.txt", "one", "two", .strict, false⟩,
      .edit ⟨"a.txt", "two", "three", .strict, false⟩] = 2 := by decide +kernel
  have hrow := (undo_restores ed s 1 rfl rfl (fun _ hl => by cases hl) _).2.2.2
    (show ∀ call ∈ [Call.edit ⟨"a.txt", "one", "two", .strict, false⟩,
      .edit ⟨"a.txt", "two", "three", .strict, false⟩], call ≠ .undo by decide)
  have hkept : min 2 (Nat.max 1 1) = 1 := by decide
  rw [hcount, hkept] at hrow
  obtain ⟨hfirst, hlast⟩ := hrow
  exact ⟨hfirst 0 Nat.zero_lt_one, hlast⟩

end Anchored
