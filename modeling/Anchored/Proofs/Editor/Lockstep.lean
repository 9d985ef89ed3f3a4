import Anchored.Proofs.Editor.DryRun
import Anchored.Proofs.Editor.Provenance
import Anchored.Proofs.Editor.Session

/-!
# The history in step with the answers

What an editor answers tells what became of its history. It gets an entry with each edit that is made,
loses its newest with each undo that is done and all of them when it is cleared, and is otherwise as it
was, in whatever way a call failed (`history_in_lockstep`). A refused undo puts its entry back without
looking at the bound. That the bound is kept all the same is because the entry was taken just before.
-/

namespace Anchored

namespace Editor

variable {ed : Editor} {s : Store}

/-- An edit does nothing to the history but commit. -/
theorem edit_history (ed : Editor) (s : Store) (e : Edit) :
    (ed.edit s e).2.1.history = ed.history ∨
      ∃ entry, (ed.edit s e).2.1.history = ed.history.commit entry := by
  have hspec := ed.edit_spec s e
  generalize ed.edit s e = out at hspec ⊢
  cases hspec with
  | unplanned _ _ => exact Or.inl rfl
  | planned _ _ _ => exact Or.inl rfl
  | withdrawn _ _ _ _ _ _ => exact Or.inl rfl
  | committed p _ _ _ _ => exact Or.inr ⟨p.committed e, rfl⟩

/-- An undo leaves the history as it was, or without its newest entry. -/
theorem undo_history (ed : Editor) (s : Store) :
    (ed.undo s).2.1.history = ed.history ∨ ∃ older newest,
      ed.history.entries = older ++ [newest] ∧
        (ed.undo s).2.1.history = { ed.history with entries := older } := by
  have hspec := ed.undo_spec s
  generalize ed.undo s = out at hspec ⊢
  cases hspec with
  | empty _ => exact Or.inl rfl
  | unreadable _ _ _ _ _ => exact Or.inl rfl
  | stale _ _ _ _ _ _ => exact Or.inl rfl
  | unwritten _ _ _ _ _ _ => exact Or.inl rfl
  | undone older newest _ _ top _ _ => exact Or.inr ⟨older, newest, top, rfl⟩

/-- An edit that is not made leaves the editor as it was. -/
theorem edit_editor_of_error {e : Edit} {error : EditError} (h : (ed.edit s e).1 = .error error) :
    (ed.edit s e).2.1 = ed := by
  have hspec := ed.edit_spec s e
  generalize ed.edit s e = out at h hspec ⊢
  cases hspec with
  | unplanned _ _ => rfl
  | planned _ _ _ => rfl
  | withdrawn _ _ _ _ _ _ => rfl
  | committed _ _ _ _ _ => cases h

/-- So does an undo that is not done. -/
theorem undo_editor_of_ne_some (h : ∀ result, (ed.undo s).1 ≠ .ok (some result)) :
    (ed.undo s).2.1 = ed := by
  have hspec := ed.undo_spec s
  generalize ed.undo s = out at h hspec ⊢
  cases hspec with
  | empty _ => rfl
  | unreadable _ _ _ _ _ => rfl
  | stale _ _ _ _ _ _ => rfl
  | unwritten _ _ _ _ _ _ => rfl
  | undone _ _ _ result _ _ _ => exact absurd rfl (h result)

end Editor

/-! ## What an entry says of its edit -/

/-- The entry is that of an edit which had this result: it holds the text that was found in the file,
and the one that was written. -/
structure CommittedEdit.Records (c : CommittedEdit) (s : Store) (e : Edit) (result : EditResult) :
    Prop where
  path_eq : c.path = e.path
  find_eq : c.find = e.find
  replace_eq : c.replace = e.replace
  before_eq : s.text e.path = .ok c.before
  oldChecksum_eq : checksum c.before = result.oldChecksum
  newChecksum_eq : checksum c.after = result.newChecksum

namespace Desk

variable {d : Desk} {max : Nat}

/-- The entries of the editor's history, oldest first. -/
def entries (d : Desk) : List CommittedEdit :=
  d.editor.history.entries

/-- The history keeps `max` entries, and has no more. -/
structure Bounded (d : Desk) (max : Nat) : Prop where
  max_eq : d.editor.history.maxEntries = max
  length_le : d.entries.length ≤ max

/-! ## The bound -/

theorem step_bounded (h : d.Bounded max) (turn : Turn) : (d.step turn).Bounded max := by
  obtain ⟨hmax, hle⟩ := h
  cases turn with
  | edit e =>
    rcases d.editor.edit_history d.store e with hsame | ⟨entry, hcommit⟩
    · exact ⟨(congrArg History.maxEntries hsame).trans hmax, by
        simpa only [entries, step, hsame] using hle⟩
    · refine ⟨(congrArg History.maxEntries hcommit).trans hmax, ?_⟩
      simp only [entries, step, hcommit, History.length_commit]
      omega
  | check path find mode => exact ⟨hmax, hle⟩
  | undo =>
    rcases d.editor.undo_history d.store with hsame | ⟨older, newest, htop, hrest⟩
    · exact ⟨(congrArg History.maxEntries hsame).trans hmax, by
        simpa only [entries, step, hsame] using hle⟩
    · refine ⟨(congrArg History.maxEntries hrest).trans hmax, ?_⟩
      rw [entries, htop, List.length_append] at hle
      simp only [entries, step, hrest]
      omega
  | clear => exact ⟨hmax, Nat.zero_le max⟩
  | setLinter linter => exact ⟨hmax, hle⟩
  | others files => exact ⟨hmax, hle⟩

theorem run_bounded (h : d.Bounded max) (turns : List Turn) : (d.run turns).Bounded max := by
  induction turns generalizing d with
  | nil => exact h
  | cons turn turns ih => exact ih (step_bounded h turn)

/-! ## What a turn does to the entries -/

/-- An edit that is made adds its entry; the oldest one goes if there is no room. -/
theorem entries_step_made (h : d.Bounded max) {e : Edit} {result : EditResult}
    (wet : e.dryRun = false) (hok : (d.editor.edit d.store e).1 = .ok result) :
    ∃ entry : CommittedEdit, entry.Records d.store e result ∧
      (d.step (.edit e)).entries =
        if d.entries.length < max then d.entries ++ [entry] else d.entries.tail ++ [entry] := by
  have hspec := d.editor.edit_spec d.store e
  rcases hed : d.editor.edit d.store e with ⟨answer, editor, store⟩
  rw [hed] at hok hspec
  cases hspec with
  | unplanned _ _ => cases hok
  | planned _ _ dry =>
    rw [wet] at dry
    cases dry
  | withdrawn _ _ _ _ _ _ => cases hok
  | committed p t some _ _ =>
    cases hok
    obtain ⟨place, hfound⟩ := Plan.of_eq_ok_iff.mp some
    refine ⟨p.committed e, ?_, ?_⟩
    · exact ⟨hfound.path_eq, rfl, rfl, Store.text_eq_ok_iff.mpr ⟨place, hfound.file⟩,
        hfound.checksum_eq.symm, hfound.checksum_content⟩
    · obtain ⟨rfl, hle⟩ := h
      simp only [step, hed]
      exact History.entries_commit _ hle _

/-- An edit that is refused or only planned leaves the editor alone. -/
theorem editor_step_unmade {e : Edit}
    (h : e.dryRun = true ∨ ∃ error, (d.editor.edit d.store e).1 = .error error) :
    (d.step (.edit e)).editor = d.editor := by
  rcases h with dry | ⟨error, herror⟩
  · exact congrArg Prod.fst (Editor.edit_dry_eq dry)
  · exact Editor.edit_editor_of_error herror

/-- An undo that is done takes the newest entry. -/
theorem entries_step_undone {result : EditResult}
    (h : (d.editor.undo d.store).1 = .ok (some result)) :
    ∃ newest, d.entries = (d.step .undo).entries ++ [newest] := by
  obtain ⟨older, entry, _, htop, _, _, heditor⟩ := Editor.undo_of_eq_some h
  refine ⟨entry, ?_⟩
  simp only [entries, step, heditor]
  exact htop

end Desk

/-- **The history is in step with the answers.** Whatever an editor has been told to do since it was
made, and whatever became of the files meanwhile: it has no more entries than its settings allow, and
never allow fewer than one. An edit that is made adds the entry that records it, and evicts the oldest
one only where there would be one too many. An undo that is done takes the newest one, and clearing
takes all. Any other call, and all that others do, leaves the same entries in the same order. -/
theorem history_in_lockstep (config : EditorConfig) (s : Store) (turns : List Turn) :
    let d := (Desk.mk (.new config) s).run turns
    let bound := Nat.max 1 config.maxHistory
    d.entries.length ≤ bound ∧
    (∀ e result, e.dryRun = false → (d.editor.edit d.store e).1 = .ok result →
      ∃ entry : CommittedEdit, entry.Records d.store e result ∧
        (d.step (.edit e)).entries =
          if d.entries.length < bound then d.entries ++ [entry] else d.entries.tail ++ [entry]) ∧
    (∀ e, (e.dryRun = true ∨ ∃ error, (d.editor.edit d.store e).1 = .error error) →
      (d.step (.edit e)).entries = d.entries) ∧
    (∀ result, (d.editor.undo d.store).1 = .ok (some result) →
      ∃ newest, d.entries = (d.step .undo).entries ++ [newest]) ∧
    ((∀ result, (d.editor.undo d.store).1 ≠ .ok (some result)) →
      (d.step .undo).entries = d.entries) ∧
    (d.step .clear).entries = [] ∧
    (∀ path find mode, (d.step (.check path find mode)).entries = d.entries) ∧
    (∀ linter, (d.step (.setLinter linter)).entries = d.entries) ∧
    ∀ files, (d.step (.others files)).entries = d.entries := by
  intro d bound
  have hstart : (Desk.mk (.new config) s).Bounded bound := by
    refine ⟨?_, Nat.zero_le bound⟩
    exact Nat.max_comm config.maxHistory 1
  have hd : d.Bounded bound := Desk.run_bounded hstart turns
  refine ⟨hd.length_le, fun e result wet hok => Desk.entries_step_made hd wet hok,
    fun e he => ?_, fun result hdone => Desk.entries_step_undone hdone, fun hno => ?_,
    rfl, fun _ _ _ => rfl, fun _ => rfl, fun _ => rfl⟩
  · exact congrArg (·.history.entries) (Desk.editor_step_unmade he)
  · exact congrArg (·.history.entries) (Editor.undo_editor_of_ne_some hno)

/-- A history for one entry, with that entry in it: the next edit that is made evicts it, one that is
too long for the file leaves it, and an undo takes it. -/
theorem history_in_lockstep_full :
    let config : EditorConfig := { EditorConfig.default with maxHistory := 0 }
    let turns : List Turn := [
      .others ⟨[(["a.c"], .file "f(x);\n".toUTF8), ([], .directory)], some 8⟩,
      .edit ⟨"a.c", "f", "g", .strict, false⟩, .edit ⟨"a.c", "x", "y", .strict, true⟩]
    let d := (Desk.mk (.new config) .empty).run turns
    let made : Edit := ⟨"a.c", "x", "y", .strict, false⟩
    let tooLong : Edit := ⟨"a.c", "x", "long_name", .strict, false⟩
    d.entries = [⟨"a.c", "f(x);\n", "g(x);\n", "f", "g"⟩] ∧
      (∃ entry : CommittedEdit, entry.find = "x" ∧ entry.before = "g(x);\n" ∧
        (d.step (.edit made)).entries = [entry]) ∧
      (d.step (.edit tooLong)).entries = d.entries ∧ (d.step .undo).entries = [] := by
  intro config turns d made tooLong
  have hentries : d.entries = [⟨"a.c", "f(x);\n", "g(x);\n", "f", "g"⟩] := by decide +kernel
  have htext : d.store.text "a.c" = .ok "g(x);\n" := by decide +kernel
  have hmade : (d.editor.edit d.store made).1.toBool = true := by decide +kernel
  have hfails : (d.editor.edit d.store tooLong).1.toBool = false := by decide +kernel
  have hundone : (d.editor.undo d.store).1.toOption.join.isSome = true := by decide +kernel
  obtain ⟨_, hadd, hkeep, htake, _⟩ := history_in_lockstep config .empty turns
  refine ⟨hentries, ?_, hkeep tooLong (Or.inr ?_), ?_⟩
  · rcases hanswer : (d.editor.edit d.store made).1 with error | result
    · rw [hanswer] at hmade
      cases hmade
    · obtain ⟨entry, records, hstep⟩ := hadd made result rfl hanswer
      refine ⟨entry, records.find_eq, ?_, ?_⟩
      · exact (Except.ok.inj (htext.symm.trans records.before_eq)).symm
      · rw [hstep, hentries]
        rfl
  · rcases hanswer : (d.editor.edit d.store tooLong).1 with error | result
    · exact ⟨error, rfl⟩
    · rw [hanswer] at hfails
      cases hfails
  · rcases hanswer : (d.editor.undo d.store).1 with error | _ | result
    · rw [hanswer] at hundone
      cases hundone
    · rw [hanswer] at hundone
      cases hundone
    · obtain ⟨newest, htop⟩ := htake result hanswer
      rw [hentries] at htop
      rcases List.singleton_eq_append_iff.mp htop with ⟨hnil, _⟩ | ⟨_, hcons⟩
      · exact hnil
      · cases hcons

end Anchored
