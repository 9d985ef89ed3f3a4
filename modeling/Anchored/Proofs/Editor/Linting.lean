import Anchored.Proofs.Editor.DryRun
import Anchored.Proofs.Editor.Provenance
import Anchored.Proofs.Editor.Sharing
import Anchored.Proofs.Editor.Undone

/-!
# Linters only advise

The same turns are taken twice, at two desks: at the one with whatever linters are put to work, at the
other with none at all. A turn leaves the same files and the same history at both (`Desk.Shadows.step`),
and so does a run (`Desk.Shadows.run`); every turn is answered alike but for what a linter found
(`Desk.Shadows.answer_eq`). What it found is told of an edit that was made, and of nothing else
(`Desk.complains_iff`).
-/

namespace Anchored

/-! ## Without linters -/

/-- The result without what a linter found. -/
def EditResult.unlinted (r : EditResult) : EditResult :=
  { r with lintIssues := none }

/-- What a turn is answered. -/
inductive Answer where
  | edited (answer : Except EditError EditResult)
  | checked (check : AnchorCheck)
  | undone (answer : Except EditError (Option EditResult))
  /-- Nothing is said. -/
  | silent

namespace Answer

/-- The answer without what a linter found. -/
def unlinted : Answer → Answer
  | .edited answer => .edited (answer.map EditResult.unlinted)
  | .undone answer => .undone (answer.map (Option.map EditResult.unlinted))
  | .checked check => .checked check
  | .silent => .silent

/-- The result that is told of, if the turn was not refused. -/
def result? : Answer → Option EditResult
  | .edited (.ok result) => some result
  | .undone (.ok result) => result
  | _ => none

end Answer

theorem Answer.result?_unlinted (a : Answer) : a.unlinted.result? = a.result?.map .unlinted := by
  rcases a with (_ | _) | _ | (_ | _) | _ <;> rfl

/-- The editor with no linter, and with none in its settings. -/
def Editor.unlinted (ed : Editor) : Editor :=
  { ed with config := { ed.config with lint := none }, linter := none }

/-- The turn, where no linter is put to work. -/
def Turn.unlinted : Turn → Turn
  | .setLinter _ => .setLinter none
  | turn => turn

/-- No linter that is put to work writes. -/
def Turn.Quiet (turn : Turn) : Prop :=
  ∀ linter, turn = .setLinter (some linter) → linter.WritesNothing

namespace Desk

/-- What is answered to a turn. -/
def answer (d : Desk) : Turn → Answer
  | .edit e => .edited (d.editor.edit d.store e).1
  | .check path find mode => .checked (.of d.store path find mode)
  | .undo => .undone (d.editor.undo d.store).1
  | .clear | .setLinter _ | .others _ => .silent

/-- The desk of an editor without a linter. -/
def unlinted (d : Desk) : Desk :=
  { d with editor := d.editor.unlinted }

/-- The linter does not pass the file that the turn has written, for these reasons. -/
inductive Complains (d : Desk) : Turn → List String → Prop where
  /-- The edit was made, for it is in the history now. -/
  | edit (e : Edit) (issues : List String) (linter : Linter) (entry : CommittedEdit)
    (place : Place) (wet : e.dryRun = false)
    (committed : (d.step (.edit e)).editor.history = d.editor.history.commit entry)
    (place_eq : d.store.place e.path = .ok place) (installed : d.editor.linter = some linter)
    (failed : (linter e.path (d.store.put place (some (.file entry.after.toUTF8)))).1 =
      .fail issues) : Complains d (.edit e) issues

end Desk

/-! ## One call -/

namespace Editor

variable {ed : Editor} {s t : Store}

@[simp]
theorem unlinted_history (ed : Editor) : ed.unlinted.history = ed.history := rfl

/-- An edit comes to the same without the linter. -/
theorem edit_unlinted (hl : ∀ linter, ed.linter = some linter → linter.WritesNothing)
    (h : s.Same t) (e : Edit) :
    (ed.unlinted.edit t e).1 = (ed.edit s e).1.map EditResult.unlinted ∧
      (ed.unlinted.edit t e).2.1 = (ed.edit s e).2.1.unlinted ∧
      (ed.edit s e).2.2.Same (ed.unlinted.edit t e).2.2 := by
  unfold edit
  rw [← Plan.of_congr h]
  rcases Plan.of s e with error | p
  · exact ⟨rfl, rfl, h⟩
  simp only
  split_ifs with hdry
  · exact ⟨rfl, rfl, h⟩
  obtain ⟨hanswer, hfiles⟩ := p.carryOut_congr h
  generalize p.carryOut s = done at hanswer hfiles ⊢
  generalize p.carryOut t = done' at hanswer hfiles ⊢
  obtain ⟨answer, s'⟩ := done
  obtain ⟨answer', t'⟩ := done'
  cases hanswer
  -- The linter is run only on an edit that is committed already, and leaves the files as they are.
  rcases answer with error | _
  · exact ⟨rfl, rfl, hfiles⟩
  · exact ⟨rfl, rfl, (ed.lint_same hl e.path s').trans hfiles⟩

/-- An undo does not look at the linter, and what is told of it has nothing from one. -/
theorem undo_unlinted (ed : Editor) (s : Store) :
    ed.unlinted.undo s = ((ed.undo s).1, (ed.undo s).2.1.unlinted, (ed.undo s).2.2) ∧
      (ed.undo s).1.map (Option.map EditResult.unlinted) = (ed.undo s).1 := by
  unfold undo
  rw [unlinted_history]
  rcases ed.history.pop? with _ | ⟨entry, rest⟩
  · exact ⟨rfl, rfl⟩
  simp only
  rcases Document.read s entry.path with error | document
  · exact ⟨rfl, rfl⟩
  simp only
  split_ifs
  · exact ⟨rfl, rfl⟩
  rcases Document.write s entry.path entry.before with ⟨error | _, t⟩
  · exact ⟨rfl, rfl⟩
  · exact ⟨rfl, rfl⟩

theorem undo_lintIssues {result : EditResult} (h : (ed.undo s).1 = .ok (some result)) :
    result.lintIssues = none := by
  have hsame := (ed.undo_unlinted s).2
  rw [h] at hsame
  have hresult : result.unlinted = result := Option.some.inj (Except.ok.inj hsame)
  rw [← hresult]
  rfl

/-- What is told of an edit that was made is what the linter finds in the file that it wrote. -/
theorem edit_lintIssues {e : Edit} {result : EditResult} (wet : e.dryRun = false)
    (h : (ed.edit s e).1 = .ok result) :
    ∃ entry place, (ed.edit s e).2.1.history = ed.history.commit entry ∧
      s.place e.path = .ok place ∧ result.lintIssues =
        (ed.lint e.path (s.put place (some (.file entry.after.toUTF8)))).1 := by
  obtain ⟨place, p, hfound, _, hed⟩ := edit_made wet h
  rw [hed] at h ⊢
  cases h
  exact ⟨p.committed e, place, rfl, hfound.file.place_eq, rfl⟩

/-- A linter that does not pass the file gives the issues. -/
theorem lint_eq_some_iff {path : String} {issues : List String} :
    (ed.lint path s).1 = some issues ↔
      ∃ linter, ed.linter = some linter ∧ (linter path s).1 = .fail issues := by
  unfold lint
  rcases ed.linter with _ | linter
  · simp
  simp only [Option.some.injEq, exists_eq_left', LintReport.findings?, LintReport.fail]
  rcases (linter path s).1 with ⟨_ | _, found⟩
  · simp
  · simp

end Editor

namespace Desk

variable {d : Desk} {result : EditResult} {issues : List String}

theorem complains_edit_iff {e : Edit} (h : (d.editor.edit d.store e).1 = .ok result) :
    result.lintIssues = some issues ↔ d.Complains (.edit e) issues := by
  rcases hdry : e.dryRun with _ | _
  · obtain ⟨entry, place, hcommit, hplace, hlint⟩ := Editor.edit_lintIssues hdry h
    rw [hlint, Editor.lint_eq_some_iff]
    constructor
    · rintro ⟨linter, installed, failed⟩
      exact .edit e issues linter entry place hdry hcommit hplace installed failed
    · intro hcomplains
      cases hcomplains with
      | edit _ _ linter entry' place' _ committed place_eq installed failed =>
        obtain rfl := History.commit_injective (hcommit.symm.trans committed)
        obtain rfl := Except.ok.inj (hplace.symm.trans place_eq)
        exact ⟨linter, installed, failed⟩
  · -- A dry run tells of no issues, and no linter complains of it.
    obtain ⟨_, p, _, rfl⟩ := Editor.edit_dry_ok hdry h
    refine iff_of_false (fun hissues => by cases hissues) fun hcomplains => ?_
    cases hcomplains with
    | edit _ _ _ _ _ wet _ _ _ _ =>
      rw [hdry] at wet
      cases wet

/-- Issues are told of just those turns whose linter complained. -/
theorem complains_iff (d : Desk) {turn : Turn} (h : (d.answer turn).result? = some result) :
    result.lintIssues = some issues ↔ d.Complains turn issues := by
  cases turn with
  | edit e =>
    rcases hanswer : (d.editor.edit d.store e).1 with error | made <;> rw [answer, hanswer] at h
    · cases h
    · cases h
      exact complains_edit_iff hanswer
  | undo =>
    rcases hanswer : (d.editor.undo d.store).1 with error | _ | undone <;>
      rw [answer, hanswer] at h
    · cases h
    · cases h
    · cases h
      rw [Editor.undo_lintIssues hanswer]
      exact iff_of_false (fun hissues => by cases hissues) fun hcomplains => by cases hcomplains
  | check path find mode => cases h
  | clear => cases h
  | setLinter linter => cases h
  | others files => cases h

end Desk

/-! ## Whole runs -/

/-- The two desks differ in the linter alone, and that writes nothing. -/
structure Desk.Shadows (full bare : Desk) : Prop where
  editor_eq : bare.editor = full.editor.unlinted
  store_same : full.store.Same bare.store
  quiet : ∀ linter, full.editor.linter = some linter → linter.WritesNothing

namespace Desk

variable {full bare : Desk}

/-- At both desks a turn is answered alike but for what a linter found. -/
theorem Shadows.answer_eq (h : full.Shadows bare) (turn : Turn) :
    bare.answer turn.unlinted = (full.answer turn).unlinted := by
  obtain ⟨heditor, hfiles, hquiet⟩ := h
  cases turn with
  | edit e =>
    obtain ⟨hanswer, _, _⟩ := Editor.edit_unlinted hquiet hfiles e
    simp only [Turn.unlinted, answer, Answer.unlinted, heditor, hanswer]
  | check path find mode =>
    simp only [Turn.unlinted, answer, Answer.unlinted, AnchorCheck.of,
      Document.read_congr hfiles]
  | undo =>
    obtain ⟨hsame, _, _⟩ := full.editor.undo_congr hfiles.symm
    obtain ⟨_, hnothing⟩ := full.editor.undo_unlinted full.store
    obtain ⟨hbare, _⟩ := full.editor.undo_unlinted bare.store
    simp only [Turn.unlinted, answer, Answer.unlinted, heditor, hbare, hsame, hnothing]
  | clear => rfl
  | setLinter linter => rfl
  | others files => rfl

/-- The turn that is taken at both desks leaves them as they are to each other. -/
theorem Shadows.step (h : full.Shadows bare) {turn : Turn} (hq : turn.Quiet) :
    (full.step turn).Shadows (bare.step turn.unlinted) := by
  obtain ⟨heditor, hfiles, hquiet⟩ := h
  cases turn with
  | edit e =>
    obtain ⟨_, hafter, hsame⟩ := Editor.edit_unlinted hquiet hfiles e
    have hlinter := full.editor.edit_linter full.store e
    rw [← heditor] at hafter hsame
    exact ⟨hafter, hsame, fun linter hl => hquiet linter (hlinter.symm.trans hl)⟩
  | check path find mode => exact ⟨heditor, hfiles, hquiet⟩
  | undo =>
    obtain ⟨_, hafter, hsame⟩ := full.editor.undo_congr hfiles.symm
    have hlinter := full.editor.undo_linter full.store
    -- The undo is compared at the files of the second desk, and from there with those of the first.
    obtain ⟨hundo, _⟩ := full.editor.undo_unlinted bare.store
    rw [← heditor] at hundo
    refine ⟨?_, ?_, fun linter hl => hquiet linter (hlinter.symm.trans hl)⟩
    · simp only [Turn.unlinted, Desk.step, hundo, hafter]
    · simp only [Turn.unlinted, Desk.step, hundo]
      exact hsame.symm
  | clear => exact ⟨congrArg Editor.clearHistory heditor, hfiles, hquiet⟩
  | setLinter linter =>
    have hafter := congrArg (Editor.withLinter · none) heditor
    exact ⟨hafter, hfiles, fun l hl => hq l (congrArg Turn.setLinter hl)⟩
  | others files => exact ⟨heditor, .refl files, hquiet⟩

theorem Shadows.run (h : full.Shadows bare) {turns : List Turn}
    (hq : ∀ turn ∈ turns, turn.Quiet) :
    (full.run turns).Shadows (bare.run (turns.map Turn.unlinted)) := by
  induction turns generalizing full bare with
  | nil => exact h
  | cons turn turns ih =>
    rw [List.forall_mem_cons] at hq
    exact ih (h.step hq.1) hq.2

end Desk

/-- **Linters only advise.** Let the editor do whatever it is told, with linters put to work and
removed at any time, none of which writes to a file, and let the same be done with no linter at all.
After every such run the files are the same, the histories are the same, and whatever comes next is
answered alike but for what a linter found. Issues are told only of an edit that was made, not of a
dry run, an undo or a refused edit; and those are told, and just those, for which the linter did not
pass the file that the edit had written. -/
theorem linters_only_advise (d : Desk)
    (hd : ∀ linter, d.editor.linter = some linter → linter.WritesNothing) (turns : List Turn)
    (hq : ∀ turn ∈ turns, turn.Quiet) :
    let full := d.run turns
    let bare := d.unlinted.run (turns.map Turn.unlinted)
    full.store.Same bare.store ∧ bare.editor.history = full.editor.history ∧
      (∀ turn, bare.answer turn.unlinted = (full.answer turn).unlinted) ∧
      ∀ turn result issues, (full.answer turn).result? = some result →
        (result.lintIssues = some issues ↔ full.Complains turn issues) := by
  intro full bare
  have hstart : d.Shadows d.unlinted := ⟨rfl, .refl d.store, hd⟩
  have hrun : full.Shadows bare := hstart.run hq
  refine ⟨hrun.store_same, ?_, hrun.answer_eq, fun turn result issues => full.complains_iff⟩
  rw [hrun.editor_eq, Editor.unlinted_history]

/-- A linter that passes the first edit, another one that is put to work then and passes none, and an
undo. -/
theorem linters_only_advise_replaced :
    let long : Linter := .always (.fail ["too long"])
    let d : Desk := ⟨⟨.default, .empty 5, some (.always .pass)⟩,
      ⟨[(["a.txt"], .file "one".toUTF8), ([], .directory)], none⟩⟩
    let turns : List Turn := [.edit ⟨"a.txt", "one", "two", .strict, false⟩, .setLinter (some long),
      .edit ⟨"a.txt", "two", "three", .strict, false⟩, .undo]
    let next : Turn := .edit ⟨"a.txt", "two", "four", .strict, false⟩
    (∀ linter, d.editor.linter = some linter → linter.WritesNothing) ∧
      (∀ turn ∈ turns, turn.Quiet) ∧
      (d.run turns).store.Same (d.unlinted.run (turns.map Turn.unlinted)).store ∧
      ∃ result, ((d.run turns).answer next).result? = some result ∧
        result.lintIssues = some ["too long"] ∧ (d.run turns).Complains next ["too long"] ∧
        ((d.unlinted.run (turns.map Turn.unlinted)).answer next).result? =
          some result.unlinted := by
  intro long d turns next
  have hpass : ∀ linter, d.editor.linter = some linter → linter.WritesNothing := by
    rintro _ ⟨⟩
    exact fun path s => .refl s
  have hlong : ∀ turn ∈ turns, turn.Quiet := by
    rintro _ hmem linter rfl
    have hl : linter = long := by simpa [turns] using hmem
    rw [hl]
    exact fun path s => .refl s
  obtain ⟨hfiles, _, hanswers, hissues⟩ := linters_only_advise d hpass turns hlong
  have hfound : ((d.run turns).answer next).result?.map (·.lintIssues) =
      some (some ["too long"]) := by decide +kernel
  obtain ⟨result, hresult, hlint⟩ := Option.map_eq_some_iff.mp hfound
  refine ⟨hpass, hlong, hfiles, result, hresult, hlint, (hissues next result _ hresult).mp hlint, ?_⟩
  rw [show next = next.unlinted from rfl, hanswers, Answer.result?_unlinted, hresult]
  rfl

end Anchored
