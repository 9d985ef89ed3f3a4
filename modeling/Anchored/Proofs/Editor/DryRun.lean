import Anchored.Proofs.Editor.StrictEdit

/-!
# Dry runs

A dry run checks the new content without writing it; an edit that is made checks it when it is
written, and takes it back if need be. The two answer alike, since they have the same plan and the
outcome of the check depends on nothing else (`dry_run_predicts`). Only of the linter a dry run knows
nothing. It is run on the file when the edit is done, and what it leaves there is its own affair
(`dry_run_blind_to_linter`).
-/

namespace Anchored

variable {s : Store}

/-- A plan is the same for a dry run. -/
theorem Plan.Found.dryRun {e : Edit} {place : Place} {p : Plan} (h : Found s e place p) (dry : Bool) :
    Found s { e with dryRun := dry } place p :=
  ⟨h.file, h.path_eq, h.checksum_eq, h.anchor⟩

theorem Plan.Found.checksum_content {e : Edit} {place : Place} {p : Plan} (h : Found s e place p) :
    checksum p.replacement.content = p.replacement.checksum := by
  obtain ⟨span, _, hr⟩ := h.anchor
  obtain ⟨_, _, _, _, _, _, hchecksum⟩ := Replacement.exists_cut_of_ok hr
  exact hchecksum.symm

@[simp]
theorem Plan.result_problem (p : Plan) (e : Edit) (preview : String → String) (deed : Deed)
    (problem : Option String) (lintIssues : Option (List String)) :
    (p.result e preview deed problem lintIssues).problem = problem :=
  rfl

/-- What is told of an edit that is made is what is told of one that is planned, but for the deed and
the findings of the linter. -/
theorem Plan.result_with (p : Plan) (e : Edit) (preview : String → String) (planned deed : Deed)
    (problem : Option String) (lintIssues : Option (List String)) :
    p.result e preview deed problem lintIssues =
      { p.result e preview planned problem none with deed := deed, lintIssues := lintIssues } :=
  rfl

theorem EditResult.valid_iff {r : EditResult} : r.valid = true ↔ r.problem = none :=
  Option.isNone_iff_eq_none

namespace Editor

variable {ed : Editor} {e : Edit} {place : Place} {p : Plan}

/-! ## Without writing -/

theorem edit_dry_eq (dry : e.dryRun = true) : (ed.edit s e).2 = (ed, s) := by
  have hspec := ed.edit_spec s e
  generalize ed.edit s e = out at hspec ⊢
  cases hspec with
  | unplanned _ _ => rfl
  | planned _ _ _ => rfl
  | withdrawn _ _ _ _ wet _ =>
    rw [dry] at wet
    cases wet
  | committed _ _ _ wet _ =>
    rw [dry] at wet
    cases wet

/-- A dry run is refused only for want of a plan. -/
theorem edit_dry_error {error : EditError} (dry : e.dryRun = true)
    (h : (ed.edit s e).1 = .error error) : Plan.of s e = .error error := by
  have hspec := ed.edit_spec s e
  generalize ed.edit s e = out at h hspec
  cases hspec with
  | unplanned _ none =>
    cases h
    exact none
  | planned _ _ _ => cases h
  | withdrawn _ _ _ _ wet _ =>
    rw [dry] at wet
    cases wet
  | committed _ _ _ _ _ => cases h

/-- A dry run that is not refused tells the plan. -/
theorem edit_dry_ok {planned : EditResult} (dry : e.dryRun = true)
    (h : (ed.edit s e).1 = .ok planned) :
    ∃ place p, Plan.Found s e place p ∧
      planned = p.result e ed.preview (.planned p.line) p.problem .none := by
  have hspec := ed.edit_spec s e
  generalize ed.edit s e = out at h hspec
  cases hspec with
  | unplanned _ _ => cases h
  | planned p some _ =>
    cases h
    obtain ⟨place, hfound⟩ := Plan.of_eq_ok_iff.mp some
    exact ⟨place, p, hfound, rfl⟩
  | withdrawn _ _ _ _ _ _ => cases h
  | committed _ _ _ wet _ =>
    rw [dry] at wet
    cases wet

/-! ## With writing -/

/-- A plan for a well-formed content is carried out, and then the linter is run. -/
theorem edit_of_valid (hs : s.limit = none) (wet : e.dryRun = false) (h : Plan.Found s e place p)
    (valid : p.problem = none) :
    let written := s.put place (some (.file p.replacement.content.toUTF8))
    ed.edit s e =
      (.ok (p.result e ed.preview (.replaced p.line) none (ed.lint e.path written).1),
        { ed with history := ed.history.commit (p.committed e) }, (ed.lint e.path written).2) :=
  ed.edit_of_committed (Plan.of_eq_ok_iff.mpr ⟨place, h⟩) wet
    (Plan.carryOut_of_valid hs h.fileAt valid)

/-- A plan for an ill-formed content is taken back. -/
theorem edit_of_ill {reason : String} (hs : s.limit = none) (wet : e.dryRun = false)
    (h : Plan.Found s e place p) (ill : p.problem = some reason) :
    ∃ t, t.Same s ∧ ed.edit s e = (.error (.invalid e.path reason), ed, t) := by
  obtain ⟨t, hsame, hcarried⟩ := Plan.carryOut_of_ill hs h.fileAt ill
  rw [h.path_eq] at hcarried
  exact ⟨t, hsame, ed.edit_of_withdrawn (Plan.of_eq_ok_iff.mpr ⟨place, h⟩) wet hcarried⟩

/-- Where the linter leaves a file alone, the file holds what was written. -/
theorem lint_text {path content : String} {written : Store}
    (htext : written.text path = .ok content)
    (hl : ∀ linter, ed.linter = some linter →
      (linter path written).2.text path = written.text path) :
    (ed.lint path written).2.text path = .ok content := by
  unfold lint
  rcases hlinter : ed.linter with _ | linter
  · exact htext
  · exact (hl linter hlinter).trans htext

end Editor

/-- **A dry run tells what the edit comes to.** Where writes succeed, a dry run changes neither a
file nor the editor. If it is refused, so is the edit, for the same reason. If it finds the new
content well-formed, the edit is made with the very same result, but that it is now done and linted;
the file gets the content with the checksum that was told, and keeps it unless the linter changes it.
If the dry run finds the new content ill-formed, the edit is refused for that, and all files are as
they were. -/
theorem dry_run_predicts (ed : Editor) (s : Store) (e : Edit) (hs : s.limit = none) :
    let dry := ed.edit s { e with dryRun := true }
    let real := ed.edit s { e with dryRun := false }
    dry.2 = (ed, s) ∧
    (∀ error, dry.1 = .error error → real.1 = .error error) ∧
    (∀ planned, dry.1 = .ok planned → planned.valid = true →
      ∃ line issues place content,
        planned.deed = .planned line ∧
        real.1 = .ok { planned with deed := .replaced line, lintIssues := issues } ∧
        s.place e.path = .ok place ∧ checksum content = planned.newChecksum ∧
        let written := s.put place (some (.file content.toUTF8))
        written.text e.path = .ok content ∧ ed.lint e.path written = (issues, real.2.2) ∧
        ((∀ linter, ed.linter = some linter →
          (linter e.path written).2.text e.path = written.text e.path) →
          real.2.2.text e.path = .ok content)) ∧
    ∀ planned reason, dry.1 = .ok planned → planned.problem = some reason →
      real.1 = .error (.invalid e.path reason) ∧ real.2.1 = ed ∧
        ∀ place, real.2.2.node place = s.node place := by
  intro dry real
  refine ⟨Editor.edit_dry_eq rfl, fun error herror => ?_, fun planned hplanned hvalid => ?_,
    fun planned reason hplanned hill => ?_⟩
  · have hnone : Plan.of s e = .error error :=
      Editor.edit_dry_error (e := { e with dryRun := true }) rfl herror
    exact ed.edit_of_unplanned hnone
  · obtain ⟨place, p, hfound, rfl⟩ := Editor.edit_dry_ok rfl hplanned
    rw [EditResult.valid_iff, Plan.result_problem] at hvalid
    let written := s.put place (some (.file p.replacement.content.toUTF8))
    have hreal : real =
        (.ok (p.result e ed.preview (.replaced p.line) p.problem (ed.lint e.path written).1),
          { ed with history := ed.history.commit (p.committed e) }, (ed.lint e.path written).2) := by
      rw [hvalid]
      exact ed.edit_of_valid hs rfl (hfound.dryRun false) hvalid
    have htext : written.text e.path = .ok p.replacement.content :=
      Store.text_eq_ok_iff.mpr ⟨place, hfound.file.put _⟩
    rw [hreal]
    exact ⟨p.line, (ed.lint e.path written).1, place, p.replacement.content, rfl,
      congrArg Except.ok (p.result_with e ed.preview _ _ _ _), hfound.file.place_eq,
      hfound.checksum_content, htext, rfl, fun hl => ed.lint_text htext hl⟩
  · obtain ⟨place, p, hfound, rfl⟩ := Editor.edit_dry_ok rfl hplanned
    rw [Plan.result_problem] at hill
    obtain ⟨t, hsame, hreal⟩ := ed.edit_of_ill hs rfl (hfound.dryRun false) hill
    change real = (.error (.invalid e.path reason), ed, t) at hreal
    rw [hreal]
    exact ⟨rfl, rfl, hsame.node⟩

/-- A dry run of an edit that can be made, and one of an edit that leaves a comma too many. -/
theorem dry_run_predicts_both :
    let ed : Editor := ⟨.default, .empty 5, none⟩
    let s : Store := ⟨[(["a.json"], .file "[1,\n2]".toUTF8), ([], .directory)], none⟩
    let made : Edit := ⟨"a.json", "2", "3", .strict, false⟩
    let refused : Edit := ⟨"a.json", "2", "2,", .strict, false⟩
    (∃ planned issues, (ed.edit s { made with dryRun := true }).1 = .ok planned ∧
      (ed.edit s { made with dryRun := false }).1 =
        .ok { planned with deed := .replaced 2, lintIssues := issues }) ∧
    ∃ planned reason, (ed.edit s { refused with dryRun := true }).1 = .ok planned ∧
      planned.problem = some reason ∧
      (ed.edit s { refused with dryRun := false }).1 = .error (.invalid "a.json" reason) := by
  intro ed s made refused
  have hplanned : ((ed.edit s { made with dryRun := true }).1.map fun r => (r.valid, r.deed)) =
      .ok (true, .planned 2) := by decide +kernel
  have hill : ((ed.edit s { refused with dryRun := true }).1.map EditResult.problem) =
      .ok (some "invalid JSON: trailing comma at line 2 column 3") := by decide +kernel
  constructor
  · rcases hdry : (ed.edit s { made with dryRun := true }).1 with error | planned
    · rw [hdry] at hplanned
      cases hplanned
    rw [hdry] at hplanned
    obtain ⟨hvalid, hdeed⟩ := Prod.ext_iff.mp (Except.ok.inj hplanned)
    obtain ⟨line, issues, _, _, hline, hreal, _⟩ :=
      (dry_run_predicts ed s made rfl).2.2.1 planned hdry hvalid
    cases hline.symm.trans hdeed
    exact ⟨planned, issues, rfl, hreal⟩
  · rcases hdry : (ed.edit s { refused with dryRun := true }).1 with error | planned
    · rw [hdry] at hill
      cases hill
    rw [hdry] at hill
    have hproblem := Except.ok.inj hill
    exact ⟨planned, _, rfl, hproblem,
      ((dry_run_predicts ed s refused rfl).2.2.2 planned _ hdry hproblem).1⟩

/-- A linter that writes the file has the last word: the file does not hold what a dry run of the edit
told. -/
theorem dry_run_blind_to_linter :
    let linter : Linter := fun path s => (.pass, (s.write path "changed\n").2)
    let ed : Editor := ⟨.default, .empty 5, some linter⟩
    let s : Store := ⟨[(["a.txt"], .file "one".toUTF8), ([], .directory)], none⟩
    let e : Edit := ⟨"a.txt", "one", "two", .strict, false⟩
    s.limit = none ∧
      ((ed.edit s { e with dryRun := true }).1.map fun r => (r.valid, r.newChecksum)) =
        .ok (true, checksum "two") ∧
      (ed.edit s e).1.toBool = true ∧ (ed.edit s e).2.2.text "a.txt" = .ok "changed\n" ∧
      checksum "changed\n" ≠ checksum "two" := by
  decide +kernel

end Anchored
