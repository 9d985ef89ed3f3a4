import Anchored.Proofs.Anchor.WholeLines
import Anchored.Proofs.Editor.Provenance
import Anchored.Proofs.Editor.StrictEdit

/-!
# Checks of anchors

A check of an anchor reads the file and looks for the place that the anchor names. An edit does so
before anything else, in its own way and with its own errors. The two agree (`check_gates_edit`): what
a check finds is what every edit with that anchor finds, whatever it puts in the place and whether or
not it writes; and where a check finds nothing, it says what the edit would say.
-/

namespace Anchored

variable {s : Store} {path content find : String} {mode : MatchMode}

/-- The edit is refused before there is anything to replace: for want of a file, of a text in it, or
of a single place. -/
def EditError.AtGate : EditError → Prop
  | .fileNotFound _ | .file _ | .anchorNotFound .. | .ambiguous .. => True
  | _ => False

theorem EditError.atGate_ofCount (path find : String) (count : Nat) :
    (EditError.ofCount path find count).AtGate := by
  unfold EditError.ofCount
  simp only
  split_ifs <;> trivial

/-- A span that an anchor names can be cut out of the text. -/
theorem exists_cut?_of_locateUnique {span : Span}
    (h : locateUnique path content find mode = .ok span) :
    ∃ pieces, span.cut? content.toList = some pieces := by
  cases mode with
  | strict =>
    obtain ⟨before, after, htext, rfl⟩ := locateUnique_strict_eq_ok h
    exact ⟨_, Span.cut?_eq_some_iff.mpr ⟨htext, rfl, rfl⟩⟩
  | fuzzy =>
    obtain ⟨range, hrange, rfl⟩ := locateUnique_fuzzy_eq_ok h
    obtain ⟨_, hlocate⟩ := Anchor.of_uniqueRange hrange
    exact Anchor.exists_cut?_rangeSpan (hlocate ▸ List.mem_singleton_self range)

/-! ## What the plan of an edit has of a check -/

namespace Plan

variable {e : Edit}

/-- Where a check cannot read the file, an edit says the same, if with another error. -/
theorem of_unreadable {cause : FileError} (h : Document.read s e.path = .error cause) :
    ∃ error, Plan.of s e = .error error ∧ error.AtGate ∧ error.message = cause.message := by
  unfold Plan.of
  by_cases hf : s.isFile e.path = true
  · rw [if_pos hf, h]
    exact ⟨_, rfl, trivial, rfl⟩
  · have hcause : cause = .notFound e.path := by
      rw [Document.read, if_neg hf] at h
      exact (Except.error.inj h).symm
    rw [if_neg hf, hcause]
    exact ⟨_, rfl, trivial, rfl⟩

/-- Where an anchor names no place, there is no plan. -/
theorem of_refused {document : Document} {error : EditError}
    (hread : Document.read s e.path = .ok document)
    (h : locateUnique e.path document.content e.find e.mode = .error error) :
    Plan.of s e = .error error := by
  obtain ⟨place, hfile, _⟩ := Document.read_eq_ok_iff.mp hread
  rw [of_text (Store.text_eq_ok_iff.mpr ⟨place, hfile⟩)]
  simp only [h]

/-- Where a check fails, there is no plan, and in the words of the check. -/
theorem of_check_fails (h : (AnchorCheck.of s e.path e.find e.mode).holds = false) :
    ∃ error, Plan.of s e = .error error ∧ error.AtGate ∧
      (AnchorCheck.of s e.path e.find e.mode).message = error.message := by
  unfold AnchorCheck.of at h ⊢
  rcases hread : Document.read s e.path with cause | document
  · obtain ⟨error, hnone, hgate, hmessage⟩ := of_unreadable hread
    exact ⟨error, hnone, hgate, hmessage.symm⟩
  simp only [hread] at h ⊢
  rcases hnamed : locateUnique e.path document.content e.find e.mode with error | span
  · obtain ⟨count, rfl⟩ := locateUnique_error hnamed
    exact ⟨_, of_refused hread hnamed, EditError.atGate_ofCount e.path e.find count, rfl⟩
  · rw [hnamed] at h
    cases h

/-- Where an anchor names a place, there is a plan for it or nothing to change. -/
theorem of_named {document : Document} {span : Span}
    (hread : Document.read s e.path = .ok document)
    (h : locateUnique e.path document.content e.find e.mode = .ok span) :
    Plan.of s e = .error (.noChange e.path) ∨
      ∃ p, Plan.of s e = .ok p ∧ p.line = lineOf document.content span.start := by
  obtain ⟨place, hfile, _⟩ := Document.read_eq_ok_iff.mp hread
  rw [of_text (Store.text_eq_ok_iff.mpr ⟨place, hfile⟩)]
  simp only [h]
  obtain ⟨⟨before, covered, after⟩, hcut⟩ := exists_cut?_of_locateUnique h
  simp only [Replacement.of, hcut]
  by_cases hsame : String.ofList (before ++ e.replace.toList ++ after) = document.content
  · rw [if_pos hsame]
    exact Or.inl rfl
  · rw [if_neg hsame]
    exact Or.inr ⟨_, rfl, rfl⟩

end Plan

/-! ## What an edit makes of its plan -/

namespace Editor

/-- Where writes succeed, an edit that has a plan tells where it is made, or is found to be
ill-formed. -/
theorem edit_of_planned (ed : Editor) {e : Edit} (hs : s.limit = none) {p : Plan}
    (h : Plan.of s e = .ok p) :
    (∃ result, (ed.edit s e).1 = .ok result ∧ result.deed.line? = some p.line) ∨
      ∃ reason, (ed.edit s e).1 = .error (.invalid e.path reason) := by
  have hspec := ed.edit_spec s e
  generalize ed.edit s e = out at hspec ⊢
  cases hspec with
  | unplanned error none =>
    rw [h] at none
    cases none
  | planned p' some _ =>
    cases h.symm.trans some
    exact Or.inl ⟨_, rfl, rfl⟩
  | withdrawn p' error t some _ failed =>
    cases h.symm.trans some
    obtain ⟨place, hfound, hout⟩ := Plan.exists_carriesOut h
    rw [failed] at hout
    cases hout with
    | invalid reason _ _ _ _ _ =>
      rw [hfound.path_eq]
      exact Or.inr ⟨reason, rfl⟩
    | stuck _ _ _ _ back _ => exact absurd (Store.fits_of_unlimited hs _) back
    | unwritten _ long _ => exact absurd (Store.fits_of_unlimited hs _) long
  | committed p' t some _ _ =>
    cases h.symm.trans some
    exact Or.inl ⟨_, rfl, rfl⟩

end Editor

/-! ## The check and the edit -/

namespace AnchorCheck

/-- The answer that an edit can give where a check has this outcome. -/
inductive Foretells (path : String) : AnchorCheck → Except EditError EditResult → Prop where
  /-- The edit is planned or made on the line that the check found. -/
  | done (line : Nat) (result : EditResult) (line_eq : result.deed.line? = some line) :
    Foretells path (.unique line) (.ok result)
  /-- The edit would change nothing. -/
  | noChange (line : Nat) : Foretells path (.unique line) (.error (.noChange path))
  /-- What the edit wrote was ill-formed, and was taken back. -/
  | invalid (line : Nat) (reason : String) :
    Foretells path (.unique line) (.error (.invalid path reason))
  /-- The edit is refused in the words of the check. -/
  | refused (check : AnchorCheck) (error : EditError) (fails : check.holds = false)
    (atGate : error.AtGate) (message_eq : check.message = error.message) :
    Foretells path check (.error error)

/-- Where a check holds, the anchor names a place in the text of the file. -/
theorem exists_named (h : (AnchorCheck.of s path find mode).holds = true) :
    ∃ document span, Document.read s path = .ok document ∧
      locateUnique path document.content find mode = .ok span ∧
      AnchorCheck.of s path find mode = .unique (lineOf document.content span.start) := by
  unfold AnchorCheck.of at h ⊢
  rcases hread : Document.read s path with cause | document
  · rw [hread] at h
    cases h
  simp only [hread] at h
  rcases hnamed : locateUnique path document.content find mode with error | span
  · rw [hnamed] at h
    cases h
  · exact ⟨document, span, rfl, hnamed, by simp only [hnamed]⟩

/-- Every edit with the anchor bears the check out. -/
theorem foretells_edit (ed : Editor) (hs : s.limit = none) (e : Edit) :
    Foretells e.path (.of s e.path e.find e.mode) (ed.edit s e).1 := by
  rcases hholds : (AnchorCheck.of s e.path e.find e.mode).holds with _ | _
  · obtain ⟨error, hnone, hgate, hmessage⟩ := Plan.of_check_fails hholds
    rw [ed.edit_of_unplanned hnone]
    exact .refused _ error hholds hgate hmessage
  obtain ⟨document, span, hread, hnamed, hunique⟩ := exists_named hholds
  rw [hunique]
  rcases Plan.of_named hread hnamed with hnone | ⟨p, hp, hline⟩
  · rw [ed.edit_of_unplanned hnone]
    exact .noChange _
  rw [← hline]
  rcases ed.edit_of_planned hs hp with ⟨result, hok, hresult⟩ | ⟨reason, hill⟩
  · rw [hok]
    exact .done _ result hresult
  · rw [hill]
    exact .invalid _ reason

variable {check : AnchorCheck} {answer : Except EditError EditResult}

theorem Foretells.holds_iff (h : Foretells path check answer) :
    check.holds = true ↔ ∀ error, answer = .error error → ¬ error.AtGate := by
  cases h with
  | done _ _ _ => simp [holds]
  | noChange _ => simp [holds, EditError.AtGate]
  | invalid _ _ => simp [holds, EditError.AtGate]
  | refused _ error fails atGate _ => simp [fails, atGate]

/-- An edit past the check is planned or made on its line, or refused for what it puts there. -/
theorem Foretells.of_unique {line : Nat} (h : Foretells path (.unique line) answer) :
    (∀ result, answer = .ok result → result.deed.line? = some line) ∧
      ∀ error, answer = .error error →
        error = .noChange path ∨ ∃ reason, error = .invalid path reason := by
  cases h with
  | done _ result line_eq =>
    refine ⟨fun _ hr => ?_, fun _ he => by cases he⟩
    cases hr
    exact line_eq
  | noChange _ =>
    refine ⟨fun _ hr => (by cases hr), fun _ he => ?_⟩
    cases he
    exact Or.inl rfl
  | invalid _ reason =>
    refine ⟨fun _ hr => (by cases hr), fun _ he => ?_⟩
    cases he
    exact Or.inr ⟨reason, rfl⟩
  | refused _ _ fails _ _ => cases fails

theorem Foretells.of_fails (h : Foretells path check answer) (hfails : check.holds = false) :
    ∃ error, answer = .error error ∧ error.AtGate ∧ check.message = error.message := by
  cases h with
  | done _ _ _ => cases hfails
  | noChange _ => cases hfails
  | invalid _ _ => cases hfails
  | refused _ error _ atGate message_eq => exact ⟨error, rfl, atGate, message_eq⟩

end AnchorCheck

/-- **A check is the gate to the edit.** Where writes succeed, the check of a request holds exactly
if the request with any replacement, carried out or only planned, is not refused for want of a file,
of a text in it or of a single place. Then the edit reports the line of the check, or it is refused
because it changes nothing or the new content is ill-formed. If the check fails, it says what the edit
says. A check compares in the mode of the request, or else in that of the settings. It leaves the
editor and the files alone, so that any run is the same without it. A file that is there can be read,
as a `Store` has no permissions (`Document.read_cases`): that a text is wanting means that the bytes
are the form of none. -/
theorem check_gates_edit (ed : Editor) (s : Store) (r : EditRequest) (replace : String) (dry : Bool)
    (hs : s.limit = none) :
    let check := ed.check s r
    let mode := MatchMode.ofStrict (r.strict.getD ed.config.strict)
    let answer := (ed.apply s { r with replace := replace, dryRun := dry }).1
    check = .of s r.path r.find mode ∧
    (check.holds = true ↔ ∀ error, answer = .error error → ¬ error.AtGate) ∧
    (∀ line, check = .unique line →
      check.message = "Anchor found exactly once at line " ++ toString line ∧
      (∀ result, answer = .ok result → result.deed.line? = some line) ∧
      ∀ error, answer = .error error →
        error = .noChange r.path ∨ ∃ reason, error = .invalid r.path reason) ∧
    (check.holds = false →
      ∃ error, answer = .error error ∧ error.AtGate ∧ check.message = error.message) ∧
    ∀ earlier later : List Turn,
      (Desk.mk ed s).run (earlier ++ .check r.path r.find mode :: later) =
        (Desk.mk ed s).run (earlier ++ later) := by
  intro check mode answer
  have hforetells : AnchorCheck.Foretells r.path check answer :=
    AnchorCheck.foretells_edit ed hs ⟨r.path, r.find, replace, mode, dry⟩
  refine ⟨rfl, hforetells.holds_iff, fun line hline => ?_, hforetells.of_fails,
    fun earlier later => ?_⟩
  · rw [hline] at hforetells
    exact ⟨by rw [hline]; rfl, hforetells.of_unique⟩
  · simp only [Desk.run, List.foldl_append, List.foldl_cons, Desk.step]

/-- A check in the mode of the request that settings to the contrary do not change, before a dry run;
and one at a path where there is a directory. -/
theorem check_gates_edit_lenient :
    let ed : Editor := ⟨.default, .empty 5, none⟩
    let s : Store := ⟨[(["a.c"], .file "f(x);\r\n\tg();\r\n".toUTF8), (["d"], .directory),
      ([], .directory)], none⟩
    let named : EditRequest := ⟨"", "a.c", "    g();\n", "h();\n", some false, false⟩
    let nowhere : EditRequest := ⟨"", "d", "g", "h", none, false⟩
    (ed.check s named = .unique 2 ∧
      ∀ result, (ed.apply s { named with replace := "", dryRun := true }).1 = .ok result →
        result.deed.line? = some 2) ∧
    (ed.check s nowhere).holds = false ∧
      ∃ error, (ed.apply s nowhere).1 = .error error ∧
        error.message = "File not found: d" := by
  intro ed s named nowhere
  have hnamed : ed.check s named = .unique 2 := by decide +kernel
  have hnowhere : ed.check s nowhere = .unreadable (.notFound "d") := by decide +kernel
  have hfails : (ed.check s nowhere).holds = false := by rw [hnowhere]; rfl
  obtain ⟨_, _, hline, _, _⟩ := check_gates_edit ed s named "" true rfl
  obtain ⟨_, _, _, hrefused, _⟩ := check_gates_edit ed s nowhere nowhere.replace false rfl
  obtain ⟨error, herror, _, hmessage⟩ := hrefused hfails
  refine ⟨⟨hnamed, (hline 2 hnamed).2.1⟩, hfails, error, herror, ?_⟩
  rw [← hmessage, hnowhere]
  rfl

end Anchored
