import Anchored.Proofs.CommandLine.Runs
import Anchored.Proofs.Editor.Gate

/-!
# What a failed run says

A response to a failure names its kind, so that callers can tell failures apart without reading the
message. The kinds that callers may count on are `ErrorKind.documented`. A check that is rejected has
none of them, and does not tell how often the anchor was found, although the edit of the same request
is refused in the same words and tells both (`failure_kind_documented_iff`).
-/

namespace Anchored

/-! ## Kinds of failures -/

/-- The words for kinds that callers may count on. -/
def ErrorKind.documented : List String :=
  ["file_not_found", "anchor_not_found", "ambiguous", "no_op", "validation_failed", "revert_failed",
    "stale_undo", "io", "request"]

theorem ErrorKind.mem_documented_iff (kind : ErrorKind) :
    kind.text ∈ ErrorKind.documented ↔ kind ≠ .anchor := by
  cases kind <;> decide

namespace EditError

/-- No edit is refused with the kind of a rejected check. -/
theorem kind_ne_anchor (error : EditError) : error.kind ≠ .anchor := by
  cases error with
  | file cause => cases cause <;> simp [kind]
  | _ => simp [kind]

/-- An edit that is refused before there is anything to replace is refused for its file, or else with
a count. -/
theorem AtGate.matchCount_eq_none_iff {error : EditError} (h : error.AtGate) :
    error.matchCount = none ↔ error.kind = .fileNotFound ∨ error.kind = .io := by
  cases error with
  | file cause => cases cause <;> simp [matchCount, kind]
  | fileNotFound path => simp [matchCount, kind]
  | anchorNotFound path preview => simp [matchCount, kind]
  | ambiguous path count preview => simp [matchCount, kind]
  | _ => cases h

end EditError

namespace CommandLine

variable {w : Surroundings} {s : Store} {a : Arguments} {config : EditorConfig} {r : EditRequest}

/-! ## Rejected checks -/

/-- The run is to check the anchor of the request `r`, which names no single place. -/
structure RejectsCheck (w : Surroundings) (s : Store) (a : Arguments) (config : EditorConfig)
    (r : EditRequest) : Prop where
  checks : a.check = true
  loaded : Loads s a (.ok config)
  built : Builds w s a (.ok r)
  fails : ((Editor.new config).check s r).holds = false

theorem RejectsCheck.respond_eq (h : RejectsCheck w s a config r) :
    (respond w s a).1 = ⟨(ExecutionId.resolve r.executionId).text w.freshId, false, none,
      some .anchor, none, some ((Editor.new config).check s r).message⟩ := by
  have hfails := h.fails
  rw [respond_built h.loaded h.built]
  simp only [if_pos h.checks, EditResponse.ofCheck, hfails, Bool.false_eq_true, if_false]

/-- An edit with the anchor of a rejected check is refused, in the words of the check. -/
theorem RejectsCheck.edit_refused (h : RejectsCheck w s a config r) (replace : String)
    (dry : Bool) :
    ∃ error, ((Editor.new config).apply s { r with replace := replace, dryRun := dry }).1 =
        .error error ∧ error.AtGate ∧
      ((Editor.new config).check s r).message = error.message := by
  let e : Edit := ⟨r.path, r.find, replace, .resolve config.strict r.strict, dry⟩
  obtain ⟨error, hnone, hgate, hmessage⟩ := Plan.of_check_fails (s := s) (e := e) h.fails
  exact ⟨error, (Editor.new config).edit_of_unplanned hnone, hgate, hmessage⟩

/-- Every failure but that of a check is of a kind that is documented. -/
theorem failure_kind (h : (respond w s a).1.success = false) :
    (∃ kind, (respond w s a).1.errorKind = some kind ∧ kind ≠ .anchor) ∨
      ∃ config r, RejectsCheck w s a config r := by
  rcases hconfig : loadConfig s a with error | config
  · refine Or.inl ⟨.request, ?_, by decide⟩
    simp only [respond, hconfig]
    rfl
  rcases hbuild : buildRequest w s a with error | r
  · refine Or.inl ⟨.request, ?_, by decide⟩
    simp only [respond, hconfig, hbuild]
    rfl
  -- From here on the editor answers: to a check with a verdict, to an edit with an error of some kind.
  have hloads := loads_iff.mpr hconfig
  have hbuilds := builds_iff.mpr hbuild
  have hanswer := respond_built hloads hbuilds
  by_cases hcheck : a.check = true
  · rw [if_pos hcheck] at hanswer
    rw [hanswer, EditResponse.success_ofCheck] at h
    exact Or.inr ⟨config, r, hcheck, hloads, hbuilds, h⟩
  · rw [if_neg hcheck] at hanswer
    rw [hanswer] at h ⊢
    rcases hmade : ((Editor.new config).apply s r).1 with error | result <;> rw [hmade] at h
    · exact Or.inl ⟨error.kind, rfl, error.kind_ne_anchor⟩
    · cases h

/-- **Which failures are of a documented kind.** A failed run names the kind of its failure. It is one
that callers may count on exactly if the failure is not that of a check. A rejected check is of a kind
of its own and has no count. The edit of the same request, whatever it would put in the place, is
refused with the same message and a documented kind. It has a count exactly if the anchor is to blame
and not the file. Of a file that is there, only that it holds no text can be to blame, since nothing
in a `Store` keeps it from being read. -/
theorem failure_kind_documented_iff (w : Surroundings) (s : Store) (a : Arguments)
    (h : (respond w s a).1.success = false) :
    ∃ kind, (respond w s a).1.errorKind = some kind ∧
      (kind.text ∈ ErrorKind.documented ↔ ¬ ∃ config r, RejectsCheck w s a config r) ∧
      ∀ config r, RejectsCheck w s a config r → kind = .anchor ∧
        (respond w s a).1.matchCount = none ∧
        ∀ id replace dry,
          let edited := EditResponse.ofEdit id
            ((Editor.new config).apply s { r with replace := replace, dryRun := dry }).1
          edited.success = false ∧ edited.error = (respond w s a).1.error ∧
          (∃ kind', edited.errorKind = some kind' ∧ kind'.text ∈ ErrorKind.documented) ∧
          (edited.matchCount = none ↔
            edited.errorKind = some .fileNotFound ∨ edited.errorKind = some .io) := by
  have hrejected (config : EditorConfig) (r : EditRequest) (hr : RejectsCheck w s a config r) :
      (respond w s a).1.errorKind = some .anchor := by rw [hr.respond_eq]
  obtain ⟨kind, hkind⟩ : ∃ kind, (respond w s a).1.errorKind = some kind := by
    rcases failure_kind h with ⟨kind, hkind, _⟩ | ⟨config, r, hr⟩
    · exact ⟨kind, hkind⟩
    · exact ⟨_, hrejected config r hr⟩
  refine ⟨kind, hkind, ?_, fun config r hr => ?_⟩
  · rw [ErrorKind.mem_documented_iff]
    constructor
    · rintro hne ⟨config, r, hr⟩
      exact hne (Option.some.inj (hkind.symm.trans (hrejected config r hr)))
    · intro hno
      obtain ⟨kind', hkind', hne⟩ := (failure_kind h).resolve_right hno
      rwa [Option.some.inj (hkind.symm.trans hkind')]
  · refine ⟨Option.some.inj (hkind.symm.trans (hrejected config r hr)), by rw [hr.respond_eq],
      fun id replace dry => ?_⟩
    obtain ⟨error, hrefused, hgate, hmessage⟩ := hr.edit_refused replace dry
    simp only [hrefused, EditResponse.ofEdit, EditResponse.ofError, hr.respond_eq, hmessage,
      Option.some.injEq, true_and]
    exact ⟨⟨_, rfl, (ErrorKind.mem_documented_iff _).mpr error.kind_ne_anchor⟩,
      hgate.matchCount_eq_none_iff⟩

/-- A check of an anchor that stands twice in the file, and the dry run of an edit there. -/
theorem failure_kind_documented_iff_ambiguous :
    let a : Arguments :=
      ⟨some "a.txt", some "b", none, none, none, none, false, false, true, false⟩
    let w : Surroundings := ⟨.empty, "1"⟩
    let s : Store := ⟨[(["a.txt"], .file "abab\n".toUTF8), ([], .directory)], none⟩
    let r : EditRequest := ⟨ExecutionId.auto, "a.txt", "b", "", none, false⟩
    (respond w s a).1.success = false ∧ RejectsCheck w s a .default r ∧
      (respond w s a).1.errorKind = some .anchor ∧
      ∃ kind, (EditResponse.ofEdit "2" ((Editor.new .default).apply s
          { r with replace := "c", dryRun := true }).1).errorKind = some kind ∧
        kind.text ∈ ErrorKind.documented := by
  intro a w s r
  have hfails : (respond w s a).1.success = false := by decide +kernel
  have hbuilds : Builds w s a (.ok r) :=
    .built _ (.options "b" "" rfl (Or.inr ⟨rfl, rfl, rfl⟩)) (by decide)
  have hrejects : RejectsCheck w s a .default r := ⟨rfl, .unnamed rfl, hbuilds, by decide +kernel⟩
  obtain ⟨kind, hkind, _, hcheck⟩ := failure_kind_documented_iff w s a hfails
  obtain ⟨rfl, _, hedit⟩ := hcheck .default r hrejects
  obtain ⟨_, _, hdocumented, _⟩ := hedit "2" "c" true
  exact ⟨hfails, hrejects, hkind, hdocumented⟩

/-- A check of an anchor that stands nowhere in the file, and the edit of the same request. -/
theorem rejected_check_kind_undocumented :
    let args := ["--file", "a.txt", "--find", "x", "--check", "--json"]
    let a : Arguments :=
      ⟨some "a.txt", some "x", none, none, none, none, false, false, true, true⟩
    let w : Surroundings := ⟨.empty, "1"⟩
    let s : Store := ⟨[(["a.txt"], .file "abc\n".toUTF8), ([], .directory)], none⟩
    let r : EditRequest := ⟨ExecutionId.auto, "a.txt", "x", "", none, false⟩
    let checked := (respond w s a).1
    let edited := EditResponse.ofEdit "1" ((Editor.new .default).apply s r).1
    Invocation.read args = .run a ∧ buildRequest w s a = .ok r ∧ checked.success = false ∧
      (checked.errorKind = some .anchor ∧ ErrorKind.anchor.text ∉ ErrorKind.documented) ∧
      edited.errorKind = some .anchorNotFound ∧ checked.matchCount = none ∧
      edited.matchCount = some 0 := by
  intro args a w s r checked edited
  refine ⟨?_, ?_, ?_, ⟨?_, ?_⟩, ?_, ?_, ?_⟩ <;> decide +kernel

end CommandLine

end Anchored
