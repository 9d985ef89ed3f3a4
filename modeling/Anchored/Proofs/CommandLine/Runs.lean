import Anchored.CommandLine.Run
import Anchored.Proofs.Disk.Files

/-!
# Runs of the command line

A run loads settings, builds a request and does with it what the editor does. `Loads` lists where the
settings come from, `Builds` what the arguments can ask for, and both why there may be none; a run
finds just these (`loads_iff`, `builds_iff`). What a run leaves is then read off the editor: the files
are those that the editor leaves, and the exit code tells whether it succeeded. An edit that is told
by options is the one that a document with the same contents asks for (`respond_inDocument`).
-/

namespace Anchored

namespace EditResponse

theorem success_ofEdit {id : String} {answer : Except EditError EditResult} :
    (ofEdit id answer).success = true ↔ ∃ result, answer = .ok result := by
  rcases answer with error | result
  · simp [ofEdit, ofError]
  · simp [ofEdit, ofReport]

theorem success_ofCheck (id : String) (check : AnchorCheck) :
    (ofCheck id check).success = check.holds := by
  unfold ofCheck
  split_ifs with h
  · exact h.symm
  · simpa using h

theorem executionId_ofEdit (id : String) (answer : Except EditError EditResult) :
    (ofEdit id answer).executionId = id := by
  rcases answer with _ | _ <;> rfl

theorem executionId_ofCheck (id : String) (check : AnchorCheck) :
    (ofCheck id check).executionId = id := by
  unfold ofCheck
  split_ifs <;> rfl

/-- The same response under another name. -/
theorem ofEdit_renamed (id other : String) (answer : Except EditError EditResult) :
    { ofEdit id answer with executionId := other } = ofEdit other answer := by
  rcases answer with _ | _ <;> rfl

theorem ofCheck_renamed (id other : String) (check : AnchorCheck) :
    { ofCheck id check with executionId := other } = ofCheck other check := by
  unfold ofCheck
  split_ifs <;> rfl

end EditResponse

theorem ExecutionId.resolve_auto : ExecutionId.resolve ExecutionId.auto = .fresh :=
  if_pos (Or.inl rfl)

namespace CommandLine

variable {w w' : Surroundings} {s : Store} {a : Arguments}

/-! ## What a run reads -/

/-- What is supplied at `source`: the text of a file, or that of the standard input if no file is
named; or why there is none. -/
inductive Supplies (w : Surroundings) (s : Store) :
    Option String → Except Fault String → Prop where
  /-- The file holds a text. -/
  | file (path text : String) (text_eq : s.text path = .ok text) :
    Supplies w s (some path) (.ok text)
  /-- There is no such file, or none with a text. -/
  | noFile (path : String) (fault : Fault) (text_eq : s.text path = .error fault) :
    Supplies w s (some path) (.error fault)
  /-- The bytes of the standard input are the form of a text. -/
  | input (text : String) (input_eq : w.input = text.toUTF8) : Supplies w s none (.ok text)
  /-- They are the form of no text. -/
  | noInput (input_ne : ∀ text : String, w.input ≠ text.toUTF8) :
    Supplies w s none (.error .notText)

theorem supplies_input (w : Surroundings) (s : Store) : Supplies w s none w.text := by
  unfold Surroundings.text
  rcases htext : String.fromUTF8? w.input with _ | text
  · refine .noInput fun text heq => ?_
    rw [Store.fromUTF8?_eq_some_iff.mpr heq.symm] at htext
    cases htext
  · exact .input text (Store.fromUTF8?_eq_some_iff.mp htext).symm

theorem supplies_iff {source : Option String} {answer : Except Fault String} :
    Supplies w s source answer ↔ requestText w s source = answer := by
  constructor
  · intro h
    cases h with
    | file path text text_eq => exact text_eq
    | noFile path fault text_eq => exact text_eq
    | input text input_eq =>
      rw [requestText, Surroundings.text, Store.fromUTF8?_eq_some_iff.mpr input_eq.symm]
    | noInput input_ne =>
      rw [requestText, Surroundings.text]
      rcases htext : String.fromUTF8? w.input with _ | text
      · rfl
      · exact absurd (Store.fromUTF8?_eq_some_iff.mp htext).symm (input_ne text)
  · rintro rfl
    rcases source with _ | path
    · exact supplies_input w s
    rcases htext : s.text path with fault | text
    · rw [requestText, htext]
      exact .noFile path fault htext
    · rw [requestText, htext]
      exact .file path text htext

/-- The settings of a run: those in the file that the arguments name, or the default ones if they
name none; or why the file gives none. -/
inductive Loads (s : Store) (a : Arguments) : Except ConfigError EditorConfig → Prop where
  /-- No file is named. -/
  | unnamed (no_config : a.config = none) : Loads s a (.ok .default)
  /-- The file cannot be read. -/
  | unreadable (path : String) (fault : Fault) (config_eq : a.config = some path)
    (text_eq : s.text path = .error fault) : Loads s a (.error (.fault path fault))
  /-- The file holds no settings. -/
  | malformed (path text : String) (error : Json.Error) (config_eq : a.config = some path)
    (text_eq : s.text path = .ok text) (read : EditorConfig.read text = .error error) :
    Loads s a (.error (.malformed path error))
  /-- The file holds settings. -/
  | loaded (path text : String) (config : EditorConfig) (config_eq : a.config = some path)
    (text_eq : s.text path = .ok text) (read : EditorConfig.read text = .ok config) :
    Loads s a (.ok config)

theorem loads_loadConfig (s : Store) (a : Arguments) : Loads s a (loadConfig s a) := by
  rcases hconfig : a.config with _ | path
  · simp only [loadConfig, hconfig]
    exact .unnamed hconfig
  rcases htext : s.text path with fault | text
  · simp only [loadConfig, EditorConfig.load, hconfig, htext]
    exact .unreadable path fault hconfig htext
  rcases hread : EditorConfig.read text with error | config
  · simp only [loadConfig, EditorConfig.load, hconfig, htext, hread]
    exact .malformed path text error hconfig htext hread
  · simp only [loadConfig, EditorConfig.load, hconfig, htext, hread]
    exact .loaded path text config hconfig htext hread

theorem loads_iff {answer : Except ConfigError EditorConfig} :
    Loads s a answer ↔ loadConfig s a = answer := by
  constructor
  · intro h
    cases h with
    | unnamed no_config => simp only [loadConfig, no_config]
    | unreadable path fault config_eq text_eq =>
      simp only [loadConfig, EditorConfig.load, config_eq, text_eq]
    | malformed path text error config_eq text_eq read =>
      simp only [loadConfig, EditorConfig.load, config_eq, text_eq, read]
    | loaded path text config config_eq text_eq read =>
      simp only [loadConfig, EditorConfig.load, config_eq, text_eq, read]
  · rintro rfl
    exact loads_loadConfig s a

/-! ## What the arguments ask for -/

/-- What is said of a request before the other options change it. -/
inductive Tells (w : Surroundings) (s : Store) (a : Arguments) : EditRequest → Prop where
  /-- The blocks are options. A check can do without the second one. -/
  | options (find replace : String) (find_eq : a.find = some find)
    (replace_eq : a.replace = some replace ∨
      a.replace = none ∧ a.check = true ∧ replace = "") :
    Tells w s a ⟨ExecutionId.auto, "", find, replace, none, false⟩
  /-- The request is in a file, or on the standard input. -/
  | document (text : String) (base : EditRequest) (no_find : a.find = none)
    (no_replace : a.replace = none) (supplied : Supplies w s a.request (.ok text))
    (read : EditRequest.read text = .ok base) : Tells w s a base

/-- The request with what the options say of it. -/
def Arguments.amend (a : Arguments) (base : EditRequest) : EditRequest :=
  { base with
    path := a.file.getD base.path
    strict := if a.fuzzy then some false else base.strict
    dryRun := a.dryRun || base.dryRun }

/-- The request that the arguments ask for, or why they ask for none. -/
inductive Builds (w : Surroundings) (s : Store) (a : Arguments) :
    Except RequestError EditRequest → Prop where
  /-- There is a block to find and none to put there, and the anchor is not only checked. -/
  | findAlone (find : String) (find_eq : a.find = some find) (no_replace : a.replace = none)
    (edits : a.check = false) : Builds w s a (.error .findAlone)
  /-- There is a block to put somewhere and none to find. -/
  | replaceAlone (replace : String) (no_find : a.find = none)
    (replace_eq : a.replace = some replace) : Builds w s a (.error .replaceAlone)
  /-- The document cannot be read. -/
  | unreadable (fault : Fault) (no_find : a.find = none) (no_replace : a.replace = none)
    (supplied : Supplies w s a.request (.error fault)) :
    Builds w s a (.error (.unreadable fault))
  /-- The document holds no request. -/
  | malformed (text : String) (error : Json.Error) (no_find : a.find = none)
    (no_replace : a.replace = none) (supplied : Supplies w s a.request (.ok text))
    (read : EditRequest.read text = .error error) : Builds w s a (.error (.malformed error))
  /-- No file is named. -/
  | noFile (base : EditRequest) (told : Tells w s a base) (unnamed : (a.amend base).path = "") :
    Builds w s a (.error .noFile)
  /-- There is a request. -/
  | built (base : EditRequest) (told : Tells w s a base) (named : (a.amend base).path ≠ "") :
    Builds w s a (.ok (a.amend base))

theorem baseRequest_of_tells {base : EditRequest} (h : Tells w s a base) :
    baseRequest w s a = .ok base := by
  cases h with
  | options find replace find_eq replace_eq =>
    rcases replace_eq with hreplace | ⟨hreplace, hcheck, rfl⟩
    · simp only [baseRequest, find_eq, hreplace]
    · simp only [baseRequest, find_eq, hreplace, hcheck, if_true]
  | document text _ no_find no_replace supplied read =>
    simp only [baseRequest, no_find, no_replace, supplies_iff.mp supplied, read]

theorem buildRequest_of_tells {base : EditRequest} (h : Tells w s a base) :
    buildRequest w s a = if (a.amend base).path = "" then .error .noFile else .ok (a.amend base) := by
  simp only [buildRequest, baseRequest_of_tells h]
  rfl

theorem builds_of_tells {base : EditRequest} (h : Tells w s a base) :
    Builds w s a (buildRequest w s a) := by
  rw [buildRequest_of_tells h]
  by_cases hpath : (a.amend base).path = ""
  · rw [if_pos hpath]
    exact .noFile base h hpath
  · rw [if_neg hpath]
    exact .built base h hpath

/-- The search for a request finds what the arguments ask for. -/
theorem builds_buildRequest (w : Surroundings) (s : Store) (a : Arguments) :
    Builds w s a (buildRequest w s a) := by
  -- The document is looked at only if neither block is an option.
  rcases hfind : a.find with _ | find <;> rcases hreplace : a.replace with _ | replace
  · rcases htext : requestText w s a.request with fault | text
    · simp only [buildRequest, baseRequest, hfind, hreplace, htext]
      exact .unreadable fault hfind hreplace (supplies_iff.mpr htext)
    rcases hread : EditRequest.read text with error | base
    · simp only [buildRequest, baseRequest, hfind, hreplace, htext, hread]
      exact .malformed text error hfind hreplace (supplies_iff.mpr htext) hread
    · exact builds_of_tells (.document text base hfind hreplace (supplies_iff.mpr htext) hread)
  · simp only [buildRequest, baseRequest, hfind, hreplace]
    exact .replaceAlone replace hfind hreplace
  · rcases hcheck : a.check with _ | _
    · simp only [buildRequest, baseRequest, hfind, hreplace, hcheck, Bool.false_eq_true, if_false]
      exact .findAlone find hfind hreplace hcheck
    · exact builds_of_tells (.options find "" hfind (Or.inr ⟨hreplace, hcheck, rfl⟩))
  · exact builds_of_tells (.options find replace hfind (Or.inl hreplace))

theorem builds_iff {answer : Except RequestError EditRequest} :
    Builds w s a answer ↔ buildRequest w s a = answer := by
  constructor
  · intro h
    cases h with
    | findAlone find find_eq no_replace edits =>
      simp [buildRequest, baseRequest, find_eq, no_replace, edits]
    | replaceAlone replace no_find replace_eq =>
      simp [buildRequest, baseRequest, no_find, replace_eq]
    | unreadable fault no_find no_replace supplied =>
      simp [buildRequest, baseRequest, no_find, no_replace, supplies_iff.mp supplied]
    | malformed text error no_find no_replace supplied read =>
      simp [buildRequest, baseRequest, no_find, no_replace, supplies_iff.mp supplied, read]
    | noFile base told unnamed => rw [buildRequest_of_tells told, if_pos unnamed]
    | built base told named => rw [buildRequest_of_tells told, if_neg named]
  · rintro rfl
    exact builds_buildRequest w s a

/-! ## What a run answers -/

/-- Without settings or a request, a run fails and leaves the files alone. -/
theorem respond_unbuilt (h : (∃ error, Loads s a (.error error)) ∨
      ∃ error, Builds w s a (.error error)) :
    (respond w s a).2 = s ∧ (respond w s a).1.success = false := by
  unfold respond
  rcases h with ⟨error, hloads⟩ | ⟨error, hbuilds⟩
  · rw [loads_iff.mp hloads]
    exact ⟨rfl, rfl⟩
  · rw [builds_iff.mp hbuilds]
    rcases loadConfig s a with _ | config
    · exact ⟨rfl, rfl⟩
    · exact ⟨rfl, rfl⟩

/-- With settings and a request, a run does what a new editor does. -/
theorem respond_built {config : EditorConfig} {r : EditRequest} (hloads : Loads s a (.ok config))
    (hbuilds : Builds w s a (.ok r)) :
    respond w s a =
      let id := (ExecutionId.resolve r.executionId).text w.freshId
      if a.check then (.ofCheck id ((Editor.new config).check s r), s)
      else (.ofEdit id ((Editor.new config).apply s r).1, ((Editor.new config).apply s r).2.2) := by
  simp only [respond, loads_iff.mp hloads, builds_iff.mp hbuilds]

/-- Without a file to write the response to, a run prints it and tells by its exit code whether it is
a success. -/
theorem run_eq {args : List String} (hargs : Invocation.read args = .run a)
    (hout : a.output = none) (w : Surroundings) (s : Store) :
    run args w s = ⟨if (respond w s a).1.success then 0 else 1,
      a.render (respond w s a).1 ++ "\n", (respond w s a).2⟩ := by
  simp only [run, hargs, runWith, hout]

/-! ## Requests in documents -/

/-- The arguments of a run whose request is in a document, and what else they say. -/
def Arguments.inDocument (a : Arguments) (source : Option String) : Arguments :=
  { a with
    file := .none
    find := .none
    replace := .none
    request := source
    fuzzy := false
    dryRun := false }

/-- The document at `source` names the file and the blocks. It asks for a lenient search and for a dry
run if the options of `a` do, and leaves the name of the run open. -/
def Says (w : Surroundings) (s : Store) (source : Option String) (a : Arguments)
    (file find replace : String) : Prop :=
  ∃ text id, Supplies w s source (.ok text) ∧ ExecutionId.resolve id = .fresh ∧
    EditRequest.read text =
      .ok ⟨id, file, find, replace, if a.fuzzy then some false else none, a.dryRun⟩

/-- What is asked for by options alone. -/
theorem buildRequest_of_options (w : Surroundings) (s : Store) {file find replace : String}
    (hfile : a.file = some file) (hfind : a.find = some find) (hreplace : a.replace = some replace) :
    buildRequest w s a = if file = "" then .error .noFile else
      .ok ⟨ExecutionId.auto, file, find, replace, if a.fuzzy then some false else none,
        a.dryRun⟩ := by
  have hamend : a.amend ⟨ExecutionId.auto, "", find, replace, none, false⟩ =
      ⟨ExecutionId.auto, file, find, replace, if a.fuzzy then some false else none, a.dryRun⟩ := by
    simp [Arguments.amend, hfile]
  rw [buildRequest_of_tells (.options find replace hfind (Or.inl hreplace)), hamend]

/-- What is asked for by a document alone. -/
theorem buildRequest_inDocument (a : Arguments) {source : Option String} {text : String}
    {r : EditRequest} (htext : Supplies w s source (.ok text))
    (hread : EditRequest.read text = .ok r) :
    buildRequest w s (a.inDocument source) = if r.path = "" then .error .noFile else .ok r := by
  have hamend : (a.inDocument source).amend r = r := by
    simp [Arguments.amend, Arguments.inDocument]
  rw [buildRequest_of_tells (.document text r rfl rfl htext hread), hamend]

/-- An edit that is told by options is answered as one that is told by a document, under the name that
is made up for the run. -/
theorem respond_inDocument {source : Option String} {file find replace : String}
    (hfile : a.file = some file) (hfind : a.find = some find) (hreplace : a.replace = some replace)
    (hdoc : Says w' s source a file find replace) :
    (respond w s a).1.executionId = w.freshId ∧ respond w' s (a.inDocument source) =
      ({ (respond w s a).1 with executionId := w'.freshId }, (respond w s a).2) := by
  obtain ⟨text, id, htext, hid, hread⟩ := hdoc
  have hbuild := buildRequest_of_options w s hfile hfind hreplace
  have hbuild' := buildRequest_inDocument a htext hread
  have hconfig : loadConfig s (a.inDocument source) = loadConfig s a := rfl
  have hcheck : (a.inDocument source).check = a.check := rfl
  rcases hloaded : loadConfig s a with error | config
  · simp only [respond, hconfig, hloaded]
    exact ⟨rfl, rfl⟩
  rw [hloaded] at hconfig
  by_cases hnamed : file = ""
  · rw [if_pos hnamed] at hbuild hbuild'
    simp only [respond, hconfig, hloaded, hbuild, hbuild']
    exact ⟨rfl, rfl⟩
  · rw [if_neg hnamed] at hbuild hbuild'
    -- The requests differ in their names, and either name leaves it to the run to make one up.
    rw [respond_built (loads_iff.mpr hloaded) (builds_iff.mpr hbuild),
      respond_built (loads_iff.mpr hconfig) (builds_iff.mpr hbuild'), hcheck, hid,
      ExecutionId.resolve_auto]
    by_cases hchecked : a.check = true
    · simp only [if_pos hchecked]
      refine ⟨EditResponse.executionId_ofCheck _ _, ?_⟩
      rw [EditResponse.ofCheck_renamed]
      rfl
    · simp only [if_neg hchecked]
      refine ⟨EditResponse.executionId_ofEdit _ _, ?_⟩
      rw [EditResponse.ofEdit_renamed]
      rfl

/-- **The command line does what the editor does.** Whatever the arguments are, they name settings,
or a file that gives none, and they ask for one request or, for one of the reasons in `Builds`, for
none. Without settings or a request no file changes and the exit code is 1. Otherwise a new editor
with these settings makes the edit: the files are those that it leaves, and the exit code is 0 exactly
if it succeeds. With `--check` the files are left alone, and the exit code is 0 exactly if the check
holds. An edit that is told by `--file`, `--find` and `--replace`, with or without `--fuzzy` and
`--dry-run`, is the one that a document with the same contents asks for: the files, the exit code and
the response are the same but for the name that is made up for the run. -/
theorem command_line_refines_editor {args : List String} {a : Arguments}
    (hargs : Invocation.read args = .run a) (hout : a.output = none) (w : Surroundings)
    (s : Store) :
    let outcome := run args w s
    (outcome.exitCode = 0 ∨ outcome.exitCode = 1) ∧
    (∃! answer, Loads s a answer) ∧ (∃! answer, Builds w s a answer) ∧
    ((∃ error, Loads s a (.error error)) ∨ (∃ error, Builds w s a (.error error)) →
      outcome.store = s ∧ outcome.exitCode = 1) ∧
    (∀ config r, Loads s a (.ok config) → Builds w s a (.ok r) →
      (a.check = true → outcome.store = s ∧
        (outcome.exitCode = 0 ↔ ((Editor.new config).check s r).holds = true)) ∧
      (a.check = false → outcome.store = ((Editor.new config).apply s r).2.2 ∧
        (outcome.exitCode = 0 ↔ ∃ result, ((Editor.new config).apply s r).1 = .ok result))) ∧
    ∀ file find replace source args' w',
      a.file = some file → a.find = some find → a.replace = some replace →
      Invocation.read args' = .run (a.inDocument source) → Says w' s source a file find replace →
      (run args' w' s).store = outcome.store ∧ (run args' w' s).exitCode = outcome.exitCode ∧
      ∃ response : EditResponse, response.executionId = w.freshId ∧
        outcome.output = a.render response ++ "\n" ∧
        (run args' w' s).output =
          a.render { response with executionId := w'.freshId } ++ "\n" := by
  intro outcome
  have hrun : outcome = _ := run_eq hargs hout w s
  have hcode : outcome.exitCode = if (respond w s a).1.success then 0 else 1 := by rw [hrun]
  have hzero : outcome.exitCode = 0 ↔ (respond w s a).1.success = true := by
    rw [hcode]
    split_ifs with hsuccess <;> simp [hsuccess]
  have hstore : outcome.store = (respond w s a).2 := by rw [hrun]
  refine ⟨?_, ⟨_, loads_loadConfig s a, fun _ h => (loads_iff.mp h).symm⟩,
    ⟨_, builds_buildRequest w s a, fun _ h => (builds_iff.mp h).symm⟩, fun hunbuilt => ?_,
    fun config r hloads hbuilds => ?_,
    fun file find replace source args' w' hfile hfind hreplace hargs' hdoc => ?_⟩
  · rw [hcode]
    split_ifs
    · exact Or.inl rfl
    · exact Or.inr rfl
  · obtain ⟨hsame, hfails⟩ := respond_unbuilt hunbuilt
    rw [hstore, hcode, hsame, hfails]
    exact ⟨rfl, rfl⟩
  · have hanswer := respond_built hloads hbuilds
    refine ⟨fun hcheck => ?_, fun hedit => ?_⟩
    · rw [if_pos hcheck] at hanswer
      rw [hzero, hstore, hanswer, EditResponse.success_ofCheck]
      exact ⟨rfl, Iff.rfl⟩
    · rw [if_neg (by simp [hedit])] at hanswer
      rw [hzero, hstore, hanswer]
      exact ⟨rfl, EditResponse.success_ofEdit⟩
  · -- Both runs print the response in the way that `a` asks for, for the document says nothing of it.
    obtain ⟨hname, hanswer⟩ := respond_inDocument hfile hfind hreplace hdoc
    have hrun' := run_eq hargs' hout w' s
    rw [hanswer] at hrun'
    rw [hrun', hstore, hcode]
    exact ⟨rfl, rfl, (respond w s a).1, hname, by rw [hrun], rfl⟩

/-- Settings that make the search lenient, in an edit that is told by options and by a document in a
file; and settings that are not there. -/
theorem command_line_refines_editor_configured :
    let edit := ["--file", "a.txt", "--find", "one", "--replace", "two", "-j", "--config"]
    let a : Arguments := ⟨some "a.txt", some "one", some "two", none, some "c.json", none, false,
      false, false, true⟩
    let document := "\x7b\"file_path\": \"a.txt\", \"find_block\": \"one\", " ++
      "\"replace_block\": \"two\"\x7d"
    let w : Surroundings := ⟨.empty, "1"⟩
    let s : Store := ⟨[(["a.txt"], .file "\tone\n".toUTF8), (["r.json"], .file document.toUTF8),
      (["c.json"], .file "\x7b\"strict\": false\x7d".toUTF8), ([], .directory)], none⟩
    let config : EditorConfig := { EditorConfig.default with strict := false }
    let r : EditRequest := ⟨ExecutionId.auto, "a.txt", "one", "two", none, false⟩
    Invocation.read (edit ++ ["c.json"]) = .run a ∧ a.output = none ∧ Loads s a (.ok config) ∧
      Builds w s a (.ok r) ∧ (run (edit ++ ["c.json"]) w s).exitCode = 0 ∧
      (∃ result, ((Editor.new config).apply s r).1 = .ok result) ∧
      (run (edit ++ ["c.json"]) w s).store.text "a.txt" = .ok "two\n" ∧
      (run ["-r", "r.json", "-c", "c.json", "-j"] w s).exitCode = 0 ∧
      (run ["-r", "r.json", "-c", "c.json", "-j"] w s).store.text "a.txt" = .ok "two\n" ∧
      (run (edit ++ ["d.json"]) w s).exitCode = 1 ∧ (run (edit ++ ["d.json"]) w s).store = s := by
  intro edit a document w s config r
  have hargs : Invocation.read (edit ++ ["c.json"]) = .run a := by decide +kernel
  have hargs' : Invocation.read ["-r", "r.json", "-c", "c.json", "-j"] =
      .run (a.inDocument (some "r.json")) := by decide +kernel
  have hmissing : Invocation.read (edit ++ ["d.json"]) =
      .run { a with config := some "d.json" } := by decide +kernel
  have hunloaded : Loads s { a with config := some "d.json" }
      (.error (.fault "d.json" .missing)) :=
    .unreadable "d.json" .missing rfl (by decide +kernel)
  have hdoc : Says w s (some "r.json") a "a.txt" "one" "two" :=
    ⟨document, "auto", .file _ _ (by decide +kernel), by decide, by decide +kernel⟩
  have hloads : Loads s a (.ok config) :=
    .loaded "c.json" "\x7b\"strict\": false\x7d" config rfl (by decide +kernel) (by decide +kernel)
  have hbuilds : Builds w s a (.ok r) :=
    .built _ (.options "one" "two" rfl (Or.inl rfl)) (by decide)
  obtain ⟨_, _, _, _, hbuilt, hdocument⟩ := command_line_refines_editor hargs rfl w s
  obtain ⟨_, _, _, hunbuilt, _⟩ := command_line_refines_editor hmissing rfl w s
  obtain ⟨hstore, hzero⟩ := (hbuilt config r hloads hbuilds).2 rfl
  obtain ⟨hstore', hcode', _⟩ := hdocument _ _ _ _ _ w rfl rfl rfl hargs' hdoc
  obtain ⟨hsame, hfails⟩ := hunbuilt (Or.inl ⟨_, hunloaded⟩)
  have hcode : (run (edit ++ ["c.json"]) w s).exitCode = 0 := by decide +kernel
  have htext : (run (edit ++ ["c.json"]) w s).store.text "a.txt" = .ok "two\n" := by
    rw [hstore]
    decide +kernel
  exact ⟨hargs, rfl, hloads, hbuilds, hcode, hzero.mp hcode, htext, hcode'.trans hcode,
    by rwa [hstore'], hfails, hsame⟩

end CommandLine

end Anchored
