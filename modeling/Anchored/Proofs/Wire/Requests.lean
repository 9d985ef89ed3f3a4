import Anchored.Config
import Anchored.Proofs.Json.Printed
import Anchored.Proofs.Json.Records
import Anchored.Request

/-!
# Requests and settings on the wire

An object carries a request, or the settings of an editor or of a linter, if one member for each
field has the field's value, or none has it and that value is the default. The order of the members
and all members with other names are of no account. Every text of such an object reads as what it
carries (`wire_defaults`), and no text reads that leaves out a field without a default.
-/

namespace Anchored

open Json

namespace Json

variable {members : List (String × Value)} {name : String} {shape : Shape} {v : Value}
  {default : Option Value} {fields : List (String × Shape × Option Value)}

/-- No member of the object has the name. -/
def Omits (members : List (String × Value)) (name : String) : Prop :=
  members.filter (·.1 == name) = []

/-- One member of the object has the name, and it has the value. -/
def Carries (members : List (String × Value)) (name : String) (v : Value) : Prop :=
  members.filter (·.1 == name) = [(name, v)]

theorem fieldValue_of_omits (h : Omits members name) :
    fieldValue [] members (name, shape, default) = default := by
  have hfilter : members.filter (·.1 == name) = [] := h
  simp [fieldValue, hfilter]

theorem fieldValue_of_carries {value : Value} (h : Carries members name v)
    (htake : shape.take v = some value) :
    fieldValue [] members (name, shape, default) = some value := by
  have hfilter : members.filter (·.1 == name) = [(name, v)] := h
  simp [fieldValue, hfilter, htake]

/-- A field has the value that a member carries, or else its default. -/
theorem fieldValue_eq {value : Value} {isDefault : Prop}
    (h : Carries members name v ∨ Omits members name ∧ isDefault)
    (htake : shape.take v = some value) (hdefault : isDefault → default = some value) :
    fieldValue [] members (name, shape, default) = some value := by
  obtain hcarries | ⟨homits, his⟩ := h
  · exact fieldValue_of_carries hcarries htake
  · rw [fieldValue_of_omits homits, hdefault his]

theorem take_record_of_omits (record : String) (shape : Shape)
    (hfield : (name, shape, none) ∈ fields) (h : Omits members name) :
    (Shape.record record fields).take (.object members) = none := by
  rw [Shape.take, takeMembers_eq, fieldValues_eq_none hfield (fieldValue_of_omits h),
    Option.map_none]

end Json

/-! ## What objects carry -/

variable {members : List (String × Value)}

/-- The object carries the request. -/
structure EditRequest.CarriedBy (r : EditRequest) (members : List (String × Value)) : Prop where
  executionId : Carries members "execution_id" (.string r.executionId) ∨
    Omits members "execution_id" ∧ r.executionId = "auto"
  path : Carries members "file_path" (.string r.path) ∨ Omits members "file_path" ∧ r.path = ""
  find : Carries members "find_block" (.string r.find)
  replace : Carries members "replace_block" (.string r.replace)
  strict : Carries members "strict" (.ofOption .bool r.strict) ∨
    Omits members "strict" ∧ r.strict = none
  dryRun : Carries members "dry_run" (.bool r.dryRun) ∨
    Omits members "dry_run" ∧ r.dryRun = false

/-- The object carries the settings of the linter. -/
structure LintConfig.CarriedBy (c : LintConfig) (members : List (String × Value)) : Prop where
  command : Carries members "command" (.string c.command)
  args : Carries members "args" (.array (c.args.map .string)) ∨ Omits members "args" ∧ c.args = []
  timeoutSecs : Carries members "timeout_secs" (.ofNat c.timeoutSecs) ∨
    Omits members "timeout_secs" ∧ c.timeoutSecs = 30

/-- The value tells whether there is a linter, and carries its settings. -/
def LintConfig.ToldBy : Option LintConfig → Value → Prop
  | none, v => v = .null
  | some c, v => ∃ members, v = .object members ∧ c.CarriedBy members

/-- The object carries the settings of the editor. -/
structure EditorConfig.CarriedBy (c : EditorConfig) (members : List (String × Value)) : Prop where
  maxHistory : Carries members "max_history" (.ofNat c.maxHistory) ∨
    Omits members "max_history" ∧ c.maxHistory = 100
  previewChars : Carries members "preview_chars" (.ofNat c.previewChars) ∨
    Omits members "preview_chars" ∧ c.previewChars = 200
  strict : Carries members "strict" (.bool c.strict) ∨ Omits members "strict" ∧ c.strict = true
  lint : (∃ v, Carries members "lint" v ∧ LintConfig.ToldBy c.lint v) ∨
    Omits members "lint" ∧ c.lint = none

/-! ## What is made of them -/

theorem EditRequest.ofValue?_take {r : EditRequest} (h : r.CarriedBy members) :
    (EditRequest.shape.take (.object members)).bind EditRequest.ofValue? = some r := by
  obtain ⟨id, path, find, replace, strict, dryRun⟩ := r
  have hid : fieldValue [] members ("execution_id", .text, some (.string ExecutionId.auto)) =
      some (.string id) := fieldValue_eq h.executionId rfl (by rintro rfl; rfl)
  have hpath : fieldValue [] members ("file_path", .text, some (.string "")) =
      some (.string path) := fieldValue_eq h.path rfl (by rintro rfl; rfl)
  have hfind : fieldValue [] members ("find_block", .text, none) = some (.string find) :=
    fieldValue_of_carries h.find rfl
  have hreplace : fieldValue [] members ("replace_block", .text, none) = some (.string replace) :=
    fieldValue_of_carries h.replace rfl
  have hstrict : fieldValue [] members ("strict", .nullable .flag, some .null) =
      some (.ofOption .bool strict) :=
    fieldValue_eq h.strict (by cases strict <;> rfl) (by rintro rfl; rfl)
  have hdry : fieldValue [] members ("dry_run", .flag, some (.bool false)) =
      some (.bool dryRun) := fieldValue_eq h.dryRun rfl (by rintro rfl; rfl)
  simp only [EditRequest.shape, Shape.take, takeMembers_eq, fieldValues, hid, hpath, hfind,
    hreplace, hstrict, hdry]
  cases strict <;> rfl

theorem mapM_map_string {α : Type} {f : Value → Option α} {g : String → α}
    (hf : ∀ s, f (.string s) = some (g s)) (texts : List String) :
    (texts.map Value.string).mapM f = some (texts.map g) := by
  have hpure : (fun s => f (.string s)) = fun s => pure (g s) := funext hf
  rw [List.mapM_map]
  exact (congrArg (texts.mapM ·) hpure).trans List.mapM_pure

/-- What carries a linter's settings has the shape, and its value stands for them. -/
theorem LintConfig.exists_take {c : LintConfig} (h : c.CarriedBy members) :
    ∃ fields, LintConfig.shape.take (.object members) = some (.object fields) ∧
      LintConfig.ofValue? (.object fields) = some c := by
  obtain ⟨command, args, secs⟩ := c
  have hcommand : fieldValue [] members ("command", .text, none) = some (.string command) :=
    fieldValue_of_carries h.command rfl
  have hargs : fieldValue [] members ("args", .list .text, some (.array [])) =
      some (.array (args.map .string)) :=
    fieldValue_eq h.args (congrArg (Option.map Value.array)
      (mapM_map_string (f := Shape.text.take) (fun _ => rfl) args)) (by rintro rfl; rfl)
  have hsecs : fieldValue [] members
      ("timeout_secs", .natural "u64", some (.ofNat defaultTimeout)) = some (.ofNat secs) :=
    fieldValue_eq h.timeoutSecs rfl (by rintro rfl; rfl)
  refine ⟨[("command", .string command), ("args", .array (args.map .string)),
    ("timeout_secs", .ofNat secs)], ?_, ?_⟩
  · simp only [LintConfig.shape, Shape.take, takeMembers_eq, fieldValues, hcommand, hargs, hsecs]
    rfl
  · rw [Value.ofNat, LintConfig.ofValue?, mapM_map_string (g := id) (fun _ => rfl), List.map_id]
    rfl

theorem EditorConfig.ofValue?_take {c : EditorConfig} (h : c.CarriedBy members) :
    (EditorConfig.shape.take (.object members)).bind EditorConfig.ofValue? = some c := by
  obtain ⟨maxHistory, previewChars, strict, lint⟩ := c
  have hmax : fieldValue [] members
      ("max_history", .natural "usize", some (.ofNat default.maxHistory)) =
      some (.ofNat maxHistory) := fieldValue_eq h.maxHistory rfl (by rintro rfl; rfl)
  have hpreview : fieldValue [] members
      ("preview_chars", .natural "usize", some (.ofNat default.previewChars)) =
      some (.ofNat previewChars) := fieldValue_eq h.previewChars rfl (by rintro rfl; rfl)
  have hstrict : fieldValue [] members ("strict", .flag, some (.bool default.strict)) =
      some (.bool strict) := fieldValue_eq h.strict rfl (by rintro rfl; rfl)
  obtain ⟨value, hlint, hvalue⟩ : ∃ value,
      fieldValue [] members ("lint", .nullable LintConfig.shape, some .null) = some value ∧
      EditorConfig.ofValue? (.object [("max_history", .ofNat maxHistory),
        ("preview_chars", .ofNat previewChars), ("strict", .bool strict), ("lint", value)]) =
        some ⟨maxHistory, previewChars, strict, lint⟩ := by
    obtain ⟨v, hcarries, htold⟩ | ⟨homits, hnone⟩ := h.lint
    · cases lint with
      | none =>
        obtain rfl : v = .null := htold
        exact ⟨.null, fieldValue_of_carries hcarries rfl, rfl⟩
      | some c =>
        obtain ⟨members, rfl, hc⟩ := htold
        obtain ⟨fields, htake, hfields⟩ := LintConfig.exists_take hc
        refine ⟨.object fields, fieldValue_of_carries hcarries htake, ?_⟩
        exact congrArg
          (Option.map fun c => (⟨maxHistory, previewChars, strict, some c⟩ : EditorConfig)) hfields
    · obtain rfl : lint = none := hnone
      exact ⟨.null, fieldValue_of_omits homits, rfl⟩
  simp only [EditorConfig.shape, Shape.take, takeMembers_eq, fieldValues, hmax, hpreview, hstrict,
    hlint]
  exact hvalue

/-! ## Reading -/

theorem EditRequest.reads_shape (v : Value) : EditRequest.shape.Reads depthLimit 7 v := by
  refine reads_record "EditRequest" (by decide) (by decide) fun part hpart field hfield => ?_
  have htext : Shape.text.Reads 127 1 part := (reads_text 127 part).mono (by decide)
  simp only [List.mem_cons, List.not_mem_nil, or_false] at hfield
  obtain rfl | rfl | rfl | rfl | rfl | rfl := hfield
  · exact htext
  · exact htext
  · exact htext
  · exact htext
  · exact reads_nullable (reads_flag 127 part)
  · exact (reads_flag 127 part).mono (by decide)

theorem LintConfig.reads_shape (depth : Nat) (v : Value) :
    LintConfig.shape.Reads (depth + 3) 3 v := by
  refine reads_record "LintConfig" (by decide) (by omega) fun part hpart field hfield => ?_
  simp only [List.mem_cons, List.not_mem_nil, or_false] at hfield
  obtain rfl | rfl | rfl := hfield
  · exact reads_text _ part
  · exact reads_list (by omega) fun item _ => reads_text _ item
  · exact reads_natural "u64" _ part

theorem EditorConfig.reads_shape (v : Value) : EditorConfig.shape.Reads depthLimit 8 v := by
  refine reads_record "EditorConfig" (by decide) (by decide) fun part hpart field hfield => ?_
  simp only [List.mem_cons, List.not_mem_nil, or_false] at hfield
  obtain rfl | rfl | rfl | rfl := hfield
  · exact (reads_natural "usize" 127 part).mono (by decide)
  · exact (reads_natural "usize" 127 part).mono (by decide)
  · exact (reads_flag 127 part).mono (by decide)
  · exact reads_nullable (LintConfig.reads_shape 124 part)

/-- **Objects read as what they carry.** Take any text that spells an object. If the object carries
a request, the settings of an editor or those of a linter, whatever the order of its members,
whatever fields with their default value it leaves out and whatever else it has, the text reads as
just these. If it leaves out a block of the request or the command of the linter, the text does not
read. -/
theorem wire_defaults {text : String} (h : SpellsDocument text (.object members)) :
    (∀ r : EditRequest, r.CarriedBy members → EditRequest.read text = .ok r) ∧
    (∀ c : EditorConfig, c.CarriedBy members → EditorConfig.read text = .ok c) ∧
    (∀ c : LintConfig, c.CarriedBy members → LintConfig.read text = .ok c) ∧
    (Omits members "find_block" ∨ Omits members "replace_block" →
      ∃ e, EditRequest.read text = .error e) ∧
    (Omits members "command" → ∃ e, LintConfig.read text = .error e) ∧
    ∀ lint, Carries members "lint" (.object lint) → Omits lint "command" →
      ∃ e, EditorConfig.read text = .error e := by
  have hrequest := toOption_read h (EditRequest.reads_shape _) (by decide)
  have hconfig := toOption_read h (EditorConfig.reads_shape _) (by decide)
  have hlint := toOption_read h (LintConfig.reads_shape 125 _) (by decide)
  refine ⟨fun r hr => ?_, fun c hc => ?_, fun c hc => ?_, fun homits => ?_, fun homits => ?_,
    fun lint hcarries homits => ?_⟩
  · have hvalue := hrequest ▸ EditRequest.ofValue?_take hr
    exact bind_eq_ok EditRequest.ofValue? hvalue fun v hv => by simp [hv]
  · have hvalue := hconfig ▸ EditorConfig.ofValue?_take hc
    exact bind_eq_ok EditorConfig.ofValue? hvalue fun v hv => by simp [hv]
  · obtain ⟨fields, htake, hfields⟩ := LintConfig.exists_take hc
    have hvalue : (LintConfig.shape.take (.object members)).bind LintConfig.ofValue? = some c := by
      rw [htake, Option.bind_some, hfields]
    rw [← hlint] at hvalue
    exact bind_eq_ok LintConfig.ofValue? hvalue fun v hv => by simp [hv]
  · refine exists_bind_error (hrequest.trans ?_) _
    obtain hfind | hreplace := homits
    · exact take_record_of_omits "EditRequest" .text (by simp) hfind
    · exact take_record_of_omits "EditRequest" .text (by simp) hreplace
  · refine exists_bind_error (hlint.trans ?_) _
    exact take_record_of_omits "LintConfig" .text (by simp) homits
  · -- What has no command is no value for the field of the linter.
    have hnone :
        fieldValue [] members ("lint", .nullable LintConfig.shape, some .null) = none := by
      rw [fieldValue, show members.filter (·.1 == "lint") = _ from hcarries]
      exact take_record_of_omits "LintConfig" .text (by simp) homits
    refine exists_bind_error (hconfig.trans ?_) _
    rw [EditorConfig.shape, Shape.take, takeMembers_eq, fieldValues_eq_none (by simp) hnone,
      Option.map_none]

/-- A request with its members in another order, two unknown ones, and defaults left out; settings
with those of a linter; and settings of a linter without a command. -/
theorem wire_defaults_reordered :
    let text := "\x7b\n  \"replace_block\": \"b\\n\",\n  \"note\": [\n    1,\n    null\n  ],\n" ++
      "  \"strict\": false,\n  \"find_block\": \"a\",\n  \"\": \"\"\n\x7d"
    let members : List (String × Value) := [("replace_block", .string "b\n"),
      ("note", .array [.ofNat 1, .null]), ("strict", .bool false), ("find_block", .string "a"),
      ("", .string "")]
    let settings : List (String × Value) := [("lint", .object [("timeout_secs", .ofNat 5),
      ("when", .null), ("command", .string "ruff")]), ("max_history", .ofNat 3)]
    let bare : List (String × Value) := [("args", .array [.string "check"])]
    SpellsDocument text (.object members) ∧
      EditRequest.read text = .ok ⟨"auto", "", "a", "b\n", some false, false⟩ ∧
      SpellsDocument (Value.object settings).pretty (.object settings) ∧
      EditorConfig.read (Value.object settings).pretty =
        .ok ⟨3, 200, true, some ⟨"ruff", [], 5⟩⟩ ∧
      (∃ e, LintConfig.read (Value.object bare).pretty = .error e) ∧
      ∃ e, EditorConfig.read (Value.object [("lint", .object bare)]).pretty = .error e := by
  intro text members settings bare
  have hmembers : (Value.object members).Fits 2 := by
    simp [members, Value.ofNat, Number.Fits, maxNatural]
  have hsettings : (Value.object settings).Fits 2 := by
    simp [settings, Value.ofNat, Number.Fits, maxNatural]
  have hbare : (Value.object bare).Fits 2 := by simp [bare]
  have hlint : (Value.object [("lint", .object bare)]).Fits 3 := by simp [bare]
  have htext : (Value.object members).pretty = text := by decide +kernel
  have hspells := htext ▸ spells_pretty_self hmembers
  have hrequest : EditRequest.CarriedBy ⟨"auto", "", "a", "b\n", some false, false⟩ members :=
    ⟨.inr ⟨rfl, rfl⟩, .inr ⟨rfl, rfl⟩, rfl, rfl, .inl rfl, .inr ⟨rfl, rfl⟩⟩
  have hconfig : EditorConfig.CarriedBy ⟨3, 200, true, some ⟨"ruff", [], 5⟩⟩ settings :=
    ⟨.inl rfl, .inr ⟨rfl, rfl⟩, .inr ⟨rfl, rfl⟩,
      .inl ⟨_, rfl, _, rfl, rfl, .inr ⟨rfl, rfl⟩, .inl rfl⟩⟩
  obtain ⟨hread, _⟩ := wire_defaults hspells
  obtain ⟨_, hload, _⟩ := wire_defaults (spells_pretty_self hsettings)
  obtain ⟨_, _, _, _, hcommand, _⟩ := wire_defaults (spells_pretty_self hbare)
  obtain ⟨_, _, _, _, _, hnested⟩ := wire_defaults (spells_pretty_self hlint)
  exact ⟨hspells, hread _ hrequest, spells_pretty_self hsettings, hload _ hconfig, hcommand rfl,
    hnested bare rfl rfl⟩

end Anchored
