import Mathlib.Logic.Function.Basic
import Anchored.CommandLine.Run
import Anchored.Proofs.Json.Printed
import Anchored.Proofs.Json.Records
import Anchored.Reply

/-!
# Responses on the wire

What is printed as JSON for a response spells its value (`spells_pretty`), and a reader takes that
value, with what was left out as nothing, for the response again (`Reply.ofValue?_take`). So a
caller gets back what the program had to say, whatever characters stand in its texts
(`json_output_decodes`).
-/

namespace Anchored

open Json

/-! ## What a reply tells -/

namespace Json

theorem Value.ofInt_injective : Function.Injective Value.ofInt := by
  intro n n' h
  have hnumber := Value.number.inj h
  split at hnumber <;> split at hnumber
  · exact Number.negative.inj hnumber
  · exact nomatch hnumber
  · exact nomatch hnumber
  · have hnatural := Number.natural.inj hnumber
    omega

theorem Value.ofOption_injective {α : Type} {encode : α → Value} (hinj : Function.Injective encode)
    (hnull : ∀ a, encode a ≠ .null) : Function.Injective (Value.ofOption encode) := by
  intro o o' h
  match o, o' with
  | none, none => rfl
  | some a, some a' => exact congrArg some (hinj h)
  | none, some a => exact absurd h.symm (hnull a)
  | some a, none => exact absurd h (hnull a)

end Json

theorem ErrorKind.text_injective : Function.Injective ErrorKind.text := by
  intro k k' h
  cases k <;> cases k' <;> first | rfl | exact absurd h (by decide)

theorem Deed.eq_of_isDryRun_of_line? {d d' : Deed} (hdry : d.isDryRun = d'.isDryRun)
    (hline : d.line? = d'.line?) : d = d' := by
  cases d <;> cases d' <;> simp_all [Deed.isDryRun, Deed.line?]

theorem EditResult.toValue_injective : Function.Injective EditResult.toValue := by
  intro r r' h
  simp only [EditResult.toValue, Value.object.injEq, List.cons.injEq, Prod.mk.injEq,
    Value.bool.injEq, Value.string.injEq, true_and, and_true] at h
  obtain ⟨hshift, hdry, hpath, hline, hlines, hlint, -, hnew, hnewPreview, hold, holdPreview, -,
    hproblem⟩ := h
  have hnat : Function.Injective Value.ofNat := fun n n' h => by simpa [Value.ofNat] using h
  have hstring : Function.Injective Value.string := fun s s' h => Value.string.inj h
  have hitems : Function.Injective fun issues : List String => Value.array (issues.map .string) :=
    fun issues issues' h => hstring.list_map (Value.array.inj h)
  obtain ⟨path, deed, oldPreview, newPreview, linesChanged, shift, problem, lint, old, new⟩ := r
  obtain rfl := Deed.eq_of_isDryRun_of_line? hdry
    (Value.ofOption_injective hnat (fun _ h => nomatch h) hline)
  obtain rfl := hpath
  obtain rfl := Value.ofInt_injective hshift
  obtain rfl := hnat hlines
  obtain rfl := Value.ofOption_injective hitems (fun _ h => nomatch h) hlint
  obtain rfl := Value.ofOption_injective hstring (fun _ h => nomatch h) hproblem
  obtain rfl := hnew
  obtain rfl := hnewPreview
  obtain rfl := hold
  obtain rfl := holdPreview
  rfl

theorem Report.toValue_injective : Function.Injective Report.toValue := by
  intro report report' h
  match report, report' with
  | .edit result, .edit result' => rw [EditResult.toValue_injective h]
  | .anchor message, .anchor message' =>
    simp only [toValue, Value.object.injEq, List.cons.injEq, Prod.mk.injEq, Value.string.injEq,
      true_and, and_true] at h
    rw [h]
  | .edit result, .anchor message => simp [toValue, EditResult.toValue] at h
  | .anchor message, .edit result => simp [toValue, EditResult.toValue] at h

/-- A reply tells everything that the response does. -/
theorem Reply.ofResponse_injective : Function.Injective Reply.ofResponse := by
  intro r r' h
  obtain ⟨id, success, result, kind, count, error⟩ := r
  obtain ⟨rfl, rfl, hresult, hkind, rfl, rfl⟩ := Reply.mk.inj h
  obtain rfl := Option.map_injective Report.toValue_injective hresult
  obtain rfl := Option.map_injective ErrorKind.text_injective hkind
  rfl

/-! ## What is printed -/

/-- The numbers of the result fit the 64 bits that the program has for each. -/
structure EditResult.Fits (r : EditResult) : Prop where
  line : ∀ line ∈ r.deed.line?, line ≤ maxNatural
  linesChanged : r.linesChanged ≤ maxNatural
  le_byteShift : -Nat.pow 2 63 ≤ r.byteShift
  byteShift_lt : r.byteShift < Nat.pow 2 63

/-- The numbers of the response fit the 64 bits that the program has for each. -/
structure EditResponse.Fits (r : EditResponse) : Prop where
  matchCount : ∀ count ∈ r.matchCount, count ≤ maxNatural
  result : ∀ result, r.result = some (.edit result) → result.Fits

theorem EditResult.Fits.toValue {r : EditResult} (h : r.Fits) : r.toValue.Fits 2 := by
  have hshift := fits_ofInt h.le_byteShift h.byteShift_lt 1
  have hline : (Value.ofOption Value.ofNat r.deed.line?).Fits 1 :=
    fits_ofOption fun line hline => h.line line hline
  have hlines : (Value.ofNat r.linesChanged).Fits 1 := h.linesChanged
  have hlint : (Value.ofOption (fun issues => Value.array (issues.map Value.string))
      r.lintIssues).Fits 1 :=
    fits_ofOption fun issues _ => by simp
  have hproblem : (Value.ofOption Value.string r.problem).Fits 1 :=
    fits_ofOption fun problem _ => fits_string problem 1
  simp [EditResult.toValue, hshift, hline, hlines, hlint, hproblem]

theorem Report.fits_toValue {report : Report} (h : ∀ result, report = .edit result → result.Fits) :
    report.toValue.Fits 2 := by
  cases report with
  | edit result => exact (h result rfl).toValue
  | anchor message => simp [Report.toValue]

theorem EditResponse.Fits.toValue {r : EditResponse} (h : r.Fits) : r.toValue.Fits 3 := by
  rw [EditResponse.toValue, fits_object]
  intro m hm
  simp only [List.mem_append, Option.mem_toList, Option.map_map, Option.map_eq_some_iff] at hm
  obtain (((hm | ⟨report, hreport, rfl⟩) | ⟨kind, -, rfl⟩) | ⟨count, hcount, rfl⟩) |
    ⟨error, -, rfl⟩ := hm
  · revert m
    simp
  · exact Report.fits_toValue fun result hresult => h.result result (hresult ▸ hreport)
  · exact fits_string _ 2
  · exact (fits_number _ 2).mpr (h.matchCount count hcount)
  · exact fits_string _ 2

/-! ## What is read -/

/-- The fields that are left out are nothing again. -/
theorem Reply.ofValue?_take (r : EditResponse) :
    (Reply.shape.take r.toValue).bind Reply.ofValue? = some (.ofResponse r) := by
  obtain ⟨id, success, result, kind, count, error⟩ := r
  rcases result with _ | _ | _ <;> cases kind <;> cases count <;> cases error <;> rfl

theorem Reply.reads_shape {r : EditResponse} (h : r.Fits) :
    Reply.shape.Reads depthLimit 7 r.toValue := by
  have hnests := h.toValue.nests
  refine reads_record "EditResponse" (by decide) (by decide) fun part hpart field hfield => ?_
  have hany : Shape.any.Reads 127 0 part := reads_any (hnests part hpart) (by decide)
  simp only [List.mem_cons, List.not_mem_nil, or_false] at hfield
  obtain rfl | rfl | rfl | rfl | rfl | rfl := hfield
  · exact (reads_text 127 part).mono (by decide)
  · exact (reads_flag 127 part).mono (by decide)
  · exact reads_nullable hany
  · exact reads_nullable (reads_text 127 part)
  · exact reads_nullable (reads_natural "usize" 127 part)
  · exact reads_nullable (reads_text 127 part)

/-- A text of the response is read as the response. -/
theorem Reply.read_of_spells {r : EditResponse} {text : String} (hfits : r.Fits)
    (h : SpellsDocument text r.toValue) : Reply.read text = .ok (.ofResponse r) := by
  have hread := toOption_read h (Reply.reads_shape hfits) (by decide)
  exact bind_eq_ok ofValue? (by rw [hread, Reply.ofValue?_take]) fun v hv => by simp [hv]

namespace CommandLine

/-- **JSON output reads as the response.** For every response whose numbers fit the 64 bits that the
program has for them, the text that is printed with `--json` is a JSON text of it, and a caller who
reads it gets back the response: what was left out is nothing again, and no two responses give the
same reply. The same holds of what a run prints. -/
theorem json_output_decodes {a : Arguments} (hjson : a.json = true) :
    (∀ r : EditResponse, r.Fits →
      SpellsDocument (a.render r) r.toValue ∧ Reply.read (a.render r) = .ok (.ofResponse r)) ∧
    Function.Injective Reply.ofResponse ∧
    ∀ w s, a.output = none → (respond w s a).1.Fits →
      Reply.read (runWith w s a).output = .ok (.ofResponse (respond w s a).1) := by
  have hrender : ∀ r : EditResponse, a.render r = r.toValue.pretty := fun r => by
    rw [Arguments.render, if_pos hjson]
  refine ⟨fun r hr => ?_, Reply.ofResponse_injective, fun w s hout hr => ?_⟩
  · have hspells := spells_pretty_self hr.toValue
    rw [← hrender] at hspells
    exact ⟨hspells, Reply.read_of_spells hr hspells⟩
  · -- A run puts a line feed behind the text, which is white space to a reader.
    have hspells := spells_pretty hr.toValue (w := ['\n']) (List.forall_mem_singleton.mpr rfl)
    rw [← hrender] at hspells
    rw [runWith, hout]
    exact Reply.read_of_spells hr hspells

/-- A failure and an edit, whose texts have quotes, control characters and characters of many
bytes. -/
theorem json_output_decodes_escaped :
    let a : Arguments := { Arguments.none with json := true }
    let failed : EditResponse :=
      ⟨"run", false, none, some .ambiguous, some 2, some "\"\x01\x1f\\ \t äß 😀\n"⟩
    let result : EditResult := ⟨"a \"b\".txt", .replaced 3, "\t\x00\\u0041", "ü\r\n\x7f", 2, -4,
      none, some ["E1: \"😀\""], "0", "1"⟩
    let done := EditResponse.ofReport "run" (.edit result)
    a.json = true ∧ failed.Fits ∧ done.Fits ∧
      Reply.read (a.render failed) =
        .ok ⟨"run", false, none, some "ambiguous", some 2, some "\"\x01\x1f\\ \t äß 😀\n"⟩ ∧
      Reply.read (a.render done) = .ok ⟨"run", true, some result.toValue, none, none, none⟩ := by
  intro a failed result done
  have hfailed : failed.Fits := ⟨fun count h => by cases h; decide, fun _ h => nomatch h⟩
  have hresult : result.Fits :=
    ⟨fun line h => by cases h; decide, by decide, by decide, by decide⟩
  have hdone : done.Fits := by
    refine ⟨fun count h => (by cases h), fun edited h => ?_⟩
    cases h
    exact hresult
  obtain ⟨hdecodes, _⟩ := json_output_decodes (a := a) rfl
  exact ⟨rfl, hfailed, hdone, (hdecodes failed hfailed).2, (hdecodes done hdone).2⟩

end CommandLine

end Anchored
