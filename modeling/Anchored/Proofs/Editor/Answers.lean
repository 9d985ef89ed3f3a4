import Anchored.Proofs.Anchor.Counts
import Anchored.Proofs.Editor.Steps
import Anchored.Proofs.Text.Occurrence
import Anchored.Response

/-!
# The answers to edits

A response says in several fields what became of a request, and the fields agree. The count in it is
there only if the anchor did not name one place, and tells why (`match_counts_truthful`).
-/

namespace Anchored

/-! ## Errors that count -/

namespace EditError

/-- An error has a count exactly if it is about how often the anchor was found. -/
theorem isSome_matchCount_iff (error : EditError) :
    error.matchCount.isSome = true ↔ error.kind = .anchorNotFound ∨ error.kind = .ambiguous := by
  cases error with
  | file cause => cases cause <;> simp [matchCount, kind]
  | _ => simp [matchCount, kind]

theorem matchCount_ofCount (path find : String) (count : Nat) :
    (ofCount path find count).matchCount = some count := by
  unfold ofCount
  simp only
  split_ifs with h
  · rw [h]
    rfl
  · rfl

theorem kind_ofCount (path find : String) (count : Nat) :
    (ofCount path find count).kind = if count = 0 then .anchorNotFound else .ambiguous := by
  unfold ofCount
  simp only
  split_ifs <;> rfl

/-- Where an error with a count was made of that count, and the count is not one, it is nothing or
many as the kind of the error says. -/
theorem matchCount_iff_kind {error : EditError}
    (h : ∀ n, error.matchCount = some n → n ≠ 1 ∧ ∃ path find, error = ofCount path find n) :
    (error.matchCount = some 0 ↔ error.kind = .anchorNotFound) ∧
      ((∃ n, error.matchCount = some n ∧ 2 ≤ n) ↔ error.kind = .ambiguous) := by
  have hkind := error.isSome_matchCount_iff
  rcases hcount : error.matchCount with _ | n
  · rw [hcount, Option.isSome_none, Bool.false_eq_true, false_iff, not_or] at hkind
    exact ⟨⟨nofun, fun hk => absurd hk hkind.1⟩, ⟨nofun, fun hk => absurd hk hkind.2⟩⟩
  · obtain ⟨hone, path, find, rfl⟩ := h n hcount
    rw [kind_ofCount]
    by_cases hzero : n = 0
    · simp [hzero]
    · have htwo : 2 ≤ n := by omega
      simp [hzero, htwo]

end EditError

/-- The edit is refused since its anchor was found `n` times in the text of the file. -/
structure EditError.Counts (error : EditError) (s : Store) (e : Edit) (n : Nat) : Prop where
  eq_ofCount : error = .ofCount e.path e.find n
  ne_one : n ≠ 1
  strict : ∃ content, s.text e.path = .ok content ∧
    (e.mode = .strict → n = (Text.occurrences content.toList e.find.toList).length)

variable {s : Store} {e : Edit} {error : EditError} {n : Nat}

/-- A plan that is refused with a count is refused for its anchor. -/
theorem Plan.of_counted (h : Plan.of s e = .error error) (hn : error.matchCount = some n) :
    error.Counts s e n := by
  by_cases ht : ∃ content, s.text e.path = .ok content
  · obtain ⟨content, ht⟩ := ht
    rw [of_text ht] at h
    rcases hl : locateUnique e.path content e.find e.mode with cause | span <;> simp only [hl] at h
    · cases h
      obtain ⟨count, rfl, hone, hstrict⟩ := exists_count_of_locateUnique hl
      obtain rfl : count = n := by
        rwa [EditError.matchCount_ofCount, Option.some.injEq] at hn
      exact ⟨rfl, hone, content, ht, hstrict⟩
    · rcases hr : Replacement.of e.path content span e.replace with cause | _ <;>
        simp only [hr] at h <;> cases h
      rcases Replacement.of_error hr with rfl | rfl <;> cases hn
  · push Not at ht
    by_cases hf : s.isFile e.path = true
    · rw [of_not_text hf ht] at h
      cases h
      cases hn
    · rw [of_not_isFile (by simpa using hf)] at h
      cases h
      cases hn

/-- What goes wrong when a plan is carried out is nothing that is counted. -/
theorem Plan.CarriesOut.uncounted {place : Place} {p : Plan} {t : Store}
    (h : CarriesOut s place p (.error error, t)) : error.matchCount = none := by
  cases h <;> rfl

/-- An edit that is refused with a count is refused for its anchor. -/
theorem Editor.edit_counted {ed : Editor} (h : (ed.edit s e).1 = .error error)
    (hn : error.matchCount = some n) : error.Counts s e n := by
  have hspec := ed.edit_spec s e
  generalize ed.edit s e = out at h hspec
  cases hspec with
  | unplanned _ none =>
    cases h
    exact Plan.of_counted none hn
  | planned _ _ _ => cases h
  | withdrawn p _ t some _ failed =>
    cases h
    obtain ⟨place, _, hout⟩ := Plan.exists_carriesOut some
    rw [failed] at hout
    rw [hout.uncounted] at hn
    cases hn
  | committed _ _ _ _ _ => cases h

/-- **Match counts in refusals are truthful.** A response has a result exactly if the request
succeeded, and it has an error and its kind exactly if not. It has a count exactly if the anchor was
not found or found more than once. The count is 0 exactly in the first case, and at least 2 in the
second. In strict mode it is the number of places at which the anchor stands in the file; the empty
anchor stands nowhere. Files are those of a `Store`, which can be read if they are there. -/
theorem match_counts_truthful (ed : Editor) (s : Store) (r : EditRequest) (id : String) :
    let response := EditResponse.ofEdit id (ed.apply s r).1
    (response.success = true ↔ response.result.isSome = true) ∧
    (response.success = true ↔ response.error = none) ∧
    (response.success = true ↔ response.errorKind = none) ∧
    (response.matchCount.isSome = true ↔
      response.errorKind = some .anchorNotFound ∨ response.errorKind = some .ambiguous) ∧
    (response.matchCount = some 0 ↔ response.errorKind = some .anchorNotFound) ∧
    ((∃ n, response.matchCount = some n ∧ 2 ≤ n) ↔ response.errorKind = some .ambiguous) ∧
    (r.strict.getD ed.config.strict = true → ∀ n, response.matchCount = some n →
      ∃ content, s.text r.path = .ok content ∧
        n = if r.find = "" then 0 else {i | OccursAt content r.find i}.ncard) := by
  intro response
  rcases hanswer : (ed.apply s r).1 with error | result
  · have hresponse : response = .ofError id error := by
      simp only [response, hanswer, EditResponse.ofEdit]
    obtain ⟨hnone, hmany⟩ := EditError.matchCount_iff_kind fun n hn => by
      have hcounts := Editor.edit_counted hanswer hn
      exact ⟨hcounts.ne_one, _, _, hcounts.eq_ofCount⟩
    rw [hresponse]
    simp only [EditResponse.ofError, Option.some.injEq]
    refine ⟨by simp, by simp, by simp, error.isSome_matchCount_iff, hnone, hmany,
      fun hstrict n hn => ?_⟩
    obtain ⟨content, htext, hcount⟩ := (Editor.edit_counted hanswer hn).strict
    refine ⟨content, htext, ?_⟩
    rw [hcount (if_pos hstrict)]
    split_ifs with hempty
    · have hfind : (r.edit ed.config.strict).find = "" := hempty
      rw [hfind]
      rfl
    · exact length_occurrences hempty
  · have hresponse : response = .ofReport id (.edit result) := by
      simp only [response, hanswer, EditResponse.ofEdit]
    rw [hresponse]
    simp [EditResponse.ofReport]

/-- Occurrences that overlap are counted each. -/
theorem match_counts_truthful_overlapping :
    let ed : Editor := ⟨.default, .empty 1, none⟩
    let s : Store := ⟨[(["a.txt"], .file "nanana\n".toUTF8), ([], .directory)], none⟩
    let r : EditRequest := ⟨"", "a.txt", "nana", "na", none, false⟩
    let response := EditResponse.ofEdit "1" (ed.apply s r).1
    (r.strict.getD ed.config.strict = true ∧ response.matchCount = some 2 ∧
      s.text "a.txt" = .ok "nanana\n") ∧
      response.errorKind = some .ambiguous ∧
      {i | OccursAt "nanana\n" "nana" i}.ncard = 2 := by
  intro ed s r response
  have htext : s.text "a.txt" = .ok "nanana\n" := by decide +kernel
  have hcount : response.matchCount = some 2 := by decide +kernel
  obtain ⟨_, _, _, _, _, hmany, hstrict⟩ := match_counts_truthful ed s r "1"
  obtain ⟨content, hcontent, htwo⟩ := hstrict rfl 2 hcount
  obtain rfl : content = "nanana\n" := Except.ok.inj (hcontent.symm.trans htext)
  rw [if_neg (by decide)] at htwo
  exact ⟨⟨rfl, hcount, htext⟩, hmany.mp ⟨2, hcount, le_rfl⟩, htwo.symm⟩

end Anchored
