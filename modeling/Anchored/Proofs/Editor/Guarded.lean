import Anchored.Proofs.Anchor.Guarded
import Anchored.Proofs.Editor.Gate

/-!
# Planning with guards

An edit is planned by searching for its anchor, cutting the text around the span that is found, and
counting the lines before it. With a guard at every step of this, no guard ever fails
(`guards_never_fail`): an accepted span starts and ends with characters of the text, which is all that
the steps after the search rely on.
-/

namespace Anchored

namespace Guarded

/-- The text with one span replaced. -/
def replacement? (path content : String) (span : Span) (block : String) :
    Option (Except EditError Replacement) := do
  let covered ← span.text? content.toList
  let size ← sub? span.stop span.start
  -- The room that is made for the new text is that of the block and of what stands around the span.
  let _ ← sub? content.utf8ByteSize size
  let before ← upTo? content.toList span.start
  let after ← from? content.toList span.stop
  let new := String.ofList (before ++ block.toList ++ after)
  if new = content then return .error (.noChange path)
  let old := String.ofList covered
  return .ok {
    content := new
    span := span
    oldBlock := old
    linesChanged := linesChanged old block
    byteShift := (block.utf8ByteSize : Int) - size
    checksum := checksum new }

/-- The plan of an edit, and the line that the replaced text starts on. -/
def plan? (s : Store) (e : Edit) : Option (Except EditError (Plan × Nat)) :=
  if s.isFile e.path then
    match Document.read s e.path with
    | .error error => some (.error (.file error))
    | .ok document => do
      match ← locateUnique? e.path document.content e.find e.mode with
      | .error error => return .error error
      | .ok span =>
        match ← replacement? e.path document.content span e.replace with
        | .error error => return .error error
        | .ok replacement =>
          let position ← position? document.content.toList replacement.span.start
          return .ok (⟨document, replacement⟩, position.line)
  else some (.error (.fileNotFound e.path))

variable {path content block : String} {span : Span}

/-- A span that starts and ends with characters can be replaced. -/
theorem replacement?_eq (h : span.Within content) (path block : String) :
    replacement? path content span block = some (Replacement.of path content span block) := by
  obtain ⟨before, covered, after, rfl, rfl⟩ := Span.within_iff.mp h
  have hcut := Replacement.cut?_splice before covered after
  have hbefore := upTo?_append before.toList (covered.toList ++ after.toList)
  have hafter := from?_append (before.toList ++ covered.toList) after.toList
  rw [← List.append_assoc, ← String.toList_append, ← String.toList_append,
    Text.byteSize_toList] at hbefore
  rw [← String.toList_append, ← String.toList_append, Text.byteSize_toList,
    String.utf8ByteSize_append] at hafter
  have hroom : covered.utf8ByteSize ≤ (before ++ covered ++ after).utf8ByteSize := by
    simp only [String.utf8ByteSize_append]
    omega
  simp only [replacement?, Replacement.of, Span.text?, Span.size, hcut, hbefore, hafter,
    sub?_eq (Nat.le_add_right _ _), Nat.add_sub_cancel_left, sub?_eq hroom, Option.map_some,
    Option.bind_eq_bind, Option.bind_some]
  split_ifs
  · rfl
  · rfl

theorem within_of_locateUnique {find : String} {mode : MatchMode}
    (h : locateUnique path content find mode = .ok span) : span.Within content :=
  Span.within_iff_cut?.mpr (exists_cut?_of_locateUnique h)

theorem plan?_eq (s : Store) (e : Edit) :
    plan? s e = some ((Plan.of s e).map fun p => (p, p.line)) := by
  unfold plan? Plan.of
  split_ifs
  · rcases Document.read s e.path with cause | document
    · rfl
    simp only [locateUnique?_eq, Option.bind_eq_bind, Option.bind_some]
    rcases hspan : locateUnique e.path document.content e.find e.mode with error | span
    · rfl
    simp only [replacement?_eq (within_of_locateUnique hspan), Option.bind_some]
    rcases Replacement.of e.path document.content span e.replace with error | replacement
    · rfl
    · simp only [position?_eq, Option.bind_some]
      rfl
  · rfl

end Guarded

/-- A replacement in a span that starts and ends with characters is not refused for the span. -/
theorem Replacement.of_ne_badSpan {content : String} {span : Span} (h : span.Within content)
    (path block : String) (other : Span) :
    Replacement.of path content span block ≠ .error (.badSpan other) := by
  obtain ⟨⟨before, covered, after⟩, hcut⟩ := Span.within_iff_cut?.mp h
  unfold Replacement.of
  simp only [hcut]
  split_ifs
  · simp
  · simp

/-- The anchor of an edit names no span that cannot be replaced. -/
theorem Plan.of_ne_badSpan (s : Store) (e : Edit) (span : Span) :
    Plan.of s e ≠ .error (.badSpan span) := by
  intro h
  rcases hread : Document.read s e.path with cause | document
  · obtain ⟨error, hnone, hgate, _⟩ := of_unreadable hread
    rw [hnone] at h
    cases h
    exact hgate
  rcases hnamed : locateUnique e.path document.content e.find e.mode with error | named
  · obtain ⟨count, rfl⟩ := locateUnique_error hnamed
    have hgate := EditError.atGate_ofCount e.path e.find count
    rw [of_refused hread hnamed] at h
    rw [Except.error.inj h] at hgate
    exact hgate
  · rcases of_named hread hnamed with hnone | ⟨p, hplan, _⟩
    · rw [hnone] at h
      cases h
    · rw [hplan] at h
      cases h

theorem Editor.edit_ne_badSpan (ed : Editor) (s : Store) (e : Edit) (span : Span) :
    (ed.edit s e).1 ≠ .error (.badSpan span) := by
  intro h
  have hspec := ed.edit_spec s e
  generalize ed.edit s e = out at h hspec
  cases hspec with
  | unplanned error none =>
    cases h
    exact Plan.of_ne_badSpan s e span none
  | planned p _ _ => cases h
  | withdrawn p error t some _ failed =>
    cases h
    obtain ⟨place, _, hout⟩ := Plan.exists_carriesOut some
    rw [failed] at hout
    cases hout
  | committed p t _ _ _ => cases h

/-- **No guard fails.** Written with a guard at every look-up, cut and difference, counting the
places of an anchor, locating its ranges of lines and finding the one place that it names give the
answers that they give without. Every span that is located or accepted runs forwards, ends within the
text, and starts and ends with characters. So whatever is put in its place, the replacement passes its
guards and is not refused for the span. So does the plan of every edit, with the line that is told of
it, and no edit is refused for the span that its anchor names. -/
theorem guards_never_fail (path content find : String) (mode : MatchMode) :
    Guarded.countMatches? content find mode = some (countMatches content find mode) ∧
    Guarded.locate? content find = some (locate content find) ∧
    Guarded.locateUnique? path content find mode = some (locateUnique path content find mode) ∧
    (∀ span, span ∈ locate content find ∨ locateUnique path content find mode = .ok span →
      (span.start ≤ span.stop ∧ span.stop ≤ content.utf8ByteSize ∧
        StartsCharacter content span.start ∧ StartsCharacter content span.stop) ∧
      ∀ block, Guarded.replacement? path content span block =
          some (Replacement.of path content span block) ∧
        Replacement.of path content span block ≠ .error (.badSpan span)) ∧
    (∀ s e, Guarded.plan? s e = some ((Plan.of s e).map fun p => (p, p.line))) ∧
    ∀ (ed : Editor) s e span, (ed.edit s e).1 ≠ .error (.badSpan span) := by
  refine ⟨Guarded.countMatches?_eq content find mode, Guarded.locate?_eq content find,
    Guarded.locateUnique?_eq path content find mode, fun span hspan => ?_, Guarded.plan?_eq,
    Editor.edit_ne_badSpan⟩
  have hwithin : span.Within content := by
    rcases hspan with hspan | hspan
    · obtain ⟨range, hrange, rfl⟩ := List.mem_map.mp hspan
      exact Guarded.within_rangeSpan hrange
    · exact Guarded.within_of_locateUnique hspan
  refine ⟨⟨hwithin.start_le, hwithin.stop_le, hwithin.start, hwithin.stop⟩, fun block => ?_⟩
  exact ⟨Guarded.replacement?_eq hwithin path block,
    Replacement.of_ne_badSpan hwithin path block span⟩

/-- A line of two-byte characters that is found leniently, after another one and with its
terminator. -/
theorem guards_never_fail_indented :
    locateUnique "f" "éé\n\txé\r\nz" "    xé\n" .fuzzy = .ok ⟨5, 11⟩ ∧
      (StartsCharacter "éé\n\txé\r\nz" 5 ∧ StartsCharacter "éé\n\txé\r\nz" 11) ∧
      Guarded.locateUnique? "f" "éé\n\txé\r\nz" "    xé\n" .fuzzy = some (.ok ⟨5, 11⟩) := by
  have hspan : locateUnique "f" "éé\n\txé\r\nz" "    xé\n" .fuzzy = .ok ⟨5, 11⟩ := by
    decide +kernel
  obtain ⟨_, _, hguarded, hwithin, _⟩ :=
    guards_never_fail "f" "éé\n\txé\r\nz" "    xé\n" .fuzzy
  obtain ⟨⟨_, _, hends⟩, _⟩ := hwithin _ (Or.inr hspan)
  exact ⟨hspan, hends, hguarded.trans (congrArg some hspan)⟩

/-- The guards do fail where there is something to guard against. -/
example :
    Guarded.replacement? "f" "é" ⟨1, 2⟩ "" = none ∧ Guarded.replacement? "f" "é" ⟨2, 0⟩ "" = none ∧
      Guarded.countUpTo? '\n' ['é'] 3 = none ∧
      Guarded.rangeSpan? ['é'] [] [⟨0, 2⟩] ⟨0, 1⟩ = none := by
  decide

end Anchored
