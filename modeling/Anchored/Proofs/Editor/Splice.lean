import Anchored.Proofs.Editor.Undone
import Anchored.Proofs.Text.Bytes

/-!
# Replacement is a reversible splice

A replacement is refused for changing nothing if the new block is the old one, whatever stands
around it: the surroundings are the same on both sides and cancel. Any other block goes in the place
of the old one, and putting the old one back in its place is a replacement as well
(`replacement_reversible`).
-/

namespace Anchored

namespace Replacement

variable {path before covered after block : String} {r : Replacement}

/-- What stands before the span, under it and behind it is known from the span. -/
theorem splices_of_ok
    (h : Replacement.of path (before ++ covered ++ after)
      ⟨before.utf8ByteSize, before.utf8ByteSize + covered.utf8ByteSize⟩ block = .ok r) :
    r.Splices (before ++ covered ++ after) block before covered after := by
  obtain ⟨front, old, rest, hsplices, hspan⟩ := exists_splices_of_ok h
  have hcut := cut?_splice front old rest
  rw [← hsplices.content_eq, ← hspan, cut?_splice] at hcut
  simp only [Option.some.injEq, Prod.mk.injEq, String.toList_inj] at hcut
  obtain ⟨rfl, rfl, rfl⟩ := hcut
  exact hsplices

/-- A replacement is refused for changing nothing if the block is the text that it covers. -/
theorem of_eq_noChange_iff :
    Replacement.of path (before ++ covered ++ after)
      ⟨before.utf8ByteSize, before.utf8ByteSize + covered.utf8ByteSize⟩ block =
        .error (.noChange path) ↔ block = covered := by
  constructor
  · intro h
    by_contra hne
    obtain ⟨r, hr, _⟩ := of_splice path before after hne
    rw [hr] at h
    cases h
  · rintro rfl
    exact of_same path before block after

/-- What a replacement put in can be replaced by what it took out. -/
theorem Splices.exists_back {content : String} (h : r.Splices content block before covered after)
    (path : String) :
    ∃ back, Replacement.of path r.content
        ⟨before.utf8ByteSize, before.utf8ByteSize + block.utf8ByteSize⟩ r.oldBlock = .ok back ∧
      back.content = content ∧ back.byteShift = -r.byteShift ∧
        back.linesChanged = r.linesChanged := by
  have hne : covered ≠ block := by
    rintro rfl
    exact h.changed (h.new_eq.trans h.content_eq.symm)
  obtain ⟨back, hback, hcontent⟩ := of_splice path before after hne
  have hsplices := splices_of_ok hback
  rw [h.new_eq, h.oldBlock_eq]
  refine ⟨back, hback, hcontent.trans h.content_eq.symm, ?_, ?_⟩
  · rw [hsplices.byteShift_eq, h.byteShift_eq]
    omega
  · rw [hsplices.linesChanged_eq, h.linesChanged_eq, linesChanged_comm]

end Replacement

/-- **A replacement is a splice that can be taken back.** A span that starts and ends with characters
cuts the text in three. Putting a block in the place of the middle one is refused for changing
nothing exactly if the two are the same. Otherwise the block stands between what stood around the
span, the text grows by the number of bytes told, and replacing the block by what it replaced gives
the text from before, shrinks it by as much, and tells of as many lines. -/
theorem replacement_reversible {content : String} {span : Span} (h : span.Within content) :
    ∃ before covered after, content = before ++ covered ++ after ∧
      span = ⟨before.utf8ByteSize, before.utf8ByteSize + covered.utf8ByteSize⟩ ∧
      ∀ path block,
        (Replacement.of path content span block = .error (.noChange path) ↔ block = covered) ∧
        (block ≠ covered → ∃ r, Replacement.of path content span block = .ok r ∧
          r.content = before ++ block ++ after ∧ r.oldBlock = covered ∧
          (r.content.utf8ByteSize : Int) = content.utf8ByteSize + r.byteShift ∧
          ∀ path', ∃ back,
            Replacement.of path' r.content ⟨span.start, span.start + block.utf8ByteSize⟩
              r.oldBlock = .ok back ∧
            back.content = content ∧ back.byteShift = -r.byteShift ∧
              back.linesChanged = r.linesChanged) := by
  obtain ⟨before, covered, after, rfl, rfl⟩ := Span.within_iff.mp h
  refine ⟨before, covered, after, rfl, rfl, fun path block => ⟨Replacement.of_eq_noChange_iff, ?_⟩⟩
  intro hne
  obtain ⟨r, hr, hcontent⟩ := Replacement.of_splice path before after hne
  have hsplices := Replacement.splices_of_ok hr
  refine ⟨r, hr, hcontent, hsplices.oldBlock_eq, ?_, hsplices.exists_back⟩
  rw [hsplices.byteShift_total]
  omega

/-- A text of one repeated two-byte character: the first one is doubled, and the two are made one
again. -/
theorem replacement_reversible_repeated :
    (Span.mk 0 2).Within "ééé" ∧
      ∃ r, Replacement.of "f" "ééé" ⟨0, 2⟩ "éé" = .ok r ∧ r.content = "éééé" ∧ r.byteShift = 2 ∧
        ∃ back, Replacement.of "f" "éééé" ⟨0, 4⟩ "é" = .ok back ∧ back.content = "ééé" := by
  have hwithin : (Span.mk 0 2).Within "ééé" :=
    Span.within_iff.mpr ⟨"", "é", "éé", by decide, by decide⟩
  obtain ⟨before, covered, after, htext, hspan, hlaw⟩ := replacement_reversible hwithin
  have hcut := Replacement.cut?_splice before covered after
  have hpieces : (Span.mk 0 2).cut? "ééé".toList = some ("".toList, "é".toList, "éé".toList) := by
    decide
  rw [← htext, ← hspan, hpieces] at hcut
  simp only [Option.some.injEq, Prod.mk.injEq, String.toList_inj] at hcut
  obtain ⟨rfl, rfl, rfl⟩ := hcut
  obtain ⟨r, hr, hcontent, hold, hsize, hback⟩ := (hlaw "f" "éé").2 (by decide)
  have hnew : r.content = "éééé" := hcontent
  rw [hnew] at hsize hback
  obtain ⟨back, hof, hsame, _⟩ := hback "f"
  rw [hold] at hof
  refine ⟨hwithin, r, hr, hnew, ?_, back, hof, hsame⟩
  simp only [show "éééé".utf8ByteSize = 8 by decide, show "ééé".utf8ByteSize = 6 by decide] at hsize
  omega

end Anchored
