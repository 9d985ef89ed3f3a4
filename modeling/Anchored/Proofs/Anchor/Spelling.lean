import Anchored.Proofs.Anchor.WholeLines
import Anchored.Proofs.Text.Spelling

/-!
# Lenient answers, said in lines

The span that a lenient anchor names depends on how the content is spelled, since tabs and
terminators have sizes. What it stands for does not: a range of lines (`NamesLines`), and no other
one (`NamesLines.range_eq`). So the answers for two spellings of a content are compared by the lines
that they name, or by the count with which they refuse (`AnswersInLines`). An answer depends on the
normal forms, on the texts of the lines and on whether the anchor ends with a terminator; all of
these are the same whatever the terminators (`endings_ignored`).
-/

namespace Anchored

namespace Anchor

open Text

variable {content content' find find' : List Char} {range : LineRange}

/-! ## What an answer depends on -/

theorem hits_congr (hc : normalize content' = normalize content)
    (hf : normalize find' = normalize find) : hits content' find' = hits content find := by
  have hnormal : normalHits content' find' = normalHits content find := by
    rw [normalHits, normalHits, hc, hf]
  have hcollapsed : collapsedHits content' find' = collapsedHits content find := by
    have hnumbered : numberedWords content' = numberedWords content := by
      rw [numberedWords, numberedWords, hc]
    rw [collapsedHits, collapsedHits, hnumbered, collapse_congr hf]
  rw [hits, hits, hnormal, hcollapsed]

theorem anchorLines_congr (hf : normalize find' = normalize find)
    (hend : endsWithTerminator find' = endsWithTerminator find) :
    anchorLines find' = anchorLines find := by
  rw [anchorLines, anchorLines, normalLines_congr hf, hend]

theorem locateLines_congr (hc : (lines content').map (·.text) = (lines content).map (·.text))
    (hf : anchorLines find' = anchorLines find) :
    locateLines content' find' = locateLines content find := by
  rw [locateLines, locateLines, hc, hf]

theorem uniqueRange_congr (hhits : hits content' find' = hits content find)
    (hlocate : locateLines content' find' = locateLines content find) :
    uniqueRange content' find' = uniqueRange content find := by
  rw [uniqueRange, uniqueRange, hhits, hlocate]

/-! ## The lines that a span stands for -/

theorem namesLines_of_uniqueRange (h : uniqueRange content find = .ok range) :
    NamesLines content find range.first range.last (rangeSpan content find range) := by
  obtain ⟨_, hlocate⟩ := of_uniqueRange h
  exact namesLines_of_mem_locateLines (hlocate ▸ List.mem_singleton_self range)

/-- A span stands for one range of lines. -/
theorem NamesLines.range_eq {span : Span} {range' : LineRange}
    (h : NamesLines content find range.first range.last span)
    (h' : NamesLines content find range'.first range'.last span) : range = range' := by
  obtain ⟨head, hhead, hstart⟩ := h.start_eq
  obtain ⟨head', hhead', hstart'⟩ := h'.start_eq
  have hfirst : range.first = range'.first :=
    eq_of_start_eq hhead hhead' (hstart.symm.trans hstart')
  have hlast : range.last = range'.last := by
    have := h.length_eq
    have := h'.length_eq
    omega
  rcases range with ⟨first, last⟩
  rw [LineRange.mk.injEq]
  exact ⟨hfirst, hlast⟩

end Anchor

open Anchor Text

variable {path content find : String}

theorem EditError.ofCount_injective {n m : Nat} (h : ofCount path find n = ofCount path find m) :
    n = m := by
  unfold ofCount at h
  simp only at h
  split_ifs at h with hn hm hm
  · omega
  · exact (EditError.ambiguous.inj h).2.1

/-- What a lenient search for the anchor answers: the lines that it names, or how often it was found
instead. -/
inductive AnswersInLines (path content find : String) : Except Nat LineRange → Prop where
  | named (range : LineRange) (span : Span)
      (answer : locateUnique path content find .fuzzy = .ok span)
      (lines : NamesLines content.toList find.toList range.first range.last span) :
      AnswersInLines path content find (.ok range)
  | refused (count : Nat)
      (answer : locateUnique path content find .fuzzy = .error (.ofCount path find count)) :
      AnswersInLines path content find (.error count)

/-- There is one answer, and it is the range that decides on the span. -/
theorem answersInLines_iff {answer : Except Nat LineRange} :
    AnswersInLines path content find answer ↔
      answer = uniqueRange content.toList find.toList := by
  constructor
  · intro h
    cases h with
    | named range span hspan hlines =>
      obtain ⟨range', hrange, rfl⟩ := locateUnique_fuzzy_eq_ok hspan
      rw [hrange, hlines.range_eq (namesLines_of_uniqueRange hrange)]
    | refused count herror =>
      simp only [locateUnique] at herror
      rcases hrange : uniqueRange content.toList find.toList with count' | range
      · simp only [hrange, Except.error.injEq] at herror
        rw [EditError.ofCount_injective herror]
      · simp only [hrange] at herror
        cases herror
  · rintro rfl
    rcases hrange : uniqueRange content.toList find.toList with count | range
    · exact .refused count (by simp only [locateUnique, hrange])
    · exact .named range _ (by simp only [locateUnique, hrange])
        (namesLines_of_uniqueRange hrange)

/-- A lenient search answers with these lines or this refusal, and so many occurrences are counted.
-/
structure Search (path content find : String) (answer : Except Nat LineRange) (count : Nat) :
    Prop where
  answers : AnswersInLines path content find answer
  count_eq : countMatches content find .fuzzy = count

/-- Contents with the same normal form and the same texts of lines are searched alike, for anchors
with the same normal form that end alike. -/
theorem Search.congr {content' find' : String} {answer : Except Nat LineRange} {count : Nat}
    (h : Search path content find answer count)
    (hc : normalize content'.toList = normalize content.toList)
    (htexts : (lines content'.toList).map (·.text) = (lines content.toList).map (·.text))
    (hf : normalize find'.toList = normalize find.toList)
    (hend : endsWithTerminator find'.toList = endsWithTerminator find.toList) :
    Search path content' find' answer count := by
  have hhits := hits_congr hc hf
  have hlocate := locateLines_congr htexts (anchorLines_congr hf hend)
  refine ⟨answersInLines_iff.mpr ?_, ?_⟩
  · rw [uniqueRange_congr hhits hlocate]
    exact answersInLines_iff.mp h.answers
  · rw [← h.count_eq, countMatches, countMatches, hhits]

/-- The text with a line feed for every terminator. -/
def withLineFeeds (t : String) : String :=
  String.ofList (unifyEndings t.toList)

/-- **Terminators do not matter to a lenient search.** With `\r\n` or `\r` in the content, in the
anchor, in both or in neither, the same lines are named or the same refusal is given, and the same
number of occurrences is counted. -/
theorem endings_ignored (path content find : String) :
    ∃ answer count, Search path content find answer count ∧
      Search path (withLineFeeds content) find answer count ∧
      Search path content (withLineFeeds find) answer count ∧
      Search path (withLineFeeds content) (withLineFeeds find) answer count := by
  have hnormal (t : String) : normalize (withLineFeeds t).toList = normalize t.toList := by
    rw [withLineFeeds, String.toList_ofList, normalize_unifyEndings]
  have htexts : (lines (withLineFeeds content).toList).map (·.text) =
      (lines content.toList).map (·.text) := by
    rw [withLineFeeds, String.toList_ofList, map_text_lines_unifyEndings]
  have hend : endsWithTerminator (withLineFeeds find).toList = endsWithTerminator find.toList := by
    rw [withLineFeeds, String.toList_ofList, endsWithTerminator_unifyEndings]
  have h : Search path content find (uniqueRange content.toList find.toList)
      (countMatches content find .fuzzy) := ⟨answersInLines_iff.mpr rfl, rfl⟩
  exact ⟨_, _, h, h.congr (hnormal content) htexts rfl rfl, h.congr rfl rfl (hnormal find) hend,
    h.congr (hnormal content) htexts (hnormal find) hend⟩

end Anchored
