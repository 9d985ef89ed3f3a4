import Anchored.Proofs.Anchor.Counts
import Anchored.Proofs.Anchor.WholeLines
import Anchored.Proofs.Text.Guarded

/-!
# Searching with guards

The search for an anchor goes by offsets: into derived texts, into the list of their words, into the
list of the spans of lines. Here it is written with a guard at every look-up, cut and difference. No
guard fails, and what is found is the same (`countMatches?_eq`, `locate?_eq`, `locateUnique?_eq`).
The words of a text are one more than the spaces between them, so that a count of spaces is the number
of a word; and the byte of a terminator is in no other character, so that the spans of lines start and
end with characters.
-/

namespace Anchored

namespace Guarded

open Text Anchor

section Steps

variable {α β : Type} {l : List α}

/-- A step that has an answer for every member of a list can be taken for all of them. -/
theorem mapM_eq_some_map {f : α → Option β} {g : α → β} (h : ∀ a ∈ l, f a = some (g a)) :
    l.mapM f = some (l.map g) := by
  induction l with
  | nil => rfl
  | cons a l ih =>
    have hrest := ih fun b hb => h b (List.mem_cons_of_mem a hb)
    rw [List.mapM_cons, h a List.mem_cons_self, hrest]
    rfl

end Steps

variable {content find : List Char} {spans : List Span} {wanted : List (List Char)} {i : Nat}

/-! ## Occurrences -/

/-- First and last line of every occurrence of the normal form of `find` in that of `content`. -/
def normalHits? (content find : List Char) : Option (List LineRange) := do
  let text := normalize content
  let needle := normalize find
  if allBlank needle then return []
  let starts ← occurrences? text needle
  starts.mapM fun start => do
    let first ← countUpTo? '\n' text start
    let stop ← sub? (start + byteSize needle) 1
    let last ← countUpTo? '\n' text stop
    return ⟨first, last⟩

/-- First and last line of every occurrence of the collapsed `find` in the collapsed `content`. The
spaces before an occurrence number the word with which it starts. -/
def collapsedHits? (content find : List Char) : Option (List LineRange) := do
  let tokens := numberedWords content
  let text := [' '].intercalate (tokens.map (·.2))
  let needle := collapse find
  let starts ← occurrences? text needle
  starts.mapM fun start => do
    let spaces ← countUpTo? ' ' text start
    let first ← tokens[spaces]?
    let stop ← sub? (start + byteSize needle) 1
    let spaces ← countUpTo? ' ' text stop
    let last ← tokens[spaces]?
    return ⟨first.1, last.1⟩

/-- First and last line of every lenient occurrence of `find`. -/
def hits? (content find : List Char) : Option (List LineRange) := do
  match ← normalHits? content find with
  | [] => collapsedHits? content find
  | found => return found

/-- An occurrence takes at least one byte and ends within the text. -/
theorem bounds_of_mem_occurrences {t needle : List Char} (h : i ∈ occurrences t needle) :
    0 < byteSize needle ∧ i + byteSize needle ≤ byteSize t := by
  obtain ⟨hne, before, after, rfl, rfl⟩ := mem_occurrences_iff.mp h
  refine ⟨Nat.pos_of_ne_zero (mt byteSize_eq_zero.mp hne), ?_⟩
  simp only [byteSize_append]
  omega

theorem normalHits?_eq (content find : List Char) :
    normalHits? content find = some (normalHits content find) := by
  unfold normalHits? normalHits
  simp only
  split_ifs
  · rfl
  rw [occurrences?_eq]
  refine mapM_eq_some_map fun start hstart => ?_
  obtain ⟨hpos, hend⟩ := bounds_of_mem_occurrences hstart
  rw [countUpTo?_eq (by decide) (by omega), sub?_eq (by omega)]
  simp only [Option.bind_eq_bind, Option.bind_some]
  rw [countUpTo?_eq (by decide) (by omega)]
  rfl

/-- The spaces before a byte of the collapsed text number a word. -/
theorem exists_word (hne : words content ≠ []) (n : Nat) :
    ∃ word, (numberedWords content)[countBefore ' ' ([' '].intercalate (words content)) n]? =
      some word := by
  have hcount := count_space_collapse hne
  have hlen : (numberedWords content).length = (words content).length := by
    rw [← List.length_map (·.2), map_snd_numberedWords]
  have hle := countBefore_le_count ' ' (collapse content) n
  have hlt : countBefore ' ' (collapse content) n < (numberedWords content).length := by
    omega
  exact ⟨_, List.getElem?_eq_getElem hlt⟩

theorem collapsedHits?_eq (content find : List Char) :
    collapsedHits? content find = some (collapsedHits content find) := by
  unfold collapsedHits? collapsedHits
  simp only
  rw [occurrences?_eq]
  refine mapM_eq_some_map fun start hstart => ?_
  rw [map_snd_numberedWords] at hstart ⊢
  obtain ⟨hpos, hend⟩ := bounds_of_mem_occurrences hstart
  have hwords : words content ≠ [] := by
    intro hnil
    rw [hnil, List.intercalate_nil, byteSize] at hend
    omega
  obtain ⟨first, hfirst⟩ := exists_word hwords start
  obtain ⟨last, hlast⟩ := exists_word hwords (start + byteSize (collapse find) - 1)
  rw [countUpTo?_eq (by decide) (by omega), ← countBefore, sub?_eq (by omega)]
  simp only [Option.bind_eq_bind, Option.bind_some, hfirst]
  rw [countUpTo?_eq (by decide) (by omega), ← countBefore]
  simp only [Option.bind_some, hlast]
  rfl

theorem hits?_eq (content find : List Char) : hits? content find = some (hits content find) := by
  simp only [hits?, hits, normalHits?_eq, collapsedHits?_eq, Option.bind_eq_bind, Option.bind_some]
  rcases normalHits content find with _ | ⟨hit, more⟩
  · rfl
  · rfl

/-! ## Whole lines -/

/-- The texts in the spans agree one by one with the wanted ones. -/
def windowAgrees? (agree : List Char → List Char → Bool) (content : List Char) (spans : List Span)
    (wanted : List (List Char)) : Option Bool :=
  (spans.zip wanted).allM fun (span, want) => (span.text? content).map (agree · want)

/-- The ranges of lines from number `i` on that agree with the wanted ones. -/
def scan? (agree : List Char → List Char → Bool) (content : List Char) (spans : List Span)
    (wanted : List (List Char)) (hw : wanted ≠ []) (i : Nat) : Option (List LineRange) :=
  if i + wanted.length ≤ spans.length then do
    let window ← slice? spans i (i + wanted.length)
    let hit ← windowAgrees? agree content window wanted
    if hit then
      let last ← sub? (i + wanted.length) 1
      let others ← scan? agree content spans wanted hw (i + wanted.length)
      return ⟨i, last⟩ :: others
    else scan? agree content spans wanted hw (i + 1)
  else some []
termination_by spans.length - i
decreasing_by
  all_goals
    have := List.length_pos_iff.mpr hw
    omega

theorem ne_nil_of_not_all {p : List Char → Bool} (h : ¬ wanted.all p = true) : wanted ≠ [] := by
  rintro rfl
  exact h rfl

/-- The ranges of lines that agree with an anchor, where `spans` are the spans of the lines. -/
def locateLines? (content find : List Char) (spans : List Span) : Option (List LineRange) :=
  let wanted := anchorLines find
  if h : wanted.all allBlank = true then some []
  else do
    match ← scan? agrees content spans wanted (ne_nil_of_not_all h) 0 with
    | [] => scan? agreesUnindented content spans wanted (ne_nil_of_not_all h) 0
    | found => return found

/-- The span of a range of lines. -/
def rangeSpan? (content find : List Char) (spans : List Span) (range : LineRange) : Option Span := do
  let last ← spans[range.last]?
  let first ← spans[range.first]?
  let stop := if endsWithTerminator find then terminatorEnd content last.stop else last.stop
  return ⟨first.start, stop⟩

/-- The spans of the lines have the texts of the lines. -/
theorem windowAgrees?_eq {agree : List Char → List Char → Bool} {texts : List (List Char)}
    (h : spans.map (·.text? content) = texts.map some) :
    windowAgrees? agree content spans wanted =
      some ((texts.zip wanted).all fun (line, want) => agree line want) := by
  induction spans generalizing texts wanted with
  | nil =>
    obtain rfl : texts = [] := List.map_eq_nil_iff.mp h.symm
    rfl
  | cons span spans ih =>
    rcases texts with _ | ⟨text, texts⟩
    · cases h
    rcases wanted with _ | ⟨want, wanted⟩
    · rfl
    · obtain ⟨htext, hrest⟩ := List.cons.inj h
      have hwindow : windowAgrees? agree content spans wanted = _ := ih hrest
      simp only [windowAgrees?] at hwindow htext ⊢
      simp only [List.zip_cons_cons, List.allM_cons, List.all_cons, htext, hwindow, Option.map_some,
        Option.bind_eq_bind, Option.bind_some]
      rcases agree text want
      · rfl
      · rfl

theorem zip_take_length {α β : Type} (xs : List α) (ys : List β) :
    (xs.take ys.length).zip ys = xs.zip ys := by
  induction ys generalizing xs with
  | nil => simp
  | cons y ys ih =>
    rcases xs with _ | ⟨x, xs⟩
    · rfl
    · rw [List.length_cons, List.take_succ_cons, List.zip_cons_cons, List.zip_cons_cons, ih]

/-- The texts of a window are those of the lines from its first one on. -/
theorem map_text?_window (content : List Char) (i n : Nat) :
    (((lineSpans content).take (i + n)).drop i).map (·.text? content) =
      ((((lines content).map (·.text)).drop i).take n).map some := by
  rw [List.map_drop, List.map_take, map_text?_lineSpans, ← List.map_take, ← List.map_drop,
    List.take_drop]

/-- Where the window fits, the guarded search sees whether it agrees. -/
theorem window_eq (agree : List Char → List Char → Bool)
    (hfits : i + wanted.length ≤ (lines content).length) :
    ∃ window, slice? (lineSpans content) i (i + wanted.length) = some window ∧
      windowAgrees? agree content window wanted =
        some (windowAgrees agree wanted (((lines content).map (·.text)).drop i)) := by
  have hlen := length_lineSpans content
  refine ⟨_, if_pos ⟨Nat.le_add_right i _, by omega⟩, ?_⟩
  rw [windowAgrees?_eq (map_text?_window content i wanted.length), zip_take_length, windowAgrees]
  simp only [Option.some.injEq]
  rw [decide_eq_true (by simp; omega), Bool.true_and]

/-- Where no window fits any more, the search has come to its end. -/
theorem scan_of_short {agree : List Char → List Char → Bool} {lines : List (List Char)} (n : Nat)
    (h : lines.length < wanted.length) : scan agree wanted n lines = [] := by
  rw [List.eq_nil_iff_forall_not_mem]
  intro range hrange
  obtain ⟨j, _, hj⟩ := mem_scan hrange
  have hle := (windowAgrees_iff.mp hj).1
  rw [List.length_drop] at hle
  omega

/-- Stepping over numbers of lines is stepping through the lines. -/
theorem scan?_eq (agree : List Char → List Char → Bool) (content : List Char) (hw : wanted ≠ [])
    (i : Nat) :
    scan? agree content (lineSpans content) wanted hw i =
      some (scan agree wanted i (((lines content).map (·.text)).drop i)) := by
  have hpos := List.length_pos_iff.mpr hw
  have hlen := length_lineSpans content
  rw [scan?]
  split_ifs with hfits
  · obtain ⟨window, hslice, hwindow⟩ := window_eq agree (hlen ▸ hfits)
    have hlt : i < ((lines content).map (·.text)).length := by
      rw [List.length_map]
      omega
    simp only [hslice, hwindow, Option.bind_eq_bind, Option.bind_some]
    rw [List.drop_eq_getElem_cons hlt, scan, ← List.drop_eq_getElem_cons hlt]
    -- A window that agrees is passed as a whole, and otherwise its first line alone.
    by_cases hhit : windowAgrees agree wanted (((lines content).map (·.text)).drop i) = true
    · have ih := scan?_eq agree content hw (i + wanted.length)
      have hdrop : (((lines content).map (·.text)).drop (i + 1)).drop (wanted.length - 1) =
          ((lines content).map (·.text)).drop (i + wanted.length) := by
        rw [List.drop_drop]
        congr 1
        omega
      rw [if_pos hhit, if_pos ⟨hw, hhit⟩, sub?_eq (by omega), ih, hdrop]
      rfl
    · rw [if_neg hhit, if_neg (fun h => hhit h.2), scan?_eq agree content hw (i + 1)]
  · rw [scan_of_short]
    rw [List.length_drop, List.length_map]
    omega
termination_by (lines content).length - i
decreasing_by
  all_goals omega

theorem locateLines?_eq (content find : List Char) :
    locateLines? content find (lineSpans content) = some (locateLines content find) := by
  unfold locateLines? locateLines
  simp only
  split_ifs
  · rfl
  · simp only [scan?_eq, List.drop_zero, Option.bind_eq_bind, Option.bind_some]
    generalize scan agrees (anchorLines find) 0 ((lines content).map (·.text)) = found
    rcases found with _ | ⟨range, more⟩
    · rfl
    · rfl

/-- The span of a range of lines that is found starts and ends with characters. -/
theorem within_rangeSpan {content find : String} {range : LineRange}
    (h : range ∈ locateLines content.toList find.toList) :
    (rangeSpan content.toList find.toList range).Within content :=
  Span.within_iff_cut?.mpr (exists_cut?_rangeSpan h)

theorem rangeSpan?_eq {range : LineRange} (h : range ∈ locateLines content find) :
    rangeSpan? content find (lineSpans content) range = some (rangeSpan content find range) := by
  have hnames := namesLines_of_mem_locateLines h
  have hlast := hnames.last_lt
  have hfirst := Nat.lt_of_le_of_lt hnames.first_le hlast
  simp only [rangeSpan?, rangeSpan, List.getElem?_eq_getElem hlast, List.getElem?_eq_getElem hfirst,
    Option.map_some, Option.getD_some]
  rfl

/-! ## The one place -/

/-- How often an anchor occurs. -/
def countMatches? (content find : String) : MatchMode → Option Nat
  | .strict => (occurrences? content.toList find.toList).map List.length
  | .fuzzy => (hits? content.toList find.toList).map List.length

/-- The span of every range of whole lines that agrees with an anchor. -/
def locate? (content find : String) : Option (List Span) := do
  let spans ← lineSpans? content.toList
  let ranges ← locateLines? content.toList find.toList spans
  ranges.mapM (rangeSpan? content.toList find.toList spans)

/-- The error for an anchor that was found `count` times, where once was asked for. -/
def ofCount? (path find : String) (count : Nat) : Option EditError := do
  let preview ← preview? find EditError.anchorPreview
  return if count = 0 then .anchorNotFound path preview else .ambiguous path count preview

/-- The span of the range of lines that a lenient anchor names, or how often it was found instead. -/
def uniqueSpan? (content find : List Char) : Option (Except Nat Span) := do
  match ← hits? content find with
  | [hit] =>
    let spans ← lineSpans? content
    let ranges ← locateLines? content find spans
    let (holding, others) := ranges.partition (·.covers hit)
    match holding, others.length with
    | [range], 0 => return .ok (← rangeSpan? content find spans range)
    | [], 0 => return .error 0
    | _, n => return .error (1 + n)
  | found => return .error found.length

/-- The one span that an anchor names. -/
def locateUnique? (path content find : String) : MatchMode → Option (Except EditError Span)
  | .strict => do
    match ← occurrences? content.toList find.toList with
    | [start] => return .ok ⟨start, start + find.utf8ByteSize⟩
    | found => return .error (← ofCount? path find found.length)
  | .fuzzy => do
    match ← uniqueSpan? content.toList find.toList with
    | .ok span => return .ok span
    | .error count => return .error (← ofCount? path find count)

theorem countMatches?_eq (content find : String) (mode : MatchMode) :
    countMatches? content find mode = some (countMatches content find mode) := by
  cases mode with
  | strict => rw [countMatches?, occurrences?_eq, Option.map_some, countMatches]
  | fuzzy => rw [countMatches?, hits?_eq, Option.map_some, countMatches]

theorem locate?_eq (content find : String) : locate? content find = some (locate content find) := by
  simp only [locate?, lineSpans?_eq, locateLines?_eq, Option.bind_eq_bind, Option.bind_some]
  exact mapM_eq_some_map fun range hrange => rangeSpan?_eq hrange

theorem ofCount?_eq (path find : String) (count : Nat) :
    ofCount? path find count = some (.ofCount path find count) := by
  rw [ofCount?, preview?_eq]
  rfl

theorem uniqueSpan?_eq (content find : List Char) :
    uniqueSpan? content find =
      some ((uniqueRange content find).map (rangeSpan content find)) := by
  have hspan : ∀ range ∈ locateLines content find,
      rangeSpan? content find (lineSpans content) range = some (rangeSpan content find range) :=
    fun _ => rangeSpan?_eq
  simp only [uniqueSpan?, uniqueRange, hits?_eq, lineSpans?_eq, locateLines?_eq,
    Option.bind_eq_bind, Option.bind_some]
  generalize locateLines content find = ranges at hspan ⊢
  rcases hits content find with _ | ⟨hit, _ | ⟨next, more⟩⟩
  · rfl
  · simp only [List.partition_eq_filter_filter]
    have hholding : ∀ range ∈ ranges.filter (·.covers hit), _ := fun range hrange =>
      hspan range (List.mem_filter.mp hrange).1
    generalize ranges.filter (·.covers hit) = holding at hholding ⊢
    generalize (ranges.filter (not ∘ (·.covers hit))).length = n
    rcases holding with _ | ⟨range, _ | ⟨other, more⟩⟩ <;> rcases n with _ | n
    · rfl
    · rfl
    · simp only [hholding range (List.mem_singleton_self range), Option.bind_some]
      rfl
    · rfl
    · rfl
    · rfl
  · rfl

theorem locateUnique?_eq (path content find : String) (mode : MatchMode) :
    locateUnique? path content find mode = some (locateUnique path content find mode) := by
  cases mode with
  | strict =>
    simp only [locateUnique?, locateUnique, occurrences?_eq, ofCount?_eq, Option.bind_eq_bind,
      Option.bind_some]
    rcases occurrences content.toList find.toList with _ | ⟨start, _ | ⟨next, more⟩⟩
    · rfl
    · rfl
    · rfl
  | fuzzy =>
    simp only [locateUnique?, locateUnique, uniqueSpan?_eq, ofCount?_eq, Option.bind_eq_bind,
      Option.bind_some]
    rcases uniqueRange content.toList find.toList with count | range
    · rfl
    · rfl

end Guarded

end Anchored
