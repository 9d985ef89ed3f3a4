import Anchored.Editor
import Anchored.Proofs.Disk.Files
import Anchored.Proofs.Editor.BoundedStack
import Anchored.Proofs.Text.Measure
import Mathlib.Data.List.Basic

/-!
# What one step of the editor can do

For planning, carrying out a plan, and a whole edit, one inductive predicate lists the outcomes
together with all that is known in each (`Plan.of_eq_ok_iff`, `Plan.carryOut_spec`,
`Editor.edit_spec`). What follows about edits is read off these lists.

The lists are complete for the files of a `Store`, and so is all that follows from them: a file that
is there can be read, and only its size makes a write of it fail. Permissions, links and special
files, of which a store knows nothing, would add outcomes.
-/

namespace Anchored

variable {s : Store}

theorem locateUnique_error {path content find : String} {mode : MatchMode} {error : EditError}
    (h : locateUnique path content find mode = .error error) :
    ∃ count, error = .ofCount path find count := by
  cases mode with
  | strict =>
    simp only [locateUnique] at h
    split at h <;> cases h
    exact ⟨_, rfl⟩
  | fuzzy =>
    simp only [locateUnique] at h
    split at h <;> cases h
    exact ⟨_, rfl⟩

namespace Replacement

theorem of_error {path content block : String} {span : Span} {error : EditError}
    (h : Replacement.of path content span block = .error error) :
    error = .badSpan span ∨ error = .noChange path := by
  unfold Replacement.of at h
  split at h
  · cases h
    exact Or.inl rfl
  · simp only at h
    split_ifs at h
    cases h
    exact Or.inr rfl

/-- A replacement that is not refused puts the block in the place of what the span cuts out. -/
theorem exists_cut_of_ok {path content block : String} {span : Span} {r : Replacement}
    (h : Replacement.of path content span block = .ok r) :
    ∃ before old after, span.cut? content.toList = some (before, old, after) ∧
      r.content = String.ofList (before ++ block.toList ++ after) ∧ r.content ≠ content ∧
      r.checksum = Anchored.checksum r.content := by
  unfold Replacement.of at h
  split at h
  · cases h
  · rename_i before old after hcut
    simp only at h
    split_ifs at h with hsame
    cases h
    exact ⟨before, old, after, hcut, rfl, hsame, rfl⟩

/-- The replacement puts `block` in the place of `old`, and tells of these two. -/
structure Splices (r : Replacement) (content block before old after : String) : Prop where
  content_eq : content = before ++ old ++ after
  new_eq : r.content = before ++ block ++ after
  changed : r.content ≠ content
  oldBlock_eq : r.oldBlock = old
  linesChanged_eq : r.linesChanged = Anchored.linesChanged old block
  byteShift_eq : r.byteShift = (block.utf8ByteSize : Int) - old.utf8ByteSize

theorem exists_splices_of_ok {path content block : String} {span : Span} {r : Replacement}
    (h : Replacement.of path content span block = .ok r) :
    ∃ before old after, r.Splices content block before old after ∧
      span = ⟨before.utf8ByteSize, before.utf8ByteSize + old.utf8ByteSize⟩ := by
  unfold Replacement.of at h
  split at h
  · cases h
  · rename_i before old after hcut
    simp only at h
    split_ifs at h with hsame
    cases h
    obtain ⟨htext, hstart, hstop⟩ := Span.cut?_eq_some_iff.mp hcut
    have hspan : span = ⟨(String.ofList before).utf8ByteSize,
        (String.ofList before).utf8ByteSize + (String.ofList old).utf8ByteSize⟩ := by
      rw [Text.byteSize_ofList, Text.byteSize_ofList, hstop, hstart]
    refine ⟨String.ofList before, String.ofList old, String.ofList after,
      ⟨?_, ?_, hsame, rfl, rfl, ?_⟩, hspan⟩
    · rw [← String.toList_inj, htext]
      simp
    · rw [← String.toList_inj]
      simp
    · rw [hspan]
      simp [Span.size]

/-- The blocks make for all the difference in size. -/
theorem Splices.byteShift_total {r : Replacement} {content block before old after : String}
    (h : r.Splices content block before old after) :
    r.byteShift = (r.content.utf8ByteSize : Int) - content.utf8ByteSize := by
  rw [h.byteShift_eq, h.new_eq, h.content_eq]
  simp only [String.utf8ByteSize_append]
  omega

end Replacement

namespace Plan

/-- `p` is the plan for the edit `e` of the file at `place`. -/
structure Found (s : Store) (e : Edit) (place : Place) (p : Plan) : Prop where
  file : s.FileAt e.path place p.document.content.toUTF8
  path_eq : p.document.path = e.path
  checksum_eq : p.document.checksum = checksum p.document.content
  anchor : ∃ span, locateUnique e.path p.document.content e.find e.mode = .ok span ∧
    Replacement.of e.path p.document.content span e.replace = .ok p.replacement

/-- What a plan replaces is what the anchor names. -/
theorem Found.exists_splices {e : Edit} {place : Place} {p : Plan} (h : Found s e place p) :
    ∃ before old after, p.replacement.Splices p.document.content e.replace before old after ∧
      locateUnique e.path p.document.content e.find e.mode =
        .ok ⟨before.utf8ByteSize, before.utf8ByteSize + old.utf8ByteSize⟩ := by
  obtain ⟨span, hspan, hr⟩ := h.anchor
  obtain ⟨before, old, after, hsplices, rfl⟩ := Replacement.exists_splices_of_ok hr
  exact ⟨before, old, after, hsplices, hspan⟩

theorem of_eq_ok_iff {e : Edit} {p : Plan} :
    Plan.of s e = .ok p ↔ ∃ place, Found s e place p := by
  unfold Plan.of
  constructor
  · intro h
    split_ifs at h with hf
    rcases hd : Document.read s e.path with _ | document <;> simp only [hd] at h
    · cases h
    rcases hl : locateUnique e.path document.content e.find e.mode with _ | span <;>
      simp only [hl] at h
    · cases h
    rcases hr : Replacement.of e.path document.content span e.replace with _ | replacement <;>
      simp only [hr] at h
    · cases h
    · cases h
      obtain ⟨place, hp, h1, h2⟩ := Document.read_eq_ok_iff.mp hd
      exact ⟨place, hp, h1, h2, span, hl, hr⟩
  · rintro ⟨place, hp, h1, h2, span, hl, hr⟩
    rw [if_pos hp.isFile_eq, Document.read_eq_ok_iff.mpr ⟨place, hp, h1, h2⟩]
    simp only [hl, hr]

theorem of_not_isFile {e : Edit} (h : s.isFile e.path = false) :
    Plan.of s e = .error (.fileNotFound e.path) := by
  unfold Plan.of
  rw [if_neg (by simp [h])]

/-- A file that does not hold a text. -/
theorem of_not_text {e : Edit} (hf : s.isFile e.path = true)
    (h : ∀ content, s.text e.path ≠ .ok content) :
    Plan.of s e = .error (.file (.notText e.path)) := by
  rcases Document.read_cases s e.path with ⟨content, ht, _⟩ | ⟨hn, _⟩ | ⟨_, _, hread⟩
  · exact absurd ht (h content)
  · rw [hf] at hn
    cases hn
  · unfold Plan.of
    rw [if_pos hf, hread]

/-- With the text of the file, the plan depends on the anchor and the replacement only. -/
theorem of_text {e : Edit} {content : String} (h : s.text e.path = .ok content) :
    Plan.of s e =
      match locateUnique e.path content e.find e.mode with
      | .error error => .error error
      | .ok span =>
        match Replacement.of e.path content span e.replace with
        | .error error => .error error
        | .ok replacement => .ok ⟨⟨e.path, content, checksum content⟩, replacement⟩ := by
  obtain ⟨place, hp⟩ := Store.text_eq_ok_iff.mp h
  have hread : Document.read s e.path = .ok ⟨e.path, content, checksum content⟩ :=
    Document.read_eq_ok_iff.mpr ⟨place, hp, rfl, rfl⟩
  rcases hl : locateUnique e.path content e.find e.mode with error | span
  · simp only [Plan.of, if_pos hp.isFile_eq, hread, hl]
  · rcases hr : Replacement.of e.path content span e.replace with error | replacement
    · simp only [Plan.of, if_pos hp.isFile_eq, hread, hl, hr]
    · simp only [Plan.of, if_pos hp.isFile_eq, hread, hl, hr]

/-- A plan depends on what the files hold only. -/
theorem of_congr {t : Store} (h : s.Same t) (e : Edit) : Plan.of s e = Plan.of t e := by
  unfold Plan.of
  rw [Store.isFile_congr h.sameShape, Document.read_congr h]

/-- So does what carrying it out comes to. -/
theorem carryOut_congr {t : Store} (h : s.Same t) (p : Plan) :
    (p.carryOut s).1 = (p.carryOut t).1 ∧ (p.carryOut s).2.Same (p.carryOut t).2 := by
  unfold carryOut revert
  obtain ⟨hanswer, hfiles⟩ := Document.write_congr h p.document.path p.replacement.content
  generalize Document.write s p.document.path p.replacement.content = written at hanswer hfiles ⊢
  generalize Document.write t p.document.path p.replacement.content = written' at hanswer hfiles ⊢
  obtain ⟨answer, s'⟩ := written
  obtain ⟨answer', t'⟩ := written'
  cases hanswer
  obtain ⟨hback, hold⟩ := Document.write_congr hfiles p.document.path p.document.content
  rcases answer with error | _
  · exact ⟨rfl, hold⟩
  simp only at hback hold ⊢
  rcases p.problem with _ | reason
  · exact ⟨rfl, hfiles⟩
  generalize Document.write s' p.document.path p.document.content = back at hback hold ⊢
  generalize Document.write t' p.document.path p.document.content = back' at hback hold ⊢
  obtain ⟨answer, s''⟩ := back
  obtain ⟨answer', t''⟩ := back'
  cases hback
  rcases answer with cause | _
  · exact ⟨rfl, hold⟩
  · exact ⟨rfl, hold⟩

/-- Planning alone never reports on what was written. -/
theorem of_error {e : Edit} {error : EditError} (h : Plan.of s e = .error error) :
    error = .fileNotFound e.path ∨ (∃ cause, error = .file cause) ∨
      (∃ count, error = .ofCount e.path e.find count) ∨ (∃ span, error = .badSpan span) ∨
      error = .noChange e.path := by
  unfold Plan.of at h
  split_ifs at h with hf
  · rcases hd : Document.read s e.path with cause | document <;> simp only [hd] at h
    · cases h
      exact Or.inr (Or.inl ⟨cause, rfl⟩)
    rcases hl : locateUnique e.path document.content e.find e.mode with cause | span <;>
      simp only [hl] at h
    · cases h
      exact Or.inr (Or.inr (Or.inl (locateUnique_error hl)))
    rcases hr : Replacement.of e.path document.content span e.replace with cause | _ <;>
      simp only [hr] at h <;> cases h
    rcases Replacement.of_error hr with rfl | rfl
    · exact Or.inr (Or.inr (Or.inr (Or.inl ⟨span, rfl⟩)))
    · exact Or.inr (Or.inr (Or.inr (Or.inr rfl)))
  · cases h
    exact Or.inl rfl

/-- What carrying out a plan can come to, where `place` is where its file is. -/
inductive CarriesOut (s : Store) (place : Place) (p : Plan) :
    Except EditError Unit × Store → Prop where
  /-- The new content is on disk. -/
  | written (fits : s.Fits p.replacement.content) (valid : p.problem = none) :
    CarriesOut s place p (.ok (), s.put place (some (.file p.replacement.content.toUTF8)))
  /-- The new content was ill-formed, and the old one is back. -/
  | invalid (reason : String) (t : Store) (fits : s.Fits p.replacement.content)
    (ill : p.problem = some reason) (back : s.Fits p.document.content) (same : t.Same s) :
    CarriesOut s place p (.error (.invalid p.document.path reason), t)
  /-- The new content was ill-formed, and the old one could not be written back in full. -/
  | stuck (reason : String) (t : Store) (fits : s.Fits p.replacement.content)
    (ill : p.problem = some reason) (back : ¬ s.Fits p.document.content)
    (cut : t.Same (s.put place (some (.file (s.arriving p.document.content))))) :
    CarriesOut s place p
      (.error (.revertFailed p.document.path reason (.fault p.document.path .tooLarge)), t)
  /-- The new content did not arrive in full, and as much of the old one as can is back. -/
  | unwritten (t : Store) (long : ¬ s.Fits p.replacement.content)
    (cut : t.Same (s.put place (some (.file (s.arriving p.document.content))))) :
    CarriesOut s place p (.error (.file (.fault p.document.path .tooLarge)), t)

theorem carryOut_spec {place : Place} (p : Plan)
    (h : s.FileAt p.document.path place p.document.content.toUTF8) :
    CarriesOut s place p (p.carryOut s) := by
  unfold carryOut
  by_cases hn : s.Fits p.replacement.content
  · rw [Document.write_of_fits h hn]
    simp only
    rcases hp : p.problem with _ | reason
    · exact .written hn hp
    simp only
    unfold revert
    by_cases ho : s.Fits p.document.content
    · rw [Document.write_of_fits (h.put _) (Store.fits_put.mpr ho)]
      exact .invalid reason _ hn hp ho
        ((Store.put_put_same _ _ _ _).trans (Store.put_node_same h.node_eq))
    · rw [Document.write_of_not_fits (h.put _) (by rwa [Store.fits_put])]
      exact .stuck reason _ hn hp ho (Store.put_put_same _ _ _ _)
  · rw [Document.write_of_not_fits h hn]
    simp only
    unfold revert
    by_cases ho : s.Fits p.document.content
    · rw [Document.write_of_fits (h.put _) (Store.fits_put.mpr ho),
        ← Store.arriving_of_fits ho]
      exact .unwritten _ hn (Store.put_put_same _ _ _ _)
    · rw [Document.write_of_not_fits (h.put _) (by rwa [Store.fits_put])]
      exact .unwritten _ hn (Store.put_put_same _ _ _ _)

theorem Found.fileAt {e : Edit} {place : Place} {p : Plan} (h : Found s e place p) :
    s.FileAt p.document.path place p.document.content.toUTF8 :=
  h.path_eq ▸ h.file

/-- Where the file of a plan is, and what carrying the plan out comes to. -/
theorem exists_carriesOut {e : Edit} {p : Plan} (h : Plan.of s e = .ok p) :
    ∃ place, Found s e place p ∧ CarriesOut s place p (p.carryOut s) := by
  obtain ⟨place, hfound⟩ := of_eq_ok_iff.mp h
  exact ⟨place, hfound, p.carryOut_spec hfound.fileAt⟩

/-- Where writes succeed, a plan for a well-formed content puts it in the file. -/
theorem carryOut_of_valid {place : Place} {p : Plan} (hs : s.limit = none)
    (h : s.FileAt p.document.path place p.document.content.toUTF8) (valid : p.problem = none) :
    p.carryOut s = (.ok (), s.put place (some (.file p.replacement.content.toUTF8))) := by
  unfold carryOut
  rw [Document.write_of_fits h (Store.fits_of_unlimited hs _)]
  simp only [valid]

/-- Where writes succeed, a plan for an ill-formed content leaves the files as they were. -/
theorem carryOut_of_ill {place : Place} {p : Plan} {reason : String} (hs : s.limit = none)
    (h : s.FileAt p.document.path place p.document.content.toUTF8) (ill : p.problem = some reason) :
    ∃ t, t.Same s ∧ p.carryOut s = (.error (.invalid p.document.path reason), t) := by
  have hout := p.carryOut_spec h
  generalize p.carryOut s = out at hout ⊢
  cases hout with
  | written _ valid =>
    rw [ill] at valid
    cases valid
  | invalid reason' t _ ill' _ same =>
    rw [ill, Option.some.injEq] at ill'
    subst ill'
    exact ⟨t, same, rfl⟩
  | stuck _ _ _ _ back _ => exact absurd (Store.fits_of_unlimited hs _) back
  | unwritten _ long _ => exact absurd (Store.fits_of_unlimited hs _) long

end Plan

theorem newest_unique {entries older older' : List CommittedEdit} {entry entry' : CommittedEdit}
    (h : entries = older ++ [entry]) (h' : entries = older' ++ [entry']) : entry' = entry :=
  (List.singleton_inj.mp (List.append_inj_right' (h.symm.trans h') rfl)).symm

/-- A linter that leaves all files as they are. -/
def Linter.WritesNothing (linter : Linter) : Prop :=
  ∀ path s, (linter path s).2.Same s

namespace Editor

theorem lint_same {ed : Editor} (hl : ∀ linter, ed.linter = some linter → linter.WritesNothing)
    (path : String) (s : Store) : (ed.lint path s).2.Same s := by
  unfold lint
  rcases h : ed.linter with _ | linter
  · exact Store.Same.refl s
  · exact hl linter h path s

/-- What an edit can come to. -/
inductive Edits (ed : Editor) (s : Store) (e : Edit) :
    Except EditError EditResult × Editor × Store → Prop where
  /-- There is no plan, and nothing was written. -/
  | unplanned (error : EditError) (none : Plan.of s e = .error error) :
    Edits ed s e (.error error, ed, s)
  /-- The plan was only asked for, and nothing was written. -/
  | planned (p : Plan) (some : Plan.of s e = .ok p) (dry : e.dryRun = true) :
    Edits ed s e (.ok (p.result e ed.preview (.planned p.line) p.problem .none), ed, s)
  /-- The plan could not be carried out. -/
  | withdrawn (p : Plan) (error : EditError) (t : Store) (some : Plan.of s e = .ok p)
    (wet : e.dryRun = false) (failed : p.carryOut s = (.error error, t)) :
    Edits ed s e (.error error, ed, t)
  /-- The edit was made. -/
  | committed (p : Plan) (t : Store) (some : Plan.of s e = .ok p) (wet : e.dryRun = false)
    (done : p.carryOut s = (.ok (), t)) :
    Edits ed s e
      (.ok (p.result e ed.preview (.replaced p.line) .none (ed.lint e.path t).1),
        { ed with history := ed.history.commit (p.committed e) }, (ed.lint e.path t).2)

theorem edit_spec (ed : Editor) (s : Store) (e : Edit) : ed.Edits s e (ed.edit s e) := by
  unfold edit
  rcases hp : Plan.of s e with error | p
  · exact .unplanned error hp
  simp only
  split_ifs with hd
  · exact .planned p hp hd
  rcases hc : p.carryOut s with ⟨error | _, t⟩
  · exact .withdrawn p error t hp (by simpa using hd) hc
  · exact .committed p t hp (by simpa using hd) hc

/-- An edit that is made was planned and is well-formed, and the linter is run on what it wrote. -/
theorem edit_made {ed : Editor} {e : Edit} {result : EditResult} (wet : e.dryRun = false)
    (h : (ed.edit s e).1 = .ok result) :
    ∃ place p, Plan.Found s e place p ∧ p.problem = none ∧
      let linted := ed.lint e.path (s.put place (some (.file p.replacement.content.toUTF8)))
      ed.edit s e = (.ok (p.result e ed.preview (.replaced p.line) none linted.1),
        { ed with history := ed.history.commit (p.committed e) }, linted.2) := by
  have hspec := ed.edit_spec s e
  generalize ed.edit s e = out at h hspec ⊢
  cases hspec with
  | unplanned error _ => cases h
  | planned p _ dry =>
    rw [wet] at dry
    cases dry
  | withdrawn p error t _ _ _ => cases h
  | committed p t hp _ done =>
    cases h
    obtain ⟨place, hfound, hout⟩ := Plan.exists_carriesOut hp
    rw [done] at hout
    cases hout with
    | written _ valid => exact ⟨place, p, hfound, valid, rfl⟩

/-- What an undo can come to. -/
inductive Undoes (ed : Editor) (s : Store) :
    Except EditError (Option EditResult) × Editor × Store → Prop where
  /-- No edit is left. -/
  | empty (none : ed.history.entries = []) : Undoes ed s (.ok .none, ed, s)
  /-- The file of the newest edit cannot be read. -/
  | unreadable (older : List CommittedEdit) (entry : CommittedEdit) (error : FileError)
    (top : ed.history.entries = older ++ [entry])
    (read : Document.read s entry.path = .error error) : Undoes ed s (.error (.file error), ed, s)
  /-- The file no longer holds what the newest edit wrote. -/
  | stale (older : List CommittedEdit) (entry : CommittedEdit) (document : Document)
    (top : ed.history.entries = older ++ [entry])
    (read : Document.read s entry.path = .ok document)
    (changed : document.content ≠ entry.after) :
    Undoes ed s (.error (.staleUndo entry.path), ed, s)
  /-- The old content did not arrive in full. -/
  | unwritten (older : List CommittedEdit) (entry : CommittedEdit) (place : Place)
    (top : ed.history.entries = older ++ [entry])
    (file : s.FileAt entry.path place entry.after.toUTF8) (long : ¬ s.Fits entry.before) :
    Undoes ed s (.error (.file (.fault entry.path .tooLarge)), ed,
      s.put place (some (.file (s.arriving entry.before))))
  /-- The file holds its old content. -/
  | undone (older : List CommittedEdit) (entry : CommittedEdit) (place : Place)
    (result : EditResult) (top : ed.history.entries = older ++ [entry])
    (file : s.FileAt entry.path place entry.after.toUTF8) (fits : s.Fits entry.before) :
    Undoes ed s (.ok (some result), { ed with history := { ed.history with entries := older } },
      s.put place (some (.file entry.before.toUTF8)))

theorem undo_spec (ed : Editor) (s : Store) : ed.Undoes s (ed.undo s) := by
  rcases List.eq_nil_or_concat' ed.history.entries with hnil | ⟨older, entry, htop⟩
  · have hpop : ed.history.pop? = none := History.pop?_of_nil hnil
    unfold undo
    rw [hpop]
    exact .empty hnil
  have hpop : ed.history.pop? = some (entry, { ed.history with entries := older }) :=
    History.pop?_of_concat htop
  -- A refused undo puts the entry back to where it was.
  have hkept : { ed with history := History.restore { ed.history with entries := older } entry } =
      ed := by
    simp only [History.restore, ← htop]
  unfold undo
  rw [hpop]
  simp only [hkept]
  rcases hr : Document.read s entry.path with error | document
  · exact .unreadable older entry error htop hr
  simp only
  split_ifs with hc
  · exact .stale older entry document htop hr hc
  rw [not_not] at hc
  obtain ⟨place, hfile, _, _⟩ := Document.read_eq_ok_iff.mp hr
  rw [hc] at hfile
  by_cases hf : s.Fits entry.before
  · rw [Document.write_of_fits hfile hf]
    exact .undone older entry place _ htop hfile hf
  · rw [Document.write_of_not_fits hfile hf]
    exact .unwritten older entry place htop hfile hf

/-- What an undo comes to depends on what the files hold only. -/
theorem undo_congr {t : Store} (ed : Editor) (h : t.Same s) :
    (ed.undo t).1 = (ed.undo s).1 ∧ (ed.undo t).2.1 = (ed.undo s).2.1 ∧
      (ed.undo t).2.2.Same (ed.undo s).2.2 := by
  unfold undo
  rcases ed.history.pop? with _ | ⟨entry, rest⟩
  · exact ⟨rfl, rfl, h⟩
  simp only [Document.read_congr h]
  rcases Document.read s entry.path with error | document
  · exact ⟨rfl, rfl, h⟩
  simp only
  split_ifs with hc
  · exact ⟨rfl, rfl, h⟩
  obtain ⟨hanswer, hfiles⟩ := Document.write_congr h entry.path entry.before
  generalize Document.write t entry.path entry.before = written at hanswer hfiles ⊢
  generalize Document.write s entry.path entry.before = written' at hanswer hfiles ⊢
  obtain ⟨answer, t'⟩ := written
  obtain ⟨answer', s'⟩ := written'
  cases hanswer
  rcases answer with error | _
  · exact ⟨rfl, rfl, hfiles⟩
  · exact ⟨rfl, rfl, hfiles⟩

/-- An undo that is done replaces what the newest edit wrote by what was there before. -/
theorem undo_of_eq_some {ed : Editor} {result : EditResult} (h : (ed.undo s).1 = .ok (some result)) :
    ∃ older entry place, ed.history.entries = older ++ [entry] ∧
      s.FileAt entry.path place entry.after.toUTF8 ∧
      (ed.undo s).2.2 = s.put place (some (.file entry.before.toUTF8)) ∧
      (ed.undo s).2.1 = { ed with history := { ed.history with entries := older } } := by
  have hspec := ed.undo_spec s
  generalize ed.undo s = out at h hspec ⊢
  cases hspec with
  | empty _ => cases h
  | unreadable _ _ _ _ _ => cases h
  | stale _ _ _ _ _ _ => cases h
  | unwritten _ _ _ _ _ _ => cases h
  | undone older entry place _ top file _ => exact ⟨older, entry, place, top, file, rfl, rfl⟩

end Editor

end Anchored
