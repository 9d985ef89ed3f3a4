import Anchored.Proofs.Editor.Session
import Anchored.Proofs.Editor.Sharing
import Anchored.Proofs.Editor.Undone

/-!
# The results of a session

A result tells the checksums of what a file held just before a call and just after it, and by how
many bytes the file grew. An edit reckons the latter from the two blocks and an undo from the whole
contents, but both tell what happened to the file (`Session.exists_tells`). Every other call leaves
all files as they are. So the results for one file lead it from what it held at the start of a
session to what it holds at the end, each from where the one before it has led (`Leads`,
`Session.run_leads`), whatever the paths by which the file is named. A file is what is at a place, for
there are no links in a `Store`.
-/

namespace Anchored

namespace Session

/-- The result of a call that writes: of an edit that is made, or of an undo that is done. -/
def result? (w : Session) : Call → Option EditResult
  | .edit e => if e.dryRun then none else (w.editor.edit w.store e).1.toOption
  | .check .. => none
  | .undo => w.undo.1.toOption.join

/-- The results of the calls that write, in the order of the calls. -/
def results (w : Session) : List Call → List EditResult
  | [] => []
  | call :: calls => (w.result? call).toList ++ (w.step call).results calls

/-- The results for the file at a place. -/
def resultsAt (w : Session) (place : Place) (calls : List Call) : List EditResult :=
  (w.results calls).filter fun r => w.store.place r.path = .ok place

/-- Writes succeed, and the linter writes nothing. -/
structure Calm (w : Session) : Prop where
  unlimited : w.store.limit = none
  quiet : ∀ linter, w.editor.linter = some linter → linter.WritesNothing

/-- A call with the result `r` replaces the content `before` of the file at `place` by `after`, and
the result tells of these two. -/
structure Tells (w : Session) (call : Call) (r : EditResult) (place : Place)
    (before after : String) : Prop where
  file : w.store.FileAt r.path place before.toUTF8
  store : (w.step call).store.Same (w.store.put place (some (.file after.toUTF8)))
  oldChecksum : r.oldChecksum = checksum before
  newChecksum : r.newChecksum = checksum after
  byteShift : r.byteShift = (after.utf8ByteSize : Int) - before.utf8ByteSize

variable {w : Session} {call : Call} {calls : List Call} {r : EditResult} {path : String}
  {place : Place} {before after : String} {bytes : ByteArray}

/-! ## One call -/

theorem undo_of_result (h : w.result? .undo = some r) : w.undo.1 = .ok (some r) := by
  simp only [result?] at h
  rcases hundo : w.undo.1 with error | answer
  · rw [hundo] at h
    cases h
  · rw [hundo] at h
    rw [← h]
    rfl

theorem edit_of_result {e : Edit} (h : w.result? (.edit e) = some r) :
    e.dryRun = false ∧ (w.editor.edit w.store e).1 = .ok r := by
  simp only [result?] at h
  split_ifs at h with dry
  refine ⟨by simpa using dry, ?_⟩
  rcases hed : (w.editor.edit w.store e).1 with error | made
  · rw [hed] at h
    cases h
  · rw [hed] at h
    cases h
    rfl

theorem step_undo_eq (w : Session) :
    (w.step .undo).editor = w.undo.2.1 ∧ (w.step .undo).store = w.undo.2.2 := by
  simp only [step]
  rcases w.undo with ⟨error | _ | _, editor, store⟩
  · exact ⟨rfl, rfl⟩
  · exact ⟨rfl, rfl⟩
  · exact ⟨rfl, rfl⟩

theorem Calm.step (h : w.Calm) (call : Call) : (w.step call).Calm := by
  cases call with
  | edit e =>
    have hlinter := w.editor.edit_linter w.store e
    exact ⟨(Editor.edit_limit h.quiet w.store e).trans h.unlimited,
      fun linter hl => h.quiet linter (hlinter.symm.trans hl)⟩
  | check path find mode => exact h
  | undo =>
    obtain ⟨heditor, hstore⟩ := w.step_undo_eq
    have hlinter := w.editor.undo_linter w.store
    refine ⟨?_, fun linter hl => h.quiet linter ?_⟩
    · rw [hstore]
      exact (w.editor.undo_limit w.store).trans h.unlimited
    · rw [heditor] at hl
      exact hlinter.symm.trans hl

/-- A result tells what the call did to the file. -/
theorem exists_tells (h : w.Calm) (hr : w.result? call = some r) :
    ∃ place before after, w.Tells call r place before after := by
  cases call with
  | edit e =>
    obtain ⟨wet, hmade⟩ := edit_of_result hr
    obtain ⟨place, p, hfound, _, hed⟩ := Editor.edit_made wet hmade
    obtain ⟨_, _, _, hsplices, _⟩ := hfound.exists_splices
    have hstore : (w.step (.edit e)).store = (w.editor.lint e.path
        (w.store.put place (some (.file p.replacement.content.toUTF8)))).2 :=
      congrArg (·.2.2) hed
    rw [hed] at hmade
    cases hmade
    refine ⟨place, p.document.content, p.replacement.content, hfound.fileAt, ?_, hfound.checksum_eq,
      hfound.checksum_content.symm, hsplices.byteShift_total⟩
    rw [hstore]
    exact w.editor.lint_same h.quiet e.path _
  | check path find mode => cases hr
  | undo =>
    have hdone := undo_of_result hr
    obtain ⟨older, entry, place, htop, hfile, _⟩ := Editor.undo_of_eq_some hdone
    have hundo := Editor.undo_of_holds h.unlimited htop hfile
    have hstore := w.step_undo_eq.2
    rw [undo, hundo] at hdone hstore
    cases hdone
    exact ⟨place, entry.after, entry.before, hfile, hstore ▸ Store.Same.refl _, rfl, rfl, rfl⟩

/-- A call without a result leaves all files as they are. -/
theorem step_store_of_no_result (h : w.Calm) (hr : w.result? call = none) :
    (w.step call).store.Same w.store := by
  cases call with
  | edit e =>
    change (w.editor.edit w.store e).2.2.Same w.store
    by_cases dry : e.dryRun = true
    · rw [Editor.edit_dry_eq dry]
      exact Store.Same.refl _
    · simp only [result?, if_neg dry] at hr
      rcases herror : (w.editor.edit w.store e).1 with error | made
      · exact Editor.edit_same_of_error h.unlimited herror
      · rw [herror] at hr
        cases hr
  | check path find mode => exact Store.Same.refl _
  | undo =>
    have hno : ∀ result, w.undo.1 ≠ .ok (some result) := by
      intro result hdone
      simp only [result?, hdone] at hr
      cases hr
    have hkept := (Editor.undo_of_ne_some h.unlimited hno).2
    rw [w.step_undo_eq.2, undo, hkept]
    exact Store.Same.refl _

/-- Files and directories stay where they are. -/
theorem step_sameShape (h : w.Calm) (call : Call) : (w.step call).store.SameShape w.store := by
  rcases hr : w.result? call with _ | r
  · exact (step_store_of_no_result h hr).sameShape
  · obtain ⟨place, before, after, htells⟩ := exists_tells h hr
    intro other
    rw [htells.store.sameShape other, Store.sameShape_put htells.file.node_eq _ other]

/-! ## A run of calls -/

theorem resultsAt_cons (h : w.Calm) (place : Place) (call : Call) (calls : List Call) :
    w.resultsAt place (call :: calls) =
      ((w.result? call).toList.filter fun r => w.store.place r.path = .ok place) ++
        (w.step call).resultsAt place calls := by
  rw [resultsAt, results, List.filter_append, resultsAt]
  congr 2
  funext r
  rw [Store.place_congr (step_sameShape h call)]

/-- What is written at another place leaves a file alone. -/
theorem Tells.fileAt_of_ne {place' : Place} (ht : w.Tells call r place' before after)
    (hfile : w.store.FileAt path place bytes) (hne : place ≠ place') :
    (w.step call).store.FileAt path place bytes := by
  have hnode : (w.store.put place' (some (.file after.toUTF8))).node place =
      some (.file bytes) := by
    rw [Store.node_put, if_neg hne, hfile.node_eq]
  exact (hfile.of_sameShape (Store.sameShape_put ht.file.node_eq _) hnode).congr ht.store

end Session

/-- Results that lead a file from one content to another, each from where the one before it has
led. -/
inductive Leads : List EditResult → ByteArray → ByteArray → Prop where
  | nil (bytes : ByteArray) : Leads [] bytes bytes
  | cons {r : EditResult} {rs : List EditResult} {bytes : ByteArray} (before after : String)
      (oldChecksum : r.oldChecksum = checksum before)
      (newChecksum : r.newChecksum = checksum after)
      (byteShift : r.byteShift = (after.utf8ByteSize : Int) - before.utf8ByteSize)
      (rest : Leads rs after.toUTF8 bytes) : Leads (r :: rs) before.toUTF8 bytes

namespace Leads

variable {rs : List EditResult} {first last : ByteArray}

/-- A first result tells the checksum of what the file held before it. -/
theorem oldChecksum_eq {r : EditResult} {before : String} (h : Leads (r :: rs) first last)
    (hfirst : first = before.toUTF8) : r.oldChecksum = checksum before := by
  cases h with
  | cons before' _ hold _ _ _ =>
    rw [hold, String.toByteArray_inj.mp hfirst]

/-- Each result starts from the checksum at which the one before it has ended. -/
theorem isChain (h : Leads rs first last) :
    rs.IsChain fun r next => next.oldChecksum = r.newChecksum := by
  induction h with
  | nil bytes => exact .nil
  | @cons r rs bytes before after _ hnew _ hrest ih =>
    rcases rs with _ | ⟨next, more⟩
    · exact .singleton r
    · refine .cons_cons ?_ ih
      rw [hrest.oldChecksum_eq rfl, hnew]

/-- The results make for all the difference in size. -/
theorem sum_byteShift (h : Leads rs first last) :
    (rs.map (·.byteShift)).sum = (last.size : Int) - first.size := by
  induction h with
  | nil bytes => simp
  | cons before after _ _ hshift _ ih =>
    rw [List.map_cons, List.sum_cons, ih, hshift]
    change (after.toUTF8.size : Int) - before.toUTF8.size + _ = _
    omega

end Leads

namespace Session

variable {w : Session} {calls : List Call} {r : EditResult} {path : String} {place : Place}
  {bytes : ByteArray}

/-- The results for a file lead it from what it holds to what it holds after the calls. -/
theorem run_leads (h : w.Calm) (hfile : w.store.FileAt path place bytes) (calls : List Call) :
    ∃ bytes', (w.run calls).store.FileAt path place bytes' ∧
      Leads (w.resultsAt place calls) bytes bytes' := by
  induction calls generalizing w bytes with
  | nil => exact ⟨bytes, hfile, .nil bytes⟩
  | cons call calls ih =>
    change ∃ bytes', ((w.step call).run calls).store.FileAt path place bytes' ∧ _
    rw [resultsAt_cons h]
    rcases hr : w.result? call with _ | r
    · exact ih (h.step call) (hfile.congr (step_store_of_no_result h hr))
    obtain ⟨place', before, after, htells⟩ := exists_tells h hr
    by_cases hplace : place = place'
    · subst hplace
      have hcontent : bytes = before.toUTF8 := by
        have hnode := hfile.node_eq.symm.trans htells.file.node_eq
        cases hnode
        rfl
      have hwritten : (w.step call).store.FileAt path place after.toUTF8 :=
        (hfile.put _).congr htells.store
      obtain ⟨bytes', hend, hleads⟩ := ih (h.step call) hwritten
      refine ⟨bytes', hend, ?_⟩
      rw [Option.toList_some, List.filter_singleton, decide_eq_true htells.file.place_eq, hcontent]
      exact .cons before after htells.oldChecksum htells.newChecksum htells.byteShift hleads
    · have hother : ¬ w.store.place r.path = .ok place := by
        rw [htells.file.place_eq]
        exact fun heq => hplace (Except.ok.inj heq).symm
      rw [Option.toList_some, List.filter_singleton, decide_eq_false hother]
      exact ih (h.step call) (htells.fileAt_of_ne hfile hplace)

/-- There is a result for a file only. -/
theorem isFile_of_mem_results (h : w.Calm) (hr : r ∈ w.results calls) :
    w.store.isFile r.path = true := by
  induction calls generalizing w with
  | nil => cases hr
  | cons call calls ih =>
    rw [results, List.mem_append, Option.mem_toList] at hr
    rcases hr with hr | hr
    · obtain ⟨_, _, _, htells⟩ := exists_tells h hr
      exact htells.file.isFile_eq
    · rw [← Store.isFile_congr (step_sameShape h call)]
      exact ih (h.step call) hr

theorem Calm.run (h : w.Calm) (calls : List Call) : (w.run calls).Calm := by
  induction calls generalizing w with
  | nil => exact h
  | cons call calls ih => exact ih (h.step call)

theorem run_sameShape (h : w.Calm) (calls : List Call) : (w.run calls).store.SameShape w.store := by
  induction calls generalizing w with
  | nil => exact fun _ => rfl
  | cons call calls ih =>
    exact fun place => (ih (h.step call) place).trans (step_sameShape h call place)

end Session

open Session

/-- **Results chain.** One editor is at work, whatever its history, where writes succeed and the
linter writes nothing. The result of each edit that is made and of each undo that is done tells the
checksums of what its file held just before and just after the call. For every file, each result
starts from the checksum at which the one before it has ended, and the results add up to the
difference in size that all calls together have made. Where there is no file, there is none after
the calls, and no result for it. -/
theorem results_chain (ed : Editor) (s : Store) (hs : s.limit = none)
    (hl : ∀ linter, ed.linter = some linter → linter.WritesNothing) (calls : List Call) :
    let w := (start ed s).run calls
    (∀ call r, w.result? call = some r → ∃ before after,
      w.store.text r.path = .ok before ∧ (w.step call).store.text r.path = .ok after ∧
        r.oldChecksum = checksum before ∧ r.newChecksum = checksum after) ∧
    (∀ path place bytes, s.FileAt path place bytes → ∃ bytes', w.store.FileAt path place bytes' ∧
      let results := (start ed s).resultsAt place calls
      (results.IsChain fun r next => next.oldChecksum = r.newChecksum) ∧
        (results.map (·.byteShift)).sum = (bytes'.size : Int) - bytes.size) ∧
    ∀ path, s.isFile path = false → w.store.isFile path = false ∧
      ∀ r ∈ (start ed s).results calls, s.place r.path ≠ s.place path := by
  intro w
  have hstart : (start ed s).Calm := ⟨hs, hl⟩
  refine ⟨fun call r hr => ?_, fun path place bytes hfile => ?_, fun path hno => ?_⟩
  · obtain ⟨place, before, after, htells⟩ := exists_tells (hstart.run calls) hr
    have hafter : (w.step call).store.FileAt r.path place after.toUTF8 :=
      (htells.file.put _).congr htells.store
    exact ⟨before, after, Store.text_eq_ok_iff.mpr ⟨place, htells.file⟩,
      Store.text_eq_ok_iff.mpr ⟨place, hafter⟩, htells.oldChecksum, htells.newChecksum⟩
  · obtain ⟨bytes', hend, hleads⟩ := run_leads hstart hfile calls
    exact ⟨bytes', hend, hleads.isChain, hleads.sum_byteShift⟩
  · refine ⟨(Store.isFile_congr (run_sameShape hstart calls) path).trans hno, fun r hr heq => ?_⟩
    obtain ⟨place, bytes, hfile⟩ := Store.isFile_iff.mp (isFile_of_mem_results hstart hr)
    have hpath : s.FileAt path place bytes := ⟨heq.symm.trans hfile.place_eq, hfile.node_eq⟩
    rw [hpath.isFile_eq] at hno
    cases hno

/-- Two edits of one file by two paths, the first of which is evicted from the history, a refused
edit, and two undos, the second of which finds nothing to undo. -/
theorem results_chain_two_paths :
    let ed : Editor := ⟨.default, .empty 1, none⟩
    let s : Store := ⟨[(["a.txt"], .file "\té = 1\nb".toUTF8), ([], .directory)], none⟩
    let calls : List Call := [.edit ⟨"a.txt", "é = 1\n", "é = 1\nß\n", .fuzzy, false⟩,
      .edit ⟨"./a.txt", "ß", "s", .strict, false⟩, .edit ⟨"a.txt", "c", "d", .strict, false⟩,
      .undo, .undo]
    let results := (start ed s).resultsAt ["a.txt"] calls
    let w := (start ed s).run calls
    s.limit = none ∧ results.map (·.byteShift) = [2, -1, 1] ∧
      (results.IsChain fun r next => next.oldChecksum = r.newChecksum) ∧
      (∃ bytes, w.store.FileAt "./a.txt" ["a.txt"] bytes ∧ (bytes.size : Int) = 11) ∧
      w.store.isFile "b.txt" = false := by
  intro ed s calls results w
  have hfile : s.FileAt "./a.txt" ["a.txt"] "\té = 1\nb".toUTF8 :=
    ⟨by decide +kernel, by decide +kernel⟩
  have hshifts : results.map (·.byteShift) = [2, -1, 1] := by decide +kernel
  obtain ⟨_, hfiles, hnone⟩ := results_chain ed s rfl (fun _ hl => by cases hl) calls
  obtain ⟨bytes, hend, hchain, hsum⟩ := hfiles _ _ _ hfile
  have hsize : "\té = 1\nb".toUTF8.size = 9 := by decide +kernel
  change (results.map (·.byteShift)).sum = _ at hsum
  rw [hshifts, hsize] at hsum
  refine ⟨rfl, hshifts, hchain, ⟨bytes, hend, ?_⟩, (hnone "b.txt" (by decide +kernel)).1⟩
  have htotal : ([2, -1, 1] : List Int).sum = 2 := by decide
  omega

end Anchored
