import Anchored.Proofs.Anchor.Covering
import Anchored.Proofs.Disk.FileNames
import Anchored.Proofs.Editor.Atomicity
import Anchored.Proofs.Editor.Provenance
import Anchored.Proofs.Editor.Sharing

/-!
# Well-formed files stay well-formed

An undo writes an old content without any check. It is well-formed all the same where only editors
write: what an edit found in a file was there at the start, or an editor wrote it. So what is true of
a file stays true (`Workshop.Keeps`) if every edit that is made of the file makes it true, and if it
is true of all that the histories remember of the file, by whatever path.

All paths to a file of a `Store` end with the same name, since there are no links, and so an edit
checks the file by the same grammar whatever path it is given. With a link of another name to it, a
file could be edited under another grammar.
-/

namespace Anchored

/-! ## What a check looks at -/

theorem validate_congr {path other : String} (h : Language.ofPath path = Language.ofPath other)
    (content before : String) : validate path content before = validate other content before := by
  unfold validate
  rw [h]

/-- Where there is a grammar, it does not matter what was there before. -/
theorem validate_of_grammar {path : String} (h : (Language.ofPath path).grammar ≠ .unknown)
    (content before before' : String) :
    validate path content before = validate path content before' := by
  unfold validate
  rcases hg : (Language.ofPath path).grammar with _ | _ | _ | _ | _
  case unknown => exact absurd hg h
  all_goals simp only [hg]

/-- Where there is none, no edit of a text empties the file. -/
theorem ne_empty_of_unknown {path content before : String}
    (h : (Language.ofPath path).grammar = .unknown)
    (valid : (validate path content before).problem = none) (hbefore : before ≠ "") :
    content ≠ "" := by
  rintro rfl
  simp [validate, h, checkNotEmptied, hbefore] at valid

/-- The check of an edit that is made holds for all paths to the file. -/
theorem Plan.Found.validate_eq {s t : Store} {e : Edit} {place : Place} {p : Plan} {path : String}
    {bytes : ByteArray} (h : Plan.Found s e place p) (valid : p.problem = none)
    (hfile : t.FileAt path place bytes) :
    (validate path p.replacement.content p.document.content).problem = none := by
  rw [validate_congr (hfile.language_eq h.file), ← h.path_eq]
  exact valid

theorem Plan.Found.document_ne_empty {s : Store} {e : Edit} {place : Place} {p : Plan}
    (h : Plan.Found s e place p) : p.document.content ≠ "" := by
  obtain ⟨span, hspan, _⟩ := h.anchor
  intro hempty
  rw [hempty] at hspan
  exact locateUnique_empty _ _ _ _ hspan

/-- What an edit was made of is not empty. -/
theorem CommittedEdit.Sound.before_ne_empty {c : CommittedEdit} (h : c.Sound) : c.before ≠ "" := by
  obtain ⟨mode, before, old, _, hspan, _⟩ := h.spliced
  intro hbefore
  rw [hbefore] at hspan
  exact locateUnique_empty _ _ _ _ hspan

/-! ## What a call can do -/

/-- A call of an editor, and not the doing of somebody else. -/
def Event.IsCall : Event → Prop
  | .write .. | .remove _ | .createDirectory _ => False
  | _ => True

/-- An edit leaves all files as they are, or it is made and writes one. -/
theorem Editor.edit_store {ed : Editor} {s : Store}
    (hl : ∀ linter, ed.linter = some linter → linter.WritesNothing) (hs : s.limit = none)
    (e : Edit) :
    (ed.edit s e).2.2.Same s ∨ ∃ place p, Plan.Found s e place p ∧ p.problem = none ∧
      (ed.edit s e).2.2.Same (s.put place (some (.file p.replacement.content.toUTF8))) := by
  have hspec := ed.edit_spec s e
  rcases hed : ed.edit s e with ⟨answer, ed', t⟩
  rw [hed] at hspec
  cases hspec with
  | unplanned _ _ => exact Or.inl (Store.Same.refl s)
  | planned _ _ _ => exact Or.inl (Store.Same.refl s)
  | withdrawn p error _ hp _ failed =>
    obtain ⟨place, hfound, hout⟩ := Plan.exists_carriesOut hp
    rw [failed] at hout
    exact Or.inl (hout.same_of_error hfound.fileAt (Store.fits_of_unlimited hs _)).1
  | committed p t hp _ done =>
    obtain ⟨place, hfound, hout⟩ := Plan.exists_carriesOut hp
    rw [done] at hout
    cases hout with
    | written _ valid => exact Or.inr ⟨place, p, hfound, valid, ed.lint_same hl e.path _⟩

namespace Workshop

variable {w : Workshop} {event : Event} {place : Place} {bytes : ByteArray}

/-- What a call may write to the file at a place. -/
inductive Writes (w : Workshop) (place : Place) : ByteArray → Prop where
  /-- The new content of an edit. -/
  | edited (e : Edit) (p : Plan) (found : Plan.Found w.store e place p) (valid : p.problem = none) :
    Writes w place p.replacement.content.toUTF8
  /-- The old content of an edit that is undone. -/
  | undone (k : Nat) (c : CommittedEdit) (mem : c ∈ (w.editors k).history.entries)
    (file : w.store.FileAt c.path place c.after.toUTF8) : Writes w place c.before.toUTF8

theorem Writes.exists_file (h : w.Writes place bytes) :
    ∃ old, w.store.node place = some (.file old) := by
  cases h with
  | edited _ _ found _ => exact ⟨_, found.file.node_eq⟩
  | undone _ _ _ file => exact ⟨_, file.node_eq⟩

/-- A call leaves all files as they are, or it writes one. -/
theorem step_store (h : w.Undisturbed) (hcall : event.IsCall) :
    (w.step event).store.Same w.store ∨ ∃ place bytes, w.Writes place bytes ∧
      (w.step event).store.Same (w.store.put place (some (.file bytes))) := by
  cases event with
  | edit k e =>
    rcases Editor.edit_store (h.quiet k) h.unlimited e with hsame | ⟨place, p, hfound, valid, hput⟩
    · exact Or.inl hsame
    · exact Or.inr ⟨place, _, .edited e p hfound valid, hput⟩
  | undo k =>
    by_cases hdone : ∃ result, (w.undo k).1 = .ok (some result)
    · obtain ⟨result, hdone⟩ := hdone
      obtain ⟨older, c, place, htop, hfile, hput, _⟩ := Editor.undo_of_eq_some hdone
      have hmem : c ∈ (w.editors k).history.entries := by
        rw [htop]
        exact List.mem_append_right _ (List.mem_singleton_self c)
      exact Or.inr ⟨place, _, .undone k c hmem hfile, hput ▸ Store.Same.refl _⟩
    · have hkept := Editor.undo_of_ne_some h.unlimited fun result hr => hdone ⟨result, hr⟩
      have hstore : (w.step (.undo k)).store = w.store := congrArg Prod.snd hkept.2
      exact Or.inl (hstore ▸ Store.Same.refl _)
  | check _ _ _ _ => exact Or.inl (Store.Same.refl _)
  | clear _ => exact Or.inl (Store.Same.refl _)
  | setLinter _ _ => exact Or.inl (Store.Same.refl _)
  | write _ _ => exact hcall.elim
  | remove _ => exact hcall.elim
  | createDirectory _ => exact hcall.elim

/-- Files and directories stay where they are. -/
theorem step_sameShape (h : w.Undisturbed) (hcall : event.IsCall) :
    (w.step event).store.SameShape w.store := by
  rcases step_store h hcall with hsame | ⟨place, bytes, hwrites, hput⟩
  · exact hsame.sameShape
  · obtain ⟨old, hfile⟩ := hwrites.exists_file
    intro other
    rw [hput.sameShape other, Store.sameShape_put hfile bytes other]

theorem mem_entries_update {editors : Nat → Editor} {j k : Nat} {editor : Editor}
    {c : CommittedEdit} (hc : c ∈ (Function.update editors j editor k).history.entries) :
    c ∈ (editors k).history.entries ∨ j = k ∧ c ∈ editor.history.entries := by
  by_cases hk : k = j
  · subst hk
    rw [Function.update_self] at hc
    exact Or.inr ⟨rfl, hc⟩
  · rw [Function.update_of_ne hk] at hc
    exact Or.inl hc

/-- An entry of a history was there already, or it is that of an edit that is made. -/
theorem step_entries {k : Nat} {c : CommittedEdit}
    (hc : c ∈ ((w.step event).editors k).history.entries) :
    c ∈ (w.editors k).history.entries ∨ ∃ e place p, Plan.Found w.store e place p ∧
      p.problem = none ∧ c = p.committed e := by
  cases event with
  | edit j e =>
    rcases mem_entries_update hc with hold | ⟨rfl, hnew⟩
    · exact Or.inl hold
    · exact (Editor.mem_entries_edit hnew).imp_right fun h => ⟨e, h⟩
  | undo j =>
    rcases mem_entries_update hc with hold | ⟨rfl, hnew⟩
    · exact Or.inl hold
    · exact Or.inl (Editor.mem_entries_undo hnew)
  | clear j =>
    rcases mem_entries_update hc with hold | ⟨_, hnew⟩
    · exact Or.inl hold
    · cases hnew
  | setLinter j linter =>
    rcases mem_entries_update hc with hold | ⟨rfl, hnew⟩
    · exact Or.inl hold
    · exact Or.inl hnew
  | check _ _ _ _ => exact Or.inl hc
  | write _ _ => exact Or.inl hc
  | remove _ => exact Or.inl hc
  | createDirectory _ => exact Or.inl hc

/-! ## What is kept -/

theorem run_sound (h : ∀ k, ∀ c ∈ (w.editors k).history.entries, c.Sound) (events : List Event) :
    ∀ k, ∀ c ∈ ((w.run events).editors k).history.entries, c.Sound := by
  induction events generalizing w with
  | nil => exact h
  | cons event events ih =>
    refine ih fun k c hc => ?_
    rcases step_entries hc with hold | ⟨e, place, p, hfound, valid, rfl⟩
    · exact h k c hold
    · exact hfound.committed_sound valid

theorem run_sameShape (h : w.Undisturbed) {events : List Event}
    (hq : ∀ event ∈ events, event.IsCall ∧ event.Quiet) :
    (w.run events).store.SameShape w.store := by
  induction events generalizing w with
  | nil => exact fun _ => rfl
  | cons event events ih =>
    rw [List.forall_mem_cons] at hq
    intro other
    exact (ih (step_undisturbed h hq.1.2) hq.2 other).trans (step_sameShape h hq.1.1 other)

/-- The file at a place holds what it may, and so does all that an undo could bring back there. -/
structure Keeps (w : Workshop) (place : Place) (may : ByteArray → Prop) : Prop where
  file : ∃ bytes, w.store.node place = some (.file bytes) ∧ may bytes
  entries : ∀ k, ∀ c ∈ (w.editors k).history.entries, w.store.place c.path = .ok place →
    may c.before.toUTF8

variable {may : ByteArray → Prop}

theorem Keeps.may_of_writes (h : w.Keeps place may)
    (hmay : ∀ s e p, Plan.Found s e place p → p.problem = none → may p.replacement.content.toUTF8)
    (hwrites : w.Writes place bytes) : may bytes := by
  cases hwrites with
  | edited e p found valid => exact hmay w.store e p found valid
  | undone k c mem file => exact h.entries k c mem file.place_eq

/-- One call keeps what every edit gives. -/
theorem Keeps.step (h : w.Keeps place may) (hw : w.Undisturbed) (hcall : event.IsCall)
    (hmay : ∀ s e p, Plan.Found s e place p → p.problem = none →
      may p.replacement.content.toUTF8) : (w.step event).Keeps place may := by
  obtain ⟨old, hnode, hold⟩ := h.file
  constructor
  · rcases step_store hw hcall with hsame | ⟨other, bytes, hwrites, hput⟩
    · exact ⟨old, (hsame.node place).trans hnode, hold⟩
    · rw [hput.node place, Store.node_put]
      split_ifs with hplace
      · subst hplace
        exact ⟨bytes, rfl, h.may_of_writes hmay hwrites⟩
      · exact ⟨old, hnode, hold⟩
  · intro k c hc hpath
    rw [Store.place_congr (step_sameShape hw hcall)] at hpath
    rcases step_entries hc with hmem | ⟨e, other, p, hfound, valid, rfl⟩
    · exact h.entries k c hmem hpath
    · -- The edit found in the file what is there now.
      have hpath : w.store.place p.document.path = .ok place := hpath
      rw [hfound.path_eq, hfound.file.place_eq] at hpath
      cases hpath
      have hfile := hfound.file.node_eq.symm.trans hnode
      cases hfile
      exact hold

theorem Keeps.run (h : w.Keeps place may) (hw : w.Undisturbed) {events : List Event}
    (hq : ∀ event ∈ events, event.IsCall ∧ event.Quiet)
    (hmay : ∀ s e p, Plan.Found s e place p → p.problem = none →
      may p.replacement.content.toUTF8) : (w.run events).Keeps place may := by
  induction events generalizing w with
  | nil => exact h
  | cons event events ih =>
    rw [List.forall_mem_cons] at hq
    exact ih (h.step hw hq.1.1 hmay) (step_undisturbed hw hq.1.2) hq.2

/-- What has a grammar and is well-formed before anything was edited is so after any calls. -/
theorem run_valid (h : w.Undisturbed) (hnew : ∀ k, (w.editors k).history.entries = [])
    {events : List Event} (hq : ∀ event ∈ events, event.IsCall ∧ event.Quiet)
    {path content before : String} (hgrammar : (Language.ofPath path).grammar ≠ .unknown)
    (htext : w.store.text path = .ok content)
    (hvalid : (validate path content before).problem = none) :
    ∃ content', (w.run events).store.text path = .ok content' ∧
      (validate path content' before).problem = none := by
  obtain ⟨place, hfile⟩ := Store.text_eq_ok_iff.mp htext
  have hstart : w.Keeps place fun bytes => ∃ text, bytes = text.toUTF8 ∧
      (validate path text before).problem = none := by
    refine ⟨⟨_, hfile.node_eq, content, rfl, hvalid⟩, fun k c hc => ?_⟩
    rw [hnew k] at hc
    cases hc
  have hrun := hstart.run h hq fun s e p hfound hp => by
    refine ⟨_, rfl, ?_⟩
    rw [validate_of_grammar hgrammar _ before p.document.content]
    exact hfound.validate_eq hp hfile
  obtain ⟨_, hnode, content', rfl, hvalid'⟩ := hrun.file
  have hfile' := hfile.of_sameShape (run_sameShape h hq) hnode
  exact ⟨content', Store.text_eq_ok_iff.mpr ⟨place, hfile'⟩, hvalid'⟩

/-- What has no grammar is never emptied. -/
theorem run_size_ne_zero (h : w.Undisturbed)
    (hsound : ∀ k, ∀ c ∈ (w.editors k).history.entries, c.Sound)
    {events : List Event} (hq : ∀ event ∈ events, event.IsCall ∧ event.Quiet) {path : String}
    (hgrammar : (Language.ofPath path).grammar = .unknown)
    (hbytes : w.store.bytes path = .ok bytes) (hsize : bytes.size ≠ 0) :
    ∃ bytes', (w.run events).store.bytes path = .ok bytes' ∧ bytes'.size ≠ 0 := by
  obtain ⟨place, hfile⟩ := Store.fileAt_of_bytes hbytes
  have hstart : w.Keeps place fun bytes => bytes.size ≠ 0 := by
    refine ⟨⟨bytes, hfile.node_eq, hsize⟩, fun k c hc _ => ?_⟩
    simpa using (hsound k c hc).before_ne_empty
  have hrun := hstart.run h hq fun s e p hfound hp => by
    have hne := ne_empty_of_unknown hgrammar (hfound.validate_eq hp hfile) hfound.document_ne_empty
    simpa using hne
  obtain ⟨bytes', hnode, hsize'⟩ := hrun.file
  exact ⟨bytes', (hfile.of_sameShape (run_sameShape h hq) hnode).bytes_eq, hsize'⟩

end Workshop

open Workshop

/-- **Well-formed files stay well-formed.** Any number of editors, none of which has edited anything,
are called in any order, and nobody else writes: no file comes or goes. Where the files of a kind
have a grammar, a file that was well-formed at the start is well-formed now. Where they have none, a
file that has any content now does not lose all of it later. That there are no links to files is
what a `Store` takes for granted. -/
theorem files_stay_valid (w : Workshop) (h : w.Undisturbed)
    (hnew : ∀ k, (w.editors k).history.entries = []) (events : List Event)
    (hq : ∀ event ∈ events, event.IsCall ∧ event.Quiet) :
    let v := w.run events
    (∀ path, v.store.isFile path = w.store.isFile path) ∧
    (∀ path content before, (Language.ofPath path).grammar ≠ .unknown →
      w.store.text path = .ok content → (validate path content before).valid = true →
      ∃ content', v.store.text path = .ok content' ∧
        ∀ before', (validate path content' before').valid = true) ∧
    ∀ path bytes more, (Language.ofPath path).grammar = .unknown →
      v.store.bytes path = .ok bytes → bytes.size ≠ 0 →
      (∀ event ∈ more, event.IsCall ∧ event.Quiet) →
      ∃ bytes', (v.run more).store.bytes path = .ok bytes' ∧ bytes'.size ≠ 0 := by
  intro v
  refine ⟨Store.isFile_congr (run_sameShape h hq),
    fun path content before hgrammar htext hvalid => ?_,
    fun path bytes more hgrammar hbytes hsize hmore => ?_⟩
  · obtain ⟨content', htext', hvalid'⟩ :=
      run_valid h hnew hq hgrammar htext (Option.isNone_iff_eq_none.mp hvalid)
    refine ⟨content', htext', fun before' => ?_⟩
    rw [validate_of_grammar hgrammar content' before' before]
    exact Option.isNone_iff_eq_none.mpr hvalid'
  · have hv : v.Undisturbed := run_undisturbed h fun event hevent => (hq event hevent).2
    have hsound : ∀ k, ∀ c ∈ (v.editors k).history.entries, c.Sound := by
      refine run_sound (fun k c hc => ?_) events
      rw [hnew k] at hc
      cases hc
    exact run_size_ne_zero hv hsound hmore hgrammar hbytes hsize

/-- Two editors edit one file by two paths, once with an ill-formed result, and one of the edits is
undone. Then one of them tries to empty another file. -/
theorem files_stay_valid_shared :
    let w : Workshop := ⟨fun _ => ⟨.default, .empty 5, none⟩,
      ⟨[(["a.json"], .file "[1]".toUTF8), (["notes"], .file "x".toUTF8), ([], .directory)], none⟩⟩
    let events : List Event := [.edit 0 ⟨"a.json", "1", "1, 2", .strict, false⟩,
      .edit 1 ⟨"./a.json", "2", "2,", .strict, false⟩,
      .edit 1 ⟨"./a.json", "1, 2", "3", .strict, false⟩, .undo 1]
    let more : List Event := [.edit 0 ⟨"notes", "x", "", .strict, false⟩]
    (w.run events).store.text "a.json" = .ok "[1, 2]" ∧
      (validate "a.json" "[1, 2]" "").valid = true ∧
      ∃ bytes, ((w.run events).run more).store.bytes "notes" = .ok bytes ∧ bytes.size ≠ 0 := by
  intro w events more
  have hstart : w.Undisturbed := ⟨rfl, fun _ _ hl => by cases hl⟩
  have hcalls : ∀ event ∈ events ++ more, event.IsCall ∧ event.Quiet := by
    intro event hmem
    simp only [events, more, List.cons_append, List.nil_append, List.mem_cons,
      List.not_mem_nil, or_false] at hmem
    rcases hmem with rfl | rfl | rfl | rfl | rfl <;> exact ⟨trivial, fun _ _ hset => by cases hset⟩
  have htext : (w.run events).store.text "a.json" = .ok "[1, 2]" := by decide +kernel
  have hnotes : (w.run events).store.bytes "notes" = .ok "x".toUTF8 := by decide +kernel
  obtain ⟨_, hvalid, hkept⟩ := files_stay_valid w hstart (fun _ => rfl) events
    fun event hmem => hcalls event (List.mem_append_left _ hmem)
  obtain ⟨content', htext', hvalid'⟩ :=
    hvalid "a.json" "[1]" "" (by decide +kernel) (by decide +kernel) (by decide +kernel)
  rw [htext] at htext'
  cases htext'
  exact ⟨htext, hvalid' "", hkept "notes" _ more (by decide +kernel) hnotes (by decide +kernel)
    fun event hmem => hcalls event (List.mem_append_right _ hmem)⟩

end Anchored
