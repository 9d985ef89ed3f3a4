import Anchored.Proofs.Editor.Steps
import Mathlib.Logic.Function.Basic

/-!
# Editors that share their files

Any number of editors work on the same files, each with a history of its own, and between their
calls somebody else writes, removes and creates what they like. What an editor remembers of a file
may then be out of date. An undo goes by what the file holds now: it writes only over the very
content that its edit wrote, and otherwise it changes nothing (`no_lost_update`).
-/

namespace Anchored

/-- Editors at work on the same files. -/
structure Workshop where
  editors : Nat → Editor
  store : Store

/-- A call of one of the editors, or what somebody else does to the files. -/
inductive Event where
  | edit (k : Nat) (e : Edit)
  | check (k : Nat) (path find : String) (mode : MatchMode)
  | undo (k : Nat)
  | clear (k : Nat)
  | setLinter (k : Nat) (linter : Option Linter)
  | write (place : Place) (bytes : ByteArray)
  | remove (place : Place)
  | createDirectory (place : Place)

namespace Workshop

/-- The answer to an undo, with the editor and the files after it. -/
def undo (w : Workshop) (k : Nat) : Except EditError (Option EditResult) × Editor × Store :=
  (w.editors k).undo w.store

/-- The editors and the files after an event. -/
def step (w : Workshop) : Event → Workshop
  | .edit k e =>
    let (_, editor, store) := (w.editors k).edit w.store e
    ⟨Function.update w.editors k editor, store⟩
  | .check .. => w
  | .undo k =>
    let (_, editor, store) := w.undo k
    ⟨Function.update w.editors k editor, store⟩
  | .clear k => { w with editors := Function.update w.editors k (w.editors k).clearHistory }
  | .setLinter k linter =>
    { w with editors := Function.update w.editors k ((w.editors k).withLinter linter) }
  | .write place bytes => { w with store := w.store.install place (.file bytes) }
  | .remove place => { w with store := w.store.put place none }
  | .createDirectory place => { w with store := w.store.install place .directory }

/-- The editors and the files after a number of events. -/
def run (w : Workshop) (events : List Event) : Workshop :=
  events.foldl step w

end Workshop

/-! ## Writes succeed throughout -/

theorem Store.limit_install (s : Store) (place : Place) (n : Node) :
    (s.install place n).limit = s.limit := by
  have hparents : ∀ (ns : List Nat) (s : Store), (ns.foldl (fun s n =>
      let parent := place.take n
      if s.node parent = none then s.put parent (some .directory) else s) s).limit = s.limit := by
    intro ns
    induction ns with
    | nil => exact fun _ => rfl
    | cons n ns ih =>
      intro s
      rw [List.foldl_cons, ih]
      simp only
      split_ifs <;> rfl
  exact hparents _ s

variable {s : Store}

theorem Plan.CarriesOut.limit_eq {place : Place} {p : Plan} {answer : Except EditError Unit}
    {t : Store} (h : CarriesOut s place p (answer, t)) : t.limit = s.limit := by
  cases h with
  | written _ _ => rfl
  | invalid _ _ _ _ _ same => exact same.limit
  | stuck _ _ _ _ _ cut => exact cut.limit
  | unwritten _ _ cut => exact cut.limit

namespace Editor

theorem edit_linter (ed : Editor) (s : Store) (e : Edit) :
    (ed.edit s e).2.1.linter = ed.linter := by
  have hspec := ed.edit_spec s e
  generalize ed.edit s e = out at hspec
  cases hspec <;> rfl

/-- An edit does not change what files can hold, unless a linter does. -/
theorem edit_limit {ed : Editor}
    (hl : ∀ linter, ed.linter = some linter → linter.WritesNothing) (s : Store) (e : Edit) :
    (ed.edit s e).2.2.limit = s.limit := by
  have hspec := ed.edit_spec s e
  generalize ed.edit s e = out at hspec
  have hcarried : ∀ p answer t, Plan.of s e = .ok p → p.carryOut s = (answer, t) →
      t.limit = s.limit := by
    intro p answer t hp hc
    obtain ⟨place, _, hout⟩ := Plan.exists_carriesOut hp
    rw [hc] at hout
    exact hout.limit_eq
  cases hspec with
  | unplanned _ _ => rfl
  | planned _ _ _ => rfl
  | withdrawn p _ t hp _ failed => exact hcarried p _ t hp failed
  | committed p t hp _ done => exact (ed.lint_same hl e.path t).limit.trans (hcarried p _ t hp done)

theorem undo_linter (ed : Editor) (s : Store) : (ed.undo s).2.1.linter = ed.linter := by
  have hspec := ed.undo_spec s
  generalize ed.undo s = out at hspec
  cases hspec <;> rfl

theorem undo_limit (ed : Editor) (s : Store) : (ed.undo s).2.2.limit = s.limit := by
  have hspec := ed.undo_spec s
  generalize ed.undo s = out at hspec
  cases hspec <;> rfl

end Editor

/-- No linter that is put to work writes. -/
def Event.Quiet (event : Event) : Prop :=
  ∀ k linter, event = .setLinter k (some linter) → linter.WritesNothing

namespace Workshop

variable {w : Workshop}

/-- Writes succeed, and no linter writes. -/
structure Undisturbed (w : Workshop) : Prop where
  unlimited : w.store.limit = none
  quiet : ∀ k linter, (w.editors k).linter = some linter → linter.WritesNothing

/-- An editor that does what it likes with its history, and not with its linter. -/
theorem Undisturbed.update (h : w.Undisturbed) {k : Nat} {editor : Editor} {store : Store}
    (hs : store.limit = none)
    (he : ∀ linter, editor.linter = some linter → linter.WritesNothing) :
    (Workshop.mk (Function.update w.editors k editor) store).Undisturbed := by
  refine ⟨hs, fun j linter hj => ?_⟩
  simp only at hj
  by_cases hjk : j = k
  · subst hjk
    rw [Function.update_self] at hj
    exact he linter hj
  · rw [Function.update_of_ne hjk] at hj
    exact h.quiet j linter hj

theorem step_undisturbed (h : w.Undisturbed) {event : Event} (hq : event.Quiet) :
    (w.step event).Undisturbed := by
  cases event with
  | edit k e =>
    have hlinter := (w.editors k).edit_linter w.store e
    exact h.update ((Editor.edit_limit (h.quiet k) w.store e).trans h.unlimited)
      fun linter hl => h.quiet k linter (hlinter.symm.trans hl)
  | check k path find mode => exact h
  | undo k =>
    have hlinter := (w.editors k).undo_linter w.store
    exact h.update (((w.editors k).undo_limit w.store).trans h.unlimited)
      fun linter hl => h.quiet k linter (hlinter.symm.trans hl)
  | clear k => exact h.update h.unlimited (h.quiet k)
  | setLinter k linter => exact h.update h.unlimited fun l hl => hq k l (by rw [← hl]; rfl)
  | write place bytes => exact ⟨(Store.limit_install _ _ _).trans h.unlimited, h.quiet⟩
  | remove place => exact ⟨h.unlimited, h.quiet⟩
  | createDirectory place => exact ⟨(Store.limit_install _ _ _).trans h.unlimited, h.quiet⟩

theorem run_undisturbed (h : w.Undisturbed) {events : List Event}
    (hq : ∀ event ∈ events, event.Quiet) : (w.run events).Undisturbed := by
  induction events generalizing w with
  | nil => exact h
  | cons event events ih =>
    rw [List.forall_mem_cons] at hq
    exact ih (step_undisturbed h hq.1) hq.2

end Workshop

/-! ## One undo -/

namespace Editor

variable {ed : Editor}

/-- Where writes succeed, any other undo leaves everything as it was. -/
theorem undo_of_ne_some (hw : s.limit = none) (h : ∀ result, (ed.undo s).1 ≠ .ok (some result)) :
    ((ed.undo s).1 = .ok none ∨ (∃ path, (ed.undo s).1 = .error (.staleUndo path)) ∨
      ∃ cause, (ed.undo s).1 = .error (.file cause)) ∧ (ed.undo s).2 = (ed, s) := by
  have hspec := ed.undo_spec s
  generalize ed.undo s = out at h hspec ⊢
  cases hspec with
  | empty _ => exact ⟨Or.inl rfl, rfl⟩
  | unreadable _ _ cause _ _ => exact ⟨Or.inr (Or.inr ⟨cause, rfl⟩), rfl⟩
  | stale _ entry _ _ _ _ => exact ⟨Or.inr (Or.inl ⟨entry.path, rfl⟩), rfl⟩
  | unwritten _ _ _ _ _ long => exact absurd (Store.fits_of_unlimited hw _) long
  | undone _ _ _ result _ _ _ => exact absurd rfl (h result)

/-- An undo is refused as stale exactly if the file holds a text, and not the one that the newest
edit wrote. -/
theorem undo_eq_staleUndo_iff {path : String} :
    (ed.undo s).1 = .error (.staleUndo path) ↔
      ∃ older entry content, ed.history.entries = older ++ [entry] ∧ entry.path = path ∧
        s.text entry.path = .ok content ∧ content ≠ entry.after := by
  have hspec := ed.undo_spec s
  generalize ed.undo s = out at hspec ⊢
  constructor
  · intro h
    cases hspec with
    | empty _ => cases h
    | unreadable _ _ _ _ _ => cases h
    | stale older entry document top read changed =>
      cases h
      obtain ⟨place, hfile, _⟩ := Document.read_eq_ok_iff.mp read
      exact ⟨older, entry, _, top, rfl, Store.text_eq_ok_iff.mpr ⟨place, hfile⟩, changed⟩
    | unwritten _ _ _ _ _ _ => cases h
    | undone _ _ _ _ _ _ _ => cases h
  · rintro ⟨older, entry, content, htop, rfl, htext, hne⟩
    cases hspec with
    | empty hnone => simp [hnone] at htop
    | unreadable _ entry' _ htop' hread =>
      cases newest_unique htop htop'
      rw [Document.read_of_text htext] at hread
      cases hread
    | stale _ entry' _ htop' _ _ =>
      cases newest_unique htop htop'
      rfl
    | unwritten _ entry' place htop' hfile _ =>
      cases newest_unique htop htop'
      rw [Store.text_eq_ok_iff.mpr ⟨place, hfile⟩] at htext
      cases htext
      exact absurd rfl hne
    | undone _ entry' place _ htop' hfile _ =>
      cases newest_unique htop htop'
      rw [Store.text_eq_ok_iff.mpr ⟨place, hfile⟩] at htext
      cases htext
      exact absurd rfl hne

/-- Where writes succeed, the newest edit is undone exactly if its file holds what it wrote. -/
theorem undo_eq_some_iff (hw : s.limit = none) :
    (∃ result, (ed.undo s).1 = .ok (some result)) ↔
      ∃ older entry, ed.history.entries = older ++ [entry] ∧
        s.text entry.path = .ok entry.after := by
  constructor
  · rintro ⟨result, h⟩
    obtain ⟨older, entry, place, htop, hfile, _⟩ := undo_of_eq_some h
    exact ⟨older, entry, htop, Store.text_eq_ok_iff.mpr ⟨place, hfile⟩⟩
  · rintro ⟨older, entry, htop, htext⟩
    have hspec := ed.undo_spec s
    generalize ed.undo s = out at hspec ⊢
    cases hspec with
    | empty hnone => simp [hnone] at htop
    | unreadable _ entry' _ htop' hread =>
      cases newest_unique htop htop'
      rw [Document.read_of_text htext] at hread
      cases hread
    | stale _ entry' _ htop' hread changed =>
      cases newest_unique htop htop'
      rw [Document.read_of_text htext] at hread
      cases hread
      exact absurd rfl changed
    | unwritten _ _ _ _ _ long => exact absurd (Store.fits_of_unlimited hw _) long
    | undone _ _ _ result _ _ _ => exact ⟨result, rfl⟩

end Editor

open Workshop

/-- **No undo overwrites what somebody else wrote.** However the calls of the editors and the doings
of others are mixed: an undo that is done found in the file just what its edit wrote, leaves there
just what the edit had found, and touches neither another file nor another entry. Any other undo
changes nothing at all. It is refused as stale exactly if the file holds another text than the edit
wrote. What others do to a file is to write, create or remove it: a `Store` has no permissions that
they could change, and no links. -/
theorem no_lost_update (w : Workshop) (h : w.Undisturbed) (events : List Event)
    (hq : ∀ event ∈ events, event.Quiet) (k : Nat) :
    let v := w.run events
    let after := v.step (.undo k)
    (∀ result, (v.undo k).1 = .ok (some result) → ∃ older entry place,
      (v.editors k).history.entries = older ++ [entry] ∧
      v.store.FileAt entry.path place entry.after.toUTF8 ∧
      after.store.FileAt entry.path place entry.before.toUTF8 ∧
      (∀ other, other ≠ place → after.store.node other = v.store.node other) ∧
      after.editors k =
        { v.editors k with history := { (v.editors k).history with entries := older } }) ∧
    ((∀ result, (v.undo k).1 ≠ .ok (some result)) →
      ((v.undo k).1 = .ok none ∨ (∃ path, (v.undo k).1 = .error (.staleUndo path)) ∨
        ∃ cause, (v.undo k).1 = .error (.file cause)) ∧
      after.store = v.store ∧ after.editors k = v.editors k) ∧
    (∀ j, j ≠ k → after.editors j = v.editors j) ∧
    ((∃ result, (v.undo k).1 = .ok (some result)) ↔ ∃ older entry,
      (v.editors k).history.entries = older ++ [entry] ∧
      v.store.text entry.path = .ok entry.after) ∧
    ∀ path, (v.undo k).1 = .error (.staleUndo path) ↔ ∃ older entry content,
      (v.editors k).history.entries = older ++ [entry] ∧ entry.path = path ∧
      v.store.text entry.path = .ok content ∧ content ≠ entry.after := by
  intro v after
  have hv : v.Undisturbed := run_undisturbed h hq
  have hself : after.editors k = (v.undo k).2.1 := Function.update_self ..
  refine ⟨fun result hdone => ?_, fun hno => ?_, fun j hj => Function.update_of_ne hj _ _,
    Editor.undo_eq_some_iff hv.unlimited, fun path => Editor.undo_eq_staleUndo_iff⟩
  · obtain ⟨older, entry, place, htop, hfile, hstore, heditor⟩ := Editor.undo_of_eq_some hdone
    have hafter : after.store = v.store.put place (some (.file entry.before.toUTF8)) := hstore
    refine ⟨older, entry, place, htop, hfile, ?_, fun other hother => ?_, hself.trans heditor⟩
    · rw [hafter]
      exact hfile.put _
    · rw [hafter, Store.node_put, if_neg hother]
  · obtain ⟨hanswer, hkept⟩ := Editor.undo_of_ne_some hv.unlimited hno
    exact ⟨hanswer, congrArg Prod.snd hkept, hself.trans (congrArg Prod.fst hkept)⟩

/-- Between an edit and its undo the file is removed, a directory takes its place, and another
editor puts back what the first one had written. -/
theorem no_lost_update_put_back :
    let w : Workshop := ⟨fun _ => ⟨.default, .empty 5, none⟩,
      ⟨[(["a.txt"], .file "one".toUTF8), ([], .directory)], none⟩⟩
    let events : List Event := [.edit 0 ⟨"a.txt", "one", "two", .strict, false⟩,
      .remove ["a.txt"], .createDirectory ["a.txt"], .write ["a.txt"] "three".toUTF8,
      .edit 1 ⟨"a.txt", "three", "two", .strict, false⟩]
    (∃ result, ((w.run events).undo 0).1 = .ok (some result)) ∧
      ((w.run events).step (.undo 0)).editors 1 = (w.run events).editors 1 := by
  intro w events
  have hstart : w.Undisturbed := ⟨rfl, fun _ _ hl => by cases hl⟩
  have hquiet : ∀ event ∈ events, event.Quiet := by
    rintro _ hmem k linter rfl
    simp [events] at hmem
  have htop : ((w.run events).editors 0).history.entries =
      [] ++ [⟨"a.txt", "one", "two", "one", "two"⟩] := by decide +kernel
  have htext : (w.run events).store.text "a.txt" = .ok "two" := by decide +kernel
  obtain ⟨_, _, hother, hdone, _⟩ := no_lost_update w hstart events hquiet 0
  exact ⟨hdone.mpr ⟨_, _, htop, htext⟩, hother 1 (by decide)⟩

end Anchored
