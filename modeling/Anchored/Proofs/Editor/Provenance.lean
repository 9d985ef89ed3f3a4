import Anchored.Proofs.Editor.Steps

/-!
# Where the entries of a history come from

One editor works while everybody else does to the files what they like, at any time: they write,
remove and create files, and change what a file can hold, so that writes of the editor may fail. An
entry of its history is nevertheless always a whole edit (`CommittedEdit.Sound`): it is added when the
edit is done, and a refused undo puts back the very entry that it took.
-/

namespace Anchored

/-- A turn of the editor, or of everybody else. -/
inductive Turn where
  | edit (e : Edit)
  | check (path find : String) (mode : MatchMode)
  | undo
  | clear
  | setLinter (linter : Option Linter)
  /-- Everybody else leaves the files like this. -/
  | others (files : Store)

/-- An editor and the files that it works on. -/
structure Desk where
  editor : Editor
  store : Store

namespace Desk

/-- The editor and the files after a turn. -/
def step (d : Desk) : Turn → Desk
  | .edit e =>
    let (_, editor, store) := d.editor.edit d.store e
    ⟨editor, store⟩
  | .check .. => d
  | .undo =>
    let (_, editor, store) := d.editor.undo d.store
    ⟨editor, store⟩
  | .clear => { d with editor := d.editor.clearHistory }
  | .setLinter linter => { d with editor := d.editor.withLinter linter }
  | .others files => { d with store := files }

/-- The editor and the files after a number of turns. -/
def run (d : Desk) (turns : List Turn) : Desk :=
  turns.foldl step d

end Desk

/-! ## What an entry says -/

/-- The entry is an edit that can be made: the anchor names a span of the old content, the new content
is the old one with the replacement at that span, it is another content, and it is well-formed. -/
structure CommittedEdit.Sound (c : CommittedEdit) : Prop where
  spliced : ∃ mode before old after,
    locateUnique c.path c.before c.find mode =
      .ok ⟨before.utf8ByteSize, before.utf8ByteSize + old.utf8ByteSize⟩ ∧
    c.before = before ++ old ++ after ∧ c.after = before ++ c.replace ++ after
  changed : c.after ≠ c.before
  valid : (validate c.path c.after c.before).valid = true

/-- A plan for a well-formed content is kept as a sound entry. -/
theorem Plan.Found.committed_sound {s : Store} {e : Edit} {place : Place} {p : Plan}
    (h : Plan.Found s e place p) (valid : p.problem = none) : (p.committed e).Sound := by
  obtain ⟨before, old, after, hsplices, hspan⟩ := h.exists_splices
  refine ⟨⟨e.mode, before, old, after, ?_, hsplices.content_eq, hsplices.new_eq⟩,
    hsplices.changed, Option.isNone_iff_eq_none.mpr valid⟩
  simp only [committed]
  rw [h.path_eq, hspan]

/-! ## What becomes of the entries -/

namespace Editor

variable {ed : Editor} {s : Store} {c : CommittedEdit}

/-- An edit adds at most one entry: its own, when it is made. -/
theorem mem_entries_edit {e : Edit} (hc : c ∈ (ed.edit s e).2.1.history.entries) :
    c ∈ ed.history.entries ∨
      ∃ place p, Plan.Found s e place p ∧ p.problem = none ∧ c = p.committed e := by
  have hspec := ed.edit_spec s e
  rcases hed : ed.edit s e with ⟨answer, ed', t⟩
  rw [hed] at hspec
  cases hspec with
  | unplanned _ _ =>
    rw [hed] at hc
    exact Or.inl hc
  | planned _ _ _ =>
    rw [hed] at hc
    exact Or.inl hc
  | withdrawn _ _ _ _ _ _ =>
    rw [hed] at hc
    exact Or.inl hc
  | committed _ _ _ wet _ =>
    obtain ⟨place, p, hfound, valid, hmade⟩ := edit_made wet (congrArg Prod.fst hed)
    rw [hmade] at hc
    exact (History.mem_commit hc).imp_right fun h => ⟨place, p, hfound, valid, h⟩

/-- An undo adds no entry. -/
theorem mem_entries_undo (hc : c ∈ (ed.undo s).2.1.history.entries) : c ∈ ed.history.entries := by
  have hspec := ed.undo_spec s
  generalize ed.undo s = out at hc hspec
  cases hspec with
  | empty _ => exact hc
  | unreadable _ _ _ _ _ => exact hc
  | stale _ _ _ _ _ _ => exact hc
  | unwritten _ _ _ _ _ _ => exact hc
  | undone older entry _ _ top _ _ =>
    rw [top]
    exact List.mem_append_left _ hc

/-- The entries stay sound, whatever the edit comes to. -/
theorem edit_sound (h : ∀ c ∈ ed.history.entries, c.Sound) (s : Store) (e : Edit) :
    ∀ c ∈ (ed.edit s e).2.1.history.entries, c.Sound := by
  intro c hc
  rcases mem_entries_edit hc with hold | ⟨place, p, hfound, valid, rfl⟩
  · exact h c hold
  · exact hfound.committed_sound valid

end Editor

namespace Desk

variable {d : Desk}

theorem step_sound (h : ∀ c ∈ d.editor.history.entries, c.Sound) (turn : Turn) :
    ∀ c ∈ (d.step turn).editor.history.entries, c.Sound := by
  cases turn with
  | edit e => exact Editor.edit_sound h d.store e
  | check path find mode => exact h
  | undo => exact fun c hc => h c (Editor.mem_entries_undo hc)
  | clear => exact fun c hc => by cases hc
  | setLinter linter => exact h
  | others files => exact h

theorem run_sound (h : ∀ c ∈ d.editor.history.entries, c.Sound) (turns : List Turn) :
    ∀ c ∈ (d.run turns).editor.history.entries, c.Sound := by
  induction turns generalizing d with
  | nil => exact h
  | cons turn turns ih => exact ih (step_sound h turn)

end Desk

/-- **Every entry of a history is a whole edit.** Whatever an editor is told to do, and whatever
becomes of the files meanwhile: from an empty history on, the anchor of every entry names a span of
the old content, the new content is the old one with just that span replaced, the two differ, and the
new one is well-formed. -/
theorem history_entries_sound (d : Desk) (h : d.editor.history.entries = []) (turns : List Turn) :
    ∀ c ∈ (d.run turns).editor.history.entries, c.Sound := by
  apply Desk.run_sound
  rw [h]
  exact fun c hc => by cases hc

/-- An edit of a file that somebody else has written, a second one that is too long for the file, and
an undo after the file was removed. -/
theorem history_entries_sound_refused :
    let d : Desk := ⟨⟨.default, .empty 1, none⟩, .empty⟩
    let turns : List Turn := [
      .others ⟨[(["a.c"], .file "f(x);\n".toUTF8), ([], .directory)], some 6⟩,
      .edit ⟨"a.c", "f(x); ", "g();", .fuzzy, false⟩,
      .edit ⟨"a.c", "g", "long_name", .strict, false⟩, .others .empty, .undo]
    d.editor.history.entries = [] ∧
      (d.run turns).editor.history.entries = [⟨"a.c", "f(x);\n", "g();\n", "f(x); ", "g();"⟩] ∧
      (CommittedEdit.mk "a.c" "f(x);\n" "g();\n" "f(x); " "g();").Sound := by
  intro d turns
  have hentries : (d.run turns).editor.history.entries =
      [⟨"a.c", "f(x);\n", "g();\n", "f(x); ", "g();"⟩] := by decide +kernel
  refine ⟨rfl, hentries, history_entries_sound d rfl turns _ ?_⟩
  rw [hentries]
  exact List.mem_singleton_self _

end Anchored
