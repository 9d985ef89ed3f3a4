/-!
# The undo history

A stack of committed edits that keeps only the newest. What is taken off and put back by a refused
undo is never evicted; only the next commit cuts the stack to its bound again.
-/

namespace Anchored

/-- A committed edit, with all that undoing it takes. -/
structure CommittedEdit where
  path : String
  /-- The whole content before the edit. -/
  before : String
  /-- The whole content that the edit wrote. -/
  after : String
  find : String
  replace : String
  deriving DecidableEq, Repr

/-- The newest committed edits, oldest first, and how many of them are kept. -/
structure History where
  entries : List CommittedEdit
  maxEntries : Nat
  /-- At least one edit can be undone. -/
  maxEntries_pos : 0 < maxEntries
  deriving DecidableEq, Repr

namespace History

/-- Edits kept where nothing else is said. -/
def defaultMax : Nat :=
  100

/-- A history with no entry. It keeps `max` edits, but no fewer than one. -/
def empty (max : Nat) : History :=
  ⟨[], Nat.max max 1, Nat.lt_of_lt_of_le Nat.zero_lt_one (Nat.le_max_right ..)⟩

/-- Adds the newest edit; the oldest ones past the bound are evicted. -/
def commit (h : History) (entry : CommittedEdit) : History :=
  let all := h.entries ++ [entry]
  { h with entries := all.drop (all.length - h.maxEntries) }

/-- The newest entry, and the history without it. -/
def pop? (h : History) : Option (CommittedEdit × History) :=
  h.entries.getLast?.map fun entry => (entry, { h with entries := h.entries.dropLast })

/-- Puts an entry back on top. Nothing is evicted. -/
def restore (h : History) (entry : CommittedEdit) : History :=
  { h with entries := h.entries ++ [entry] }

/-- The entries, oldest first: all of them, or those of one path. -/
def entriesOf (h : History) (path : Option String) : List CommittedEdit :=
  h.entries.filter fun entry => path.all (entry.path == ·)

/-- The history with no entry left. -/
def clear (h : History) : History :=
  { h with entries := [] }

/-- Number of entries. -/
def size (h : History) : Nat :=
  h.entries.length

end History

end Anchored
