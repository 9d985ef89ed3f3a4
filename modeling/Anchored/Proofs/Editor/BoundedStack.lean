import Anchored.History
import Mathlib.Data.List.Infix
import Mathlib.Tactic.Common

/-!
# The undo history as the top of a stack

A stack without a bound is given all that a history is given. The history is then the top of that
stack, down to a depth that can be told from the operations alone (`history_is_truncated_stack`).
A commit evicts from the bottom only, one entry after another (`evict`). Putting entries back evicts
nothing and may go past the bound; it never does where each of them was taken just before.
-/

namespace Anchored

namespace History

variable {h : History} {entry : CommittedEdit} {older : List CommittedEdit}

/-! ## Eviction -/

/-- The entries that are left when the oldest ones go, one by one, until there are no more than
`max`. -/
def evict (max : Nat) : List CommittedEdit → List CommittedEdit
  | [] => []
  | oldest :: entries =>
    if max < (oldest :: entries).length then evict max entries else oldest :: entries

/-- What is left is in the same order, and nothing that went is newer. -/
theorem evict_suffix (max : Nat) (entries : List CommittedEdit) :
    evict max entries <:+ entries := by
  induction entries with
  | nil => exact List.suffix_refl []
  | cons oldest entries ih =>
    unfold evict
    split_ifs with hfull
    · exact ih.trans (List.suffix_cons oldest entries)
    · exact List.suffix_refl (oldest :: entries)

/-- No more go than have to. -/
theorem length_evict (max : Nat) (entries : List CommittedEdit) :
    (evict max entries).length = min entries.length max := by
  induction entries with
  | nil => simp [evict]
  | cons oldest entries ih =>
    unfold evict
    split_ifs with hfull
    · rw [ih]
      rw [List.length_cons] at hfull ⊢
      omega
    · omega

/-- A commit puts an entry on top and cuts the history to its bound. -/
theorem reverse_commit (h : History) (entry : CommittedEdit) :
    (h.commit entry).entries.reverse = (entry :: h.entries.reverse).take h.maxEntries := by
  unfold commit
  simp only [List.reverse_drop, List.reverse_append, List.reverse_singleton, List.singleton_append]
  rw [Nat.sub_sub_eq_min, List.take_eq_take_iff]
  simp [Nat.min_comm]

theorem length_commit (h : History) (entry : CommittedEdit) :
    (h.commit entry).entries.length = min (h.entries.length + 1) h.maxEntries := by
  rw [← List.length_reverse, reverse_commit, List.length_take, List.length_cons,
    List.length_reverse, Nat.min_comm]

/-- A commit adds its entry, and evicts what is too much then. -/
theorem commit_eq_evict (h : History) (entry : CommittedEdit) :
    (h.commit entry).entries = evict h.maxEntries (h.entries ++ [entry]) := by
  have hcut : (h.commit entry).entries <:+ h.entries ++ [entry] := List.drop_suffix _ _
  have hlen : (h.commit entry).entries.length =
      (evict h.maxEntries (h.entries ++ [entry])).length := by
    rw [length_commit, length_evict, List.length_append, List.length_singleton]
  have hevict := evict_suffix h.maxEntries (h.entries ++ [entry])
  exact (List.suffix_of_suffix_length_le hcut hevict hlen.le).eq_of_length hlen

/-- The new entry is never evicted. -/
theorem exists_entries_commit (h : History) (entry : CommittedEdit) :
    ∃ older, (h.commit entry).entries = older ++ [entry] := by
  have hpos := h.maxEntries_pos
  refine ⟨_, List.drop_append_of_le_length ?_⟩
  rw [List.length_append, List.length_singleton]
  omega

theorem getLast?_commit (h : History) (entry : CommittedEdit) :
    (h.commit entry).entries.getLast? = some entry := by
  obtain ⟨older, htop⟩ := h.exists_entries_commit entry
  rw [htop, List.getLast?_concat]

theorem commit_injective {entry' : CommittedEdit} (he : h.commit entry = h.commit entry') :
    entry = entry' := by
  have htop := h.getLast?_commit entry
  rw [he, getLast?_commit] at htop
  exact (Option.some.inj htop).symm

theorem mem_commit {c : CommittedEdit} (hc : c ∈ (h.commit entry).entries) :
    c ∈ h.entries ∨ c = entry := by
  have hmem : c ∈ h.entries ++ [entry] := List.mem_of_mem_drop hc
  rwa [List.mem_append, List.mem_singleton] at hmem

/-- Of a full history a commit evicts the oldest entry, and no other. -/
theorem entries_commit (h : History) (hle : h.entries.length ≤ h.maxEntries)
    (entry : CommittedEdit) :
    (h.commit entry).entries =
      if h.entries.length < h.maxEntries then h.entries ++ [entry]
      else h.entries.tail ++ [entry] := by
  have hpos := h.maxEntries_pos
  have hlen : (h.entries ++ [entry]).length = h.entries.length + 1 := by
    rw [List.length_append, List.length_singleton]
  unfold commit
  simp only [hlen]
  split_ifs with hroom
  · rw [Nat.sub_eq_zero_of_le hroom, List.drop_zero]
  · have hone : h.entries.length + 1 - h.maxEntries = 1 := by omega
    have hne : h.entries ≠ [] := by
      rw [← List.length_pos_iff]
      omega
    rw [hone, List.drop_one, List.tail_append_of_ne_nil hne]

/-! ## Taking the newest entry -/

theorem pop?_of_nil (hnil : h.entries = []) : h.pop? = none := by
  rw [pop?, hnil]
  rfl

theorem pop?_of_concat (htop : h.entries = older ++ [entry]) :
    h.pop? = some (entry, { h with entries := older }) := by
  rw [pop?, htop, List.getLast?_concat, List.dropLast_concat]
  rfl

/-! ## A stack beside the history -/

/-- What can be done to a history. -/
inductive Operation where
  | commit (entry : CommittedEdit)
  | pop
  | clear
  | restore (entry : CommittedEdit)
  deriving DecidableEq, Repr

/-- A history, and beside it a stack without a bound to which the same is done. -/
structure Tracked where
  history : History
  /-- The stack, newest entry first. -/
  stack : List CommittedEdit
  /-- How many entries the history is to have. -/
  depth : Nat
  /-- What the last operation took from the history, if it was a pop. -/
  taken : Option CommittedEdit
  deriving DecidableEq, Repr

namespace Tracked

variable {bound : Nat} {w : Tracked}

/-- An empty history for `max` entries, beside an empty stack. -/
def start (max : Nat) : Tracked :=
  ⟨.empty max, [], 0, none⟩

/-- What a pop of the history answers. -/
def answer (w : Tracked) : Option CommittedEdit :=
  w.history.pop?.map (·.1)

/-- The same operation on both. A pop takes the top of the stack even if the history, whose older
entries are evicted, has nothing left. -/
def step (bound : Nat) (w : Tracked) : Operation → Tracked
  | .commit entry =>
    ⟨w.history.commit entry, entry :: w.stack, min (w.depth + 1) bound, none⟩
  | .pop =>
    match w.history.pop? with
    | some (entry, rest) => ⟨rest, w.stack.tail, w.depth - 1, some entry⟩
    | none => ⟨w.history, w.stack.tail, w.depth - 1, none⟩
  | .clear => ⟨w.history.clear, [], 0, none⟩
  | .restore entry => ⟨w.history.restore entry, entry :: w.stack, w.depth + 1, none⟩

/-- The two after a number of operations. -/
def run (bound : Nat) (w : Tracked) (ops : List Operation) : Tracked :=
  ops.foldl (step bound) w

/-- If the operation puts an entry back, it is the one that the history has just given up. -/
def Fits (w : Tracked) : Operation → Prop
  | .restore entry => w.taken = some entry
  | _ => True

/-- Whatever the operations put back was taken just before. -/
def Orderly (bound : Nat) (w : Tracked) : List Operation → Prop
  | [] => True
  | op :: ops => w.Fits op ∧ (w.step bound op).Orderly bound ops

/-- The history is the top of the stack, down to its depth. -/
structure InStep (bound : Nat) (w : Tracked) : Prop where
  max_eq : w.history.maxEntries = bound
  entries_eq : w.history.entries = (w.stack.take w.depth).reverse
  depth_le : w.depth ≤ w.stack.length

theorem start_inStep (max : Nat) : (start max).InStep (Nat.max 1 max) :=
  ⟨Nat.max_comm max 1, rfl, Nat.le_refl 0⟩

theorem InStep.commit (h : w.InStep bound) (entry : CommittedEdit) :
    (w.step bound (.commit entry)).InStep bound := by
  obtain ⟨rfl, hentries, hdepth⟩ := h
  refine ⟨rfl, ?_, ?_⟩
  · have hcut := w.history.reverse_commit entry
    rw [hentries, List.reverse_reverse, ← List.take_succ_cons, List.take_take, Nat.min_comm]
      at hcut
    exact List.reverse_eq_iff.mp hcut
  · simp only [step, List.length_cons]
    omega

/-- A pop of the history, in terms of the stack. -/
theorem InStep.pop? (h : w.InStep bound) :
    (w.depth = 0 ∧ w.history.pop? = none) ∨ ∃ entry rest,
      0 < w.depth ∧ w.stack = entry :: rest ∧ w.history.pop? =
        some (entry, { w.history with entries := (rest.take (w.depth - 1)).reverse }) := by
  obtain ⟨_, hentries, hdepth⟩ := h
  rcases hd : w.depth with _ | d
  · rw [hd, List.take_zero, List.reverse_nil] at hentries
    exact Or.inl ⟨rfl, pop?_of_nil hentries⟩
  · rcases hs : w.stack with _ | ⟨entry, rest⟩
    · rw [hs, hd] at hdepth
      cases hdepth
    · rw [hs, hd, List.take_succ_cons, List.reverse_cons] at hentries
      exact Or.inr ⟨entry, rest, Nat.succ_pos d, rfl, pop?_of_concat hentries⟩

theorem InStep.answer_eq (h : w.InStep bound) :
    w.answer = if 0 < w.depth then w.stack.head? else none := by
  unfold answer
  rcases h.pop? with ⟨hdepth, hpop⟩ | ⟨entry, rest, hdepth, hstack, hpop⟩
  · rw [hpop, if_neg (by omega)]
    rfl
  · rw [hpop, if_pos hdepth, hstack]
    rfl

theorem InStep.pop (h : w.InStep bound) : (w.step bound .pop).InStep bound := by
  have hle := h.depth_le
  rcases h.pop? with ⟨hdepth, hpop⟩ | ⟨entry, rest, hdepth, hstack, hpop⟩
  · have hentries := h.entries_eq
    rw [hdepth] at hentries
    simp only [step, hpop, hdepth]
    exact ⟨h.max_eq, hentries, Nat.zero_le _⟩
  · have hrest : w.depth - 1 ≤ rest.length := by
      rw [hstack, List.length_cons] at hle
      omega
    simp only [step, hpop, hstack, List.tail_cons]
    exact ⟨h.max_eq, rfl, hrest⟩

theorem InStep.clear (h : w.InStep bound) : (w.step bound .clear).InStep bound :=
  ⟨h.max_eq, rfl, Nat.le_refl 0⟩

theorem InStep.restore (h : w.InStep bound) (entry : CommittedEdit) :
    (w.step bound (.restore entry)).InStep bound := by
  refine ⟨h.max_eq, ?_, Nat.succ_le_succ h.depth_le⟩
  simp only [step, History.restore, h.entries_eq, List.take_succ_cons, List.reverse_cons]

theorem InStep.step (h : w.InStep bound) (op : Operation) : (w.step bound op).InStep bound := by
  cases op with
  | commit entry => exact h.commit entry
  | pop => exact h.pop
  | clear => exact h.clear
  | restore entry => exact h.restore entry

theorem InStep.run (h : w.InStep bound) (ops : List Operation) : (w.run bound ops).InStep bound := by
  induction ops generalizing w with
  | nil => exact h
  | cons op ops ih => exact ih (h.step op)

/-! ## The bound -/

/-- The depth is within the bound, and has room for an entry that was just taken. -/
structure Bounded (bound : Nat) (w : Tracked) : Prop where
  depth_le : w.depth ≤ bound
  depth_lt : ∀ entry, w.taken = some entry → w.depth < bound

theorem Bounded.step (hb : w.Bounded bound) (h : w.InStep bound) {op : Operation}
    (hfits : w.Fits op) : (w.step bound op).Bounded bound := by
  obtain ⟨hle, hlt⟩ := hb
  cases op with
  | commit entry => exact ⟨Nat.min_le_right _ _, nofun⟩
  | pop =>
    rcases h.pop? with ⟨hdepth, hpop⟩ | ⟨entry, rest, hdepth, hstack, hpop⟩
    · simp only [Tracked.step, hpop, hdepth]
      exact ⟨Nat.zero_le _, nofun⟩
    · have hroom : w.depth - 1 < bound := Nat.lt_of_lt_of_le (Nat.sub_lt hdepth Nat.one_pos) hle
      simp only [Tracked.step, hpop]
      exact ⟨hroom.le, fun _ _ => hroom⟩
  | clear => exact ⟨Nat.zero_le _, nofun⟩
  | restore entry => exact ⟨hlt entry hfits, nofun⟩

theorem Bounded.run (hb : w.Bounded bound) (h : w.InStep bound) {ops : List Operation}
    (hops : w.Orderly bound ops) : (w.run bound ops).Bounded bound := by
  induction ops generalizing w with
  | nil => exact hb
  | cons op ops ih => exact ih (hb.step h hops.1) (h.step op) hops.2

end Tracked

open Tracked

/-- **The history is a truncated stack.** Whatever is done to a history that started empty, and to a
stack without a bound beside it: the history has the newest entries of the stack in their order, as
many as the operations make its depth, and a pop takes what is on top of the stack unless the depth
is zero. The depth stays within the bound where only what was just taken is put back. In whatever
state the history is, also past the bound, the next commit leaves the newest entries and the new one
among them, no more than the bound and no fewer than there are. -/
theorem history_is_truncated_stack (max : Nat) (ops : List Operation) :
    let bound := Nat.max 1 max
    let w := (start max).run bound ops
    w.history.entries = (w.stack.take w.depth).reverse ∧ w.depth ≤ w.stack.length ∧
      w.answer = (if 0 < w.depth then w.stack.head? else none) ∧
      ((start max).Orderly bound ops → w.depth ≤ bound) ∧
      ∀ entry,
        (w.history.commit entry).entries <:+ w.history.entries ++ [entry] ∧
        (w.history.commit entry).entries.length = min (w.history.size + 1) bound ∧
        (w.history.commit entry).entries.getLast? = some entry := by
  intro bound w
  have hstart : (start max).InStep bound := start_inStep max
  have hw : w.InStep bound := hstart.run ops
  refine ⟨hw.entries_eq, hw.depth_le, hw.answer_eq, fun hops => ?_, fun entry => ⟨?_, ?_, ?_⟩⟩
  · have hempty : (start max).Bounded bound := ⟨Nat.zero_le bound, nofun⟩
    exact (hempty.run hstart hops).depth_le
  · rw [commit_eq_evict]
    exact evict_suffix _ _
  · rw [length_commit, hw.max_eq]
    rfl
  · exact getLast?_commit _ _

/-- A history for two entries that has evicted one, given up the newest and got it back. -/
theorem history_is_truncated_stack_restored :
    let a : CommittedEdit := ⟨"a.txt", "", "1", "", "1"⟩
    let b : CommittedEdit := ⟨"b.txt", "", "2", "", "2"⟩
    let c : CommittedEdit := ⟨"a.txt", "1", "3", "1", "3"⟩
    let ops : List Operation := [.commit a, .commit b, .commit c, .pop, .restore c]
    let w := (start 2).run 2 ops
    (start 2).Orderly 2 ops ∧ w.depth ≤ 2 ∧ w.stack = [c, b, a] ∧ w.history.entries = [b, c] ∧
      w.answer = some c ∧ (w.history.commit a).entries = [c, a] := by
  intro a b c ops w
  have hops : (start 2).Orderly 2 ops := ⟨trivial, trivial, trivial, trivial, rfl, trivial⟩
  have hstack : w.stack = [c, b, a] := rfl
  have hdepth : w.depth = 2 := rfl
  obtain ⟨hentries, _, hanswer, hle, hcommit⟩ := history_is_truncated_stack 2 ops
  change w.history.entries = (w.stack.take w.depth).reverse at hentries
  change w.answer = if 0 < w.depth then w.stack.head? else none at hanswer
  rw [hstack, hdepth] at hentries hanswer
  obtain ⟨hsuffix, hlen, _⟩ := hcommit a
  change (w.history.commit a).entries <:+ w.history.entries ++ [a] at hsuffix
  change (w.history.commit a).entries.length = min (w.history.entries.length + 1) 2 at hlen
  rw [hentries] at hsuffix hlen
  have hnewest : [c, a] <:+ [b, c] ++ [a] := ⟨[b], rfl⟩
  refine ⟨hops, hle hops, hstack, hentries, hanswer, ?_⟩
  exact (List.suffix_of_suffix_length_le hsuffix hnewest hlen.le).eq_of_length hlen

end History

end Anchored
