import Anchored.Bracket.Balance
import Anchored.Proofs.Bracket.Division

/-!
# What the balance of brackets is

Words of brackets are balanced by a grammar (`Balanced`), and one that is not is flawed at one place
(`Flawed`). The reader with its stack decides which: what it holds after a part of a word is what
this part leaves open (`foldlM_read_iff`).
-/

namespace Anchored.Bracket

/-! ## Words of brackets -/

/-- An opening bracket and the closing one of its kind. -/
inductive Pair : Char → Char → Prop
  | round : Pair '(' ')'
  | square : Pair '[' ']'
  | curly : Pair '\x7b' '\x7d'

/-- The words in which every bracket has its partner. -/
inductive Balanced : List Char → Prop
  | nil : Balanced []
  | pair {o c : Char} {u v : List Char} (pair : Pair o c) (inside : Balanced u)
      (after : Balanced v) : Balanced (o :: (u ++ c :: v))

/-- The words that lack the partners of these opening brackets, innermost first, and no others. -/
inductive Leaves : List Char → List Char → Prop
  | balanced {u : List Char} (h : Balanced u) : Leaves u []
  | opening {p stack u : List Char} {o : Char} (before : Leaves p stack) (opens : ∃ c, Pair o c)
      (after : Balanced u) : Leaves (p ++ o :: u) (o :: stack)

/-- Why a word of brackets does not balance. -/
inductive Flaw where
  | mismatched (closer opener : Char)
  | unmatched (closer : Char)
  | unclosed (opener : Char)
  deriving DecidableEq, Repr

/-- The flaw of a word: the first closing bracket that does not fit, which is of another kind than
the innermost open one or has none open, or else the innermost opening bracket without a partner. -/
inductive Flawed : List Char → Flaw → Prop
  | mismatched {p stack u v : List Char} {o c : Char} (before : Leaves p stack)
      (opens : ∃ c', Pair o c') (inside : Balanced u) (closes : ∃ o', Pair o' c)
      (other : ¬ Pair o c) : Flawed (p ++ o :: (u ++ c :: v)) (.mismatched c o)
  | unmatched {u v : List Char} {c : Char} (before : Balanced u) (closes : ∃ o, Pair o c) :
      Flawed (u ++ c :: v) (.unmatched c)
  | unclosed {p stack u : List Char} {o : Char} (before : Leaves p stack) (opens : ∃ c, Pair o c)
      (after : Balanced u) : Flawed (p ++ o :: u) (.unclosed o)

/-- What is wrong with brackets, without the lines on which they stand. -/
def Imbalance.flaw : Imbalance → Flaw
  | .mismatched closer _ opening => .mismatched closer opening.bracket
  | .unmatched closer _ => .unmatched closer
  | .unclosed opening => .unclosed opening.bracket

/-- The characters that are brackets in code. -/
def brackets : List Char :=
  ['(', ')', '[', ']', '\x7b', '\x7d']

/-- The word of the brackets in code. -/
def codeBrackets (segments : List Segment) : List Char :=
  segments.flatMap fun s => if s.kind = .code then s.text.filter (· ∈ brackets) else []

variable {c o : Char} {w p u v stack : List Char} {flaw : Flaw}

theorem mem_brackets_iff : c ∈ brackets ↔ (∃ c', Pair c c') ∨ ∃ o, Pair o c := by
  constructor
  · intro h
    simp only [brackets, List.mem_cons, List.not_mem_nil, or_false] at h
    rcases h with rfl | rfl | rfl | rfl | rfl | rfl
    exacts [.inl ⟨_, .round⟩, .inr ⟨_, .round⟩, .inl ⟨_, .square⟩, .inr ⟨_, .square⟩,
      .inl ⟨_, .curly⟩, .inr ⟨_, .curly⟩]
  · rintro (⟨c', ⟨⟩⟩ | ⟨o, ⟨⟩⟩) <;> decide

theorem mem_codeBrackets {segs : List Segment} (h : c ∈ codeBrackets segs) : c ∈ brackets := by
  obtain ⟨s, _, hs⟩ := List.mem_flatMap.mp h
  split_ifs at hs
  · simpa using (List.mem_filter.mp hs).2
  · cases hs

/-! ## Balanced words and the brackets they leave open -/

theorem Balanced.append (hu : Balanced u) (hv : Balanced v) : Balanced (u ++ v) := by
  induction hu with
  | nil => exact hv
  | pair h inside _ _ ih =>
    rw [List.cons_append, List.append_assoc, List.cons_append]
    exact .pair h inside ih

theorem Leaves.append (h : Leaves p stack) (hu : Balanced u) : Leaves (p ++ u) stack := by
  cases h with
  | balanced hp => exact .balanced (hp.append hu)
  | opening before opens after =>
    rw [List.append_assoc, List.cons_append]
    exact .opening before opens (after.append hu)

/-- A closing bracket finds the innermost open one. -/
theorem Leaves.close (h : Leaves p (o :: stack)) (hc : Pair o c) : Leaves (p ++ [c]) stack := by
  cases h with
  | opening before _ after =>
    rw [List.append_assoc]
    exact before.append (.pair hc after .nil)

/-! ## Reading a word with a stack -/

theorem openerOf?_eq_some_iff : openerOf? c = some o ↔ Pair o c := by
  constructor
  · fun_cases openerOf? c <;> intro h <;> cases h <;> constructor
  · rintro ⟨⟩ <;> rfl

theorem isOpener_iff : isOpener o = true ↔ ∃ c, Pair o c := by
  constructor
  · intro h
    have hcases : o = '(' ∨ o = '[' ∨ o = '\x7b' := by
      simpa [isOpener, or_assoc] using h
    rcases hcases with rfl | rfl | rfl
    · exact ⟨_, .round⟩
    · exact ⟨_, .square⟩
    · exact ⟨_, .curly⟩
  · rintro ⟨c, ⟨⟩⟩ <;> rfl

/-- No bracket both opens and closes. -/
theorem Pair.isOpener_eq_false (h : Pair o c) : isOpener c = false := by
  cases h <;> rfl

/-- The brackets open after one more, innermost first. It is `step` without the lines. -/
def read (stack : List Char) (c : Char) : Except Flaw (List Char) :=
  if isOpener c then .ok (c :: stack)
  else match stack with
    | [] => .error (.unmatched c)
    | o :: rest => if openerOf? c = some o then .ok rest else .error (.mismatched c o)

/-- No bracket may be open at the end. -/
def finish : List Char → Except Flaw Unit
  | [] => .ok ()
  | o :: _ => .error (.unclosed o)

/-- Reads a word of brackets to its end. -/
def readWord (w : List Char) : Except Flaw Unit :=
  w.foldlM read [] >>= finish

theorem read_opener (h : ∃ c', Pair c c') (stack : List Char) :
    read stack c = .ok (c :: stack) := by
  unfold read
  exact if_pos (isOpener_iff.mpr h)

theorem read_closer (h : Pair o c) (stack : List Char) : read (o :: stack) c = .ok stack := by
  simp [read, h.isOpener_eq_false, openerOf?_eq_some_iff.mpr h]

theorem read_other (h : ∃ o', Pair o' c) (other : ¬ Pair o c) (stack : List Char) :
    read (o :: stack) c = .error (.mismatched c o) := by
  obtain ⟨o', h⟩ := h
  simp [read, h.isOpener_eq_false, mt openerOf?_eq_some_iff.mp other]

theorem read_nil (h : ∃ o, Pair o c) : read [] c = .error (.unmatched c) := by
  obtain ⟨o, h⟩ := h
  simp [read, h.isOpener_eq_false]

/-- A bracket that is read opens, or closes the innermost open one. -/
theorem read_eq_ok {stack' : List Char} (h : read stack c = .ok stack') :
    (∃ c', Pair c c') ∧ stack' = c :: stack ∨ ∃ o, Pair o c ∧ stack = o :: stack' := by
  revert h
  fun_cases read stack c with
  | case1 stack hopens =>
    rintro ⟨⟩
    exact Or.inl ⟨isOpener_iff.mp hopens, rfl⟩
  | case2 _ => nofun
  | case3 _ o rest hcloses =>
    rintro ⟨⟩
    exact Or.inr ⟨o, openerOf?_eq_some_iff.mp hcloses, rfl⟩
  | case4 _ _ _ _ => nofun

/-- One that is not read closes, but not the innermost open one. -/
theorem read_eq_error (h : read stack c = .error flaw) :
    (¬ ∃ c', Pair c c') ∧ (stack = [] ∧ flaw = .unmatched c ∨
      ∃ o rest, stack = o :: rest ∧ ¬ Pair o c ∧ flaw = .mismatched c o) := by
  revert h
  fun_cases read stack c with
  | case1 => nofun
  | case2 hno =>
    rintro ⟨⟩
    exact ⟨fun h => hno (isOpener_iff.mpr h), Or.inl ⟨rfl, rfl⟩⟩
  | case3 _ o rest hcloses => nofun
  | case4 hno o rest hother =>
    rintro ⟨⟩
    exact ⟨fun h => hno (isOpener_iff.mpr h),
      Or.inr ⟨o, rest, rfl, fun h => hother (openerOf?_eq_some_iff.mpr h), rfl⟩⟩

section Fold

variable {σ ε α : Type} {f : σ → α → Except ε σ} {a b : σ} {x : α} {xs ys : List α}

theorem foldlM_cons_of_ok (h : f a x = .ok b) (xs : List α) :
    (x :: xs).foldlM f a = xs.foldlM f b := by
  rw [List.foldlM_cons, h]
  rfl

theorem foldlM_append_of_ok (h : xs.foldlM f a = .ok b) (ys : List α) :
    (xs ++ ys).foldlM f a = ys.foldlM f b := by
  rw [List.foldlM_append, h]
  rfl

theorem foldlM_append_of_error {e : ε} (h : xs.foldlM f a = .error e) (ys : List α) :
    (xs ++ ys).foldlM f a = .error e := by
  rw [List.foldlM_append, h]
  rfl

theorem foldlM_cons_of_error {e : ε} (h : f a x = .error e) (xs : List α) :
    (x :: xs).foldlM f a = .error e := by
  rw [List.foldlM_cons, h]
  rfl

theorem foldlM_concat_eq_ok (h : (xs ++ [x]).foldlM f a = .ok b) :
    ∃ c, xs.foldlM f a = .ok c ∧ f c x = .ok b := by
  rcases hxs : xs.foldlM f a with e | c
  · rw [foldlM_append_of_error hxs] at h
    cases h
  · rcases hx : f c x with e | d
    · rw [foldlM_append_of_ok hxs, foldlM_cons_of_error hx] at h
      cases h
    · rw [foldlM_append_of_ok hxs, foldlM_cons_of_ok hx] at h
      exact ⟨c, rfl, hx.trans h⟩

/-- A fold fails at the first element that it cannot take. -/
theorem exists_of_foldlM_eq_error {e : ε} (h : xs.foldlM f a = .error e) :
    ∃ before x after c, xs = before ++ x :: after ∧ before.foldlM f a = .ok c ∧
      f c x = .error e := by
  induction xs generalizing a with
  | nil => cases h
  | cons x xs ih =>
    rcases hx : f a x with e' | b
    · rw [foldlM_cons_of_error hx] at h
      cases h
      exact ⟨[], x, xs, a, rfl, rfl, hx⟩
    · rw [foldlM_cons_of_ok hx] at h
      obtain ⟨before, y, after, c, rfl, hbefore, hy⟩ := ih h
      exact ⟨x :: before, y, after, c, rfl, (foldlM_cons_of_ok hx before).trans hbefore, hy⟩

end Fold

/-- A balanced word is read with nothing changed on the stack. -/
theorem Balanced.foldlM_read (h : Balanced u) (stack : List Char) :
    u.foldlM read stack = .ok stack := by
  induction h generalizing stack with
  | nil => rfl
  | @pair o c u v hpair _ _ ihu ihv =>
    rw [foldlM_cons_of_ok (read_opener ⟨c, hpair⟩ stack), foldlM_append_of_ok (ihu _),
      foldlM_cons_of_ok (read_closer hpair stack), ihv]

/-- What is on the stack after a word is what the word leaves open. -/
theorem foldlM_read_iff : w.foldlM read [] = .ok stack ↔ Leaves w stack := by
  constructor
  · induction w using List.reverseRecOn generalizing stack with
    | nil =>
      rintro ⟨⟩
      exact .balanced .nil
    | append_singleton w c ih =>
      intro h
      obtain ⟨before, hbefore, hread⟩ := foldlM_concat_eq_ok h
      rcases read_eq_ok hread with ⟨hopens, rfl⟩ | ⟨o, hpair, rfl⟩
      · exact .opening (ih hbefore) hopens .nil
      · exact (ih hbefore).close hpair
  · intro h
    induction h with
    | balanced h => exact h.foldlM_read []
    | opening before opens after ih =>
      rw [foldlM_append_of_ok ih, foldlM_cons_of_ok (read_opener opens _), after.foldlM_read]

theorem leaves_nil_iff : Leaves w [] ↔ Balanced w :=
  ⟨fun h => by cases h; assumption, .balanced⟩

theorem leaves_cons_iff : Leaves w (o :: stack) ↔
    ∃ p u, w = p ++ o :: u ∧ Leaves p stack ∧ (∃ c, Pair o c) ∧ Balanced u := by
  constructor
  · rintro ⟨⟩
    exact ⟨_, _, rfl, ‹_›, ‹_›, ‹_›⟩
  · rintro ⟨p, u, rfl, hp, ho, hu⟩
    exact .opening hp ho hu

theorem readWord_eq_ok_iff : readWord w = .ok () ↔ Balanced w := by
  rw [← leaves_nil_iff, ← foldlM_read_iff, readWord]
  rcases w.foldlM read [] with flaw | _ | ⟨o, stack⟩
  · exact ⟨nofun, nofun⟩
  · exact ⟨fun _ => rfl, fun _ => rfl⟩
  · exact ⟨nofun, nofun⟩

theorem readWord_of_error (h : w.foldlM read [] = .error flaw) : readWord w = .error flaw := by
  rw [readWord, h]
  rfl

theorem readWord_of_cons (h : w.foldlM read [] = .ok (o :: stack)) :
    readWord w = .error (.unclosed o) := by
  rw [readWord, h]
  rfl

/-- A word of brackets is read to its flaw. -/
theorem flawed_of_readWord (hw : ∀ c ∈ w, c ∈ brackets) (h : readWord w = .error flaw) :
    Flawed w flaw := by
  rcases hread : w.foldlM read [] with flaw' | _ | ⟨o, stack⟩
  · obtain rfl : flaw' = flaw := Except.error.inj ((readWord_of_error hread).symm.trans h)
    obtain ⟨before, c, after, stack, rfl, hbefore, hc⟩ := exists_of_foldlM_eq_error hread
    have hleaves := foldlM_read_iff.mp hbefore
    obtain ⟨hno, hcase⟩ := read_eq_error hc
    have hcloses := (mem_brackets_iff.mp (hw c (by simp))).resolve_left hno
    rcases hcase with ⟨rfl, rfl⟩ | ⟨o, rest, rfl, other, rfl⟩
    · exact .unmatched (leaves_nil_iff.mp hleaves) hcloses
    · obtain ⟨p, u, rfl, hp, ho, hu⟩ := leaves_cons_iff.mp hleaves
      rw [List.append_assoc]
      exact .mismatched hp ho hu hcloses other
  · rw [readWord, hread] at h
    cases h
  · obtain rfl : .unclosed o = flaw := Except.error.inj ((readWord_of_cons hread).symm.trans h)
    obtain ⟨p, u, rfl, hp, ho, hu⟩ := leaves_cons_iff.mp (foldlM_read_iff.mp hread)
    exact .unclosed hp ho hu

theorem readWord_of_flawed (h : Flawed w flaw) : readWord w = .error flaw := by
  cases h with
  | mismatched before opens inside closes other =>
    apply readWord_of_error
    rw [foldlM_append_of_ok (foldlM_read_iff.mpr before), foldlM_cons_of_ok (read_opener opens _),
      foldlM_append_of_ok (inside.foldlM_read _), foldlM_cons_of_error (read_other closes other _)]
  | unmatched before closes =>
    apply readWord_of_error
    rw [foldlM_append_of_ok (before.foldlM_read []), foldlM_cons_of_error (read_nil closes)]
  | unclosed before opens after =>
    exact readWord_of_cons (foldlM_read_iff.mpr (.opening before opens after))

theorem readWord_eq_error_iff (hw : ∀ c ∈ w, c ∈ brackets) :
    readWord w = .error flaw ↔ Flawed w flaw :=
  ⟨flawed_of_readWord hw, readWord_of_flawed⟩

/-! ## The check reads the brackets in code -/

/-- The brackets that are open, without their lines. -/
def letters (stack : List Opening) : List Char :=
  stack.map (·.bracket)

theorem openerOf?_eq_none (h : c ∉ brackets) : openerOf? c = none := by
  refine Option.eq_none_iff_forall_not_mem.mpr fun o ho => h ?_
  exact mem_brackets_iff.mpr (Or.inr ⟨o, openerOf?_eq_some_iff.mp ho⟩)

theorem step_of_not_mem (line : Nat) (stack : List Opening) (h : c ∉ brackets) :
    step line stack c = .ok stack := by
  have hopens : isOpener c ≠ true := fun ho =>
    h (mem_brackets_iff.mpr (Or.inl (isOpener_iff.mp ho)))
  rw [step, if_neg hopens, openerOf?_eq_none h]

/-- The check does with a bracket what the reader does. -/
theorem read_letters (line : Nat) (stack : List Opening) (h : c ∈ brackets) :
    read (letters stack) c = ((step line stack c).map letters).mapError Imbalance.flaw := by
  by_cases hopens : isOpener c = true
  · rw [read_opener (isOpener_iff.mp hopens), step, if_pos hopens]
    rfl
  · obtain ⟨o, hpair⟩ := (mem_brackets_iff.mp h).resolve_left (mt isOpener_iff.mpr hopens)
    rw [step, if_neg hopens, openerOf?_eq_some_iff.mpr hpair]
    rcases stack with _ | ⟨top, stack⟩
    · exact read_nil ⟨o, hpair⟩
    · by_cases htop : top.bracket = o
      · subst htop
        rw [letters, List.map_cons, read_closer hpair]
        simp only [if_true]
        rfl
      · have other : ¬ Pair top.bracket c := fun h => htop <| Option.some.inj <|
          (openerOf?_eq_some_iff.mpr h).symm.trans (openerOf?_eq_some_iff.mpr hpair)
        rw [letters, List.map_cons, read_other ⟨o, hpair⟩ other]
        simp only [if_neg htop]
        rfl

theorem foldlM_read_letters (line : Nat) (text : List Char) (stack : List Opening) :
    (text.filter (· ∈ brackets)).foldlM read (letters stack) =
      ((text.foldlM (step line) stack).map letters).mapError Imbalance.flaw := by
  induction text generalizing stack with
  | nil => rfl
  | cons c text ih =>
    by_cases hc : c ∈ brackets
    · rw [List.filter_cons_of_pos (by simpa using hc)]
      have hread := read_letters line stack hc
      rcases hstep : step line stack c with e | stack'
      · rw [hstep] at hread
        rw [foldlM_cons_of_error hread, foldlM_cons_of_error hstep]
        rfl
      · rw [hstep] at hread
        rw [foldlM_cons_of_ok hread, foldlM_cons_of_ok hstep, ih]
    · rw [List.filter_cons_of_neg (by simpa using hc), ih,
        foldlM_cons_of_ok (step_of_not_mem line stack hc)]

/-- The brackets open after some segments, the first of which starts on a line, with some open before
them. -/
def openAfter (line : Nat) (stack : List Opening) : List Segment → Except Imbalance (List Opening)
  | [] => .ok stack
  | s :: rest => do
    let stack ← if s.kind = .code then s.text.foldlM (step line) stack else .ok stack
    openAfter (line + s.linesPassed) stack rest

/-- The line on which what follows some segments starts. -/
def lineAfter (line : Nat) : List Segment → Nat
  | [] => line
  | s :: segs => lineAfter (line + s.linesPassed) segs

theorem lineAfter_append (line : Nat) (segs segs' : List Segment) :
    lineAfter line (segs ++ segs') = lineAfter (lineAfter line segs) segs' := by
  induction segs generalizing line with
  | nil => rfl
  | cons s segs ih => exact ih _

/-- Segments are read one after another. -/
theorem balance_append (line : Nat) (stack : List Opening) (segs segs' : List Segment) :
    balance line stack (segs ++ segs') =
      openAfter line stack segs >>= fun stack => balance (lineAfter line segs) stack segs' := by
  induction segs generalizing line stack with
  | nil => rfl
  | cons s segs ih =>
    rw [List.cons_append, balance, openAfter, lineAfter]
    split_ifs with hcode
    · rcases s.text.foldlM (step line) stack with e | stack'
      · rfl
      · exact ih _ stack'
    · exact ih _ stack

/-- What is open after some segments is what the brackets in their code leave open. -/
theorem foldlM_read_codeBrackets (line : Nat) (stack : List Opening) (segs : List Segment) :
    (codeBrackets segs).foldlM read (letters stack) =
      ((openAfter line stack segs).map letters).mapError Imbalance.flaw := by
  induction segs generalizing line stack with
  | nil => rfl
  | cons s segs ih =>
    rw [codeBrackets, List.flatMap_cons, ← codeBrackets, openAfter]
    split_ifs with hcode
    · have hread := foldlM_read_letters line s.text stack
      rcases hfold : s.text.foldlM (step line) stack with e | stack'
      · rw [hfold] at hread
        exact foldlM_append_of_error hread _
      · rw [hfold] at hread
        rw [foldlM_append_of_ok hread]
        exact ih _ stack'
    · exact ih _ stack

/-- The check reads the word of the brackets in code. -/
theorem readWord_codeBrackets (line : Nat) (stack : List Opening) (segs : List Segment) :
    (codeBrackets segs).foldlM read (letters stack) >>= finish =
      (balance line stack segs).mapError Imbalance.flaw := by
  have hend := balance_append line stack segs []
  rw [List.append_nil] at hend
  rw [foldlM_read_codeBrackets line, hend]
  rcases openAfter line stack segs with e | _ | ⟨top, stack'⟩
  · rfl
  · rfl
  · rfl

theorem readWord_check (language : Language) (content : List Char) :
    readWord (codeBrackets (segments (.ofLanguage language) content)) =
      (check language content).mapError Imbalance.flaw :=
  readWord_codeBrackets 1 [] _

/-- **The check of brackets decides balance.** A text has one division into comments, strings,
character literals and code, whose segments are the text again, one after another. The check
succeeds exactly if the word of the brackets in the code is balanced. It fails with just those
brackets that flaw the word, and in the way in which they do: the first closing one that does not
fit, or else the innermost one that is left open. -/
theorem check_decides_balance (language : Language) (content : List Char) :
    ∃ segs, (∀ segs', Divided language content segs' ↔ segs' = segs) ∧
      segs.flatMap (·.text) = content ∧
      (check language content = .ok () ↔ Balanced (codeBrackets segs)) ∧
      ∀ flaw, (∃ e, check language content = .error e ∧ e.flaw = flaw) ↔
        Flawed (codeBrackets segs) flaw := by
  refine ⟨segments (.ofLanguage language) content, fun _ => divided_iff, ?_, ?_, fun flaw => ?_⟩
  · exact (divided_segments language content).flatMap_text
  · rw [← readWord_eq_ok_iff, readWord_check]
    rcases check language content with e | _
    · exact ⟨nofun, nofun⟩
    · exact ⟨fun _ => rfl, fun _ => rfl⟩
  · rw [← readWord_eq_error_iff fun _ => mem_codeBrackets, readWord_check]
    rcases check language content with e | _
    · simp [Except.mapError]
    · exact ⟨nofun, nofun⟩

example : check .cSharp "f(@\"\\\"/* \x7d */, '\\u0029', '[' // ]\n".toList =
    .error (.unclosed ⟨'(', 1⟩) := by
  decide +kernel

end Anchored.Bracket
