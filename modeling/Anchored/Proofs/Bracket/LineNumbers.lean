import Anchored.Proofs.Bracket.Balanced

/-!
# The lines that an imbalance names

`FlawedAt` says at which places of a divided text the brackets stand that flaw it. The check names one
line for each of them, whichever way the places are found (`FlawedAt.balance_eq`): the number of line
feeds before the bracket and one, less those in character literals, which the count passes over. So a
line is the right one exactly if no character literal before the bracket takes in a line feed
(`bracket_lines_right_iff`).
-/

namespace Anchored.Bracket

variable {c o : Char} {line : Nat} {p segs : List Segment} {stack : List Opening} {flaw : Flaw}
  {sites : List (List Segment)}

/-! ## The places of a flaw -/

/-- A character of code. -/
def Segment.ofCode (c : Char) : Segment :=
  ⟨.code, [c]⟩

/-- The flaw of some segments, and what stands before each of the brackets that make it: before the
closing bracket first, and then before the opening one. -/
inductive FlawedAt (segs : List Segment) : Flaw → List (List Segment) → Prop
  | mismatched {p u v : List Segment} {stack : List Char} {o c : Char}
      (eq : segs = p ++ .ofCode o :: (u ++ .ofCode c :: v)) (before : Leaves (codeBrackets p) stack)
      (opens : ∃ c', Pair o c') (inside : Balanced (codeBrackets u)) (closes : ∃ o', Pair o' c)
      (other : ¬ Pair o c) : FlawedAt segs (.mismatched c o) [p ++ .ofCode o :: u, p]
  | unmatched {u v : List Segment} {c : Char} (eq : segs = u ++ .ofCode c :: v)
      (before : Balanced (codeBrackets u)) (closes : ∃ o, Pair o c) :
      FlawedAt segs (.unmatched c) [u]
  | unclosed {p u : List Segment} {stack : List Char} {o : Char} (eq : segs = p ++ .ofCode o :: u)
      (before : Leaves (codeBrackets p) stack) (opens : ∃ c, Pair o c)
      (after : Balanced (codeBrackets u)) : FlawedAt segs (.unclosed o) [p]

/-- The lines that the text of an imbalance names, that of the closing bracket first. -/
def Imbalance.lines : Imbalance → List Nat
  | .mismatched _ line opening => [line, opening.line]
  | .unmatched _ line => [line]
  | .unclosed opening => [opening.line]

/-- The line feeds in the text of some segments. -/
def lineFeeds (segs : List Segment) : Nat :=
  (segs.flatMap (·.text)).count '\n'

/-- The line feeds in character literals. -/
def literalLineFeeds (segs : List Segment) : Nat :=
  lineFeeds (segs.filter (·.kind = .character))

theorem literalLineFeeds_append (segs segs' : List Segment) :
    literalLineFeeds (segs ++ segs') = literalLineFeeds segs + literalLineFeeds segs' := by
  rw [literalLineFeeds, List.filter_append, lineFeeds, List.flatMap_append, List.count_append]
  rfl

/-- The line feeds in character literals are those that the count passes over. -/
theorem lineAfter_add_literalLineFeeds (line : Nat) (segs : List Segment) :
    lineAfter line segs + literalLineFeeds segs = line + lineFeeds segs := by
  induction segs generalizing line with
  | nil => rfl
  | cons s segs ih =>
    have hrest := ih (line + s.linesPassed)
    have hfeeds : lineFeeds (s :: segs) = s.text.count '\n' + lineFeeds segs := by
      rw [lineFeeds, List.flatMap_cons, List.count_append]
      rfl
    rw [lineAfter, hfeeds]
    by_cases hkind : s.kind = .character
    · have hpassed : s.linesPassed = 0 := if_pos hkind
      have hliteral : literalLineFeeds (s :: segs) = s.text.count '\n' + literalLineFeeds segs := by
        rw [literalLineFeeds, List.filter_cons_of_pos (by simpa using hkind), lineFeeds,
          List.flatMap_cons, List.count_append]
        rfl
      omega
    · have hpassed : s.linesPassed = s.text.count '\n' := if_neg hkind
      have hliteral : literalLineFeeds (s :: segs) = literalLineFeeds segs := by
        rw [literalLineFeeds, List.filter_cons_of_neg (by simpa using hkind)]
        rfl
      omega

/-! ## Where the brackets of a word stand -/

/-- A bracket of the word of some segments is one of them. -/
theorem exists_code_of_append {w w' : List Char}
    (single : ∀ s ∈ segs, s.kind = .code → ∃ c, s = .ofCode c)
    (h : codeBrackets segs = w ++ c :: w') :
    ∃ p q, segs = p ++ .ofCode c :: q ∧ codeBrackets p = w ∧ codeBrackets q = w' := by
  induction segs generalizing w with
  | nil => exact absurd h (by simp [codeBrackets])
  | cons s segs ih =>
    have hrest := fun s' hs' => single s' (List.mem_cons_of_mem s hs')
    rw [codeBrackets, List.flatMap_cons, ← codeBrackets] at h
    -- A segment without brackets can be put in front of what is found behind it.
    have hskip (hs : (if s.kind = .code then s.text.filter (· ∈ brackets) else []) = []) :
        ∃ p q, s :: segs = p ++ .ofCode c :: q ∧ codeBrackets p = w ∧ codeBrackets q = w' := by
      rw [hs, List.nil_append] at h
      obtain ⟨p, q, rfl, hp, hq⟩ := ih hrest h
      refine ⟨s :: p, q, rfl, ?_, hq⟩
      rw [codeBrackets, List.flatMap_cons, ← codeBrackets, hs, hp]
      rfl
    by_cases hkind : s.kind = .code
    · obtain ⟨d, rfl⟩ := single s List.mem_cons_self hkind
      by_cases hd : d ∈ brackets
      · have hone : (if (Segment.ofCode d).kind = .code then
            (Segment.ofCode d).text.filter (· ∈ brackets) else []) = [d] := by
          simp [Segment.ofCode, hd]
        rw [hone, List.singleton_append] at h
        cases w with
        | nil =>
          obtain ⟨rfl, hw'⟩ := List.cons.inj h
          exact ⟨[], segs, rfl, rfl, hw'⟩
        | cons d' w =>
          obtain ⟨rfl, hw⟩ := List.cons.inj h
          obtain ⟨p, q, rfl, hp, hq⟩ := ih hrest hw
          refine ⟨.ofCode d :: p, q, rfl, ?_, hq⟩
          rw [codeBrackets, List.flatMap_cons, ← codeBrackets, hone, hp]
          rfl
      · exact hskip (by simp [Segment.ofCode, hd])
    · exact hskip (if_neg hkind)

/-- Code is divided character by character. -/
theorem Divided.single {language : Language} {text : List Char} (h : Divided language text segs) :
    ∀ s ∈ segs, s.kind = .code → ∃ c, s = .ofCode c := by
  induction h with
  | nil => exact fun s hs => by cases hs
  | skip skipped _ ih =>
    intro s hs hkind
    rcases List.mem_cons.mp hs with rfl | hs
    · exact absurd hkind skipped.kind_ne_code
    · exact ih s hs hkind
  | @code c _ _ _ _ ih =>
    intro s hs hkind
    rcases List.mem_cons.mp hs with rfl | hs
    · exact ⟨c, rfl⟩
    · exact ih s hs hkind

/-- A flaw of the word has its places. -/
theorem exists_flawedAt (single : ∀ s ∈ segs, s.kind = .code → ∃ c, s = .ofCode c)
    (h : Flawed (codeBrackets segs) flaw) : ∃ sites, FlawedAt segs flaw sites := by
  generalize hw : codeBrackets segs = w at h
  cases h with
  | mismatched before opens inside closes other =>
    obtain ⟨p, q, rfl, rfl, hq⟩ := exists_code_of_append single hw
    have hlater := fun s hs => single s (List.mem_append_right p (List.mem_cons_of_mem _ hs))
    obtain ⟨u, v, rfl, rfl, _⟩ := exists_code_of_append hlater hq
    exact ⟨_, .mismatched rfl before opens inside closes other⟩
  | unmatched before closes =>
    obtain ⟨u, v, rfl, rfl, _⟩ := exists_code_of_append single hw
    exact ⟨_, .unmatched rfl before closes⟩
  | unclosed before opens after =>
    obtain ⟨p, u, rfl, rfl, rfl⟩ := exists_code_of_append single hw
    exact ⟨_, .unclosed rfl before opens after⟩

/-- The brackets of a flaw stand where it is said. -/
theorem FlawedAt.exists_after (h : FlawedAt segs flaw sites) :
    ∀ before ∈ sites, ∃ c after, c ∈ brackets ∧ segs = before ++ .ofCode c :: after := by
  cases h with
  | @mismatched p u v _ o c eq _ opens _ closes _ =>
    intro before hbefore
    rcases List.mem_cons.mp hbefore with rfl | hbefore
    · exact ⟨c, v, mem_brackets_iff.mpr (Or.inr closes), by rw [eq]; simp⟩
    · obtain rfl := List.mem_singleton.mp hbefore
      exact ⟨o, _, mem_brackets_iff.mpr (Or.inl opens), eq⟩
  | unmatched eq _ closes =>
    intro before hbefore
    obtain rfl := List.mem_singleton.mp hbefore
    exact ⟨_, _, mem_brackets_iff.mpr (Or.inr closes), eq⟩
  | unclosed eq _ opens _ =>
    intro before hbefore
    obtain rfl := List.mem_singleton.mp hbefore
    exact ⟨_, _, mem_brackets_iff.mpr (Or.inl opens), eq⟩

/-! ## What the check says of them -/

theorem step_opener (h : ∃ c', Pair c c') : step line stack c = .ok (⟨c, line⟩ :: stack) :=
  if_pos (isOpener_iff.mpr h)

theorem step_nil (h : ∃ o, Pair o c) : step line [] c = .error (.unmatched c line) := by
  obtain ⟨o, h⟩ := h
  rw [step, h.isOpener_eq_false, openerOf?_eq_some_iff.mpr h]
  rfl

theorem step_other {top : Opening} (h : ∃ o, Pair o c) (other : ¬ Pair top.bracket c) :
    step line (top :: stack) c = .error (.mismatched c line top) := by
  obtain ⟨o, h⟩ := h
  have hne : top.bracket ≠ o := by
    rintro rfl
    exact other h
  rw [step, h.isOpener_eq_false, openerOf?_eq_some_iff.mpr h]
  exact if_neg hne

/-- What lies below on the stack does not matter to what is read without it. -/
theorem step_append {stack' : List Opening} (h : step line stack c = .ok stack')
    (below : List Opening) : step line (stack ++ below) c = .ok (stack' ++ below) := by
  unfold step at h ⊢
  split_ifs at h ⊢ with hopens
  · cases h
    rfl
  rcases hcloses : openerOf? c with _ | opener
  · simp only [hcloses] at h
    cases h
    rfl
  rcases stack with _ | ⟨top, stack⟩
  · simp only [hcloses] at h
    cases h
  · simp only [hcloses] at h
    split_ifs at h with htop
    cases h
    exact if_pos htop

theorem foldlM_step_append {text : List Char} {stack' : List Opening}
    (h : text.foldlM (step line) stack = .ok stack') (below : List Opening) :
    text.foldlM (step line) (stack ++ below) = .ok (stack' ++ below) := by
  induction text generalizing stack with
  | nil =>
    cases h
    rfl
  | cons c text ih =>
    rcases hstep : step line stack c with e | mid
    · rw [foldlM_cons_of_error hstep] at h
      cases h
    · rw [foldlM_cons_of_ok hstep] at h
      rw [foldlM_cons_of_ok (step_append hstep below)]
      exact ih h

theorem openAfter_append {stack' : List Opening} (h : openAfter line stack segs = .ok stack')
    (below : List Opening) : openAfter line (stack ++ below) segs = .ok (stack' ++ below) := by
  induction segs generalizing line stack with
  | nil =>
    cases h
    rfl
  | cons s segs ih =>
    rw [openAfter] at h ⊢
    split_ifs at h ⊢ with hkind
    · rcases hfold : s.text.foldlM (step line) stack with e | mid
      · rw [hfold] at h
        cases h
      · rw [hfold] at h
        rw [foldlM_step_append hfold below]
        exact ih h
    · exact ih h

/-- After segments whose word leaves brackets open, just these are open. -/
theorem exists_openAfter_of_leaves {open' : List Char} (h : Leaves (codeBrackets segs) open')
    (line : Nat) : ∃ stack, openAfter line [] segs = .ok stack ∧ letters stack = open' := by
  have hword := foldlM_read_codeBrackets line [] segs
  rw [letters, List.map_nil, foldlM_read_iff.mpr h] at hword
  rcases hopen : openAfter line [] segs with e | stack
  · rw [hopen] at hword
    cases hword
  · rw [hopen] at hword
    exact ⟨stack, rfl, (Except.ok.inj hword).symm⟩

/-- Segments with a balanced word leave the stack as it is. -/
theorem openAfter_of_balanced (h : Balanced (codeBrackets segs)) (line : Nat)
    (stack : List Opening) : openAfter line stack segs = .ok stack := by
  obtain ⟨stack', hopen, hnil⟩ := exists_openAfter_of_leaves (.balanced h) line
  obtain rfl : stack' = [] := List.map_eq_nil_iff.mp hnil
  exact openAfter_append hopen stack

theorem balance_of_openAfter {stack' : List Opening} (h : openAfter line stack p = .ok stack')
    (segs : List Segment) :
    balance line stack (p ++ segs) = balance (lineAfter line p) stack' segs := by
  rw [balance_append, h]
  rfl

theorem balance_code_of_ok {stack' : List Opening} (h : step line stack c = .ok stack')
    (segs : List Segment) :
    balance line stack (.ofCode c :: segs) = balance (lineAfter line [.ofCode c]) stack' segs := by
  have hread : openAfter line stack [.ofCode c] = .ok stack' := by
    simp only [openAfter, Segment.ofCode, if_true]
    rw [foldlM_cons_of_ok h]
    rfl
  exact balance_of_openAfter hread segs

theorem balance_code_of_error {e : Imbalance} (h : step line stack c = .error e)
    (segs : List Segment) : balance line stack (.ofCode c :: segs) = .error e := by
  simp only [balance, Segment.ofCode, if_true]
  rw [foldlM_cons_of_error h]
  rfl

/-- The check finds the flaw, and names the lines on which the count puts its brackets. -/
theorem FlawedAt.balance_eq (h : FlawedAt segs flaw sites) (line : Nat) :
    ∃ e, balance line [] segs = .error e ∧ e.flaw = flaw ∧
      e.lines = sites.map (lineAfter line) := by
  cases h with
  | @mismatched p u v _ o c eq before opens inside closes other =>
    obtain ⟨stack, hopen, _⟩ := exists_openAfter_of_leaves before line
    refine ⟨.mismatched c (lineAfter line (p ++ .ofCode o :: u)) ⟨o, lineAfter line p⟩, ?_, rfl, rfl⟩
    have hinside := openAfter_of_balanced inside (lineAfter (lineAfter line p) [.ofCode o])
      (⟨o, lineAfter line p⟩ :: stack)
    have hsite : lineAfter line (p ++ .ofCode o :: u) =
        lineAfter (lineAfter (lineAfter line p) [.ofCode o]) u := by
      rw [lineAfter_append, ← List.singleton_append, lineAfter_append]
    rw [eq, balance_of_openAfter hopen, balance_code_of_ok (step_opener opens),
      balance_of_openAfter hinside, hsite]
    exact balance_code_of_error (step_other closes other) v
  | @unmatched u v c eq before closes =>
    refine ⟨.unmatched c (lineAfter line u), ?_, rfl, rfl⟩
    rw [eq, balance_of_openAfter (openAfter_of_balanced before line [])]
    exact balance_code_of_error (step_nil closes) v
  | @unclosed p u _ o eq before opens after =>
    obtain ⟨stack, hopen, _⟩ := exists_openAfter_of_leaves before line
    refine ⟨.unclosed ⟨o, lineAfter line p⟩, ?_, rfl, rfl⟩
    have hafter := openAfter_of_balanced after (lineAfter (lineAfter line p) [.ofCode o])
      (⟨o, lineAfter line p⟩ :: stack)
    have hend := balance_of_openAfter hafter []
    rw [List.append_nil] at hend
    rw [eq, balance_of_openAfter hopen, balance_code_of_ok (step_opener opens), hend]
    rfl

/-- **When the lines of an imbalance are right.** Where a text is rejected, the brackets that flaw it
stand in code, and the lines that are named belong to them, in this order. A line is the number of line
feeds before the bracket and one, less the line feeds in the character literals before it. So all lines
are right exactly if no such literal takes in a line feed. -/
theorem bracket_lines_right_iff {language : Language} {content : List Char} {e : Imbalance}
    (h : check language content = .error e) :
    ∃ segs, Divided language content segs ∧ (∃ sites, FlawedAt segs e.flaw sites) ∧
      ∀ sites, FlawedAt segs e.flaw sites →
        (∀ before ∈ sites, ∃ c after, c ∈ brackets ∧ segs = before ++ .ofCode c :: after ∧
          content = before.flatMap (·.text) ++ c :: after.flatMap (·.text)) ∧
        e.lines = sites.map (fun before => 1 + lineFeeds before - literalLineFeeds before) ∧
        (e.lines = sites.map (fun before => 1 + lineFeeds before) ↔
          ∀ before ∈ sites, literalLineFeeds before = 0) := by
  have hdivided := divided_segments language content
  refine ⟨_, hdivided, ?_, fun sites hsites => ?_⟩
  · apply exists_flawedAt hdivided.single
    rw [← readWord_eq_error_iff fun _ => mem_codeBrackets, readWord_check, h]
    rfl
  · obtain ⟨e', hcheck, hflaw, hlines⟩ := hsites.balance_eq 1
    obtain rfl : e = e' := Except.error.inj (h.symm.trans hcheck)
    have hcount (before : List Segment) := lineAfter_add_literalLineFeeds 1 before
    refine ⟨fun before hbefore => ?_, ?_, ?_⟩
    · obtain ⟨c, after, hc, heq⟩ := hsites.exists_after before hbefore
      refine ⟨c, after, hc, heq, ?_⟩
      rw [← hdivided.flatMap_text, heq, List.flatMap_append, List.flatMap_cons]
      rfl
    · rw [hlines, List.map_inj_left]
      intro before _
      have := hcount before
      omega
    · rw [hlines, List.map_inj_left]
      refine forall₂_congr fun before _ => ?_
      have := hcount before
      omega

/-- Brackets on other lines than the first, behind a comment and a string with line feeds in them and a
character literal without one. -/
theorem bracket_lines_right_iff_mismatched :
    let content := "/*\n(*/ f(\"\\\n\", '\\''\n]".toList
    check .java content = .error (.mismatched ']' 4 ⟨'(', 2⟩) ∧
      ∃ segs sites, Divided .java content segs ∧ FlawedAt segs (.mismatched ']' '(') sites ∧
        [4, 2] = sites.map fun before => 1 + lineFeeds before := by
  intro content
  have hcheck : check .java content = .error (.mismatched ']' 4 ⟨'(', 2⟩) := by decide +kernel
  obtain ⟨segs, hdivided, ⟨sites, hsites⟩, hlines⟩ := bracket_lines_right_iff hcheck
  obtain ⟨hplaces, _, hright⟩ := hlines sites hsites
  have hliteral : literalLineFeeds segs = 0 := by
    rw [divided_iff.mp hdivided]
    decide +kernel
  refine ⟨hcheck, segs, sites, hdivided, hsites, hright.mpr fun before hbefore => ?_⟩
  obtain ⟨c, after, _, heq, _⟩ := hplaces before hbefore
  rw [heq, literalLineFeeds_append] at hliteral
  exact (Nat.add_eq_zero_iff.mp hliteral).1

/-- A bracket on the second line that is told to be on the first: the line feed before it is that of a
character literal. -/
theorem bracket_line_miscounted :
    let literal : Segment := ⟨.character, "'\\\n'".toList⟩
    check .c "'\\\n'\x7d".toList = .error (.unmatched '\x7d' 1) ∧
      Divided .c "'\\\n'\x7d".toList [literal, .ofCode '\x7d'] ∧
      FlawedAt [literal, .ofCode '\x7d'] (.unmatched '\x7d') [[literal]] ∧
      1 + lineFeeds [literal] = 2 := by
  intro literal
  refine ⟨by decide +kernel, divided_iff.mpr (by decide +kernel), ?_, by decide +kernel⟩
  exact .unmatched (u := [literal]) (v := []) rfl .nil ⟨_, .curly⟩

end Anchored.Bracket
