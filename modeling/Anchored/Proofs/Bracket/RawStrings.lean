import Anchored.Proofs.Bracket.Balanced

/-!
# Raw strings

A raw string of Go stands between back quotes and ends at the next one, so that what is in it should
not matter to the balance of brackets. The scanner reads it as it reads all strings, in which a
backslash takes the next character with it. So the string ends where it should unless an unpaired
backslash stands at the end of its body (`ends_raw`). After such a backslash the scanner reads on, up
to the next back quote that it takes for one (`ends_raw_escaped`), and the brackets that it passes
are lost. This is the one case in which a raw string can be told from an empty one
(`raw_string_opaque_iff`).
-/

namespace Anchored.Bracket

variable {lexicon : Lexicon} {c q : Char} {p b s body rest t : List Char}

/-! ## Code in front of a string -/

/-- Text with nothing in it that a comment, a string or a character literal could start with. -/
def Bare (p : List Char) : Prop :=
  ∀ c ∈ p, c ≠ '"' ∧ c ≠ '\'' ∧ c ≠ backQuote ∧ c ≠ '/'

instance : Decidable (Bare p) :=
  List.decidableBAll _ p

/-- A character is code, whatever follows it, if nothing that is no code can start with it. -/
theorem next_of_plain (hv : lexicon.verbatim = false)
    (hb : c = backQuote → lexicon.backQuotes = false) (hc : c ≠ '"' ∧ c ≠ '\'' ∧ c ≠ '/')
    (r : List Char) : next lexicon c r = (⟨.code, [c]⟩, r) := by
  obtain ⟨hdouble, hsingle, hslash⟩ := hc
  fun_cases next lexicon c r with
  | case1 => exact absurd rfl hslash
  | case2 => exact absurd rfl hslash
  | case3 _ h =>
    rw [hv] at h
    cases h
  | case4 => rfl
  | case5 _ h =>
    rw [hv] at h
    cases h
  | case6 => rfl
  | case7 => exact absurd rfl hdouble
  | case8 => exact absurd rfl hsingle
  | case9 => exact absurd rfl hsingle
  | case10 => rfl
  | case11 c _ _ _ _ _ _ _ h =>
    rw [hb h.1] at h
    cases h.2
  | case12 => rfl

/-- The brackets of code are all counted, and the rest of the text is read as it is without it. -/
theorem codeBrackets_code_append (hp : ∀ c ∈ p, ∀ r, next lexicon c r = (⟨.code, [c]⟩, r))
    (t : List Char) :
    codeBrackets (segments lexicon (p ++ t)) =
      p.filter (· ∈ brackets) ++ codeBrackets (segments lexicon t) := by
  induction p with
  | nil => rfl
  | cons c p ih =>
    have hrest := ih fun d hd => hp d (List.mem_cons_of_mem c hd)
    rw [List.cons_append, segments_cons, hp c List.mem_cons_self, codeBrackets, List.flatMap_cons,
      ← codeBrackets, hrest, if_pos rfl, ← List.append_assoc, ← List.filter_append]
    rfl

/-- What is no code has no brackets in code. -/
theorem codeBrackets_of_next {kind : Kind} {text : List Char}
    (h : next lexicon c t = (⟨kind, text⟩, rest)) (hkind : kind ≠ .code) :
    codeBrackets (segments lexicon (c :: t)) = codeBrackets (segments lexicon rest) := by
  rw [segments_cons, h, codeBrackets, List.flatMap_cons, ← codeBrackets, if_neg hkind]
  rfl

/-- The brackets of bare text are all in code, and the rest of the text is read as it is without
it. -/
theorem codeBrackets_bare_append (hv : lexicon.verbatim = false) (hp : Bare p) (t : List Char) :
    codeBrackets (segments lexicon (p ++ t)) =
      p.filter (· ∈ brackets) ++ codeBrackets (segments lexicon t) := by
  refine codeBrackets_code_append (fun c hc => ?_) t
  obtain ⟨hdouble, hsingle, hback, hslash⟩ := hp c hc
  exact next_of_plain hv (fun h => absurd h hback) ⟨hdouble, hsingle, hslash⟩

/-- A string has no brackets in code. -/
theorem codeBrackets_string (hb : lexicon.backQuotes = true) (t : List Char) :
    codeBrackets (segments lexicon (backQuote :: t)) =
      codeBrackets (segments lexicon (stringBody backQuote t).2) := by
  have hnext : next lexicon backQuote t =
      (⟨.string, backQuote :: (stringBody backQuote t).1⟩, (stringBody backQuote t).2) := by
    simp [next, backQuote, hb, enclosed]
  exact codeBrackets_of_next hnext (by decide)

theorem check_eq_ok_iff {language : Language} :
    check language t = .ok () ↔
      readWord (codeBrackets (segments (.ofLanguage language) t)) = .ok () := by
  rw [readWord_check]
  rcases check language t with e | _
  · exact ⟨nofun, nofun⟩
  · exact ⟨fun _ => rfl, fun _ => rfl⟩

/-! ## Where a raw string ends -/

/-- Only what follows the last other character counts at the end of a text. -/
theorem trailing_append_cons {x : Char} (hx : x ≠ c) (t u : List Char) :
    trailing c (t ++ x :: u) = trailing c u := by
  induction t with
  | nil => exact trailing_cons_of_ne hx u
  | cons y t ih =>
    have hnot : ¬ ∀ z ∈ y :: (t ++ x :: u), z = c := fun h => hx (h x (by simp))
    rw [List.cons_append, trailing_cons hnot, ih]

/-- A quote in a text that starts with `b` and a quote stands after `b`, or is that quote. -/
theorem Closer.At.length_le {before after : List Char}
    (h : (Closer.quote q).At (b ++ q :: s) before after) (hb : q ∉ b) :
    b.length ≤ before.length := by
  by_contra hlt
  rw [not_le] at hlt
  have hget : (b ++ q :: s)[before.length]? = some q := by
    rw [h.eq]
    simp [Closer.quote]
  rw [List.getElem?_append_left hlt] at hget
  exact hb (List.mem_of_getElem? hget)

/-- A body at whose end no unpaired backslash stands ends with the quote after it. -/
theorem ends_raw (hb : q ∉ b) (heven : Even (trailing '\\' b)) (s : List Char) :
    (Closer.quote q).Ends (b ++ q :: s) (b ++ [q]) s := by
  refine @Closer.Ends.closed (Closer.quote q) _ b s ⟨?_, heven⟩ fun before after hat => ?_
  · simp [Closer.quote]
  · exact hat.length_le hb

/-- One at whose end an unpaired backslash stands takes the quote after it with it, and ends where a
string would end that starts there. -/
theorem ends_raw_escaped (hq : q ≠ '\\') (hb : q ∉ b) (hodd : ¬ Even (trailing '\\' b))
    (h : (Closer.quote q).Ends s body rest) :
    (Closer.quote q).Ends (b ++ q :: s) (b ++ q :: body) rest := by
  have hpieces (u : List Char) : b ++ q :: u = (b ++ [q]) ++ u := by simp
  rw [hpieces s, hpieces body]
  refine h.prepend (fun before after hat => ?_) fun before after => ?_
  · rw [← hpieces s] at hat
    have hle := hat.length_le hb
    have hne : before.length ≠ b.length := by
      intro hlen
      have heq := hat.eq
      rw [List.append_assoc] at heq
      have hbefore : b = before := (List.append_inj heq hlen.symm).1
      exact hodd (hbefore ▸ hat.allowed)
    rw [List.length_append, List.length_singleton]
    omega
  · simp only [Closer.quote]
    rw [← hpieces before, trailing_append_cons hq]

/-- **When a raw string is opaque.** Where a text is accepted with a raw string in it exactly if it
is with an empty one: if the body does not end with an unpaired backslash, or if it makes no
difference that the brackets up to the next closing back quote are lost, which is what such a
backslash comes to. -/
theorem raw_string_opaque_iff (hp : Bare p) (hb : backQuote ∉ b) :
    ∃ body rest, (Closer.quote backQuote).Ends s body rest ∧
      (¬ Even (trailing '\\' b) →
        (check .go (p ++ backQuote :: (b ++ backQuote :: s)) = .ok () ↔
          check .go (p ++ backQuote :: backQuote :: rest) = .ok ())) ∧
      ((check .go (p ++ backQuote :: (b ++ backQuote :: s)) = .ok () ↔
          check .go (p ++ backQuote :: backQuote :: s) = .ok ()) ↔
        Even (trailing '\\' b) ∨
          (check .go (p ++ backQuote :: backQuote :: rest) = .ok () ↔
            check .go (p ++ backQuote :: backQuote :: s) = .ok ())) := by
  have hq : backQuote ≠ '\\' := by decide
  -- The check depends on what is in front of the string and on what is left after it.
  have haccepts (t after body : List Char) (h : (Closer.quote backQuote).Ends t body after) :
      check .go (p ++ backQuote :: t) = .ok () ↔
        readWord (p.filter (· ∈ brackets) ++ codeBrackets (segments (.ofLanguage .go) after)) =
          .ok () := by
    obtain ⟨_, hafter⟩ := (ends_stringBody hq t).unique h
    rw [check_eq_ok_iff, codeBrackets_bare_append rfl hp, codeBrackets_string rfl, hafter]
  have hempty (after : List Char) := haccepts _ after _ (ends_raw (b := []) (by simp) Even.zero after)
  have hs := ends_stringBody hq s
  refine ⟨_, _, hs, fun hodd => ?_, ?_⟩
  · exact (haccepts _ _ _ (ends_raw_escaped hq hb hodd hs)).trans (hempty _).symm
  · by_cases heven : Even (trailing '\\' b)
    · have hsame := (haccepts _ _ _ (ends_raw hb heven s)).trans (hempty s).symm
      exact iff_of_true hsame (Or.inl heven)
    · have hlost := (haccepts _ _ _ (ends_raw_escaped hq hb heven hs)).trans (hempty _).symm
      rw [hlost]
      exact (or_iff_right heven).symm

/-- A body that ends with a pair of backslashes, with a bracket in it and brackets open around it. -/
theorem raw_string_opaque_iff_paired :
    let p := "f(x[".toList
    let b := "]\\\\".toList
    let s := "])".toList
    Bare p ∧ backQuote ∉ b ∧ Even (trailing '\\' b) ∧
      (check .go (p ++ backQuote :: (b ++ backQuote :: s)) = .ok () ↔
        check .go (p ++ backQuote :: backQuote :: s) = .ok ()) := by
  intro p b s
  have hp : Bare p := by decide
  have hb : backQuote ∉ b := by decide
  have heven : Even (trailing '\\' b) := by decide
  obtain ⟨_, _, _, _, hlaw⟩ := raw_string_opaque_iff (s := s) hp hb
  exact ⟨hp, hb, heven, hlaw.mpr (Or.inl heven)⟩

/-- Two bodies that end with a backslash: one hides the bracket that closes the code around the
string, the other a bracket that is never closed. -/
theorem raw_string_not_opaque :
    let p := "func f() \x7b\n\tp := ".toList
    let b := "C:\\".toList
    let s := "\n\x7d\n".toList
    (Bare p ∧ backQuote ∉ b ∧
      check .go (p ++ backQuote :: (b ++ backQuote :: s)) = .error (.unclosed ⟨'\x7b', 1⟩) ∧
      check .go (p ++ backQuote :: backQuote :: s) = .ok ()) ∧
    check .go (backQuote :: '\\' :: backQuote :: ['(']) = .ok () ∧
    check .go (backQuote :: backQuote :: ['(']) = .error (.unclosed ⟨'(', 1⟩) := by
  decide +kernel

end Anchored.Bracket
