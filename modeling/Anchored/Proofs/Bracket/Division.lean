import Mathlib.Algebra.Group.Nat.Even
import Mathlib.Data.List.DropRight
import Anchored.Bracket.Segment

/-!
# The division of a text, without a scanner

Comments, strings and character literals are described by where they end in the text, not by how
they are read: with the first place that closes them, or with the text (`Closer.Ends`). `Divided` is
the division of a text into segments by these rules, in which code is what no rule applies to. Each
text has one division, the one that the scanner makes (`divided_iff`).
-/

namespace Anchored.Bracket

variable {language : Language} {text t body rest before after : List Char} {c x y q : Char}

/-! ## Where comments and strings end -/

/-- How often a character stands at the end of a text, in a row. -/
def trailing (c : Char) (t : List Char) : Nat :=
  (t.rtakeWhile (· == c)).length

/-- What ends a comment or a string: a word, if what is read before it and what follows allow. -/
structure Closer where
  word : List Char
  allows : List Char → List Char → Prop

namespace Closer

/-- A block comment ends with `*/`. -/
def block : Closer where
  word := ['*', '/']
  allows _ _ := True

/-- A string ends with its quote, unless an unpaired backslash stands right before it. -/
def quote (q : Char) : Closer where
  word := [q]
  allows before _ := Even (trailing '\\' before)

/-- A verbatim string ends with a quote that is not half of a doubled one. -/
def verbatim : Closer where
  word := ['"']
  allows before after := Even (trailing '"' before) ∧ after.head? ≠ some '"'

/-- A place in the text at which the closer closes. -/
structure At (k : Closer) (text before after : List Char) : Prop where
  eq : text = before ++ k.word ++ after
  allowed : k.allows before after

/-- The text is read through the first place at which the closer closes, or else to its end. -/
inductive Ends (k : Closer) (text : List Char) : List Char → List Char → Prop
  | closed {before after : List Char} (here : k.At text before after)
      (first : ∀ before' after', k.At text before' after' → before.length ≤ before'.length) :
      Ends k text (before ++ k.word) after
  | unclosed (nowhere : ∀ before after, ¬ k.At text before after) : Ends k text text []

variable {k : Closer} {p : List Char}

/-- There is one way to read a text to the closer. -/
theorem Ends.unique {body' rest' : List Char} (h : k.Ends text body rest)
    (h' : k.Ends text body' rest') : body = body' ∧ rest = rest' := by
  cases h with
  | unclosed nowhere =>
    cases h' with
    | unclosed _ => exact ⟨rfl, rfl⟩
    | closed here' _ => exact absurd here' (nowhere _ _)
  | closed here first =>
    cases h' with
    | unclosed nowhere => exact absurd here (nowhere _ _)
    | closed here' first' =>
      have hlen := Nat.le_antisymm (first _ _ here') (first' _ _ here)
      have heq := here.eq.symm.trans here'.eq
      exact List.append_inj heq (by rw [List.length_append, List.length_append, hlen])

/-- What is read and what follows it make up the text. -/
theorem Ends.append_eq (h : k.Ends text body rest) : body ++ rest = text := by
  cases h with
  | closed here _ => exact here.eq.symm
  | unclosed _ => exact List.append_nil _

theorem Ends.nil (h : k.word ≠ []) : k.Ends [] [] [] := by
  refine .unclosed fun before after hat => h ?_
  have hnil : before ++ k.word ++ after = [] := hat.eq.symm
  rw [List.append_eq_nil_iff, List.append_eq_nil_iff] at hnil
  exact hnil.1.2

/-- A text that starts with the closer is read no further. -/
theorem Ends.start (h : k.allows [] after) : k.Ends (k.word ++ after) k.word after :=
  @Ends.closed k _ [] after ⟨rfl, h⟩ fun _ _ _ => Nat.zero_le _

/-- What no closer starts in, and what does not change where one closes, can be put in front. -/
theorem Ends.prepend (h : k.Ends text body rest)
    (skip : ∀ before after, k.At (p ++ text) before after → p.length ≤ before.length)
    (same : ∀ before after, k.allows (p ++ before) after ↔ k.allows before after) :
    k.Ends (p ++ text) (p ++ body) rest := by
  have hsplit : ∀ before after, k.At (p ++ text) before after →
      ∃ before', before = p ++ before' ∧ k.At text before' after := by
    intro before after hat
    have hpre : p <+: before :=
      List.prefix_of_prefix_length_le (List.prefix_append p text)
        (hat.eq ▸ (List.append_assoc before k.word after ▸ List.prefix_append ..))
        (skip before after hat)
    obtain ⟨before', rfl⟩ := hpre
    refine ⟨before', rfl, ?_, (same before' after).mp hat.allowed⟩
    have heq := hat.eq
    rw [List.append_assoc, List.append_assoc] at heq
    rw [List.append_assoc]
    exact List.append_cancel_left heq
  cases h with
  | unclosed nowhere =>
    refine .unclosed fun before after hat => ?_
    obtain ⟨before', _, hat'⟩ := hsplit before after hat
    exact nowhere before' after hat'
  | closed here first =>
    rw [← List.append_assoc]
    refine .closed ⟨?_, (same _ _).mpr here.allowed⟩ fun before' after' hat => ?_
    · rw [here.eq, List.append_assoc, List.append_assoc, List.append_assoc]
    · obtain ⟨before'', rfl, hat'⟩ := hsplit before' after' hat
      rw [List.length_append, List.length_append]
      exact Nat.add_le_add_left (first before'' after' hat') p.length

/-- One character at which no closer starts can be put in front. -/
theorem Ends.cons (h : k.Ends text body rest) (notHere : ∀ after, ¬ k.At (c :: text) [] after)
    (same : ∀ before after, k.allows (c :: before) after ↔ k.allows before after) :
    k.Ends (c :: text) (c :: body) rest := by
  refine h.prepend (p := [c]) (fun before after hat => ?_) same
  cases before with
  | nil => exact absurd hat (notHere after)
  | cons _ _ => exact Nat.succ_le_succ (Nat.zero_le _)

/-- Two characters at which no closer starts can be put in front. -/
theorem Ends.cons₂ (h : k.Ends text body rest) (notHere : ∀ after, ¬ k.At (x :: y :: text) [] after)
    (notThere : ∀ after, ¬ k.At (x :: y :: text) [x] after)
    (same : ∀ before after, k.allows (x :: y :: before) after ↔ k.allows before after) :
    k.Ends (x :: y :: text) (x :: y :: body) rest := by
  refine h.prepend (p := [x, y]) (fun before after hat => ?_) same
  rcases before with _ | ⟨z, _ | ⟨_, _⟩⟩
  · exact absurd hat (notHere after)
  · obtain rfl : x = z := (List.cons.inj hat.eq).1
    exact absurd hat (notThere after)
  · exact Nat.succ_le_succ (Nat.succ_le_succ (Nat.zero_le _))

end Closer

/-! ## The bodies end there -/

theorem trailing_of_forall (h : ∀ y ∈ t, y = c) : trailing c t = t.length := by
  rw [trailing, List.rtakeWhile_eq_self_iff.mpr fun y hy => beq_iff_eq.mpr (h y hy)]

/-- A character in front counts only if all characters are the one that is counted. -/
theorem trailing_cons (h : ¬ ∀ y ∈ x :: t, y = c) : trailing c (x :: t) = trailing c t := by
  rw [trailing, trailing, List.rtakeWhile, List.rtakeWhile, List.reverse_cons,
    List.takeWhile_append]
  split_ifs with hall
  · have hself : t.reverse.takeWhile (· == c) = t.reverse :=
      (List.takeWhile_prefix _).eq_of_length hall
    have hne : x ≠ c := by
      intro hx
      refine h (List.forall_mem_cons.mpr ⟨hx, fun y hy => ?_⟩)
      exact beq_iff_eq.mp (List.takeWhile_eq_self_iff.mp hself y (List.mem_reverse.mpr hy))
    rw [List.takeWhile_cons_of_neg (by simpa using hne), List.append_nil, hself]
  · rfl

theorem trailing_cons_of_ne (h : x ≠ c) (t : List Char) : trailing c (x :: t) = trailing c t :=
  trailing_cons fun hall => h (hall x List.mem_cons_self)

theorem trailing_cons_cons_of_ne (h : y ≠ c) (x : Char) (t : List Char) :
    trailing c (x :: y :: t) = trailing c t := by
  rw [trailing_cons fun hall => h (hall y (by simp)), trailing_cons_of_ne h]

/-- A pair in front changes nothing in whether the character stands unpaired at the end. -/
theorem even_trailing_pair (c : Char) (t : List Char) :
    Even (trailing c (c :: c :: t)) ↔ Even (trailing c t) := by
  by_cases hall : ∀ y ∈ t, y = c
  · have hall' : ∀ y ∈ c :: c :: t, y = c := by simpa using hall
    rw [trailing_of_forall hall, trailing_of_forall hall', List.length_cons, List.length_cons,
      Nat.even_add_one, Nat.even_add_one, not_not]
  · have hall' : ¬ ∀ y ∈ c :: t, y = c := fun h => hall (List.forall_mem_cons.mp h).2
    rw [trailing_cons fun h => hall' (List.forall_mem_cons.mp h).2, trailing_cons hall']

theorem ends_blockBody (t : List Char) : Closer.block.Ends t (blockBody t).1 (blockBody t).2 := by
  fun_induction blockBody t with
  | case1 => exact Closer.Ends.nil (List.cons_ne_nil _ _)
  | case2 r => exact Closer.Ends.start (k := Closer.block) trivial
  | case3 c r hno body rest hbody ih =>
    rw [hbody] at ih
    refine ih.cons (fun after hat => ?_) fun _ _ => Iff.rfl
    obtain ⟨rfl, hr⟩ := List.cons.inj hat.eq
    exact hno after rfl hr

theorem even_trailing_escape (c : Char) (t : List Char) :
    Even (trailing '\\' ('\\' :: c :: t)) ↔ Even (trailing '\\' t) := by
  by_cases hc : c = '\\'
  · rw [hc]
    exact even_trailing_pair '\\' t
  · rw [trailing_cons_cons_of_ne hc]

theorem ends_stringBody (hq : q ≠ '\\') (t : List Char) :
    (Closer.quote q).Ends t (stringBody q t).1 (stringBody q t).2 := by
  fun_induction stringBody q t with
  | case1 => exact Closer.Ends.nil (List.cons_ne_nil _ _)
  | case2 c r body rest hbody ih =>
    rw [hbody] at ih
    refine ih.cons₂ (fun after hat => ?_) (fun after hat => ?_)
      fun before _ => even_trailing_escape c before
    · exact hq (List.cons.inj hat.eq).1.symm
    · have h : Even 1 := hat.allowed
      exact absurd h (by decide)
  | case3 r hno => exact Closer.Ends.start (k := Closer.quote q) Even.zero
  | case4 c r hno hc body rest hbody ih =>
    rw [hbody] at ih
    by_cases hback : c = '\\'
    · -- A lone backslash at the end of the text takes nothing with it.
      cases r with
      | cons d r => exact absurd rfl (hno d r hback)
      | nil =>
        cases hbody
        refine .unclosed fun before after hat => hq ?_
        have hmem : q ∈ [c] := hat.eq ▸ by simp [Closer.quote]
        exact (List.mem_singleton.mp hmem).trans hback
    · refine ih.cons (fun after hat => hc (List.cons.inj hat.eq).1) fun before after => ?_
      simp only [Closer.quote, trailing_cons_of_ne hback]

theorem ends_verbatimBody (t : List Char) :
    Closer.verbatim.Ends t (verbatimBody t).1 (verbatimBody t).2 := by
  fun_induction verbatimBody t with
  | case1 => exact Closer.Ends.nil (List.cons_ne_nil _ _)
  | case2 r body rest hbody ih =>
    rw [hbody] at ih
    refine ih.cons₂ (fun after hat => ?_) (fun after hat => ?_) fun before after => ?_
    · have hr : '"' :: r = after := (List.cons.inj hat.eq).2
      exact hat.allowed.2 (congrArg List.head? hr.symm)
    · exact absurd hat.allowed.1 (by decide)
    · simp only [Closer.verbatim, even_trailing_pair]
  | case3 r hno =>
    refine Closer.Ends.start (k := Closer.verbatim) ⟨Even.zero, fun hr => ?_⟩
    cases r with
    | nil => cases hr
    | cons d r =>
      cases hr
      exact hno r rfl rfl
  | case4 c r hno hc body rest hbody ih =>
    rw [hbody] at ih
    refine ih.cons (fun after hat => hc (List.cons.inj hat.eq).1) fun before after => ?_
    simp only [Closer.verbatim, trailing_cons_of_ne hc]

/-! ## The rules of the languages -/

/-- JavaScript and TypeScript, which have no character literals. -/
def Scripting (language : Language) : Prop :=
  language = .javaScript ∨ language = .typeScript

/-- The quotes that strings with escapes stand between. -/
inductive Quotes (language : Language) : Char → Prop
  | double : Quotes language '"'
  | back (h : Scripting language ∨ language = .go) : Quotes language backQuote
  | single (h : Scripting language) : Quotes language '\''

/-- What the text starts with is no code; it is the segment, and the rest follows it. -/
inductive Skipped (language : Language) : List Char → Segment → List Char → Prop
  | lineComment {body rest : List Char} (unbroken : '\n' ∉ body)
      (ends : rest = [] ∨ rest.head? = some '\n') :
      Skipped language ('/' :: '/' :: (body ++ rest)) ⟨.comment, '/' :: '/' :: body⟩ rest
  | blockComment {text body rest : List Char} (ends : Closer.block.Ends text body rest) :
      Skipped language ('/' :: '*' :: text) ⟨.comment, '/' :: '*' :: body⟩ rest
  | string {quote : Char} {text body rest : List Char} (quotes : Quotes language quote)
      (ends : (Closer.quote quote).Ends text body rest) :
      Skipped language (quote :: text) ⟨.string, quote :: body⟩ rest
  /-- A string after `@` or `@$`, in C#. -/
  | verbatim (dollar : List Char) {text body rest : List Char} (verbatim : language = .cSharp)
      (optional : dollar = [] ∨ dollar = ['$']) (ends : Closer.verbatim.Ends text body rest) :
      Skipped language ('@' :: (dollar ++ '"' :: text)) ⟨.string, '@' :: (dollar ++ '"' :: body)⟩
        rest
  | character {c : Char} {rest : List Char} (literals : ¬ Scripting language)
      (plain : c ≠ '\'' ∧ c ≠ '\\' ∧ c ≠ '\n') :
      Skipped language ('\'' :: c :: '\'' :: rest) ⟨.character, ['\'', c, '\'']⟩ rest
  /-- A backslash takes one character with it, and up to eight more before the closing quote. -/
  | escape {c : Char} {more rest : List Char} (literals : ¬ Scripting language)
      (first : '\'' ∉ more) (short : more.length ≤ 8) :
      Skipped language ('\'' :: '\\' :: c :: (more ++ '\'' :: rest))
        ⟨.character, '\'' :: '\\' :: c :: (more ++ ['\''])⟩ rest

/-- The text is divided into these segments. A character is code only if no rule applies to it. -/
inductive Divided (language : Language) : List Char → List Segment → Prop
  | nil : Divided language [] []
  | skip {text rest : List Char} {segment : Segment} {segments : List Segment}
      (skipped : Skipped language text segment rest) (more : Divided language rest segments) :
      Divided language text (segment :: segments)
  | code {c : Char} {text : List Char} {segments : List Segment}
      (plain : ∀ segment rest, ¬ Skipped language (c :: text) segment rest)
      (more : Divided language text segments) :
      Divided language (c :: text) (⟨.code, [c]⟩ :: segments)

/-! ## The scanner goes by the rules -/

theorem verbatim_ofLanguage :
    (Lexicon.ofLanguage language).verbatim = true ↔ language = .cSharp := by
  cases language <;> simp [Lexicon.ofLanguage]

theorem singleQuotes_ofLanguage :
    (Lexicon.ofLanguage language).singleQuotes = true ↔ Scripting language := by
  cases language <;> simp [Lexicon.ofLanguage, Scripting]

theorem backQuotes_ofLanguage :
    (Lexicon.ofLanguage language).backQuotes = true ↔ Scripting language ∨ language = .go := by
  cases language <;> simp [Lexicon.ofLanguage, Scripting]

theorem Skipped.kind_ne_code {segment : Segment} (h : Skipped language text segment rest) :
    segment.kind ≠ .code := by
  cases h <;> nofun

theorem Skipped.exists_cons {segment : Segment} (h : Skipped language text segment rest) :
    ∃ c t, text = c :: t := by
  cases h <;> exact ⟨_, _, rfl⟩

/-- A segment and what follows it make up the text. -/
theorem Skipped.append_eq {segment : Segment} (h : Skipped language text segment rest) :
    segment.text ++ rest = text := by
  cases h with
  | lineComment _ _ => rfl
  | blockComment ends => simp [ends.append_eq]
  | string _ ends => simp [ends.append_eq]
  | verbatim dollar _ _ ends => simp [ends.append_eq]
  | character _ _ => rfl
  | escape _ _ _ => simp

/-- The segments, one after another, are the text again. -/
theorem Divided.flatMap_text {segs : List Segment} (h : Divided language text segs) :
    segs.flatMap (·.text) = text := by
  induction h with
  | nil => rfl
  | skip skipped _ ih => rw [List.flatMap_cons, ih, skipped.append_eq]
  | code _ _ ih => rw [List.flatMap_cons, ih, List.singleton_append]

theorem Quotes.ne_backslash (h : Quotes language q) : q ≠ '\\' := by
  cases h <;> decide

theorem lineBody_append (unbroken : '\n' ∉ body) (ends : rest = [] ∨ rest.head? = some '\n') :
    lineBody (body ++ rest) = (body, rest) := by
  have hbody : ∀ c ∈ body, (c != '\n') = true := fun c hc => by
    rw [bne_iff_ne]
    exact fun heq => unbroken (heq ▸ hc)
  rw [lineBody, List.takeWhile_append_of_pos hbody, List.dropWhile_append_of_pos hbody]
  rcases rest with _ | ⟨c, rest⟩
  · rw [List.takeWhile_nil, List.dropWhile_nil, List.append_nil]
  · obtain rfl : c = '\n' := by simpa using ends
    simp

theorem not_mem_lineBody (t : List Char) : '\n' ∉ (lineBody t).1 := fun h => by
  simpa using List.mem_takeWhile_imp h

theorem lineBody_ends (t : List Char) : (lineBody t).2 = [] ∨ (lineBody t).2.head? = some '\n' := by
  have hhead := List.head?_dropWhile_not (· != '\n') t
  unfold lineBody
  generalize t.dropWhile (· != '\n') = rest at hhead ⊢
  rcases rest with _ | ⟨c, rest⟩
  · exact Or.inl rfl
  · refine Or.inr ?_
    simpa using hhead

/-- Where the quote is found that ends a literal with a backslash. -/
theorem findIdx?_quote_iff {n : Nat} :
    (t.take 9).findIdx? (· == '\'') = some n ↔ ∃ more rest,
      t = more ++ '\'' :: rest ∧ '\'' ∉ more ∧ more.length = n ∧ n ≤ 8 := by
  constructor
  · intro h
    obtain ⟨hn, hquote, hfirst⟩ := List.findIdx?_eq_some_iff_getElem.mp h
    rw [List.length_take] at hn
    have hlt : n < t.length := by omega
    rw [List.getElem_take, beq_iff_eq] at hquote
    refine ⟨t.take n, t.drop (n + 1), ?_, fun hmem => ?_, ?_, by omega⟩
    · rw [← hquote, ← List.drop_eq_getElem_cons hlt, List.take_append_drop]
    · obtain ⟨j, hj, hjquote⟩ := List.mem_take_iff_getElem.mp hmem
      refine hfirst j (by omega) ?_
      rw [List.getElem_take, hjquote, beq_self_eq_true]
    · rw [List.length_take]
      omega
  · rintro ⟨more, rest, rfl, hfirst, rfl, hshort⟩
    have hnone : more.findIdx? (· == '\'') = none := by
      rw [List.findIdx?_eq_none_iff]
      exact fun c hc => beq_false_of_ne fun heq => hfirst (heq ▸ hc)
    rw [List.findIdx?_take, List.findIdx?_append, hnone]
    simpa [List.findIdx?_cons, Option.guard] using Nat.lt_succ_of_le hshort

/-- The length of a literal with a backslash cuts it off the text. -/
theorem escape_cut (c : Char) (more rest : List Char) :
    ('\\' :: c :: (more ++ '\'' :: rest)).take (more.length + 3) =
        '\\' :: c :: (more ++ ['\'']) ∧
      ('\\' :: c :: (more ++ '\'' :: rest)).drop (more.length + 3) = rest := by
  have hcut : '\\' :: c :: (more ++ '\'' :: rest) =
      ('\\' :: c :: (more ++ ['\''])) ++ rest := by simp
  have hlen : ('\\' :: c :: (more ++ ['\''])).length = more.length + 3 := by simp
  rw [hcut, List.take_left' hlen, List.drop_left' hlen]
  exact ⟨rfl, rfl⟩

/-- What the scanner takes for a character literal is one. -/
theorem skipped_of_literalLength? {n : Nat} (literals : ¬ Scripting language)
    (h : literalLength? text = some n) :
    Skipped language ('\'' :: text) ⟨.character, '\'' :: text.take n⟩ (text.drop n) := by
  revert h
  fun_cases literalLength? text with
  | case1 r =>
    intro h
    obtain ⟨i, hi, rfl⟩ := Option.map_eq_some_iff.mp h
    obtain ⟨more, rest, hr, hfirst, rfl, hshort⟩ := findIdx?_quote_iff.mp hi
    rcases r with _ | ⟨c, r⟩
    · simp at hr
    · obtain rfl : r = more ++ '\'' :: rest := hr
      rw [(escape_cut c more rest).1, (escape_cut c more rest).2]
      exact .escape literals hfirst hshort
  | case2 c r hno hc => simp
  | case3 c r hno hc =>
    intro h
    cases h
    exact .character literals ⟨fun h => hc (Or.inl h), hno, fun h => hc (Or.inr h)⟩
  | case4 => simp

/-- A character literal is taken to its length. -/
theorem next_literal {n : Nat} (literals : ¬ Scripting language)
    (h : literalLength? text = some n) :
    next (.ofLanguage language) '\'' text =
      (⟨.character, '\'' :: text.take n⟩, text.drop n) := by
  have hsingle : (Lexicon.ofLanguage language).singleQuotes = false := by
    simpa [← singleQuotes_ofLanguage] using literals
  simp only [next, hsingle, h]
  rfl

/-- The scanner takes what is no code as the rules say. -/
theorem next_of_skipped {segment : Segment} (h : Skipped language (c :: text) segment rest) :
    next (.ofLanguage language) c text = (segment, rest) := by
  cases h with
  | lineComment unbroken ends =>
    simp only [next, lineBody_append unbroken ends]
    rfl
  | blockComment ends =>
    obtain ⟨rfl, rfl⟩ := (ends_blockBody _).unique ends
    rfl
  | string quotes ends =>
    obtain ⟨rfl, rfl⟩ := (ends_stringBody quotes.ne_backslash _).unique ends
    cases quotes with
    | double => rfl
    | back h =>
      simp [next, backQuote, backQuotes_ofLanguage.mpr h, enclosed]
    | single h =>
      simp only [next, singleQuotes_ofLanguage.mpr h]
      rfl
  | verbatim dollar verbatim optional ends =>
    obtain ⟨rfl, rfl⟩ := (ends_verbatimBody _).unique ends
    rcases optional with rfl | rfl
    · simp only [List.nil_append, next, verbatim_ofLanguage.mpr verbatim]
      rfl
    · simp only [List.singleton_append, next, verbatim_ofLanguage.mpr verbatim]
      rfl
  | @character c _ literals plain =>
    obtain ⟨hquote, hback, hbreak⟩ := plain
    have hlength : literalLength? (c :: '\'' :: rest) = some 2 := by
      simp [literalLength?, hquote, hbreak]
    exact next_literal literals hlength
  | @escape c more _ literals first short =>
    have hfound := findIdx?_quote_iff.mpr ⟨more, rest, rfl, first, rfl, short⟩
    have hlength : literalLength? ('\\' :: c :: (more ++ '\'' :: rest)) =
        some (more.length + 3) := by
      rw [literalLength?, List.drop_one, List.tail_cons, hfound, Option.map_some]
    rw [next_literal literals hlength, (escape_cut c more rest).1,
      (escape_cut c more rest).2]

/-- What the scanner takes is a character of code, or no code by the rules. -/
theorem next_eq_or_skipped (language : Language) (c : Char) (text : List Char) :
    next (.ofLanguage language) c text = (⟨.code, [c]⟩, text) ∨
      Skipped language (c :: text) (next (.ofLanguage language) c text).1
        (next (.ofLanguage language) c text).2 := by
  fun_cases next (.ofLanguage language) c text with
  | case1 r =>
    have hcut : (lineBody r).1 ++ (lineBody r).2 = r := List.takeWhile_append_dropWhile
    have h : Skipped language _ _ _ := .lineComment (not_mem_lineBody r) (lineBody_ends r)
    rw [hcut] at h
    exact Or.inr h
  | case2 r => exact Or.inr (.blockComment (ends_blockBody r))
  | case3 r h =>
    exact Or.inr (.verbatim [] (verbatim_ofLanguage.mp h) (Or.inl rfl)
      (ends_verbatimBody r))
  | case4 r _ => exact Or.inl rfl
  | case5 r h =>
    exact Or.inr (.verbatim ['$'] (verbatim_ofLanguage.mp h) (Or.inr rfl)
      (ends_verbatimBody r))
  | case6 r _ => exact Or.inl rfl
  | case7 text => exact Or.inr (.string .double (ends_stringBody (by decide) text))
  | case8 text h =>
    exact Or.inr (.string (.single (singleQuotes_ofLanguage.mp h))
      (ends_stringBody (by decide) text))
  | case9 text h n hn =>
    exact Or.inr (skipped_of_literalLength? (fun hs => h (singleQuotes_ofLanguage.mpr hs)) hn)
  | case10 _ _ _ => exact Or.inl rfl
  | case11 c text _ _ _ _ _ _ h =>
    obtain ⟨rfl, hback⟩ := h
    exact Or.inr (.string (.back (backQuotes_ofLanguage.mp hback))
      (ends_stringBody (by decide) text))
  | case12 _ _ _ _ _ _ _ _ _ => exact Or.inl rfl

theorem segments_cons (lexicon : Lexicon) (c : Char) (r : List Char) :
    segments lexicon (c :: r) =
      (next lexicon c r).1 :: segments lexicon (next lexicon c r).2 := by
  rw [segments]

/-- The scanner divides a text by the rules. -/
theorem divided_segments (language : Language) (text : List Char) :
    Divided language text (segments (.ofLanguage language) text) := by
  fun_induction segments (.ofLanguage language) text with
  | case1 => exact .nil
  | case2 c r segment rest hnext _ ih =>
    rcases next_eq_or_skipped language c r with hcode | hskip
    · obtain ⟨rfl, rfl⟩ := Prod.mk.inj (hnext.symm.trans hcode)
      refine .code (fun segment rest hskip => hskip.kind_ne_code ?_) ih
      rw [next_of_skipped hskip] at hcode
      rw [(Prod.mk.inj hcode).1]
    · rw [hnext] at hskip
      exact .skip hskip ih

/-- **A text has one division**, which is the one that the scanner makes. -/
theorem divided_iff {segs : List Segment} :
    Divided language text segs ↔ segs = segments (.ofLanguage language) text := by
  constructor
  · intro h
    induction h with
    | nil => rw [segments]
    | @skip text rest segment segs skipped more ih =>
      obtain ⟨c, t, rfl⟩ := skipped.exists_cons
      rw [segments_cons, next_of_skipped skipped, ih]
    | @code c text segs plain more ih =>
      rw [segments_cons, (next_eq_or_skipped language c text).resolve_right (plain _ _), ih]
  · rintro rfl
    exact divided_segments language text

end Anchored.Bracket
