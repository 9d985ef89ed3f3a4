import Anchored.Proofs.Bracket.RawStrings

/-!
# Comments in comments, and raw strings after a letter

In Rust a block comment can hold others, each of which ends before the one it starts in, and a string
after the letter `r` gives backslashes no meaning. The scanner knows neither. For it a comment ends with
the first `*/`, which is the end of the comment exactly if no other starts in it
(`EndsComments.exists_left`), and the string is one like all others. So what should not matter to the
balance of brackets does, in just two cases: where something is left of a comment behind the first `*/`,
and where an unpaired backslash takes the closing quote with it, and all that follows
(`comments_and_raw_strings_opaque_iff`).
-/

namespace Anchored.Bracket

variable {p s t x y b : List Char} {n : Nat} {c : Char}

/-! ## Comments that nest -/

/-- The text ends the comment that it starts in and `n` comments around that, and goes no further. -/
inductive EndsComments : Nat → List Char → Prop
  | last : EndsComments 0 ['*', '/']
  | closing {n : Nat} {t : List Char} (h : EndsComments n t) :
      EndsComments (n + 1) ('*' :: '/' :: t)
  | opening {n : Nat} {t : List Char} (h : EndsComments (n + 1) t) :
      EndsComments n ('/' :: '*' :: t)
  | other {n : Nat} {c : Char} {t : List Char} (noClosing : ¬ ['*', '/'] <+: c :: t)
      (noOpening : ¬ ['/', '*'] <+: c :: t) (h : EndsComments n t) : EndsComments n (c :: t)

theorem EndsComments.two_le_length (h : EndsComments n t) : 2 ≤ t.length := by
  induction h with
  | last => exact le_rfl
  | closing _ ih => exact Nat.le_add_left 2 _
  | opening _ ih => exact Nat.le_add_left 2 _
  | other _ _ _ ih => exact Nat.le_succ_of_le ih

/-- A comment goes on where it does not end. -/
theorem blockBody_cons (h : ¬ ['*', '/'] <+: c :: t) :
    blockBody (c :: t) = (c :: (blockBody t).1, (blockBody t).2) := by
  rw [blockBody]
  rintro r rfl rfl
  exact h ⟨r, rfl⟩

/-- A text starts as it does whatever follows it. -/
theorem starts_append_iff {w : List Char} (h : w.length ≤ t.length) (s : List Char) :
    w <+: t ++ s ↔ w <+: t := by
  constructor
  · intro hpre
    exact List.prefix_of_prefix_length_le hpre (List.prefix_append t s) h
  · intro hpre
    exact hpre.trans (List.prefix_append t s)

/-- The scanner ends a comment inside it, whatever follows, and nothing is left of it exactly if it is
the only one and none starts in it. -/
theorem EndsComments.exists_left (h : EndsComments n t) :
    ∃ body left, (∀ s, blockBody (t ++ s) = (body, left ++ s)) ∧
      (left = [] ↔ n = 0 ∧ ¬ ['/', '*'] <:+: t) := by
  induction h with
  | last => exact ⟨['*', '/'], [], fun _ => rfl, by decide⟩
  | @closing n t h _ =>
    have hlen := h.two_le_length
    have hne : t ≠ [] := by
      rintro rfl
      cases hlen
    exact ⟨['*', '/'], t, fun _ => rfl, by simp [hne]⟩
  | @opening n t h ih =>
    have hlen := h.two_le_length
    have hinside : ['/', '*'] <:+: '/' :: '*' :: t := ⟨[], t, rfl⟩
    have hslash (s : List Char) : blockBody ('/' :: '*' :: (t ++ s)) =
        ('/' :: (blockBody ('*' :: (t ++ s))).1, (blockBody ('*' :: (t ++ s))).2) :=
      blockBody_cons (by simp)
    by_cases hends : ['/'] <+: t
    · -- The star of the opening and the slash behind it end the comment.
      obtain ⟨r, rfl⟩ := hends
      have hne : r ≠ [] := by
        rintro rfl
        simp at hlen
      refine ⟨['/', '*', '/'], r, hslash, ?_⟩
      exact iff_of_false hne fun hno => hno.2 hinside
    · obtain ⟨body, left, hbody, hleft⟩ := ih
      have hne : left ≠ [] := by
        intro hnil
        exact absurd (hleft.mp hnil).1 (Nat.succ_ne_zero n)
      refine ⟨'/' :: '*' :: body, left, fun s => ?_, ?_⟩
      · have hstar : ¬ ['*', '/'] <+: '*' :: (t ++ s) := by
          intro hpre
          have hpre := (List.cons_prefix_cons.mp hpre).2
          have hone : ['/'].length ≤ t.length := Nat.le_of_succ_le hlen
          exact hends ((starts_append_iff hone s).mp hpre)
        rw [List.cons_append, List.cons_append, hslash, blockBody_cons hstar, hbody]
      · exact iff_of_false hne fun hno => hno.2 hinside
  | @other n c t noClosing noOpening h ih =>
    obtain ⟨body, left, hbody, hleft⟩ := ih
    have hlen := h.two_le_length
    refine ⟨c :: body, left, fun s => ?_, ?_⟩
    · have hno : ¬ ['*', '/'] <+: c :: (t ++ s) := by
        have htwo : ['*', '/'].length ≤ (c :: t).length := Nat.le_succ_of_le hlen
        exact mt (starts_append_iff htwo s).mp noClosing
      rw [List.cons_append, blockBody_cons hno, hbody]
    · rw [hleft, List.infix_cons_iff, not_or, and_iff_right noOpening]

/-! ## Pieces that can stand for each other -/

/-- Text without quotes and slashes. -/
def Plain (p : List Char) : Prop :=
  ∀ c ∈ p, c ≠ '"' ∧ c ≠ '\'' ∧ c ≠ '/'

instance : Decidable (Plain p) :=
  List.decidableBAll _ p

/-- Between `p` and `s`, the check makes no difference between `x` and `y`. -/
def Interchangeable (p s x y : List Char) : Prop :=
  check .rust (p ++ x ++ s) = .ok () ↔ check .rust (p ++ y ++ s) = .ok ()

instance : Decidable (Interchangeable p s x y) :=
  inferInstanceAs (Decidable (_ ↔ _))

theorem codeBrackets_plain_append (hp : Plain p) (t : List Char) :
    codeBrackets (segments (.ofLanguage .rust) (p ++ t)) =
      p.filter (· ∈ brackets) ++ codeBrackets (segments (.ofLanguage .rust) t) :=
  codeBrackets_code_append (fun c hc => next_of_plain rfl (fun _ => rfl) (hp c hc)) t

/-- The check depends on what stands in code. -/
theorem check_plain_append_congr (hp : Plain p)
    (h : codeBrackets (segments (.ofLanguage .rust) x) =
      codeBrackets (segments (.ofLanguage .rust) y)) :
    check .rust (p ++ x) = .ok () ↔ check .rust (p ++ y) = .ok () := by
  rw [check_eq_ok_iff, check_eq_ok_iff, codeBrackets_plain_append hp, codeBrackets_plain_append hp, h]

theorem codeBrackets_space (t : List Char) :
    codeBrackets (segments (.ofLanguage .rust) (' ' :: t)) =
      codeBrackets (segments (.ofLanguage .rust) t) :=
  codeBrackets_plain_append (p := [' ']) (by decide) t

theorem codeBrackets_comment (t : List Char) :
    codeBrackets (segments (.ofLanguage .rust) ('/' :: '*' :: t)) =
      codeBrackets (segments (.ofLanguage .rust) (blockBody t).2) := by
  have hnext : next (.ofLanguage .rust) '/' ('*' :: t) =
      (⟨.comment, '/' :: '*' :: (blockBody t).1⟩, (blockBody t).2) := rfl
  exact codeBrackets_of_next hnext (by decide)

theorem codeBrackets_letter_string (t : List Char) :
    codeBrackets (segments (.ofLanguage .rust) ('r' :: '"' :: t)) =
      codeBrackets (segments (.ofLanguage .rust) (stringBody '"' t).2) := by
  have hletter : codeBrackets (segments (.ofLanguage .rust) ('r' :: '"' :: t)) =
      codeBrackets (segments (.ofLanguage .rust) ('"' :: t)) :=
    codeBrackets_plain_append (p := ['r']) (by decide) ('"' :: t)
  have hnext : next (.ofLanguage .rust) '"' t =
      (⟨.string, '"' :: (stringBody '"' t).1⟩, (stringBody '"' t).2) := rfl
  rw [hletter, codeBrackets_of_next hnext (by decide)]

/-! ## When they are opaque -/

/-- **When comments and raw strings are opaque.** A comment in a text can be replaced by a blank if no
other comment starts in it, or if it makes no difference that what is left of it behind its first `*/`
is read as code, which is what the scanner does. A raw string can be replaced by a blank if its body does
not end with an unpaired backslash, or if it makes no difference that all that follows is lost, which is
what such a backslash comes to. -/
theorem comments_and_raw_strings_opaque_iff (hp : Plain p) (hs : Plain s) :
    (∀ t, EndsComments 0 t → ∃ body left, Closer.block.Ends t body left ∧
      Interchangeable p s ('/' :: '*' :: t) (' ' :: left) ∧
      (Interchangeable p s ('/' :: '*' :: t) [' '] ↔
        ¬ ['/', '*'] <:+: t ∨ Interchangeable p s (' ' :: left) [' '])) ∧
    ∀ b, '"' ∉ b →
      (¬ Even (trailing '\\' b) →
        (check .rust (p ++ ('r' :: '"' :: (b ++ ['"'])) ++ s) = .ok () ↔ check .rust p = .ok ())) ∧
      (Interchangeable p s ('r' :: '"' :: (b ++ ['"'])) [' '] ↔
        Even (trailing '\\' b) ∨
          (check .rust p = .ok () ↔ check .rust (p ++ [' '] ++ s) = .ok ())) := by
  have hcongr (x y : List Char) (h : codeBrackets (segments (.ofLanguage .rust) (x ++ s)) =
      codeBrackets (segments (.ofLanguage .rust) (y ++ s))) : Interchangeable p s x y := by
    unfold Interchangeable
    rw [List.append_assoc, List.append_assoc]
    exact check_plain_append_congr hp h
  constructor
  · intro t ht
    obtain ⟨body, left, hbody, hleft⟩ := ht.exists_left
    have hends : Closer.block.Ends t body left := by
      have h := ends_blockBody t
      have hsplit := hbody []
      rw [List.append_nil, List.append_nil] at hsplit
      rwa [hsplit] at h
    have hread : Interchangeable p s ('/' :: '*' :: t) (' ' :: left) := by
      apply hcongr
      rw [List.cons_append, List.cons_append, codeBrackets_comment, hbody, List.cons_append,
        codeBrackets_space]
    refine ⟨body, left, hends, hread, ?_⟩
    constructor
    · intro hopaque
      exact Or.inr (hread.symm.trans hopaque)
    · rintro (hno | hsame)
      · have hnil : left = [] := hleft.mpr ⟨rfl, hno⟩
        rwa [hnil] at hread
      · exact hread.trans hsame
  · intro b hb
    have hq : '"' ≠ '\\' := by decide
    have hstring (rest body : List Char) (h : (Closer.quote '"').Ends (b ++ '"' :: s) body rest) :
        codeBrackets (segments (.ofLanguage .rust) (('r' :: '"' :: (b ++ ['"'])) ++ s)) =
          codeBrackets (segments (.ofLanguage .rust) rest) := by
      obtain ⟨_, hrest⟩ := (ends_stringBody hq (b ++ '"' :: s)).unique h
      have htext : ('r' :: '"' :: (b ++ ['"'])) ++ s = 'r' :: '"' :: (b ++ '"' :: s) := by simp
      rw [htext, codeBrackets_letter_string, hrest]
    have hlost (hodd : ¬ Even (trailing '\\' b)) :
        check .rust (p ++ ('r' :: '"' :: (b ++ ['"'])) ++ s) = .ok () ↔ check .rust p = .ok () := by
      -- Nothing in `s` closes the string.
      have hopen : (Closer.quote '"').Ends s s [] := by
        refine .unclosed fun before after hat => ?_
        have hmem : '"' ∈ s := hat.eq ▸ by simp [Closer.quote]
        exact (hs '"' hmem).1 rfl
      have h := check_plain_append_congr hp (hstring [] _ (ends_raw_escaped hq hb hodd hopen))
      rwa [← List.append_assoc, List.append_nil] at h
    refine ⟨hlost, ?_⟩
    by_cases heven : Even (trailing '\\' b)
    · have hopaque : Interchangeable p s ('r' :: '"' :: (b ++ ['"'])) [' '] := by
        apply hcongr
        rw [hstring s _ (ends_raw hb heven s), List.singleton_append, codeBrackets_space]
      exact iff_of_true hopaque (Or.inl heven)
    · rw [Interchangeable, hlost heven]
      exact (or_iff_right heven).symm

/-- A comment of which something without brackets is left, and a raw string that ends with a pair of
backslashes, both with a bracket in them and one open around them. -/
theorem comments_and_raw_strings_opaque_iff_closed :
    let p := "f(x, ".toList
    let s := ")".toList
    let t := "a /*[*/ b */".toList
    let b := "]\\\\".toList
    Plain p ∧ Plain s ∧ EndsComments 0 t ∧ Interchangeable p s ('/' :: '*' :: t) [' '] ∧
      '"' ∉ b ∧ Even (trailing '\\' b) ∧
      Interchangeable p s ('r' :: '"' :: (b ++ ['"'])) [' '] := by
  intro p s t b
  have hp : Plain p := by decide
  have hs : Plain s := by decide
  have ht : EndsComments 0 t := by
    refine .other (by decide) (by decide) <| .other (by decide) (by decide) <| .opening ?_
    refine .other (by decide) (by decide) <| .closing ?_
    refine .other (by decide) (by decide) <| .other (by decide) (by decide) ?_
    exact .other (by decide) (by decide) .last
  have hb : '"' ∉ b := by decide
  have heven : Even (trailing '\\' b) := by decide
  obtain ⟨hcomments, hstrings⟩ := comments_and_raw_strings_opaque_iff hp hs
  obtain ⟨body, left, hends, _, hcomment⟩ := hcomments t ht
  obtain ⟨_, rfl⟩ := (ends_blockBody t).unique hends
  have hleft : Interchangeable p s (' ' :: (blockBody t).2) [' '] := by decide +kernel
  exact ⟨hp, hs, ht, hcomment.mpr (Or.inr hleft), hb, heven, (hstrings b hb).2.mpr (Or.inl heven)⟩

/-- A comment whose last bracket is taken for code, and a raw string that takes the bracket behind it
with it. -/
theorem comments_and_raw_strings_not_opaque :
    (EndsComments 0 "/**/(*/".toList ∧
      check .rust "/*/**/(*/".toList = .error (.unclosed ⟨'(', 1⟩) ∧
      check .rust " ".toList = .ok ()) ∧
    check .rust "f(r\"\\\")".toList = .error (.unclosed ⟨'(', 1⟩) ∧
    check .rust "f( )".toList = .ok () := by
  refine ⟨⟨?_, by decide +kernel, by decide +kernel⟩, by decide +kernel, by decide +kernel⟩
  exact .opening <| .closing <| .other (by decide) (by decide) .last

end Anchored.Bracket
