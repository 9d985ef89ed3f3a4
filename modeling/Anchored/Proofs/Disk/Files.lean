import Anchored.Disk.Document
import Mathlib.Tactic.Common

/-!
# Files behind paths

Two stores are compared by what they hold at every place. Where a path leads depends only on which
places hold files and which hold directories, so that it does not change when a file gets other
bytes. A path at which there is a file leads to the same place for reading and for writing
(`fileAt_of_bytes`); with that, reading and writing a whole file are two equations
(`Document.read_eq_ok_iff`, `Document.write_of_fits`).
-/

namespace Anchored.Store

/-- Two stores hold the same at every place and have the same limit. The order in which things were
put there may differ. -/
structure Same (s t : Store) : Prop where
  node : ∀ place, s.node place = t.node place
  limit : s.limit = t.limit

variable {s t u : Store}

theorem Same.refl (s : Store) : s.Same s :=
  ⟨fun _ => rfl, rfl⟩

theorem Same.symm (h : s.Same t) : t.Same s :=
  ⟨fun place => (h.node place).symm, h.limit.symm⟩

theorem Same.trans (h : s.Same t) (h' : t.Same u) : s.Same u :=
  ⟨fun place => (h.node place).trans (h'.node place), h.limit.trans h'.limit⟩

theorem Same.put (h : s.Same t) (place : Place) (n : Option Node) :
    (s.put place n).Same (t.put place n) := by
  refine ⟨fun other => ?_, h.limit⟩
  rw [node_put, node_put, h.node other]

/-- Of two things put at one place, the second stays. -/
theorem put_put_same (s : Store) (place : Place) (m n : Option Node) :
    ((s.put place m).put place n).Same (s.put place n) := by
  refine ⟨fun other => ?_, rfl⟩
  by_cases h : other = place <;> simp [h]

/-- Putting at a place what it holds already changes nothing. -/
theorem put_node_same {place : Place} {n : Option Node} (h : s.node place = n) :
    (s.put place n).Same s := by
  refine ⟨fun other => ?_, rfl⟩
  by_cases ho : other = place
  · rw [node_put, if_pos ho, ho, h]
  · rw [node_put, if_neg ho]

/-! ## Where paths lead -/

/-- Whether what is at a place is a directory; `none` if nothing is there. -/
def kind (s : Store) (place : Place) : Option Bool :=
  (s.node place).map fun
    | .directory => true
    | .file _ => false

/-- Two stores have files and directories at the same places. -/
def SameShape (s t : Store) : Prop :=
  ∀ place, s.kind place = t.kind place

theorem Same.sameShape (h : s.Same t) : s.SameShape t := fun place => by
  rw [kind, kind, h.node place]

/-- A file that gets other bytes is a file as before. -/
theorem sameShape_put {place : Place} {old : ByteArray} (h : s.node place = some (.file old))
    (new : ByteArray) : (s.put place (some (.file new))).SameShape s := by
  intro other
  by_cases ho : other = place
  · simp [kind, ho, h]
  · simp [kind, ho]

/-- The place that one name leads to from a place. -/
def enter (s : Store) (here : Place) (name : String) : Except Fault Place :=
  match s.node here with
  | none => .error .missing
  | some (.file _) => .error .notDirectory
  | some .directory =>
    if name = "" ∨ name = "." then .ok here
    else if name = ".." then
      if here = [] then .error .missing
      else .ok (if here = ["/"] then here else here.dropLast)
    else if longestName < name.utf8ByteSize then .error .nameTooLong
    else .ok (here ++ [name])

theorem follow_cons (here : Place) (name : String) (names : List String) :
    s.follow here (name :: names) = s.enter here name >>= fun next => s.follow next names := by
  unfold enter
  rw [follow]
  rcases s.node here with _ | (_ | _)
  · rfl
  · rfl
  · simp only
    split_ifs <;> rfl

theorem follow_append (here : Place) (names more : List String) :
    s.follow here (names ++ more) = s.follow here names >>= fun mid => s.follow mid more := by
  induction names generalizing here with
  | nil => rfl
  | cons name names ih =>
    rw [List.cons_append, follow_cons, follow_cons]
    rcases s.enter here name with _ | next
    · rfl
    · exact ih next

theorem enter_congr (h : s.SameShape t) (here : Place) (name : String) :
    s.enter here name = t.enter here name := by
  have hk := h here
  unfold kind at hk
  unfold enter
  rcases hs : s.node here with _ | (_ | _) <;> rcases ht : t.node here with _ | (_ | _) <;>
    simp [hs, ht] at hk ⊢

theorem follow_congr (h : s.SameShape t) (here : Place) (names : List String) :
    s.follow here names = t.follow here names := by
  induction names generalizing here with
  | nil => rfl
  | cons name names ih =>
    rw [follow_cons, follow_cons, enter_congr h]
    rcases t.enter here name with _ | next
    · rfl
    · exact ih next

theorem place_congr (h : s.SameShape t) (path : String) : s.place path = t.place path := by
  unfold place
  split
  · rfl
  · exact follow_congr h _ _

/-- A name that can only be that of a directory. -/
def IsDirectoryName (name : String) : Prop :=
  name = "" ∨ name = "." ∨ name = ".."

/-- What one name can lead to: to the same place, to the parent, or further on. -/
theorem enter_cases {here next : Place} {name : String} (h : s.enter here name = .ok next) :
    s.node here = some .directory ∧
      ((IsDirectoryName name ∧ next = here) ∨
        (IsDirectoryName name ∧ here ≠ [] ∧ here ≠ ["/"] ∧ next = here.dropLast) ∨
        (¬ IsDirectoryName name ∧ next = here ++ [name])) := by
  unfold enter at h
  rcases hn : s.node here with _ | (_ | _) <;> simp only [hn] at h
  · cases h
  · cases h
  refine ⟨rfl, ?_⟩
  unfold IsDirectoryName
  split_ifs at h with h1 h2 h3 h4 h5 <;> cases h
  · exact Or.inl ⟨by tauto, rfl⟩
  · exact Or.inl ⟨by tauto, rfl⟩
  · exact Or.inr (Or.inl ⟨by tauto, h3, h4, rfl⟩)
  · exact Or.inr (Or.inr ⟨by tauto, rfl⟩)

/-- On the way from `start` to `here` there are only directories. -/
def Passable (s : Store) (start here : Place) : Prop :=
  start <+: here ∧ ∀ place, start <+: place → place <+: here → place ≠ here →
    s.node place = some .directory

theorem Passable.refl (s : Store) (start : Place) : s.Passable start start :=
  ⟨List.prefix_refl _, fun _ h1 h2 h3 =>
    absurd (h2.eq_of_length (Nat.le_antisymm h2.length_le h1.length_le)) h3⟩

/-- Going on to a name, from a directory. -/
theorem Passable.concat {start here : Place} (h : s.Passable start here)
    (hd : s.node here = some .directory) (name : String) : s.Passable start (here ++ [name]) := by
  refine ⟨h.1.trans (List.prefix_append _ _), fun place h1 h2 h3 => ?_⟩
  rcases List.prefix_concat_iff.mp h2 with rfl | h2
  · exact absurd rfl h3
  · by_cases hp : place = here
    · rw [hp]; exact hd
    · exact h.2 place h1 h2 hp

/-- Going back to the parent, which is a directory. -/
theorem Passable.dropLast {start here : Place} (h : s.Passable start here) (hne : here ≠ start) :
    s.Passable start here.dropLast ∧ s.node here.dropLast = some .directory := by
  obtain ⟨⟨tail, htail⟩, hdir⟩ := h
  have ht : tail ≠ [] := by
    intro hn
    exact hne (by rw [← htail, hn, List.append_nil])
  have hpre : start <+: here.dropLast := by
    rw [← htail, List.dropLast_append_of_ne_nil ht]
    exact List.prefix_append _ _
  have hlt : here.dropLast.length < here.length := by
    have : 0 < tail.length := List.length_pos_iff.mpr ht
    rw [← htail, List.length_dropLast, List.length_append]
    omega
  refine ⟨⟨hpre, fun place h1 h2 h3 => hdir place h1 (h2.trans (List.dropLast_prefix here)) ?_⟩,
    hdir _ hpre (List.dropLast_prefix here) ?_⟩
  · rintro rfl
    have := h2.length_le
    omega
  · intro he
    rw [he] at hlt
    omega

/-- One name more: the way stays passable, and the name of a directory leads to a directory. -/
theorem enter_passable {start here next : Place} {name : String}
    (hs : start = [] ∨ start = ["/"]) (hp : s.Passable start here)
    (h : s.enter here name = .ok next) :
    s.Passable start next ∧ (IsDirectoryName name → s.node next = some .directory) := by
  obtain ⟨hd, ⟨_, rfl⟩ | ⟨_, h1, h2, rfl⟩ | ⟨hn, rfl⟩⟩ := enter_cases h
  · exact ⟨hp, fun _ => hd⟩
  · have hne : here ≠ start := by
      rintro rfl
      exact hs.elim h1 h2
    obtain ⟨h3, h4⟩ := hp.dropLast hne
    exact ⟨h3, fun _ => h4⟩
  · exact ⟨hp.concat hd name, fun hc => absurd hc hn⟩

theorem follow_passable {start here place : Place} (hs : start = [] ∨ start = ["/"])
    (names : List String) (hp : s.Passable start here) (h : s.follow here names = .ok place) :
    s.Passable start place := by
  induction names generalizing here with
  | nil =>
    cases h
    exact hp
  | cons name names ih =>
    rw [follow_cons] at h
    rcases he : s.enter here name with _ | next <;> rw [he] at h
    · cases h
    · exact ih (enter_passable hs hp he).1 h

/-- Names that lead to a file do not end with the name of a directory. -/
theorem last_of_follow {start place : Place} (hs : start = [] ∨ start = ["/"])
    {names : List String} {last : String} {bytes : ByteArray}
    (h : s.follow start (names ++ [last]) = .ok place) (hf : s.node place = some (.file bytes)) :
    ¬ IsDirectoryName last := by
  intro hl
  rw [follow_append] at h
  rcases hm : s.follow start names with _ | mid <;> rw [hm] at h
  · cases h
  have hp := follow_passable hs names (Passable.refl s start) hm
  change s.follow mid [last] = .ok place at h
  rw [follow_cons] at h
  rcases he : s.enter mid last with _ | next <;> rw [he] at h
  · cases h
  cases h
  have := (enter_passable hs hp he).2 hl
  rw [hf] at this
  cases this

theorem steps_start (path : String) : (steps path).1 = [] ∨ (steps path).1 = ["/"] := by
  unfold steps
  split
  · exact Or.inr rfl
  · exact Or.inl rfl

/-- A path at which there is a file is written to where it is read from. -/
theorem target_eq_of_place {path : String} {place : Place} {bytes : ByteArray}
    (h : s.place path = .ok place) (hf : s.node place = some (.file bytes)) :
    s.target path = .ok place := by
  unfold Store.place at h
  unfold target
  split at h
  · cases h
  simp only
  change s.follow (steps path).1 (steps path).2 = .ok place at h
  unfold fileTarget
  have hlast : ∀ last, (steps path).2.getLast? = some last → ¬ IsDirectoryName last := by
    intro last hl
    obtain ⟨names, hnames⟩ := List.getLast?_eq_some_iff.mp hl
    rw [hnames] at h
    exact last_of_follow (steps_start path) h hf
  have hsolid : ((steps path).2.reverse.dropWhile (· = "")).reverse = (steps path).2 := by
    rcases hr : (steps path).2.reverse with _ | ⟨last, names⟩
    · simpa using hr.symm
    · have hl : (steps path).2.getLast? = some last := by
        rw [← List.head?_reverse, hr]
        rfl
      have hne : last ≠ "" := fun he => hlast last hl (Or.inl he)
      rw [List.dropWhile_cons_of_neg (by simpa using hne), ← hr, List.reverse_reverse]
  have hcond : ¬ ((steps path).2 ≠ (steps path).2 ∨ (steps path).2.getLast? = some "." ∨
      (steps path).2.getLast? = some "..") := by
    rintro (hc | hc | hc)
    · exact hc rfl
    · exact hlast "." hc (Or.inr (Or.inl rfl))
    · exact hlast ".." hc (Or.inr (Or.inr rfl))
  simp only [hsolid]
  rw [if_neg hcond, h]
  simp [bind, Except.bind, hf]

theorem target_congr (h : s.Same t) (path : String) : s.target path = t.target path := by
  unfold target fileTarget
  simp only [follow_congr h.sameShape, h.node]

/-! ## Reading and writing whole files -/

theorem bytes_congr (h : s.Same t) (path : String) : s.bytes path = t.bytes path := by
  unfold Store.bytes
  simp only [place_congr h.sameShape, h.node]

/-- The files without a limit on what they can hold. -/
def unlimited (s : Store) : Store :=
  { s with limit := none }

theorem Same.unlimited (h : s.Same t) : s.unlimited.Same t.unlimited :=
  ⟨h.node, rfl⟩

/-- The path leads to a file at `place`, and the file holds `bytes`. -/
structure FileAt (s : Store) (path : String) (place : Place) (bytes : ByteArray) : Prop where
  place_eq : s.place path = .ok place
  node_eq : s.node place = some (.file bytes)

section FileAt

variable {path : String} {place : Place} {bytes : ByteArray}

theorem FileAt.target_eq (h : s.FileAt path place bytes) : s.target path = .ok place :=
  target_eq_of_place h.place_eq h.node_eq

theorem FileAt.bytes_eq (h : s.FileAt path place bytes) : s.bytes path = .ok bytes := by
  unfold Store.bytes
  rw [h.place_eq]
  simp [bind, Except.bind, h.node_eq]

theorem FileAt.isFile_eq (h : s.FileAt path place bytes) : s.isFile path = true := by
  unfold isFile
  rw [h.bytes_eq]
  rfl

theorem FileAt.congr (h : s.FileAt path place bytes) (hs : t.Same s) :
    t.FileAt path place bytes :=
  ⟨(place_congr hs.sameShape path).trans h.place_eq, (hs.node place).trans h.node_eq⟩

/-- Where files and directories are at the same places, a path leads to the same one. -/
theorem FileAt.of_sameShape {new : ByteArray} (h : s.FileAt path place bytes) (hs : t.SameShape s)
    (hnode : t.node place = some (.file new)) : t.FileAt path place new :=
  ⟨(place_congr hs path).trans h.place_eq, hnode⟩

/-- The path leads to the same place when the file gets other bytes. -/
theorem FileAt.put (h : s.FileAt path place bytes) (new : ByteArray) :
    (s.put place (some (.file new))).FileAt path place new :=
  h.of_sameShape (sameShape_put h.node_eq new) (by simp)

theorem FileAt.unlimited (h : s.FileAt path place bytes) : s.unlimited.FileAt path place bytes :=
  have hshape : s.unlimited.SameShape s := fun _ => rfl
  ⟨(place_congr hshape path).trans h.place_eq, h.node_eq⟩

theorem FileAt.unique {place' : Place} {bytes' : ByteArray} (h : s.FileAt path place bytes)
    (h' : s.FileAt path place' bytes') : place' = place ∧ bytes' = bytes := by
  have hplace := h'.place_eq.symm.trans h.place_eq
  cases hplace
  have hnode := h'.node_eq.symm.trans h.node_eq
  cases hnode
  exact ⟨rfl, rfl⟩

theorem fileAt_of_bytes (h : s.bytes path = .ok bytes) : ∃ place, s.FileAt path place bytes := by
  unfold Store.bytes at h
  rcases hp : s.place path with _ | place <;> rw [hp] at h
  · cases h
  refine ⟨place, hp, ?_⟩
  rcases hn : s.node place with _ | (_ | _) <;> simp [bind, Except.bind, hn] at h
  rw [h]

theorem isFile_iff : s.isFile path = true ↔ ∃ place bytes, s.FileAt path place bytes := by
  constructor
  · intro h
    unfold isFile at h
    rcases hb : s.bytes path with _ | bytes <;> rw [hb] at h
    · cases h
    · obtain ⟨place, hp⟩ := fileAt_of_bytes hb
      exact ⟨place, bytes, hp⟩
  · rintro ⟨place, bytes, h⟩
    exact h.isFile_eq

theorem isFile_congr (h : s.SameShape t) (path : String) : s.isFile path = t.isFile path := by
  have hfiles : ∀ {s t : Store}, s.SameShape t → s.isFile path = true → t.isFile path = true := by
    intro s t h hs
    obtain ⟨place, bytes, hfile⟩ := isFile_iff.mp hs
    have hkind := h place
    rw [kind, kind, hfile.node_eq] at hkind
    rcases hnode : t.node place with _ | (new | _) <;> rw [hnode] at hkind <;> cases hkind
    exact isFile_iff.mpr ⟨place, new, hfile.of_sameShape (fun other => (h other).symm) hnode⟩
  exact Bool.eq_iff_iff.mpr ⟨hfiles h, hfiles fun other => (h other).symm⟩

theorem FileAt.text_eq (h : s.FileAt path place bytes) :
    s.text path = match String.fromUTF8? bytes with
      | some text => .ok text
      | none => .error .notText := by
  unfold text
  rw [h.bytes_eq]
  rfl

/-- Bytes are read as the text that they are the form of. -/
theorem fromUTF8?_eq_some_iff {content : String} :
    String.fromUTF8? bytes = some content ↔ content.toUTF8 = bytes := by
  unfold String.fromUTF8?
  constructor
  · intro h
    split_ifs at h
    cases h
    rfl
  · rintro rfl
    have hv : content.toUTF8.IsValidUTF8 := content.isValidUTF8
    rw [dif_pos hv]
    rfl

/-- The text of a file is the one that its bytes are the form of. -/
theorem text_eq_ok_iff {content : String} :
    s.text path = .ok content ↔ ∃ place, s.FileAt path place content.toUTF8 := by
  constructor
  · intro h
    rcases hb : s.bytes path with _ | bytes
    · unfold text at h
      rw [hb] at h
      cases h
    obtain ⟨place, hp⟩ := fileAt_of_bytes hb
    rw [hp.text_eq] at h
    rcases htext : String.fromUTF8? bytes with _ | text <;> rw [htext] at h <;> cases h
    obtain rfl := fromUTF8?_eq_some_iff.mp htext
    exact ⟨place, hp⟩
  · rintro ⟨place, hp⟩
    rw [hp.text_eq, fromUTF8?_eq_some_iff.mpr rfl]

theorem text_eq_error_of_isFile {fault : Fault} (hf : s.isFile path = true)
    (h : s.text path = .error fault) : fault = .notText := by
  obtain ⟨place, bytes, hp⟩ := isFile_iff.mp hf
  rw [hp.text_eq] at h
  rcases hu : String.fromUTF8? bytes with _ | content <;> rw [hu] at h <;> cases h
  rfl

/-- What arrives in a file of a content that is written to it. -/
def arriving (s : Store) (content : String) : ByteArray :=
  match s.limit with
  | none => content.toUTF8
  | some limit => content.toUTF8.extract 0 limit

/-- A file can hold the content. -/
def Fits (s : Store) (content : String) : Prop :=
  ∀ limit, s.limit = some limit → content.toUTF8.size ≤ limit

theorem arriving_of_fits {content : String} (h : s.Fits content) :
    s.arriving content = content.toUTF8 := by
  unfold arriving
  rcases hl : s.limit with _ | limit
  · rfl
  · have := ByteArray.extract_zero_max_size (a := content.toUTF8) (i := limit)
    rwa [Nat.max_eq_left (h limit hl)] at this

/-- As much as arrives of a content that does not fit is shorter. -/
theorem arriving_ne_of_not_fits {content : String} (h : ¬ s.Fits content) :
    s.arriving content ≠ content.toUTF8 := by
  unfold Fits at h
  push Not at h
  obtain ⟨limit, hl, hlt⟩ := h
  intro he
  have hsize := congrArg ByteArray.size he
  simp only [arriving, hl, ByteArray.size_extract] at hsize
  omega

theorem fits_of_unlimited (h : s.limit = none) (content : String) : s.Fits content := by
  intro limit hl
  rw [h] at hl
  cases hl

@[simp]
theorem fits_put {content : String} {n : Option Node} :
    (s.put place n).Fits content ↔ s.Fits content :=
  Iff.rfl

end FileAt

end Anchored.Store

namespace Anchored.Document

variable {s : Store} {path : String} {place : Place} {bytes : ByteArray}

theorem read_congr {t : Store} (h : s.Same t) (path : String) :
    Document.read s path = Document.read t path := by
  unfold Document.read Store.isFile Store.text
  simp only [Store.bytes_congr h]

theorem write_congr {t : Store} (h : s.Same t) (path content : String) :
    (Document.write s path content).1 = (Document.write t path content).1 ∧
      (Document.write s path content).2.Same (Document.write t path content).2 := by
  unfold Document.write Store.write
  rw [Store.target_congr h, h.limit]
  rcases t.target path with fault | place
  · exact ⟨rfl, h⟩
  · rcases t.limit with _ | limit
    · exact ⟨rfl, h.put place _⟩
    · simp only
      split_ifs
      · exact ⟨rfl, h.put place _⟩
      · exact ⟨rfl, h.put place _⟩

theorem read_of_text {path content : String} (h : s.text path = .ok content) :
    Document.read s path = .ok ⟨path, content, Anchored.checksum content⟩ := by
  obtain ⟨place, hfile⟩ := Store.text_eq_ok_iff.mp h
  unfold Document.read
  rw [if_pos hfile.isFile_eq, h]

/-- Nothing in a store keeps a file that is there from being read. Reading fails because there is no
file or because it holds no text, and for no other reason. -/
theorem read_cases (s : Store) (path : String) :
    (∃ content, s.text path = .ok content ∧
      Document.read s path = .ok ⟨path, content, Anchored.checksum content⟩) ∨
    (s.isFile path = false ∧ Document.read s path = .error (.notFound path)) ∨
    s.isFile path = true ∧ (∀ content, s.text path ≠ .ok content) ∧
      Document.read s path = .error (.notText path) := by
  rcases hf : s.isFile path with _ | _
  · refine Or.inr (Or.inl ⟨rfl, ?_⟩)
    unfold Document.read
    rw [if_neg (by simp [hf])]
  rcases ht : s.text path with fault | content
  · obtain rfl := Store.text_eq_error_of_isFile hf ht
    refine Or.inr (Or.inr ⟨rfl, fun content h => (by cases h), ?_⟩)
    unfold Document.read
    rw [if_pos hf, ht]
  · exact Or.inl ⟨content, rfl, read_of_text ht⟩

/-- Reading succeeds with the text of the file, and only with that. -/
theorem read_eq_ok_iff {document : Document} :
    Document.read s path = .ok document ↔ ∃ place,
      s.FileAt path place document.content.toUTF8 ∧ document.path = path ∧
        document.checksum = Anchored.checksum document.content := by
  constructor
  · intro h
    rcases read_cases s path with ⟨content, ht, hread⟩ | ⟨_, hread⟩ | ⟨_, _, hread⟩ <;>
      rw [hread] at h
    · cases h
      obtain ⟨place, hp⟩ := Store.text_eq_ok_iff.mp ht
      exact ⟨place, hp, rfl, rfl⟩
    · cases h
    · cases h
  · rintro ⟨place, hp, h1, h2⟩
    rw [read_of_text (Store.text_eq_ok_iff.mpr ⟨place, hp⟩), ← h1, ← h2]

/-- A write succeeds if the file can hold the content; if not, only the first bytes arrive. -/
theorem write_of_fits {content : String} (h : s.FileAt path place bytes) (hf : s.Fits content) :
    Document.write s path content = (.ok (), s.put place (some (.file content.toUTF8))) := by
  unfold Document.write Store.write
  rw [h.target_eq]
  rcases hl : s.limit with _ | limit
  · rfl
  · have hle := hf limit hl
    simp only
    rw [if_neg (by omega)]

theorem write_of_not_fits {content : String} (h : s.FileAt path place bytes)
    (hf : ¬ s.Fits content) :
    Document.write s path content =
      (.error (.fault path .tooLarge), s.put place (some (.file (s.arriving content)))) := by
  unfold Store.Fits at hf
  push Not at hf
  obtain ⟨limit, hl, hlt⟩ := hf
  unfold Document.write Store.write Store.arriving
  rw [h.target_eq]
  simp only [hl]
  rw [if_pos (by omega)]

end Anchored.Document
