import Anchored.Language
import Anchored.Proofs.Disk.Files
import Anchored.Proofs.Text.Words

/-!
# Names of files

The language of a file is told by the last name of a path that leads to it. However the path gets
there, that name is the last one of the place at which the file is (`Store.FileAt.fileName_eq`). So
all paths to a file tell the same language, and a content is well-formed for all of them or for none.
-/

namespace Anchored

open Text

namespace Text

theorem splitWhere_eq_singleton_nil {p : Char → Bool} {t : List Char}
    (h : splitWhere p t = [[]]) : t = [] := by
  cases t with
  | nil => rfl
  | cons c t =>
    rw [splitWhere] at h
    have hne : splitWhere p t ≠ [] := splitWhere_eq_splitOnP p t ▸ List.splitOnP_ne_nil p t
    obtain ⟨piece, pieces, hpieces⟩ := List.exists_cons_of_ne_nil hne
    rw [hpieces] at h
    split_ifs at h <;> simp at h

end Text

namespace Language

/-- A name at the end of a path is its last name, unless it can only be that of a directory. -/
theorem fileName?_of_getLast? {path last : List Char}
    (h : (splitWhere (· == '/') path).getLast? = some last)
    (hlast : ¬ Store.IsDirectoryName (String.ofList last)) : fileName? path = some last := by
  have hempty : last ≠ [] := by
    rintro rfl
    exact hlast (Or.inl rfl)
  have hdot : last ≠ ['.'] := by
    rintro rfl
    exact hlast (Or.inr (Or.inl rfl))
  have hdots : last ≠ ['.', '.'] := by
    rintro rfl
    exact hlast (Or.inr (Or.inr rfl))
  obtain ⟨init, hinit⟩ := List.getLast?_eq_some_iff.mp h
  have hkept : ((splitWhere (· == '/') path).filter fun part =>
      !part.isEmpty && part != ['.']).getLast? = some last := by
    rw [hinit, List.filter_append, List.filter_cons_of_pos (by simp [hempty, hdot]),
      List.filter_nil, List.getLast?_concat]
  unfold fileName?
  rw [hkept]
  split
  · rename_i heq
    exact absurd (Option.some.inj heq) hdots
  · rfl

theorem ofPath_congr {path other : String}
    (h : fileName? path.toList = fileName? other.toList) : ofPath path = ofPath other := by
  unfold ofPath extension?
  rw [h]

end Language

namespace Store

variable {s t : Store} {path : String} {place : Place} {bytes : ByteArray}

/-- Where a last name that is not one of a directory leads to. -/
theorem exists_of_follow_concat {start : Place} {names : List String} {last : String}
    (h : s.follow start (names ++ [last]) = .ok place) (hlast : ¬ IsDirectoryName last) :
    ∃ mid, place = mid ++ [last] := by
  rw [follow_append] at h
  rcases hmid : s.follow start names with _ | mid <;> rw [hmid] at h
  · cases h
  change s.follow mid [last] = .ok place at h
  rw [follow_cons] at h
  rcases hnext : s.enter mid last with _ | next <;> rw [hnext] at h
  · cases h
  cases h
  obtain ⟨_, ⟨hd, _⟩ | ⟨hd, _⟩ | ⟨_, rfl⟩⟩ := enter_cases hnext
  · exact absurd hd hlast
  · exact absurd hd hlast
  · exact ⟨mid, rfl⟩

/-- The last name on a path is its last piece. The path itself may not be empty. -/
theorem getLast?_steps (h : path ≠ "") :
    (steps path).2.getLast? =
      ((splitWhere (· == '/') path.toList).getLast?).map String.ofList := by
  rw [← List.getLast?_map]
  unfold steps
  split
  · rename_i names heq
    cases names with
    | nil =>
      have hpieces : splitWhere (· == '/') path.toList = [[]] := by
        simpa [List.map_eq_singleton_iff] using heq
      exact absurd (String.toList_eq_nil_iff.mp (splitWhere_eq_singleton_nil hpieces)) h
    | cons name names => rw [heq, List.getLast?_cons_cons]
  · rfl

/-- A path that leads to a file ends with the last name of the file's place. -/
theorem FileAt.fileName_eq (h : s.FileAt path place bytes) :
    Language.fileName? path.toList = place.getLast?.map String.toList := by
  have hplace := h.place_eq
  unfold Store.place at hplace
  split at hplace
  · cases hplace
  rename_i hspelling
  change s.follow (steps path).1 (steps path).2 = .ok place at hplace
  have hne : path ≠ "" := by
    rintro rfl
    cases hspelling
  have hlast := getLast?_steps hne
  rcases hpieces : (splitWhere (· == '/') path.toList).getLast? with _ | last
  · rw [List.getLast?_eq_none_iff, splitWhere_eq_splitOnP] at hpieces
    exact absurd hpieces (List.splitOnP_ne_nil _ _)
  rw [hpieces, Option.map_some] at hlast
  obtain ⟨names, hnames⟩ := List.getLast?_eq_some_iff.mp hlast
  rw [hnames] at hplace
  have hname := last_of_follow (steps_start path) hplace h.node_eq
  rw [Language.fileName?_of_getLast? hpieces hname]
  obtain ⟨mid, rfl⟩ := exists_of_follow_concat hplace hname
  rw [List.getLast?_concat, Option.map_some, String.toList_ofList]

/-- All paths that lead to a file tell the same language. -/
theorem FileAt.language_eq {other : String} {bytes' : ByteArray}
    (h : s.FileAt path place bytes) (h' : t.FileAt other place bytes') :
    Language.ofPath path = Language.ofPath other :=
  Language.ofPath_congr (h.fileName_eq.trans h'.fileName_eq.symm)

end Store

end Anchored
