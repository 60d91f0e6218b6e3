import BlogSite.Text.Lines

/-!
Texts in pieces. Cutting a text at a separator undoes putting the separator between pieces that do
not hold it.
-/

namespace BlogSite

namespace Text

variable {α : Type} [DecidableEq α] {sep : α}

theorem splitOn_append_cons (s t : List α) :
    splitOn sep (s ++ sep :: t) = splitOn sep s ++ splitOn sep t := by
  induction s with
  | nil => simp [splitOn]
  | cons c s ih =>
    by_cases hc : c = sep
    · simp [splitOn,hc,ih]
    · obtain ⟨p,ps,hs⟩ := List.exists_cons_of_ne_nil (splitOn_ne_nil sep s)
      simp [splitOn,hc,ih,hs]

theorem splitOn_of_notMem {s : List α} (h : sep ∉ s) : splitOn sep s = [s] := by
  induction s with
  | nil => rfl
  | cons c s ih =>
    simp only [List.mem_cons,not_or] at h
    simp [splitOn,Ne.symm h.1,ih h.2]

/-- A list up to the first place of a separator, and from there on. -/
theorem takeWhile_ne {s : List α} (h : sep ∉ s) (t : List α) :
    (s ++ sep :: t).takeWhile (· ≠ sep) = s := by
  rw [List.takeWhile_append_of_pos (by simpa using fun x hx => ne_of_mem_of_not_mem hx h)]
  simp

theorem dropWhile_ne {s : List α} (h : sep ∉ s) (t : List α) :
    (s ++ sep :: t).dropWhile (· ≠ sep) = sep :: t := by
  rw [List.dropWhile_append_of_pos (by simpa using fun x hx => ne_of_mem_of_not_mem hx h)]
  simp

theorem notMem_of_mem_splitOn {s p : List α} (h : p ∈ splitOn sep s) : sep ∉ p := by
  induction s generalizing p with
  | nil =>
    obtain rfl : p = [] := by simpa [splitOn] using h
    simp
  | cons c s ih =>
    obtain ⟨q,qs,hs⟩ := List.exists_cons_of_ne_nil (splitOn_ne_nil sep s)
    rw [hs] at ih
    by_cases hc : c = sep
    · simp only [splitOn,hc,if_true,hs,List.mem_cons] at h
      rcases h with rfl | h
      · simp
      · exact ih (by simpa using h)
    · simp only [splitOn,hc,if_false,hs,List.mem_cons] at h
      rcases h with rfl | h
      · simpa [Ne.symm hc] using ih (p := q) (by simp)
      · exact ih (by simp [h])

/-- What is no separator stands in one of the pieces. -/
theorem mem_iff_exists_splitOn {c : α} (hc : c ≠ sep) (s : List α) :
    c ∈ s ↔ ∃ p ∈ splitOn sep s, c ∈ p := by
  induction s with
  | nil => simp [splitOn]
  | cons x s ih =>
    obtain ⟨q,qs,hs⟩ := List.exists_cons_of_ne_nil (splitOn_ne_nil sep s)
    by_cases hx : x = sep
    · simp [splitOn,hx,hc,ih]
    · rw [hs] at ih
      simp [splitOn,hx,hs,ih,or_assoc]

/-- The pieces of a text between separators. -/
def parts (sep : Char) (s : String) : List String := (splitOn sep s.toList).map String.ofList

theorem parts_append {sep : Char} (s t : String) :
    parts sep (s ++ String.ofList [sep] ++ t) = parts sep s ++ parts sep t := by
  simp [parts,splitOn_append_cons]

theorem parts_of_notMem {sep : Char} {s : String} (h : sep ∉ s.toList) : parts sep s = [s] := by
  simp [parts,splitOn_of_notMem h]

theorem notMem_of_mem_parts {sep : Char} {s p : String} (h : p ∈ parts sep s) : sep ∉ p.toList := by
  obtain ⟨q,hq,rfl⟩ := List.mem_map.mp h
  simpa using notMem_of_mem_splitOn hq

/-- Texts without the separator are the pieces of what they make with separators between them. -/
theorem parts_intercalate {sep : Char} {xs : List String} (hne : xs ≠ [])
    (h : ∀ x ∈ xs, sep ∉ x.toList) : parts sep ((String.ofList [sep]).intercalate xs) = xs := by
  induction xs with
  | nil => exact absurd rfl hne
  | cons x xs ih =>
    have hx := parts_of_notMem (h x (by simp))
    cases xs with
    | nil => simpa using hx
    | cons y ys =>
      have hrest := ih (by simp) fun z hz => h z (by simp [hz])
      rw [String.intercalate_cons_cons,parts_append,hx,hrest]
      rfl

end Text

end BlogSite
