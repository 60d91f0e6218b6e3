import BlogSite.Text.Lines

/-!
Marks in a text. A mark that begins with `c` and `d` begins nowhere in a text where no `c` has a `d` behind it,
so the first place of the mark after such a text is at its end.
-/

namespace BlogSite.Text

/-- Whether no `c` in a text has a `d` behind it, and none stands at the end. -/
def parted (c d : Char) : List Char → Bool
  | [] => true
  | x :: s => (x ≠ c || s.head?.any (· ≠ d)) && parted c d s

variable {c d x : Char} {s t m : List Char}

theorem parted_of_notMem (h : c ∉ s) : parted c d s := by
  induction s with
  | nil => rfl
  | cons x s ih =>
    simp only [List.mem_cons,not_or] at h
    simp [parted,Ne.symm h.1,ih h.2]

theorem parted_append (hs : parted c d s) (ht : parted c d t) : parted c d (s ++ t) := by
  induction s with
  | nil => exact ht
  | cons x s ih =>
    simp only [parted,Bool.and_eq_true] at hs
    rw [List.cons_append,parted,ih hs.2,Bool.and_true]
    cases s with
    | nil =>
      have hx : x ≠ c := by simpa using hs.1
      simp [hx]
    | cons y s => exact hs.1

/-- A mark does not begin in a text that keeps its first two characters apart. -/
theorem not_prefix_of_parted (hmark : [c,d] <+: m) (h : parted c d (x :: s)) : ¬ m <+: x :: s ++ t := by
  intro hstart
  obtain ⟨u,hu⟩ := hmark.trans hstart
  simp only [parted,Bool.and_eq_true,Bool.or_eq_true] at h
  obtain ⟨hx,hu⟩ := List.cons.inj hu
  cases s with
  | nil => simp [← hx] at h
  | cons y s =>
    obtain ⟨hy,-⟩ := List.cons.inj hu
    simp [← hx,← hy] at h

/-- What stands before the first place of a mark, and what follows the mark. -/
def cutAt? (mark : List Char) : List Char → Option (List Char × List Char)
  | [] => none
  | x :: s =>
    if mark.isPrefixOf (x :: s) then some ([],(x :: s).drop mark.length)
    else (cutAt? mark s).map fun p => (x :: p.1,p.2)

/-- Behind a text that keeps its first two characters apart, a mark is found at once. -/
theorem cutAt?_of_parted (hmark : [c,d] <+: m) (h : parted c d s) : cutAt? m (s ++ (m ++ t)) = some (s,t) := by
  induction s with
  | nil =>
    obtain ⟨u,rfl⟩ := hmark
    have hfound : ([c,d] ++ u).isPrefixOf ([c,d] ++ u ++ t) := by simp
    have hrest : ([c,d] ++ u ++ t).drop ([c,d] ++ u).length = t := List.drop_left
    exact (if_pos hfound).trans (congrArg (fun r => some ([],r)) hrest)
  | cons x s ih =>
    have hfound : ¬ m.isPrefixOf (x :: (s ++ (m ++ t))) := by
      rw [List.isPrefixOf_iff_prefix]
      exact not_prefix_of_parted hmark h
    rw [List.cons_append,cutAt?,if_neg hfound,ih (Bool.and_eq_true_iff.mp h).2]
    rfl

end BlogSite.Text
