import BlogSite.Path
import BlogSite.Post
import Mathlib.Data.List.Perm.Basic

/-!
The two orders of posts. Names are sorted by code points, which one list of names can be in one way
only. Sorting by date puts newer things first and keeps, among things of one date, any order that
they had before.
-/

namespace BlogSite

/-- A merge sort leaves the order of ties as it was. -/
theorem pairwise_mergeSort_of_pairwise {α : Type} {le : α → α → Bool} {R : α → α → Prop}
    (htrans : ∀ a b c, le a b → le b c → le a c) (htotal : ∀ a b, le a b || le b a) {xs : List α}
    (h : xs.Pairwise R) :
    (xs.mergeSort le).Pairwise fun a b => le a b = true ∧ (le b a = true → R a b) := by
  induction xs with
  | nil => simp
  | cons x xs ih =>
    obtain ⟨hx,hxs⟩ := List.pairwise_cons.mp h
    obtain ⟨before,after,hcons,hrest,hbefore⟩ := List.mergeSort_cons htrans htotal x xs
    have hsorted := List.pairwise_mergeSort htrans htotal (x :: xs)
    have hpairs := ih hxs
    have hmem : ∀ y ∈ after, y ∈ xs := by
      intro y hy
      have hy' : y ∈ xs.mergeSort le := by simp [hrest,hy]
      exact List.mem_mergeSort.mp hy'
    rw [hcons] at hsorted ⊢
    rw [hrest] at hpairs
    obtain ⟨hb,ha,hba⟩ := List.pairwise_append.mp hpairs
    obtain ⟨-,hxa,hbx⟩ := List.pairwise_append.mp hsorted
    refine List.pairwise_append.mpr ⟨hb,List.pairwise_cons.mpr ⟨?_,ha⟩,?_⟩
    · intro y hy
      exact ⟨(List.pairwise_cons.mp hxa).1 y hy,fun _ => hx y (hmem y hy)⟩
    · intro y hy z hz
      rcases List.mem_cons.mp hz with rfl | hz
      · refine ⟨hbx y hy z (by simp),?_⟩
        intro hzy
        exact absurd hzy (by simpa using hbefore y hy)
      · exact hba y hy z hz

theorem pairwise_newestFirst {α : Type} (date : α → String) {R : α → α → Prop} {xs : List α}
    (h : xs.Pairwise R) :
    (newestFirst date xs).Pairwise fun a b => date b < date a ∨ date b = date a ∧ R a b := by
  have htrans : ∀ a b c : α, decide (date b ≤ date a) → decide (date c ≤ date b) →
      decide (date c ≤ date a) := by
    intro a b c hab hbc
    simp only [decide_eq_true_eq] at hab hbc ⊢
    exact String.le_trans hbc hab
  have htotal : ∀ a b : α, decide (date b ≤ date a) || decide (date a ≤ date b) := by
    intro a b
    simpa using String.le_total (date b) (date a)
  apply (pairwise_mergeSort_of_pairwise htrans htotal h).imp
  rintro a b ⟨hle,htie⟩
  simp only [decide_eq_true_eq] at hle htie
  by_cases hge : date a ≤ date b
  · exact Or.inr ⟨String.le_antisymm hle hge,htie hge⟩
  · exact Or.inl (String.not_le.mp hge)

/-- No date is newer than the one that stands first. -/
theorem pairwise_date_newestFirst {α : Type} (date : α → String) (xs : List α) :
    (newestFirst date xs).Pairwise fun a b => date b ≤ date a := by
  have hany : xs.Pairwise fun _ _ => True := List.pairwise_of_forall fun _ _ => trivial
  refine (pairwise_newestFirst date hany).imp ?_
  rintro a b (hlt | ⟨heq,-⟩)
  · exact Std.le_of_lt hlt
  · exact heq ▸ String.le_refl _

theorem date_le_head {α : Type} (date : α → String) {xs : List α}
    (h : xs.Pairwise fun a b => date b ≤ date a) {a : α} (ha : a ∈ xs) :
    ∃ d, xs.head?.map date = some d ∧ date a ≤ d := by
  cases xs with
  | nil => exact absurd ha List.not_mem_nil
  | cons x xs =>
    refine ⟨date x,rfl,?_⟩
    rcases List.mem_cons.mp ha with rfl | hmem
    · exact String.le_refl _
    · exact (List.pairwise_cons.mp h).1 a hmem

theorem newestFirst_perm {α : Type} (date : α → String) (xs : List α) :
    (newestFirst date xs).Perm xs :=
  List.mergeSort_perm xs _

theorem map_newestFirst {α β : Type} (date : β → String) (f : α → β) (xs : List α) :
    (newestFirst (fun a => date (f a)) xs).map f = newestFirst date (xs.map f) :=
  List.map_mergeSort fun _ _ _ _ => rfl

namespace Path

theorem pairwise_sortedNames_le (ns : List String) : (sortedNames ns).Pairwise (· ≤ ·) := by
  have htrans : ∀ a b c : String, (!decide (b < a)) → (!decide (c < b)) → (!decide (c < a)) := by
    intro a b c hab hbc
    simp only [Bool.not_eq_true',decide_eq_false_iff_not,String.not_lt] at hab hbc ⊢
    exact String.le_trans hab hbc
  have htotal : ∀ a b : String, (!decide (b < a)) || (!decide (a < b)) := by
    intro a b
    simp only [Bool.or_eq_true,Bool.not_eq_true',decide_eq_false_iff_not,String.not_lt]
    exact String.le_total a b
  apply (List.pairwise_mergeSort htrans htotal ns).imp
  intro a b hab
  simp only [Bool.not_eq_true',decide_eq_false_iff_not,String.not_lt] at hab
  exact hab

theorem sortedNames_perm (ns : List String) : (sortedNames ns).Perm ns := List.mergeSort_perm ns _

theorem pairwise_sortedNames {ns : List String} (h : ns.Nodup) :
    (sortedNames ns).Pairwise (· < ·) := by
  have hnodup : (sortedNames ns).Nodup := (sortedNames_perm ns).nodup_iff.mpr h
  apply ((pairwise_sortedNames_le ns).and hnodup).imp
  rintro a b ⟨hle,hne⟩
  apply String.not_le.mp
  intro hge
  exact hne (String.le_antisymm hle hge)

/-- The sorted names do not depend on the order in which they were listed. -/
theorem sortedNames_eq_of_perm {ns ns' : List String} (h : ns.Perm ns') :
    sortedNames ns = sortedNames ns' := by
  refine List.Perm.eq_of_pairwise ?_ (pairwise_sortedNames_le ns) (pairwise_sortedNames_le ns') ?_
  · intro a b _ _ hab hba
    exact String.le_antisymm hab hba
  · exact ((sortedNames_perm ns).trans h).trans (sortedNames_perm ns').symm

end Path

end BlogSite
