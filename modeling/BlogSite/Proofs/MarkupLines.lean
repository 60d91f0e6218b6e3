import BlogSite.Markup
import Mathlib.Data.List.DropRight
import Mathlib.Data.List.Forall2

/-!
What the lines of a body are, said without the tests that find it out. A text is marked as a heading,
an item or a blank line by its first characters; no text is marked in two ways, and one that is not
marked is a paragraph.
-/

namespace BlogSite.Markup

open BlogSite.Text

/-- The ways in which a text is marked as a line that is no paragraph. -/
inductive Line.Marked : List Char → Line → Prop
  | heading₃ (r : List Char) : Marked ('#' :: '#' :: '#' :: ' ' :: r) (.heading 3 r)
  | heading₂ (r : List Char) : Marked ('#' :: '#' :: ' ' :: r) (.heading 2 r)
  | heading₁ (r : List Char) : Marked ('#' :: ' ' :: r) (.heading 1 r)
  | number {ds : List Char} {c : Char} (r : List Char) (hne : ds ≠ [])
      (hds : ∀ d ∈ ds, isDigit d = true) (hc : isBlank c = true) :
      Marked (ds ++ '.' :: c :: r) (.item .ordered r)
  | bullet (r : List Char) : Marked ('-' :: ' ' :: r) (.item .unordered r)
  | blank {s : List Char} (hs : ∀ c ∈ s, isBlank c = true) : Marked s .blank

/-- What a text is as a line. -/
def Line.Spells (s : List Char) (l : Line) : Prop :=
  Line.Marked s l ∨ l = .paragraph s ∧ ∀ k, ¬ Line.Marked s k

namespace Line

theorem after?_eq_some_iff {start s r : List Char} : after? start s = some r ↔ s = start ++ r := by
  unfold after?
  split
  · rename_i h
    obtain ⟨t, rfl⟩ := List.isPrefixOf_iff_prefix.mp h
    simp [eq_comm]
  · rename_i h
    constructor
    · intro hr
      exact absurd hr (by simp)
    · rintro rfl
      exact absurd (List.isPrefixOf_iff_prefix.mpr (List.prefix_append start r)) h

theorem after?_eq_none {start s : List Char} (h : ∀ r, s ≠ start ++ r) : after? start s = none := by
  cases ha : after? start s with
  | none => rfl
  | some r => exact absurd (after?_eq_some_iff.mp ha) (h r)

theorem afterNumber?_eq_some_iff {s r : List Char} :
    afterNumber? s = some r ↔ ∃ ds c, ds ≠ [] ∧ (∀ d ∈ ds, isDigit d = true) ∧ isBlank c = true ∧
      s = ds ++ '.' :: c :: r := by
  have hdot : isDigit '.' = false := by decide
  constructor
  · intro h
    unfold afterNumber? at h
    split at h
    · rename_i d ds c rest htake hdrop
      split at h
      · rename_i hc
        obtain rfl : rest = r := Option.some.inj h
        refine ⟨d :: ds,c,by simp,?_,hc,?_⟩
        · rw [← htake]
          exact fun x hx => List.mem_takeWhile_imp hx
        · rw [← htake,← hdrop,List.takeWhile_append_dropWhile]
      · exact absurd h (by simp)
    · exact absurd h (by simp)
  · rintro ⟨ds,c,hne,hds,hc,rfl⟩
    have htake : (ds ++ '.' :: c :: r).takeWhile isDigit = ds := by
      rw [List.takeWhile_append_of_pos hds,List.takeWhile_cons_of_neg (by simp [hdot]),
        List.append_nil]
    have hdrop : (ds ++ '.' :: c :: r).dropWhile isDigit = '.' :: c :: r := by
      rw [List.dropWhile_append_of_pos hds,List.dropWhile_cons_of_neg (by simp [hdot])]
    obtain ⟨d,ds',rfl⟩ := List.exists_cons_of_ne_nil hne
    simp only [afterNumber?,htake,hdrop,hc,if_true]

theorem afterNumber?_eq_none {s : List Char}
    (h : ∀ ds c r, ds ≠ [] → (∀ d ∈ ds, isDigit d = true) → s ≠ ds ++ '.' :: c :: r) :
    afterNumber? s = none := by
  cases ha : afterNumber? s with
  | none => rfl
  | some r =>
    obtain ⟨ds,c,hne,hds,-,hs⟩ := afterNumber?_eq_some_iff.mp ha
    exact absurd hs (h ds c r hne hds)

/-- A number starts with a digit, so it starts with none of the signs that mark other lines. -/
theorem head_isDigit {ds t : List Char} {a : Char} {r : List Char} (hne : ds ≠ [])
    (hds : ∀ d ∈ ds, isDigit d = true) (h : ds ++ t = a :: r) : isDigit a = true := by
  obtain ⟨d,ds,rfl⟩ := List.exists_cons_of_ne_nil hne
  simp only [List.cons_append,List.cons.injEq] at h
  exact h.1 ▸ hds d (by simp)

theorem read_of_marked {s : List Char} {l : Line} (h : Marked s l) : read s = l := by
  have hsharp : isDigit '#' = false := by decide
  have hdash : isDigit '-' = false := by decide
  cases h with
  | heading₃ r => simp [read,after?]
  | heading₂ r => simp [read,after?]
  | heading₁ r => simp [read,after?]
  | @number ds c r hne hds hc =>
    have hstart : ∀ a start r', isDigit a = false → ds ++ '.' :: c :: r ≠ (a :: start) ++ r' := by
      intro a start r' ha he
      exact absurd (head_isDigit hne hds he) (by simp [ha])
    have hnumber : afterNumber? (ds ++ '.' :: c :: r) = some r :=
      afterNumber?_eq_some_iff.mpr ⟨ds,c,hne,hds,hc,rfl⟩
    have h₃ := after?_eq_none fun r' => hstart '#' ['#','#',' '] r' hsharp
    have h₂ := after?_eq_none fun r' => hstart '#' ['#',' '] r' hsharp
    have h₁ := after?_eq_none fun r' => hstart '#' [' '] r' hsharp
    simp [read,h₃,h₂,h₁,hnumber]
  | bullet r =>
    have hnumber : afterNumber? ('-' :: ' ' :: r) = none :=
      afterNumber?_eq_none fun ds c r' hne hds he => by
        exact absurd (head_isDigit hne hds he.symm) (by simp [hdash])
    simp [read,after?,hnumber]
  | blank hs =>
    have hstart : ∀ a start r, isBlank a = false → s ≠ (a :: start) ++ r := by
      rintro a start r ha rfl
      exact absurd (hs a (by simp)) (by simp [ha])
    have hnumber : afterNumber? s = none := by
      apply afterNumber?_eq_none
      rintro ds c r - - rfl
      exact absurd (hs '.' (by simp)) (by decide)
    have h₃ := after?_eq_none fun r => hstart '#' ['#','#',' '] r (by decide)
    have h₂ := after?_eq_none fun r => hstart '#' ['#',' '] r (by decide)
    have h₁ := after?_eq_none fun r => hstart '#' [' '] r (by decide)
    have h₀ := after?_eq_none fun r => hstart '-' [' '] r (by decide)
    have hall : allBlank s = true := by simpa [allBlank] using hs
    simp [read,h₃,h₂,h₁,h₀,hnumber,hall]

theorem read_of_unmarked {s : List Char} (h : ∀ k, ¬ Marked s k) : read s = .paragraph s := by
  unfold read
  split
  · rename_i r hr
    obtain rfl := after?_eq_some_iff.mp hr
    exact absurd (Marked.heading₃ r) (h _)
  split
  · rename_i r hr
    obtain rfl := after?_eq_some_iff.mp hr
    exact absurd (Marked.heading₂ r) (h _)
  split
  · rename_i r hr
    obtain rfl := after?_eq_some_iff.mp hr
    exact absurd (Marked.heading₁ r) (h _)
  split
  · rename_i r hr
    obtain ⟨ds,c,hne,hds,hc,rfl⟩ := afterNumber?_eq_some_iff.mp hr
    exact absurd (Marked.number r hne hds hc) (h _)
  split
  · rename_i r hr
    obtain rfl := after?_eq_some_iff.mp hr
    exact absurd (Marked.bullet r) (h _)
  split
  · rename_i hb
    exact absurd (Marked.blank (by simpa [allBlank] using hb)) (h _)
  · rfl

/-- Reading finds what a text is as a line, and a text is only one thing. -/
theorem spells_iff {s : List Char} {l : Line} : Spells s l ↔ read s = l := by
  constructor
  · rintro (h | ⟨rfl,h⟩)
    · exact read_of_marked h
    · exact read_of_unmarked h
  · rintro rfl
    by_cases h : ∃ k, Marked s k
    · obtain ⟨k,hk⟩ := h
      exact Or.inl (read_of_marked hk ▸ hk)
    · exact Or.inr ⟨read_of_unmarked (not_exists.mp h),not_exists.mp h⟩

theorem forall₂_spells_iff {ss : List (List Char)} {ls : List Line} :
    List.Forall₂ Spells ss ls ↔ ss.map read = ls := by
  induction ss generalizing ls with
  | nil => cases ls <;> simp
  | cons s ss ih => cases ls <;> simp [spells_iff,ih]

end Line

theorem splitOn_eq_listSplitOn {α : Type} [DecidableEq α] (sep : α) (s : List α) :
    splitOn sep s = s.splitOn sep := by
  induction s with
  | nil => rfl
  | cons c cs ih =>
    rw [List.splitOn_cons_eq_if_modifyHead,← ih,splitOn]
    by_cases hc : c = sep
    · simp [hc]
    · cases h : splitOn sep cs with
      | nil => exact absurd h (splitOn_ne_nil sep cs)
      | cons p ps => simp [hc]

/-- The texts of the lines of a body: what stands between its line feeds, without carriage returns
at the end. An empty body has no lines. -/
def sourceLines (body : String) : List (List Char) :=
  if body = "" then [] else (body.toList.splitOn '\n').map (List.rdropWhile (· == '\r'))

theorem sourceLines_eq {body : String} (h : body ≠ "") : sourceLines body = bodyLines body := by
  simp only [sourceLines,h,if_false,bodyLines,lines,splitOn_eq_listSplitOn]
  rfl

end BlogSite.Markup
