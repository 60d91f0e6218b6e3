import Mathlib.Data.List.Basic

/-!
Texts as whole lines: each line keeps the line feed that ends it, so the lines of a text in a row are
the text. Only the last line can be without one.
-/

namespace BlogSite.Text

/-- The lines of a text with their line feeds. -/
def wholeLines : List Char → List (List Char)
  | [] => []
  | c :: cs =>
    if c = '\n' then [c] :: wholeLines cs
    else match wholeLines cs with
      | [] => [[c]]
      | l :: ls => (c :: l) :: ls

/-- A text in which every line has its line feed. -/
def IsWhole (s : List Char) : Prop := s = [] ∨ s.getLast? = some '\n'

theorem wholeLines_cons_of_ne {c : Char} (hc : c ≠ '\n') {cs l : List Char} {ls : List (List Char)}
    (h : wholeLines cs = l :: ls) : wholeLines (c :: cs) = (c :: l) :: ls := by
  rw [wholeLines,if_neg hc,h]

theorem wholeLines_line {l : List Char} (hl : '\n' ∉ l) (rest : List Char) :
    wholeLines (l ++ '\n' :: rest) = (l ++ ['\n']) :: wholeLines rest := by
  induction l with
  | nil => simp [wholeLines]
  | cons c l ih =>
    simp only [List.mem_cons,not_or] at hl
    exact wholeLines_cons_of_ne (Ne.symm hl.1) (ih hl.2)

theorem wholeLines_last {l : List Char} (hne : l ≠ []) (hl : '\n' ∉ l) : wholeLines l = [l] := by
  induction l with
  | nil => exact absurd rfl hne
  | cons c l ih =>
    simp only [List.mem_cons,not_or] at hl
    by_cases hn : l = []
    · subst hn
      simp [wholeLines,Ne.symm hl.1]
    · exact wholeLines_cons_of_ne (Ne.symm hl.1) (ih hn hl.2)

/-- The first line feed of a text is in one place only. -/
theorem line_inj {l l' s s' : List Char} (hl : '\n' ∉ l) (hl' : '\n' ∉ l')
    (h : l ++ '\n' :: s = l' ++ '\n' :: s') : l = l' ∧ s = s' := by
  have hlines := congrArg wholeLines h
  rw [wholeLines_line hl,wholeLines_line hl',List.cons.injEq] at hlines
  obtain rfl := List.append_cancel_right hlines.1
  exact ⟨rfl,by simpa using h⟩

/-- Induction along the lines of a text. -/
theorem line_induction {P : List Char → Prop} (nil : P [])
    (last : ∀ l, l ≠ [] → '\n' ∉ l → P l)
    (line : ∀ l rest, '\n' ∉ l → P rest → P (l ++ '\n' :: rest)) (s : List Char) : P s := by
  induction hn : s.length using Nat.strongRecOn generalizing s with
  | ind n ih =>
    by_cases hs : '\n' ∈ s
    · obtain ⟨l,rest,rfl,hl⟩ := List.eq_append_cons_of_mem hs
      simp only [List.length_append,List.length_cons] at hn
      exact line l rest hl (ih rest.length (by omega) rest rfl)
    · by_cases he : s = []
      · exact he ▸ nil
      · exact last s he hs

theorem flatten_wholeLines (s : List Char) : (wholeLines s).flatten = s := by
  induction s using line_induction with
  | nil => rfl
  | last l hne hl => simp [wholeLines_last hne hl]
  | line l rest hl ih => simp [wholeLines_line hl,ih]

theorem isWhole_of_isWhole_line {l rest : List Char} (h : IsWhole (l ++ '\n' :: rest)) :
    IsWhole rest := by
  by_cases hr : rest = []
  · exact Or.inl hr
  · right
    simpa [IsWhole,List.getLast?_append,List.getLast?_cons,List.getLast?_eq_some_getLast hr] using h

/-- After whole lines a text goes on with a line of its own. -/
theorem wholeLines_append {s : List Char} (hs : IsWhole s) (t : List Char) :
    wholeLines (s ++ t) = wholeLines s ++ wholeLines t := by
  induction s using line_induction with
  | nil => rfl
  | last l hne hl =>
    rcases hs with hs | hs
    · exact absurd hs hne
    · exact absurd (List.mem_of_getLast? hs) hl
  | line l rest hl ih =>
    simp [wholeLines_line hl,ih (isWhole_of_isWhole_line hs)]

/-- Lines that others follow are whole, and they are the lines of the text that they make. -/
theorem wholeLines_flatten_left {s : List Char} {as bs : List (List Char)} (hb : bs ≠ [])
    (h : wholeLines s = as ++ bs) : IsWhole as.flatten ∧ wholeLines as.flatten = as := by
  induction s using line_induction generalizing as with
  | nil =>
    have hnil := List.append_eq_nil_iff.mp h.symm
    exact absurd hnil.2 hb
  | last l hne hl =>
    cases as with
    | nil => exact ⟨Or.inl rfl,rfl⟩
    | cons a as =>
      simp only [wholeLines_last hne hl,List.cons_append,List.cons.injEq] at h
      exact absurd (List.append_eq_nil_iff.mp h.2.symm).2 hb
  | line l rest hl ih =>
    cases as with
    | nil => exact ⟨Or.inl rfl,rfl⟩
    | cons a as =>
      simp only [wholeLines_line hl,List.cons_append,List.cons.injEq] at h
      obtain ⟨rfl,h⟩ := h
      obtain ⟨hw,hlines⟩ := ih h
      constructor
      · right
        rcases hw with hw | hw
        · simp [hw]
        · simp [List.getLast?_append,List.getLast?_cons,hw]
      · simp [wholeLines_line hl,hlines]

end BlogSite.Text
