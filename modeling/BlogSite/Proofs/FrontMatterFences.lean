import BlogSite.FrontMatter
import BlogSite.Proofs.WholeLines
import Mathlib.Data.List.TakeWhile

/-!
Where a text is cut into front matter and body, said line by line. The first line has to be a fence
with a line break, the block goes up to the first later fence, and the body is all that follows. The
search from character to character finds this cut and no other.
-/

namespace BlogSite.FrontMatter

open BlogSite.Text

/-- Three hyphens, spaces and tabs, and one of some endings. -/
def IsFence (endings : List (List Char)) (l : List Char) : Prop :=
  ∃ blanks e, (∀ c ∈ blanks, c = ' ' ∨ c = '\t') ∧ e ∈ endings ∧
    l = '-' :: '-' :: '-' :: (blanks ++ e)

def breaks : List (List Char) := [['\n'],['\r','\n']]

/-- A line that can open front matter. -/
def IsOpening (l : List Char) : Prop := IsFence breaks l

/-- A line that closes front matter. As the last line it needs no break. -/
def IsClosing (l : List Char) : Prop := IsFence ([] :: breaks) l

/-- A text cut into lines before, at and after the fences of its front matter. -/
structure Frame where
  opening : List Char
  block : List (List Char)
  closing : List Char
  body : List (List Char)

/-- The frame of a text: its first line opens the front matter, and the first later line that can
close it does. -/
structure Frame.Of (s : List Char) (f : Frame) : Prop where
  lines : wholeLines s = f.opening :: (f.block ++ f.closing :: f.body)
  opening : IsOpening f.opening
  closing : IsClosing f.closing
  first : ∀ l ∈ f.block, ¬ IsClosing l

theorem mem_break {e : List Char} : e ∈ breaks ↔ e = ['\n'] ∨ e = ['\r','\n'] := by
  simp [breaks]

/-- No line feed stands before the end of a fence. -/
theorem break_notMem {blanks : List Char} (h : ∀ c ∈ blanks, c = ' ' ∨ c = '\t') :
    '\n' ∉ '-' :: '-' :: '-' :: blanks := by
  simp only [List.mem_cons,not_or]
  refine ⟨by decide,by decide,by decide,?_⟩
  intro hm
  rcases h _ hm with h | h <;> exact absurd h (by decide)

theorem isBlankInLine_iff {c : Char} : isBlankInLine c = true ↔ c = ' ' ∨ c = '\t' := by
  simp [isBlankInLine]

theorem afterBreak?_eq_some_iff {s t : List Char} :
    afterBreak? s = some t ↔ ∃ e ∈ breaks, s = e ++ t := by
  constructor
  · intro h
    unfold afterBreak? at h
    split at h
    · obtain rfl := Option.some.inj h
      exact ⟨['\n'],by simp [breaks],rfl⟩
    · obtain rfl := Option.some.inj h
      exact ⟨['\r','\n'],by simp [breaks],rfl⟩
    · exact absurd h (by simp)
  · rintro ⟨e,he,rfl⟩
    rcases mem_break.mp he with rfl | rfl <;> rfl

/-- The blanks of a fence end where a character follows that is none of them. -/
theorem afterFence?_append {blanks r : List Char} (h : ∀ c ∈ blanks, c = ' ' ∨ c = '\t')
    (hr : ∀ c ∈ r.head?, isBlankInLine c = false) :
    afterFence? ('-' :: '-' :: '-' :: (blanks ++ r)) = some r := by
  have hdrop : (blanks ++ r).dropWhile isBlankInLine = r := by
    rw [List.dropWhile_append_of_pos fun c hc => isBlankInLine_iff.mpr (h c hc)]
    cases r with
    | nil => rfl
    | cons c r => exact List.dropWhile_cons_of_neg (by simp [hr c rfl])
  rw [afterFence?,hdrop]

theorem exists_of_afterFence? {s r : List Char} (h : afterFence? s = some r) :
    ∃ blanks, (∀ c ∈ blanks, c = ' ' ∨ c = '\t') ∧ s = '-' :: '-' :: '-' :: (blanks ++ r) := by
  unfold afterFence? at h
  split at h
  · rename_i t
    obtain rfl := Option.some.inj h
    refine ⟨t.takeWhile isBlankInLine,?_,by rw [List.takeWhile_append_dropWhile]⟩
    exact fun c hc => isBlankInLine_iff.mp (List.mem_takeWhile_imp hc)
  · exact absurd h (by simp)

theorem afterOpening?_eq_some_iff {s t : List Char} :
    afterOpening? s = some t ↔ ∃ l, IsOpening l ∧ s = l ++ t := by
  constructor
  · intro h
    obtain ⟨r,hr,ht⟩ := Option.bind_eq_some_iff.mp h
    obtain ⟨blanks,hb,rfl⟩ := exists_of_afterFence? hr
    obtain ⟨e,he,rfl⟩ := afterBreak?_eq_some_iff.mp ht
    exact ⟨'-' :: '-' :: '-' :: (blanks ++ e),⟨blanks,e,hb,he,rfl⟩,by simp⟩
  · rintro ⟨l,⟨blanks,e,hb,he,rfl⟩,rfl⟩
    have hr : ∀ c ∈ (e ++ t).head?, isBlankInLine c = false := by
      rcases mem_break.mp he with rfl | rfl <;> simp [isBlankInLine]
    have hf := afterFence?_append hb hr
    have hbreak : afterBreak? (e ++ t) = some t := afterBreak?_eq_some_iff.mpr ⟨e,he,rfl⟩
    simpa [afterOpening?,hbreak] using congrArg (Option.bind · afterBreak?) hf

theorem afterClosing?_eq_some_iff {s t : List Char} :
    afterClosing? s = some t ↔ (∃ l, IsOpening l ∧ s = l ++ t) ∨ IsClosing s ∧ t = [] := by
  constructor
  · intro h
    obtain ⟨r,hr,ht⟩ := Option.bind_eq_some_iff.mp h
    obtain ⟨blanks,hb,rfl⟩ := exists_of_afterFence? hr
    split at ht
    · rename_i hnil
      exact Or.inr ⟨⟨blanks,r,hb,by simp [hnil],rfl⟩,(Option.some.inj ht).symm⟩
    · obtain ⟨e,he,rfl⟩ := afterBreak?_eq_some_iff.mp ht
      exact Or.inl ⟨'-' :: '-' :: '-' :: (blanks ++ e),⟨blanks,e,hb,he,rfl⟩,by simp⟩
  · have hopen : ∀ l, IsOpening l → afterClosing? (l ++ t) = some t := by
      intro l hl
      have hopening : afterOpening? (l ++ t) = some t := afterOpening?_eq_some_iff.mpr ⟨l,hl,rfl⟩
      obtain ⟨r,hr,ht⟩ := Option.bind_eq_some_iff.mp hopening
      have hne : r ≠ [] := by
        rintro rfl
        exact absurd ht (by simp [afterBreak?])
      simp [afterClosing?,hr,hne,ht]
    rintro (⟨l,hl,rfl⟩ | ⟨⟨blanks,e,hb,he,rfl⟩,rfl⟩)
    · exact hopen l hl
    · rcases List.mem_cons.mp he with rfl | he
      · rw [afterClosing?,afterFence?_append hb (by simp)]
        rfl
      · have h := hopen _ ⟨blanks,e,hb,he,rfl⟩
        rwa [List.append_nil] at h

/-- A fence with a break ends a line of its text. -/
theorem isOpening_append_iff {l t rest : List Char} (hl : '\n' ∉ l) :
    (∃ k, IsOpening k ∧ l ++ '\n' :: rest = k ++ t) ↔ IsOpening (l ++ ['\n']) ∧ t = rest := by
  constructor
  · rintro ⟨k,⟨blanks,e,hb,he,rfl⟩,h⟩
    rcases mem_break.mp he with rfl | rfl
    · have hk : l ++ '\n' :: rest = ('-' :: '-' :: '-' :: blanks) ++ '\n' :: t := by simpa using h
      obtain ⟨rfl,rfl⟩ := line_inj hl (break_notMem hb) hk
      exact ⟨⟨blanks,['\n'],hb,by simp [breaks],by simp⟩,rfl⟩
    · have hk : l ++ '\n' :: rest = ('-' :: '-' :: '-' :: (blanks ++ ['\r'])) ++ '\n' :: t := by
        simpa using h
      have hn : '\n' ∉ '-' :: '-' :: '-' :: (blanks ++ ['\r']) := by
        simpa using break_notMem hb
      obtain ⟨rfl,rfl⟩ := line_inj hl hn hk
      exact ⟨⟨blanks,['\r','\n'],hb,by simp [breaks],by simp⟩,rfl⟩
  · rintro ⟨h,rfl⟩
    exact ⟨l ++ ['\n'],h,by simp⟩

/-- A line with a break closes front matter if it could open it. -/
theorem isClosing_line_iff {l : List Char} : IsClosing (l ++ ['\n']) ↔ IsOpening (l ++ ['\n']) := by
  constructor
  · rintro ⟨blanks,e,hb,he,h⟩
    rcases List.mem_cons.mp he with rfl | he
    · have hn := break_notMem hb
      rw [List.append_nil] at h
      exact absurd (h ▸ by simp) hn
    · exact ⟨blanks,e,hb,he,h⟩
  · rintro ⟨blanks,e,hb,he,h⟩
    exact ⟨blanks,e,hb,List.mem_cons_of_mem _ he,h⟩

theorem afterClosing?_line {l : List Char} (hl : '\n' ∉ l) (rest : List Char) (t : List Char) :
    afterClosing? (l ++ '\n' :: rest) = some t ↔ IsClosing (l ++ ['\n']) ∧ t = rest := by
  rw [afterClosing?_eq_some_iff,isOpening_append_iff hl,isClosing_line_iff]
  constructor
  · rintro (h | ⟨⟨blanks,e,hb,he,h⟩,rfl⟩)
    · exact h
    · rcases List.mem_cons.mp he with rfl | he
      · rw [List.append_nil] at h
        exact absurd (h ▸ by simp) (break_notMem hb)
      · exact (isOpening_append_iff hl).mp ⟨_,⟨blanks,e,hb,he,h⟩,by simp⟩
  · exact Or.inl

theorem isOpening_mem_break {l : List Char} (h : IsOpening l) : '\n' ∈ l := by
  obtain ⟨blanks,e,-,he,rfl⟩ := h
  rcases mem_break.mp he with rfl | rfl <;> simp

theorem afterClosing?_last {l : List Char} (hl : '\n' ∉ l) (t : List Char) :
    afterClosing? l = some t ↔ IsClosing l ∧ t = [] := by
  rw [afterClosing?_eq_some_iff]
  constructor
  · rintro (⟨k,hk,rfl⟩ | h)
    · exact absurd (List.mem_append_left t (isOpening_mem_break hk)) hl
    · exact h
  · exact Or.inr

/-! ### The search for the closing line -/

theorem seek_true {s : List Char} (h : s ≠ []) :
    seek true s = match afterClosing? s with
      | some body => some ([],body)
      | none => seek false s := by
  cases s with
  | nil => exact absurd rfl h
  | cons c cs => cases h : afterClosing? (c :: cs) <;> simp [seek,h]

theorem seek_false_line {l : List Char} (hl : '\n' ∉ l) (rest : List Char) :
    seek false (l ++ '\n' :: rest) =
      (seek true rest).map fun p => (l ++ '\n' :: p.1,p.2) := by
  induction l with
  | nil => simp [seek]
  | cons c l ih =>
    simp only [List.mem_cons,not_or] at hl
    have hc : decide (c = '\n') = false := decide_eq_false (Ne.symm hl.1)
    rw [List.cons_append,seek,hc,ih hl.2]
    simp [Function.comp_def]

theorem seek_false_last {l : List Char} (hl : '\n' ∉ l) : seek false l = none := by
  induction l with
  | nil => rfl
  | cons c l ih =>
    simp only [List.mem_cons,not_or] at hl
    have hc : decide (c = '\n') = false := decide_eq_false (Ne.symm hl.1)
    rw [seek,hc,ih hl.2]
    rfl

/-- Lines cut at the first that can close front matter, with the texts before and after it. -/
def CutAt (ls : List (List Char)) (block body : List Char) : Prop :=
  ∃ before closing after, ls = before ++ closing :: after ∧ IsClosing closing ∧
    (∀ l ∈ before, ¬ IsClosing l) ∧ before.flatten = block ∧ after.flatten = body

theorem not_cutAt_nil (block body : List Char) : ¬ CutAt [] block body := by
  rintro ⟨before,closing,after,h,-⟩
  simp at h

theorem cutAt_cons_of_isClosing {l : List Char} (hl : IsClosing l) (ls : List (List Char))
    {block body : List Char} : CutAt (l :: ls) block body ↔ block = [] ∧ body = ls.flatten := by
  constructor
  · rintro ⟨before,closing,after,h,-,hb,rfl,rfl⟩
    cases before with
    | nil =>
      simp only [List.nil_append,List.cons.injEq] at h
      simp [h.2]
    | cons k before =>
      simp only [List.cons_append,List.cons.injEq] at h
      exact absurd hl (h.1 ▸ hb k (by simp))
  · rintro ⟨rfl,rfl⟩
    exact ⟨[],l,ls,rfl,hl,by simp,rfl,rfl⟩

theorem cutAt_cons_of_not_isClosing {l : List Char} (hl : ¬ IsClosing l) (ls : List (List Char))
    {block body : List Char} :
    CutAt (l :: ls) block body ↔ ∃ b, CutAt ls b body ∧ l ++ b = block := by
  constructor
  · rintro ⟨before,closing,after,h,hclosing,hb,rfl,rfl⟩
    cases before with
    | nil =>
      simp only [List.nil_append,List.cons.injEq] at h
      exact absurd (h.1 ▸ hclosing) hl
    | cons k before =>
      simp only [List.cons_append,List.cons.injEq] at h
      have hcut : CutAt ls before.flatten after.flatten :=
        ⟨before,closing,after,h.2,hclosing,fun x hx => hb x (by simp [hx]),rfl,rfl⟩
      exact ⟨before.flatten,hcut,by simp [h.1]⟩
  · rintro ⟨-,⟨before,closing,after,rfl,hclosing,hb,rfl,rfl⟩,rfl⟩
    refine ⟨l :: before,closing,after,rfl,hclosing,?_,rfl,rfl⟩
    intro k hk
    rcases List.mem_cons.mp hk with rfl | hk
    · exact hl
    · exact hb k hk

/-- From the start of a line on, the search stops at the first line that can close front matter. -/
theorem seek_eq_some_iff {s block body : List Char} :
    seek true s = some (block,body) ↔ CutAt (wholeLines s) block body := by
  induction s using line_induction generalizing block with
  | nil => simp [seek,wholeLines,not_cutAt_nil]
  | last l hne hl =>
    rw [seek_true hne,wholeLines_last hne hl]
    by_cases hc : IsClosing l
    · rw [(afterClosing?_last hl []).mpr ⟨hc,rfl⟩,cutAt_cons_of_isClosing hc]
      simp [eq_comm]
    · have hnone : afterClosing? l = none :=
        Option.eq_none_iff_forall_ne_some.mpr fun t ht => hc ((afterClosing?_last hl t).mp ht).1
      rw [hnone,cutAt_cons_of_not_isClosing hc]
      simp [seek_false_last hl,not_cutAt_nil]
  | line l rest hl ih =>
    rw [seek_true (by simp),wholeLines_line hl]
    by_cases hc : IsClosing (l ++ ['\n'])
    · rw [(afterClosing?_line hl rest rest).mpr ⟨hc,rfl⟩,cutAt_cons_of_isClosing hc]
      simp [flatten_wholeLines,eq_comm]
    · have hnone : afterClosing? (l ++ '\n' :: rest) = none :=
        Option.eq_none_iff_forall_ne_some.mpr fun t ht => hc ((afterClosing?_line hl rest t).mp ht).1
      rw [hnone,cutAt_cons_of_not_isClosing hc]
      simp [seek_false_line hl,Option.map_eq_some_iff,ih]

/-- The text after the opening line is cut where the search says. -/
theorem split?_eq_some_iff_cutAt {s block body : List Char} :
    split? s = some (block,body) ↔
      ∃ first rest, wholeLines s = first :: rest ∧ IsOpening first ∧ CutAt rest block body := by
  rw [split?,Option.bind_eq_some_iff]
  induction s using line_induction with
  | nil => simp [afterOpening?,afterFence?,wholeLines]
  | last l hne hl =>
    constructor
    · rintro ⟨t,ht,-⟩
      obtain ⟨k,hk,rfl⟩ := afterOpening?_eq_some_iff.mp ht
      exact absurd (List.mem_append_left t (isOpening_mem_break hk)) hl
    · rintro ⟨first,rest,h,hfirst,-⟩
      obtain ⟨rfl,rfl⟩ := List.cons.inj (wholeLines_last hne hl ▸ h)
      exact absurd (isOpening_mem_break hfirst) hl
  | line l rest hl _ =>
    simp only [afterOpening?_eq_some_iff,isOpening_append_iff hl,wholeLines_line hl]
    constructor
    · rintro ⟨t,⟨hfirst,rfl⟩,hseek⟩
      exact ⟨_,_,rfl,hfirst,seek_eq_some_iff.mp hseek⟩
    · rintro ⟨first,ls,h,hfirst,hcut⟩
      obtain ⟨rfl,rfl⟩ := List.cons.inj h
      exact ⟨rest,⟨hfirst,rfl⟩,seek_eq_some_iff.mpr hcut⟩

theorem split?_eq_some_iff {s block body : List Char} :
    split? s = some (block,body) ↔
      ∃ f : Frame, f.Of s ∧ f.block.flatten = block ∧ f.body.flatten = body := by
  rw [split?_eq_some_iff_cutAt]
  constructor
  · rintro ⟨opening,_,hlines,hopening,before,closing,after,rfl,hclosing,hfirst,hblock,hbody⟩
    exact ⟨⟨opening,before,closing,after⟩,⟨hlines,hopening,hclosing,hfirst⟩,hblock,hbody⟩
  · rintro ⟨⟨opening,before,closing,after⟩,⟨hlines,hopening,hclosing,hfirst⟩,hblock,hbody⟩
    exact ⟨opening,_,hlines,hopening,before,closing,after,rfl,hclosing,hfirst,hblock,hbody⟩

theorem split?_eq_none_iff {s : List Char} : split? s = none ↔ ¬ ∃ f : Frame, f.Of s := by
  constructor
  · rintro h ⟨f,hf⟩
    have hs := split?_eq_some_iff.mpr ⟨f,hf,rfl,rfl⟩
    exact absurd (h.symm.trans hs) (by simp)
  · intro h
    cases hs : split? s with
    | none => rfl
    | some p =>
      obtain ⟨f,hf,-⟩ := split?_eq_some_iff.mp (show split? s = some (p.1,p.2) from hs)
      exact absurd ⟨f,hf⟩ h

/-- A text has front matter when its first line can open it and a later one can close it. -/
theorem exists_frame_iff {s : List Char} : (∃ f : Frame, f.Of s) ↔
    ∃ first rest, wholeLines s = first :: rest ∧ IsOpening first ∧ ∃ l ∈ rest, IsClosing l := by
  constructor
  · rintro ⟨f,hf⟩
    exact ⟨f.opening,_,hf.lines,hf.opening,f.closing,by simp,hf.closing⟩
  · rintro ⟨first,rest,hlines,hfirst,l,hl,hclosing⟩
    classical
    have hsome : (rest.find? fun k => decide (IsClosing k)).isSome :=
      List.find?_isSome.mpr ⟨l,hl,by simpa using hclosing⟩
    obtain ⟨closing,hfind⟩ := Option.isSome_iff_exists.mp hsome
    obtain ⟨hc,before,after,rfl,hbefore⟩ := List.find?_eq_some_iff_append.mp hfind
    refine ⟨⟨first,before,closing,after⟩,hlines,hfirst,by simpa using hc,?_⟩
    intro k hk
    simpa using hbefore k hk

/-- There is only one first line that can close front matter. -/
theorem first_closing_inj {before before' after after' : List (List Char)} {c c' : List Char}
    (h : before ++ c :: after = before' ++ c' :: after') (hc : IsClosing c) (hc' : IsClosing c')
    (hb : ∀ l ∈ before, ¬ IsClosing l) (hb' : ∀ l ∈ before', ¬ IsClosing l) :
    before = before' ∧ c = c' ∧ after = after' := by
  induction before generalizing before' with
  | nil =>
    cases before' with
    | nil => simpa using h
    | cons k before' =>
      simp only [List.nil_append,List.cons_append,List.cons.injEq] at h
      exact absurd (h.1 ▸ hc) (hb' k (by simp))
  | cons l before ih =>
    cases before' with
    | nil =>
      simp only [List.nil_append,List.cons_append,List.cons.injEq] at h
      exact absurd (h.1 ▸ hc') (hb l (by simp))
    | cons k before' =>
      simp only [List.cons_append,List.cons.injEq] at h
      obtain ⟨rfl,rest⟩ := ih h.2 (fun x hx => hb x (by simp [hx])) fun x hx => hb' x (by simp [hx])
      exact ⟨by rw [h.1],rest⟩

theorem Frame.Of.unique {s : List Char} {f g : Frame} (hf : f.Of s) (hg : g.Of s) : f = g := by
  obtain ⟨ho,hrest⟩ := List.cons.inj (hf.lines.symm.trans hg.lines)
  obtain ⟨hb,hc,ha⟩ := first_closing_inj hrest hf.closing hg.closing hf.first hg.first
  cases f
  cases g
  simp_all

/-- Nothing of a text is lost between the parts of its frame. -/
theorem Frame.Of.text_eq {s : List Char} {f : Frame} (h : f.Of s) :
    f.opening ++ f.block.flatten ++ f.closing ++ f.body.flatten = s := by
  have hs := flatten_wholeLines s
  rw [h.lines] at hs
  simpa using hs

end BlogSite.FrontMatter
