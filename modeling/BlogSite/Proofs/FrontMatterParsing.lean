import BlogSite.Proofs.FrontMatterFences

/-!
What reading a text with front matter gives: the reader gets exactly the block of its frame, and the
body is all that follows the frame. A block put between two fences is found again if it consists of
whole lines without a fence among them, and not otherwise.
-/

namespace BlogSite.FrontMatter

open BlogSite.Text

/-- A text without one byte order mark at its start. -/
def unmarked (s : List Char) : List Char := if s.head? = some '\ufeff' then s.tail else s

theorem withoutMark_eq (s : List Char) : withoutMark s = unmarked s := by
  cases s with
  | nil => rfl
  | cons c cs =>
    by_cases hc : c = '\ufeff'
    · subst hc
      rfl
    · simp [withoutMark,unmarked,hc]

/-- What comes of the answer of the reader on a block, with the body that follows the block. -/
def concluded (body : List Char) :
    Except Yaml.Fault Value → Except Failure (Entries × String)
  | .error f => .error (.ofYaml (.frontMatter .invalidYaml) (.frontMatter .badValue) f)
  | .ok .null => .ok ([],String.ofList body)
  | .ok (.map es) => .ok (es,String.ofList body)
  | .ok v => .error (.frontMatter (.notMapping v.kind))

theorem parse_of_split?_eq_some (read : YamlReader) {text : String} {block body : List Char}
    (h : split? (unmarked text.toList) = some (block,body)) :
    parse read text = concluded body (read (String.ofList block)) := by
  rw [← withoutMark_eq] at h
  simp only [parse,h]
  cases read (String.ofList block) with
  | error f => rfl
  | ok v => cases v <;> rfl

theorem parse_of_split?_eq_none (read : YamlReader) {text : String}
    (h : split? (unmarked text.toList) = none) :
    parse read text = .ok ([],String.ofList (unmarked text.toList)) := by
  rw [← withoutMark_eq] at h ⊢
  simp only [parse,h]

/-- A block between two fences, and a body after them. -/
def fenced (block body : List Char) : List Char :=
  '-' :: '-' :: '-' :: '\n' :: block ++ '-' :: '-' :: '-' :: '\n' :: body

theorem isOpening_plain : IsOpening ['-','-','-','\n'] := ⟨[],['\n'],by simp,by simp [breaks],rfl⟩

theorem isClosing_plain : IsClosing ['-','-','-','\n'] := ⟨[],['\n'],by simp,by simp [breaks],rfl⟩

theorem wholeLines_fence (s : List Char) :
    wholeLines ('-' :: '-' :: '-' :: '\n' :: s) = ['-','-','-','\n'] :: wholeLines s :=
  wholeLines_line (l := ['-','-','-']) (by decide) s

theorem split?_fenced_iff {block body : List Char} :
    split? (fenced block body) = some (block,body) ↔
      IsWhole block ∧ ∀ l ∈ wholeLines block, ¬ IsClosing l := by
  have hopen : wholeLines (fenced block body) =
      ['-','-','-','\n'] :: wholeLines (block ++ '-' :: '-' :: '-' :: '\n' :: body) :=
    wholeLines_fence _
  rw [split?_eq_some_iff_cutAt,hopen]
  constructor
  · rintro ⟨first,rest,h,-,before,closing,after,rfl,-,hb,hblock,-⟩
    obtain ⟨-,hrest⟩ := List.cons.inj h
    obtain ⟨hwhole,hlines⟩ := wholeLines_flatten_left (by simp) hrest
    rw [hblock] at hwhole hlines
    exact ⟨hwhole,hlines ▸ hb⟩
  · rintro ⟨hwhole,hb⟩
    refine ⟨_,_,rfl,isOpening_plain,wholeLines block,_,wholeLines body,?_,isClosing_plain,hb,
      flatten_wholeLines block,flatten_wholeLines body⟩
    rw [wholeLines_append hwhole,wholeLines_fence]

theorem unmarked_fenced (block body : List Char) :
    unmarked (fenced block body) = fenced block body := rfl

/-- A reader that tells one text from all others tells whether it was given that text. -/
theorem split?_eq_of_parse {text block body : String}
    (h : ∀ read : YamlReader, parse read text = concluded body.toList (read block)) :
    split? (unmarked text.toList) = some (block.toList,body.toList) := by
  have herror := h fun _ => .error .malformed
  cases hs : split? (unmarked text.toList) with
  | none =>
    rw [parse_of_split?_eq_none _ hs] at herror
    exact absurd herror (by simp [concluded])
  | some p =>
    obtain ⟨b,t⟩ := p
    have hb : String.ofList b = block := by
      by_contra hne
      have htell := h fun s => if s = block then .error .malformed else .ok .null
      rw [parse_of_split?_eq_some _ hs] at htell
      simp [hne,concluded] at htell
    have hnull := h fun _ => .ok .null
    rw [parse_of_split?_eq_some _ hs] at hnull
    simp only [concluded,String.ofList_toList,Except.ok.injEq,Prod.mk.injEq,true_and] at hnull
    simp [← hb,← hnull]

theorem parse_fenced_iff (block body : String) :
    (∀ read : YamlReader, parse read (String.ofList (fenced block.toList body.toList)) =
        concluded body.toList (read block)) ↔
      IsWhole block.toList ∧ ∀ l ∈ wholeLines block.toList, ¬ IsClosing l := by
  rw [← @split?_fenced_iff block.toList body.toList]
  constructor
  · intro h
    have hs := split?_eq_of_parse h
    rwa [String.toList_ofList,unmarked_fenced] at hs
  · intro h read
    rw [← unmarked_fenced,← String.toList_ofList (l := fenced _ _)] at h
    rw [parse_of_split?_eq_some read h,String.ofList_toList]

/-- A text is read by its only frame, or is all body without one. It has a frame when its first line
opens front matter and a later one closes it. Between two fences exactly the blocks of whole lines
without a fence are found again, whatever body follows. -/
theorem parse_follows_frame (read : YamlReader) (text : String) :
    ((∃ f : Frame, f.Of (unmarked text.toList) ∧
        (∀ g : Frame, g.Of (unmarked text.toList) → g = f) ∧
        f.opening ++ f.block.flatten ++ f.closing ++ f.body.flatten = unmarked text.toList ∧
        parse read text =
          concluded f.body.flatten (read (String.ofList f.block.flatten))) ∨
      (¬ ∃ f : Frame, f.Of (unmarked text.toList)) ∧
        parse read text = .ok ([],String.ofList (unmarked text.toList))) ∧
    ((∃ f : Frame, f.Of (unmarked text.toList)) ↔
      ∃ first rest, wholeLines (unmarked text.toList) = first :: rest ∧ IsOpening first ∧
        ∃ l ∈ rest, IsClosing l) ∧
    ∀ block body : String,
      (∀ reader : YamlReader, parse reader (String.ofList (fenced block.toList body.toList)) =
          concluded body.toList (reader block)) ↔
        IsWhole block.toList ∧ ∀ l ∈ wholeLines block.toList, ¬ IsClosing l := by
  refine ⟨?_,exists_frame_iff,parse_fenced_iff⟩
  by_cases h : ∃ f : Frame, f.Of (unmarked text.toList)
  · obtain ⟨f,hf⟩ := h
    have hs := split?_eq_some_iff.mpr ⟨f,hf,rfl,rfl⟩
    exact Or.inl ⟨f,hf,fun g hg => hg.unique hf,hf.text_eq,parse_of_split?_eq_some read hs⟩
  · exact Or.inr ⟨h,parse_of_split?_eq_none read (split?_eq_none_iff.mpr h)⟩

/-- A block that ends within a line makes the closing fence a part of that line. -/
theorem parse_fenced_open_line :
    ¬ ∀ (reader : YamlReader) (block body : String),
      (∀ l ∈ wholeLines block.toList, ¬ IsClosing l) →
        parse reader (String.ofList (fenced block.toList body.toList)) =
          concluded body.toList (reader block) := by
  intro h
  have hnone : ∀ l ∈ wholeLines "title: A".toList, ¬ IsClosing l := by
    intro l hl hc
    obtain rfl : l = "title: A".toList := by simpa [wholeLines] using hl
    obtain ⟨blanks,e,-,-,he⟩ := hc
    exact absurd (congrArg List.head? he) (by simp)
  have hfound := h (fun _ => .ok (.map [(.str "title",.str "A")])) "title: A" "body" hnone
  have hread : parse (fun _ => .ok (.map [(.str "title",.str "A")]))
      (String.ofList (fenced "title: A".toList "body".toList)) =
        .ok ([],"---\ntitle: A---\nbody") := by
    rfl
  rw [hread] at hfound
  simp [concluded] at hfound

end BlogSite.FrontMatter
