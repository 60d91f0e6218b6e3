import BlogSite.Proofs.FrontMatterParsing
import BlogSite.Proofs.MarkupRendering

/-!
Line ends do not matter. A text with a carriage return before each of its line feeds is cut into front matter and
body where the text itself is, and its body has the same page; the page of a body is the same in any case.
-/

namespace BlogSite

namespace Text

/-- A text with a carriage return before every line feed. -/
def crlf (s : List Char) : List Char := s.flatMap fun c => if c = '\n' then ['\r','\n'] else [c]

def crlfText (s : String) : String := String.ofList (crlf s.toList)

@[simp] theorem toList_crlfText (s : String) : (crlfText s).toList = crlf s.toList := String.toList_ofList

@[simp] theorem crlf_nil : crlf [] = [] := rfl

@[simp] theorem crlf_lineFeed (s : List Char) : crlf ('\n' :: s) = '\r' :: '\n' :: crlf s := rfl

theorem crlf_cons {c : Char} (hc : c ≠ '\n') (s : List Char) : crlf (c :: s) = c :: crlf s := by
  simp [crlf,hc]

theorem crlf_eq_nil_iff {s : List Char} : crlf s = [] ↔ s = [] := by
  cases s with
  | nil => simp
  | cons c s =>
    by_cases hc : c = '\n'
    · simp [hc]
    · simp [crlf_cons hc]

/-- Characters that are no carriage returns stand for themselves at the start of a text. -/
theorem exists_of_crlf_eq_cons {c : Char} {s t : List Char} (hc : c ≠ '\r') (h : crlf s = c :: t) :
    ∃ r, s = c :: r ∧ t = crlf r := by
  cases s with
  | nil => exact absurd h (by simp)
  | cons d s =>
    by_cases hd : d = '\n'
    · subst hd
      exact absurd (List.cons.inj h).1.symm hc
    · rw [crlf_cons hd] at h
      obtain ⟨rfl,rfl⟩ := List.cons.inj h
      exact ⟨s,rfl,rfl⟩

/-- What is dropped from the end of a text is dropped from the end of the rest, and more only if the rest is
dropped. -/
theorem dropRight_cons (p : Char → Bool) (c : Char) (s : List Char) :
    dropRight p (c :: s) = if dropRight p s = [] ∧ p c = true then [] else c :: dropRight p s := by
  unfold dropRight
  rw [List.reverse_cons,List.dropWhile_append]
  by_cases hs : s.reverse.dropWhile p = []
  · cases hc : p c <;> simp [hs,hc]
  · simp [hs]

/-- The carriage returns at the ends of lines are all that changes in them. -/
theorem map_dropRight_lines_crlf (s : List Char) :
    (lines (crlf s)).map (dropRight (· == '\r')) = (lines s).map (dropRight (· == '\r')) := by
  induction s with
  | nil => rfl
  | cons c s ih =>
    by_cases hc : c = '\n'
    · subst hc
      have hreturn : dropRight (· == '\r') ['\r'] = dropRight (· == '\r') [] := by decide
      obtain ⟨p,ps,hs⟩ := List.exists_cons_of_ne_nil (splitOn_ne_nil '\n' (crlf s))
      have hlines : lines (crlf ('\n' :: s)) = ['\r'] :: lines (crlf s) := by
        simp [lines,splitOn]
      rw [hlines,List.map_cons,ih,hreturn]
      simp [lines,splitOn]
    · obtain ⟨p,ps,hs⟩ := List.exists_cons_of_ne_nil (splitOn_ne_nil '\n' s)
      obtain ⟨q,qs,ht⟩ := List.exists_cons_of_ne_nil (splitOn_ne_nil '\n' (crlf s))
      simp only [lines,hs,ht,List.map_cons,List.cons.injEq] at ih
      rw [crlf_cons hc]
      simp only [lines,splitOn,hc,if_false,hs,ht,List.map_cons,dropRight_cons,ih.1,ih.2]

end Text

open Text

namespace Markup

/-- The lines of a body do not tell how they end. -/
theorem bodyLines_crlfText (body : String) : bodyLines (crlfText body) = bodyLines body := by
  rw [bodyLines,toList_crlfText,map_dropRight_lines_crlf]
  rfl

theorem render_crlfText (body : String) : render (crlfText body) = render body := by
  have hempty : crlfText body = "" ↔ body = "" := by
    rw [← String.toList_inj,toList_crlfText,String.toList_empty,crlf_eq_nil_iff,String.toList_eq_nil_iff]
  by_cases hb : body = ""
  · rw [hempty.mpr hb,hb]
  · simp only [render,fragment,hempty,hb,if_false,bodyLines_crlfText]

end Markup

namespace FrontMatter

theorem unmarked_crlf (s : List Char) : unmarked (crlf s) = crlf (unmarked s) := by
  cases s with
  | nil => rfl
  | cons c s =>
    by_cases hc : c = '\n'
    · subst hc
      rfl
    · rw [crlf_cons hc]
      by_cases hmark : c = '\ufeff'
      · simp [unmarked,hmark]
      · simp [unmarked,hmark,crlf_cons hc]

theorem dropWhile_isBlankInLine_crlf (s : List Char) :
    (crlf s).dropWhile isBlankInLine = crlf (s.dropWhile isBlankInLine) := by
  induction s with
  | nil => rfl
  | cons c s ih =>
    by_cases hc : c = '\n'
    · subst hc
      rfl
    · rw [crlf_cons hc,List.dropWhile_cons,List.dropWhile_cons]
      split
      · exact ih
      · rw [crlf_cons hc]

/-- A text begins with a fence if it does so with other line ends. -/
theorem afterFence?_crlf (s : List Char) : afterFence? (crlf s) = (afterFence? s).map crlf := by
  cases hs : afterFence? s with
  | some r =>
    obtain ⟨blanks,-,rfl⟩ := exists_of_afterFence? hs
    simp only [afterFence?,Option.some.injEq] at hs
    simp [afterFence?,crlf_cons,dropWhile_isBlankInLine_crlf,hs]
  | none =>
    refine Option.eq_none_iff_forall_ne_some.mpr fun r hr => ?_
    obtain ⟨blanks,-,h⟩ := exists_of_afterFence? hr
    obtain ⟨s₁,rfl,h₁⟩ := exists_of_crlf_eq_cons (by decide) h
    obtain ⟨s₂,rfl,h₂⟩ := exists_of_crlf_eq_cons (by decide) h₁.symm
    obtain ⟨s₃,rfl,-⟩ := exists_of_crlf_eq_cons (by decide) h₂.symm
    exact absurd hs (by simp [afterFence?])

theorem return_notMem_of_afterFence? {s r : List Char} (hs : '\r' ∉ s) (h : afterFence? s = some r) :
    '\r' ∉ r := by
  obtain ⟨blanks,-,rfl⟩ := exists_of_afterFence? h
  exact fun hr => hs (by simp [hr])

/-- Either line end is a break, so a text without carriage returns has its breaks where it had them. -/
theorem afterBreak?_crlf {s : List Char} (hs : '\r' ∉ s) : afterBreak? (crlf s) = (afterBreak? s).map crlf := by
  cases s with
  | nil => rfl
  | cons c s =>
    by_cases hc : c = '\n'
    · subst hc
      rfl
    · simp only [List.mem_cons,not_or] at hs
      rw [crlf_cons hc]
      simp [afterBreak?,hc,Ne.symm hs.1]

theorem afterOpening?_crlf {s : List Char} (hs : '\r' ∉ s) :
    afterOpening? (crlf s) = (afterOpening? s).map crlf := by
  unfold afterOpening?
  rw [afterFence?_crlf]
  cases hr : afterFence? s with
  | none => rfl
  | some r => exact afterBreak?_crlf (return_notMem_of_afterFence? hs hr)

theorem afterClosing?_crlf {s : List Char} (hs : '\r' ∉ s) :
    afterClosing? (crlf s) = (afterClosing? s).map crlf := by
  unfold afterClosing?
  rw [afterFence?_crlf]
  cases hr : afterFence? s with
  | none => rfl
  | some r =>
    have hbreak := afterBreak?_crlf (return_notMem_of_afterFence? hs hr)
    by_cases hend : r = []
    · simp [hend]
    · simp [crlf_eq_nil_iff,hend,hbreak]

/-- The search for the closing line stops at the same line whatever ends the lines. -/
theorem seek_crlf (atLineStart : Bool) {s : List Char} (hs : '\r' ∉ s) :
    seek atLineStart (crlf s) = (seek atLineStart s).map (Prod.map crlf crlf) := by
  induction s generalizing atLineStart with
  | nil => rfl
  | cons c s ih =>
    have hclosing := afterClosing?_crlf hs
    simp only [List.mem_cons,not_or] at hs
    by_cases hc : c = '\n'
    · subst hc
      have hreturn : ∀ r, afterClosing? ('\r' :: r) = none := fun _ => rfl
      have hfeed : ∀ r, afterClosing? ('\n' :: r) = none := fun _ => rfl
      have hnext := ih true hs.2
      cases atLineStart <;> simp [seek,hreturn,hfeed,hnext,Function.comp_def]
    · rw [crlf_cons hc] at hclosing ⊢
      have hnext := ih false hs.2
      cases atLineStart with
      | false => simp [seek,hc,hnext,crlf_cons hc,Function.comp_def]
      | true =>
        simp only [seek,hclosing,hc,decide_false,hnext]
        cases afterClosing? (c :: s) <;> simp [crlf_cons hc,Function.comp_def]

theorem split?_crlf {s : List Char} (hs : '\r' ∉ s) :
    split? (crlf s) = (split? s).map (Prod.map crlf crlf) := by
  unfold split?
  rw [afterOpening?_crlf hs]
  cases hr : afterOpening? s with
  | none => rfl
  | some r =>
    obtain ⟨l,-,rfl⟩ := afterOpening?_eq_some_iff.mp hr
    exact seek_crlf true fun h => hs (by simp [h])

/-- What comes of a text that is cut into a block, if it has one, and a body. -/
def answer (read : YamlReader) : Option String → String → Except Failure (Entries × String)
  | none, body => .ok ([],body)
  | some block, body => concluded body.toList (read block)

theorem return_notMem_unmarked {s : List Char} (hs : '\r' ∉ s) : '\r' ∉ unmarked s := by
  unfold unmarked
  split
  · exact fun h => hs (List.mem_of_mem_tail h)
  · exact hs

/-- A text without carriage returns is cut just when it is cut with other line ends, into the same parts but for
their line ends; so it is parsed as a block, if there is one, and a body, and then as these with other line ends,
whatever reads the block. Line ends do not change the page of a body, even if there are carriage returns in it. -/
theorem parse_crlf :
    (∀ text : String, '\r' ∉ text.toList →
      split? (withoutMark (crlfText text).toList) = (split? (withoutMark text.toList)).map (Prod.map crlf crlf) ∧
      ∃ (block? : Option String) (body : String),
        (∀ read : YamlReader, parse read text = answer read block? body ∧
          parse read (crlfText text) = answer read (block?.map crlfText) (crlfText body)) ∧
        Markup.render (crlfText body) = Markup.render body) ∧
    ∀ body : String, Markup.render (crlfText body) = Markup.render body := by
  refine ⟨fun text htext => ?_,Markup.render_crlfText⟩
  have hmark : unmarked (crlfText text).toList = crlf (unmarked text.toList) := by
    rw [toList_crlfText,unmarked_crlf]
  have hsplit := split?_crlf (return_notMem_unmarked htext)
  refine ⟨by rw [withoutMark_eq,withoutMark_eq,hmark,hsplit],?_⟩
  cases hs : split? (unmarked text.toList) with
  | none =>
    rw [hs,← hmark] at hsplit
    refine ⟨none,String.ofList (unmarked text.toList),fun read => ⟨?_,?_⟩,Markup.render_crlfText _⟩
    · exact parse_of_split?_eq_none read hs
    · rw [parse_of_split?_eq_none read hsplit,hmark]
      simp [answer,crlfText]
  | some cut =>
    obtain ⟨block,body⟩ := cut
    rw [hs,← hmark] at hsplit
    refine ⟨some (String.ofList block),String.ofList body,fun read => ⟨?_,?_⟩,Markup.render_crlfText _⟩
    · rw [parse_of_split?_eq_some read hs]
      simp [answer]
    · rw [parse_of_split?_eq_some read hsplit]
      simp [answer,crlfText]

theorem parse_crlf_sample :
    '\r' ∉ "---\na: 1\n--- \n- b\n\n".toList ∧ ∃ (block? : Option String) (body : String), block? ≠ none ∧
      (∀ read : YamlReader, parse read "---\na: 1\n--- \n- b\n\n" = answer read block? body ∧
        parse read "---\r\na: 1\r\n--- \r\n- b\r\n\r\n" =
          answer read (block?.map crlfText) (crlfText body)) ∧
      Markup.render (crlfText body) = Markup.render body := by
  have hplain : '\r' ∉ "---\na: 1\n--- \n- b\n\n".toList := by decide
  have hcrlf : crlfText "---\na: 1\n--- \n- b\n\n" = "---\r\na: 1\r\n--- \r\n- b\r\n\r\n" := by decide
  obtain ⟨-,block?,body,hparse,hrender⟩ := parse_crlf.1 _ hplain
  rw [hcrlf] at hparse
  refine ⟨hplain,block?,body,?_,hparse,hrender⟩
  -- A reader that refuses everything is asked, so there is a block.
  rintro rfl
  have hrefused : parse (fun _ => .error .malformed) "---\na: 1\n--- \n- b\n\n" =
      .error (.frontMatter .invalidYaml) := rfl
  rw [(hparse _).1] at hrefused
  exact absurd hrefused (by simp [answer])

end FrontMatter

end BlogSite
