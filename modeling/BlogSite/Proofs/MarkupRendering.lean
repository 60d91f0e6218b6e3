import BlogSite.Proofs.MarkupBlocks
import BlogSite.Proofs.OpenLists

/-!
Runs of the renderer. What it shows when it is closed grows by one block at a time, whatever list
was open before; so the page of a body is the page of its blocks.
-/

namespace BlogSite.Markup

open BlogSite.Text BlogSite.Html

namespace Renderer

/-- The characters written so far. -/
def page (r : Renderer) : List Char := r.html.flatMap Fragment.chars

/-- Feeds lines that are read already. -/
def addAll (r : Renderer) (ls : List Line) : Renderer := ls.foldl add r

end Renderer

/-- What closes a list that is open. -/
def closingHtml : Option ListKind → List Char
  | none => []
  | some k => '<' :: '/' :: k.tag ++ ['>','\n']

/-- What opens a list. -/
def openingHtml : Option ListKind → List Char
  | none => []
  | some k => '<' :: k.tag ++ ['>','\n']

theorem flatMap_chars_change (old new : Option ListKind) :
    (Renderer.change old new).flatten.flatMap Fragment.chars =
      if old = new then [] else closingHtml old ++ openingHtml new := by
  unfold Renderer.change
  split
  · rfl
  · cases old with
    | none => cases new with
      | none => rfl
      | some k => cases k <;> rfl
    | some j => cases new with
      | none => cases j <;> rfl
      | some k => cases j <;> cases k <;> rfl

theorem flatMap_chars_item (k : ListKind) (s : List Char) :
    (Line.item k s).element.flatMap Fragment.chars = itemHtml s := by
  simp [Line.element,Fragment.chars,markup,Html.text,itemHtml,wrapped]

/-- A line that is no item is a block of its own. -/
theorem flatMap_chars_element {b : Block} {l : Line} (hb : b.lines = [l])
    (hl : l.listKind? = none) : l.element.flatMap Fragment.chars = b.html := by
  cases b with
  | list k first more =>
    simp only [Block.lines,List.map_cons,List.cons.injEq] at hb
    exact absurd hl (by simp [← hb.1,Line.listKind?])
  | heading level s =>
    obtain rfl : Line.heading level s = l := by simpa [Block.lines] using hb
    simp [Line.element,Fragment.chars,markup,Html.text,Block.html,wrapped]
  | blank =>
    obtain rfl : Line.blank = l := by simpa [Block.lines] using hb
    rfl
  | paragraph s =>
    obtain rfl : Line.paragraph s = l := by simpa [Block.lines] using hb
    simp [Line.element,Fragment.chars,markup,Html.text,Block.html,wrapped]

namespace Renderer

variable {r : Renderer}

theorem IsSound.openList_add (hr : r.IsSound) (l : Line) : (r.add l).openList = l.listKind? := by
  rw [hr.add_eq,openList_holding]

theorem IsSound.addAll (hr : r.IsSound) (ls : List Line) : (r.addAll ls).IsSound := by
  induction ls generalizing r with
  | nil => exact hr
  | cons l ls ih => exact ih (hr.add l)

theorem page_add (hr : r.IsSound) (l : Line) :
    (r.add l).page = r.page ++
      (if r.openList = l.listKind? then [] else closingHtml r.openList ++ openingHtml l.listKind?) ++
      l.element.flatMap Fragment.chars := by
  rw [← flatMap_chars_change,hr.add_eq]
  simp [page,html]

theorem page_close (hr : r.IsSound) : r.close.page = r.page ++ closingHtml r.openList := by
  have h := flatMap_chars_change r.openList none
  rw [hr.close_eq]
  cases ho : r.openList with
  | none => simp [page,html,change,closingHtml]
  | some k =>
    rw [ho] at h
    simp only [reduceCtorEq,if_false,openingHtml,List.append_nil] at h
    simp [page,html,← h]

/-- Items of the kind of the open list go into it. -/
theorem addAll_items (hr : r.IsSound) {k : ListKind} (hk : r.openList = some k)
    (ss : List (List Char)) :
    (r.addAll (ss.map (Line.item k))).openList = some k ∧
      (r.addAll (ss.map (Line.item k))).page = r.page ++ ss.flatMap itemHtml := by
  induction ss generalizing r with
  | nil => simp [addAll,hk]
  | cons s ss ih =>
    obtain ⟨ho,hp⟩ := ih (hr.add (.item k s)) (hr.openList_add _)
    have hs : (r.add (.item k s)).page = r.page ++ itemHtml s := by
      rw [page_add hr,flatMap_chars_item]
      simp [hk,Line.listKind?]
    refine ⟨ho,?_⟩
    change ((r.add (.item k s)).addAll (ss.map (Line.item k))).page = _
    rw [hp,hs]
    simp

/-- Feeding the lines of a block adds the block, unless its items would join the open list. -/
theorem addAll_block (hr : r.IsSound) {b : Block}
    (hb : r.openList = none ∨ r.openList ≠ b.listKind?) :
    (r.addAll b.lines).openList = b.listKind? ∧
      (r.addAll b.lines).close.page = r.close.page ++ b.html := by
  have single : ∀ l, b.lines = [l] → l.listKind? = none → b.listKind? = none →
      (r.addAll b.lines).openList = b.listKind? ∧
        (r.addAll b.lines).close.page = r.close.page ++ b.html := by
    intro l hl hn hbn
    have hadd : r.addAll b.lines = r.add l := by simp [hl,addAll]
    rw [hadd,page_close (hr.add l),page_close hr,page_add hr,hr.openList_add,hn,hbn,
      flatMap_chars_element hl hn]
    refine ⟨rfl,?_⟩
    by_cases ho : r.openList = none
    · simp [ho,closingHtml]
    · simp [ho,closingHtml,openingHtml]
  cases b with
  | list k first more =>
    have hne : r.openList ≠ some k := by
      rcases hb with hb | hb
      · simp [hb]
      · exact hb
    obtain ⟨ho,hp⟩ := addAll_items (hr.add (.item k first)) (hr.openList_add _) more
    have hfirst : (r.add (.item k first)).page =
        r.page ++ closingHtml r.openList ++ openingHtml (some k) ++ itemHtml first := by
      rw [page_add hr,flatMap_chars_item]
      simp [hne,Line.listKind?]
    change ((r.add (.item k first)).addAll (more.map (Line.item k))).openList = _ ∧
      ((r.add (.item k first)).addAll (more.map (Line.item k))).close.page = _
    refine ⟨ho,?_⟩
    rw [page_close ((hr.add _).addAll _),page_close hr,ho,hp,hfirst]
    simp [openingHtml,closingHtml,Block.html,wrapped]
  | heading level s => exact single _ rfl rfl rfl
  | blank => exact single _ rfl rfl rfl
  | paragraph s => exact single _ rfl rfl rfl

/-- Feeding the lines of blocks adds the blocks, from the open list on. -/
theorem addAll_blocks (hr : r.IsSound) {bs : List Block} (h : bs.IsChain Block.Apart)
    (hopen : ∀ b ∈ bs.head?, r.openList = none ∨ r.openList ≠ b.listKind?) :
    (r.addAll (bs.flatMap Block.lines)).close.page = r.close.page ++ bs.flatMap Block.html := by
  induction bs generalizing r with
  | nil => simp [addAll]
  | cons b bs ih =>
    obtain ⟨hb,hbs⟩ := List.isChain_cons.mp h
    obtain ⟨ho,hp⟩ := addAll_block hr (hopen b rfl)
    have htail := ih (hr.addAll b.lines) hbs (by
      intro c hc
      rw [ho]
      exact hb c hc)
    have hsplit : r.addAll ((b :: bs).flatMap Block.lines) =
        (r.addAll b.lines).addAll (bs.flatMap Block.lines) := by
      simp [addAll]
    rw [hsplit,htail,hp,List.flatMap_cons,List.append_assoc]

end Renderer

/-- The page of lines that are read already is the page of their blocks. -/
theorem page_addAll_eq (ls : List Line) :
    (Renderer.addAll {} ls).close.page = (blocks ls).flatMap Block.html := by
  have h := Renderer.addAll_blocks Renderer.isSound_empty (isChain_blocks ls) (fun _ _ => Or.inl rfl)
  rwa [lines_blocks] at h

theorem foldl_feed (r : Renderer) (ss : List (List Char)) :
    ss.foldl Renderer.feed r = r.addAll (ss.map Line.read) := by
  rw [Renderer.addAll,List.foldl_map]
  rfl

theorem toList_render_eq (body : String) :
    (render body).toList = (blocks ((sourceLines body).map Line.read)).flatMap Block.html := by
  by_cases hb : body = ""
  · subst body
    rfl
  · rw [sourceLines_eq hb,← page_addAll_eq,← foldl_feed]
    simp [render,fragment,hb,Renderer.page]

/-- The page of a body is that of its blocks. They hold every line of the body once and in order,
a list ends only where no item of its kind follows, and no other cut of the lines is like that. -/
theorem render_eq_blocks (body : String) :
    ∃ bs : List Block, bs.IsChain Block.Apart ∧
      List.Forall₂ Line.Spells (sourceLines body) (bs.flatMap Block.lines) ∧
      render body = String.ofList (bs.flatMap Block.html) ∧
      ∀ cs : List Block, cs.IsChain Block.Apart →
        List.Forall₂ Line.Spells (sourceLines body) (cs.flatMap Block.lines) → cs = bs := by
  refine ⟨blocks ((sourceLines body).map Line.read),isChain_blocks _,?_,?_,?_⟩
  · exact Line.forall₂_spells_iff.mpr (lines_blocks _).symm
  · rw [← toList_render_eq,String.ofList_toList]
  · intro cs hcs hlines
    exact eq_blocks_iff.mpr ⟨hcs,(Line.forall₂_spells_iff.mp hlines).symm⟩

/-- Lists of two kinds next to each other are closed and opened, and the last one is closed too. -/
example : (render "- a\n1. b\n- c").toList =
    "<ul>\n  <li>a</li>\n</ul>\n<ol>\n  <li>b</li>\n</ol>\n<ul>\n  <li>c</li>\n</ul>\n".toList := by
  decide +kernel

end BlogSite.Markup
