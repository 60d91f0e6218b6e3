import BlogSite.Proofs.BodySkeletons
import BlogSite.Proofs.TextParts

/-!
Reading a rendered body back. Everything on its page is written row by row: a row shows one line, or it
begins or ends a list. A reader that goes through the rows and knows which list is open finds every line with
its text as it was, so two bodies have one page only where their lines are the same.
-/

namespace BlogSite.Markup

open BlogSite.Text BlogSite.Html

/-! ### Rows -/

/-- The rows of a page. Each of them ends with a line feed, so nothing follows the last one. -/
def rows (page : List Char) : List (List Char) := (splitOn '\n' page).dropLast

/-- The name of the first tag of a row. -/
def tagName (row : List Char) : List Char := ((row.dropWhile (· ≠ '<')).drop 1).takeWhile (· ≠ '>')

/-- The text after the first tag of a row, with its entities read. -/
def tagText (row : List Char) : List Char :=
  unescape (((row.dropWhile (· ≠ '>')).drop 1).takeWhile (· ≠ '<'))

/-- The line that a tag with a text shows, in the list that is open. -/
def lineOfTag (o : Option ListKind) (name text : List Char) : Line :=
  match name with
  | [] => .blank
  | ['h',d] => .heading (d.toNat - '0'.toNat) text
  | ['l','i'] => .item (o.getD .unordered) text
  | _ => .paragraph text

/-- The lines that rows show. A row that begins or ends a list shows none. -/
def linesOfRows : Option ListKind → List (List Char) → List Line
  | _, [] => []
  | o, row :: rest =>
    if tagName row = ListKind.ordered.tag then linesOfRows (some .ordered) rest
    else if tagName row = ListKind.unordered.tag then linesOfRows (some .unordered) rest
    else if tagName row = '/' :: ListKind.ordered.tag ∨ tagName row = '/' :: ListKind.unordered.tag then
      linesOfRows none rest
    else lineOfTag o (tagName row) (tagText row) :: linesOfRows o rest

/-- The lines that a page shows. -/
def decode (page : String) : List Line := linesOfRows none (rows page.toList)

theorem rows_append (row : List Char) (h : '\n' ∉ row) (t : List Char) :
    rows (row ++ '\n' :: t) = row :: rows t := by
  rw [rows,splitOn_append_cons,splitOn_of_notMem h,List.singleton_append,
    List.dropLast_cons_of_ne_nil (splitOn_ne_nil _ _)]
  rfl

/-! ### Tags on rows -/

variable {before name : List Char}

theorem tagName_wrapped (hb : '<' ∉ before) (hn : '>' ∉ name) (inner : List Char) :
    tagName (before ++ wrapped name inner) = name := by
  have hrow : before ++ wrapped name inner =
      before ++ '<' :: (name ++ '>' :: (inner ++ '<' :: '/' :: name ++ ['>'])) := by
    simp [wrapped]
  rw [hrow,tagName,dropWhile_ne hb,List.drop_one,List.tail_cons,takeWhile_ne hn]

/-- A text in a tag is read as it was. -/
theorem tagText_wrapped (hb : '>' ∉ before) (hn : '>' ∉ name) (s : List Char) :
    tagText (before ++ wrapped name (escape s)) = s := by
  have hrow : before ++ wrapped name (escape s) =
      before ++ '<' :: name ++ '>' :: (escape s ++ '<' :: ('/' :: name ++ ['>'])) := by
    simp [wrapped]
  have hstart : '>' ∉ before ++ '<' :: name := by simp [hb,hn]
  rw [hrow,tagText,dropWhile_ne hstart,List.drop_one,List.tail_cons,
    takeWhile_ne (notMem_escape (by decide) s),unescape_escape]

/-! ### Lines that are read back -/

/-- A line as a body can have it. -/
inductive Line.Written : Line → Prop
  | heading {level : Nat} {s : List Char} (hlevel : level ∈ [1,2,3]) (hs : '\n' ∉ s) :
      Written (.heading level s)
  | item (k : ListKind) {s : List Char} (hs : '\n' ∉ s) : Written (.item k s)
  | blank : Written .blank
  | paragraph {s : List Char} (hs : '\n' ∉ s) : Written (.paragraph s)

theorem lineFeed_notMem_escape {s : List Char} (h : '\n' ∉ s) : '\n' ∉ escape s := by
  induction s with
  | nil => simp
  | cons c s ih =>
    simp only [List.mem_cons,not_or] at h
    rw [escape_cons,List.mem_append,not_or]
    refine ⟨?_,ih h.2⟩
    by_cases hc : c ∈ ['&','<','>','"']
    · simp only [List.mem_cons,List.not_mem_nil,or_false] at hc
      rcases hc with rfl | rfl | rfl | rfl <;> decide
    · simpa [written_of_notMem hc] using h.1

/-- Changing the open list writes rows that tell the change and no line. -/
theorem linesOfRows_change (old new : Option ListKind) (t : List Char) :
    linesOfRows old (rows ((Renderer.change old new).flatten.flatMap Fragment.chars ++ t)) =
      linesOfRows new (rows t) := by
  have hopening : ∀ o k, linesOfRows o (rows (openingHtml (some k) ++ t)) =
      linesOfRows (some k) (rows t) := by
    intro o k
    cases k with
    | ordered => exact congrArg (linesOfRows o) (rows_append "<ol>".toList (by decide) t)
    | unordered => exact congrArg (linesOfRows o) (rows_append "<ul>".toList (by decide) t)
  have hclosing : ∀ o k u, linesOfRows o (rows (closingHtml (some k) ++ u)) = linesOfRows none (rows u) := by
    intro o k u
    cases k with
    | ordered => exact congrArg (linesOfRows o) (rows_append "</ol>".toList (by decide) u)
    | unordered => exact congrArg (linesOfRows o) (rows_append "</ul>".toList (by decide) u)
  rw [flatMap_chars_change]
  split
  · rename_i h
    rw [h,List.nil_append]
  · rename_i h
    rw [List.append_assoc]
    cases old with
    | none =>
      cases new with
      | none => exact absurd rfl h
      | some k => exact hopening none k
    | some j =>
      rw [hclosing]
      cases new with
      | none => rfl
      | some k => exact hopening none k

/-- A row with a text in a tag shows one line, whatever the text is. -/
theorem linesOfRows_wrapped (o : Option ListKind) (hb : '<' ∉ before ∧ '>' ∉ before ∧ '\n' ∉ before)
    (hn : '>' ∉ name ∧ '\n' ∉ name)
    (hlist : name ∉ [ListKind.ordered.tag,ListKind.unordered.tag,'/' :: ListKind.ordered.tag,
      '/' :: ListKind.unordered.tag]) {s : List Char} (hs : '\n' ∉ s) (t : List Char) :
    linesOfRows o (rows (before ++ wrapped name (escape s) ++ '\n' :: t)) =
      lineOfTag o name s :: linesOfRows o (rows t) := by
  have hrow : '\n' ∉ before ++ wrapped name (escape s) := by
    simp [wrapped,hb.2.2,hn.2,lineFeed_notMem_escape hs]
  have hname := tagName_wrapped hb.1 hn.1 (escape s)
  have htext := tagText_wrapped hb.2.1 hn.1 s
  simp only [List.mem_cons,List.not_mem_nil,or_false,not_or] at hlist
  rw [rows_append _ hrow,linesOfRows,hname,htext,if_neg hlist.1,if_neg hlist.2.1,
    if_neg (not_or.mpr hlist.2.2)]

/-- The row of an element shows its line, in the list that the line belongs to. -/
theorem linesOfRows_element {l : Line} (h : l.Written) (t : List Char) :
    linesOfRows l.listKind? (rows (l.element.flatMap Fragment.chars ++ t)) =
      l :: linesOfRows l.listKind? (rows t) := by
  cases h with
  | @heading level s hlevel hs =>
    have hpage : (Line.heading level s).element.flatMap Fragment.chars ++ t =
        [] ++ wrapped ('h' :: (toString level).toList) (escape s) ++ '\n' :: t := by
      rw [flatMap_chars_element (b := .heading level s) rfl rfl,Block.html]
      simp
    simp only [List.mem_cons,List.not_mem_nil,or_false] at hlevel
    rw [hpage]
    rcases hlevel with rfl | rfl | rfl
    all_goals exact linesOfRows_wrapped none (by simp) (by decide) (by decide) hs t
  | @item k s hs =>
    have hpage : (Line.item k s).element.flatMap Fragment.chars ++ t =
        [' ',' '] ++ wrapped ['l','i'] (escape s) ++ '\n' :: t := by
      rw [flatMap_chars_item,itemHtml]
      simp
    rw [hpage]
    exact linesOfRows_wrapped (some k) (by decide) (by decide) (by decide) hs t
  | blank => exact congrArg (linesOfRows none) (rows_append [] (by simp) t)
  | @paragraph s hs =>
    have hpage : (Line.paragraph s).element.flatMap Fragment.chars ++ t =
        [] ++ wrapped ['p'] (escape s) ++ '\n' :: t := by
      rw [flatMap_chars_element (b := .paragraph s) rfl rfl,Block.html]
      simp
    rw [hpage]
    exact linesOfRows_wrapped none (by simp) (by decide) (by decide) hs t

/-- The rows of lines show the lines, whatever list was open before them. -/
theorem linesOfRows_pieces (o : Option ListKind) {ls : List Line} (h : ∀ l ∈ ls, l.Written) :
    linesOfRows o (rows ((pieces o ls).flatMap Fragment.chars)) = ls := by
  induction ls generalizing o with
  | nil =>
    have hend := linesOfRows_change o none []
    rwa [List.append_nil] at hend
  | cons l ls ih =>
    obtain ⟨hl,hls⟩ := List.forall_mem_cons.mp h
    rw [pieces,List.flatMap_append,List.flatMap_append,linesOfRows_change,linesOfRows_element hl,ih _ hls]

/-! ### Bodies -/

theorem written_of_spells {s : List Char} {l : Line} (hs : '\n' ∉ s) (h : Line.Spells s l) : l.Written := by
  rcases h with h | ⟨rfl,-⟩
  · cases h with
    | heading₃ r => exact .heading (by decide) (by simpa using hs)
    | heading₂ r => exact .heading (by decide) (by simpa using hs)
    | heading₁ r => exact .heading (by decide) (by simpa using hs)
    | number r hne hds hc =>
      refine .item _ fun hr => hs ?_
      simp [hr]
    | bullet r => exact .item _ (by simpa using hs)
    | blank _ => exact .blank
  · exact .paragraph hs

theorem lineFeed_notMem_sourceLines {body : String} {s : List Char} (h : s ∈ sourceLines body) :
    '\n' ∉ s := by
  by_cases hb : body = ""
  · simp [hb,sourceLines] at h
  · rw [sourceLines_eq hb,bodyLines] at h
    obtain ⟨row,hrow,rfl⟩ := List.mem_map.mp h
    intro hmem
    have hsuffix : row.reverse.dropWhile (· == '\r') <:+ row.reverse := List.dropWhile_suffix _
    exact notMem_of_mem_splitOn hrow (List.mem_reverse.mp (hsuffix.mem (List.mem_reverse.mp hmem)))

/-- The lines of a body alone make its page. -/
theorem toList_render_eq_pieces (body : String) :
    (render body).toList = (pieces none ((sourceLines body).map Line.read)).flatMap Fragment.chars := by
  by_cases hb : body = ""
  · subst hb
    rfl
  · rw [sourceLines_eq hb,render,fragment_eq_pieces hb,Fragment.toList_render]

/-- From the page of a body its lines can be told, each with its kind and its text; so two bodies have one
page just when their lines are the same. -/
theorem decode_render :
    (∀ body ls, decode (render body) = ls ↔ List.Forall₂ Line.Spells (sourceLines body) ls) ∧
    ∀ a b, render a = render b ↔
      ∃ ls, List.Forall₂ Line.Spells (sourceLines a) ls ∧ List.Forall₂ Line.Spells (sourceLines b) ls := by
  have hdecode : ∀ body, decode (render body) = (sourceLines body).map Line.read := by
    intro body
    rw [decode,toList_render_eq_pieces]
    refine linesOfRows_pieces none fun l hl => ?_
    obtain ⟨s,hs,rfl⟩ := List.mem_map.mp hl
    exact written_of_spells (lineFeed_notMem_sourceLines hs) (Line.spells_iff.mpr rfl)
  refine ⟨fun body ls => by rw [hdecode,Line.forall₂_spells_iff],fun a b => ?_⟩
  simp only [Line.forall₂_spells_iff]
  constructor
  · intro h
    exact ⟨_,rfl,by rw [← hdecode,← hdecode,h]⟩
  · rintro ⟨ls,ha,hb⟩
    apply String.toList_injective
    rw [toList_render_eq_pieces,toList_render_eq_pieces,ha,hb]

/-- A text that looks like a tag, the end of a list and an entity is told from all of these. -/
example : decode (render "- </ul>\n- &amp;\r\n1. <li>\n\n# </h1>") =
    [.item .unordered "</ul>".toList,.item .unordered "&amp;".toList,.item .ordered "<li>".toList,.blank,
      .heading 1 "</h1>".toList] := by
  decide +kernel

end BlogSite.Markup
