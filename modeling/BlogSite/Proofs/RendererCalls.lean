import BlogSite.Proofs.MarkupDecoding

/-!
A renderer that is fed and finished in any order. Its parts are tokens, and a part can be read as one token
only. At any time they are the tokens of whole blocks and then those of the list that is open, if one is; and
the lines of these blocks and of this list are the lines that the renderer was fed.
-/

namespace BlogSite.Markup

open BlogSite.Html

/-! ### Tokens -/

/-- What a part is. -/
inductive Token where
  | opening (kind : ListKind)
  | closing (kind : ListKind)
  | item (text : List Char)
  | heading (level : Nat) (text : List Char)
  | blank
  | paragraph (text : List Char)

namespace Token

/-- The row of a token, without its line end. -/
def row : Token → List Char
  | .opening k => '<' :: k.tag ++ ['>']
  | .closing k => '<' :: '/' :: k.tag ++ ['>']
  | .item s => [' ',' '] ++ wrapped ['l','i'] (escape s)
  | .heading level s => wrapped ('h' :: Nat.toDigits 10 level) (escape s)
  | .blank => []
  | .paragraph s => wrapped ['p'] (escape s)

def html (t : Token) : List Char := t.row ++ ['\n']

/-- The token of a row that begins with a tag and goes on with a text. -/
def ofTag (name text : List Char) : Token :=
  match name with
  | ['o','l'] => .opening .ordered
  | ['u','l'] => .opening .unordered
  | '/' :: name => .closing (if name = ['o','l'] then .ordered else .unordered)
  | ['l','i'] => .item text
  | 'h' :: digits => .heading (Nat.ofDigitChars 10 digits 0) text
  | [] => .blank
  | _ => .paragraph text

/-- The token that a part is. -/
def read (part : List Char) : Token := ofTag (tagName part.dropLast) (tagText part.dropLast)

/-- A row with a text is told by its tag. -/
theorem ofTag_wrapped (before : List Char) {name : List Char} (hb : '<' ∉ before ∧ '>' ∉ before)
    (hn : '>' ∉ name) (s : List Char) :
    ofTag (tagName (before ++ wrapped name (escape s))) (tagText (before ++ wrapped name (escape s))) =
      ofTag name s := by
  rw [tagName_wrapped hb.1 hn,tagText_wrapped hb.2 hn]

theorem notMem_toDigits (n : Nat) : '>' ∉ Nat.toDigits 10 n := by
  intro h
  exact absurd (Nat.isDigit_of_mem_toDigits (b := 10) (by decide) (by decide) h) (by decide)

/-- A part is read as the token that was written. -/
theorem read_html (t : Token) : read t.html = t := by
  rw [read,html,List.dropLast_concat]
  cases t with
  | opening k => cases k <;> rfl
  | closing k => cases k <;> rfl
  | item s => exact ofTag_wrapped [' ',' '] (by decide) (by decide) s
  | heading level s =>
    have hlevel : ofTag ('h' :: Nat.toDigits 10 level) s = .heading level s :=
      congrArg (heading · s) Nat.ofDigitChars_ten_toDigits
    exact (ofTag_wrapped [] (by decide) (by simp [notMem_toDigits]) s).trans hlevel
  | blank => rfl
  | paragraph s => exact ofTag_wrapped [] (by decide) (by decide) s

end Token

/-- The token of a line. -/
def Line.token : Line → Token
  | .heading level s => .heading level s
  | .item _ s => .item s
  | .blank => .blank
  | .paragraph s => .paragraph s

theorem Line.flatMap_chars_element (l : Line) : l.element.flatMap Fragment.chars = l.token.html := by
  cases l with
  | heading level s =>
    rw [Markup.flatMap_chars_element (b := .heading level s) rfl rfl]
    simp [token,Token.html,Token.row,Block.html]
  | item k s => simp [flatMap_chars_item,token,Token.html,Token.row,itemHtml]
  | blank => rfl
  | paragraph s => rw [Markup.flatMap_chars_element (b := .paragraph s) rfl rfl]; rfl

/-- The tokens between two lines of a page, where one list is closed and another one is opened. -/
def changeTokens (old new : Option ListKind) : List Token :=
  if old = new then [] else old.toList.map .closing ++ new.toList.map .opening

theorem map_chars_change (old new : Option ListKind) :
    (Renderer.change old new).map (fun f => f.flatMap Fragment.chars) =
      (changeTokens old new).map Token.html := by
  rcases old with _ | _ | _ <;> rcases new with _ | _ | _ <;> rfl

/-! ### Blocks and the open list -/

/-- A list that is open, with the items it has so far. -/
structure OpenList where
  kind : ListKind
  first : List Char
  more : List (List Char)

namespace OpenList

def tokens (o : OpenList) : List Token := .opening o.kind :: (o.first :: o.more).map .item

def lines (o : OpenList) : List Line := (o.first :: o.more).map (Line.item o.kind)

/-- The block that an open list becomes. -/
def block (o : OpenList) : Block := .list o.kind o.first o.more

end OpenList

def Block.tokens : Block → List Token
  | .list k first more => .opening k :: (first :: more).map .item ++ [.closing k]
  | .heading level s => [.heading level s]
  | .blank => [.blank]
  | .paragraph s => [.paragraph s]

/-- Whole blocks, and the list that is open after them. -/
structure Sheet where
  blocks : List Block := []
  rest : Option OpenList := none

namespace Sheet

def tokens (s : Sheet) : List Token :=
  s.blocks.flatMap Block.tokens ++ s.rest.toList.flatMap OpenList.tokens

def lines (s : Sheet) : List Line :=
  s.blocks.flatMap Block.lines ++ s.rest.toList.flatMap OpenList.lines

/-- The kind of the open list. -/
def kind? (s : Sheet) : Option ListKind := s.rest.map OpenList.kind

/-- The blocks when no list is open any more. -/
def whole (s : Sheet) : List Block := s.blocks ++ s.rest.toList.map OpenList.block

/-- A block after all others. -/
def put (s : Sheet) (b : Block) : Sheet := { blocks := s.whole ++ [b] }

/-- An item, in the open list if that is of its kind. -/
def putItem (s : Sheet) (k : ListKind) (t : List Char) : Sheet :=
  match s.rest with
  | some o =>
    if o.kind = k then { s with rest := some { o with more := o.more ++ [t] } }
    else { blocks := s.whole, rest := some ⟨k,t,[]⟩ }
  | none => { blocks := s.whole, rest := some ⟨k,t,[]⟩ }

/-- A sheet with one more line. -/
def add (s : Sheet) : Line → Sheet
  | .item k t => s.putItem k t
  | .heading level t => s.put (.heading level t)
  | .blank => s.put .blank
  | .paragraph t => s.put (.paragraph t)

variable (s : Sheet)

theorem tokens_whole : s.whole.flatMap Block.tokens = s.tokens ++ changeTokens s.kind? none := by
  obtain ⟨bs,_ | o⟩ := s
  · simp [whole,tokens,kind?,changeTokens]
  · simp [whole,tokens,kind?,changeTokens,OpenList.block,OpenList.tokens,Block.tokens]

theorem lines_whole : s.whole.flatMap Block.lines = s.lines := by
  obtain ⟨bs,_ | o⟩ := s
  · simp [whole,lines]
  · simp [whole,lines,OpenList.block,OpenList.lines,Block.lines]

/-- An item goes on with the open list, or it is the first one of a new list. -/
theorem putItem_cases (k : ListKind) (t : List Char) :
    (∃ o, s.rest = some o ∧ o.kind = k ∧
      s.putItem k t = { s with rest := some { o with more := o.more ++ [t] } }) ∨
    (s.kind? ≠ some k ∧ s.putItem k t = { blocks := s.whole, rest := some ⟨k,t,[]⟩ }) := by
  obtain ⟨bs,_ | o⟩ := s
  · exact Or.inr ⟨by simp [kind?],rfl⟩
  · by_cases hk : o.kind = k
    · exact Or.inl ⟨o,rfl,hk,if_pos hk⟩
    · exact Or.inr ⟨by simpa [kind?] using hk,if_neg hk⟩

theorem kind?_add (l : Line) : (s.add l).kind? = l.listKind? := by
  cases l with
  | item k t =>
    rw [add]
    rcases s.putItem_cases k t with ⟨o,-,rfl,h⟩ | ⟨-,h⟩
    · rw [h]
      rfl
    · rw [h]
      rfl
  | heading level t => rfl
  | blank => rfl
  | paragraph t => rfl

theorem tokens_put (b : Block) : (s.put b).tokens = s.tokens ++ (changeTokens s.kind? none ++ b.tokens) := by
  rw [← List.append_assoc,← s.tokens_whole]
  simp [put,tokens]

theorem lines_put (b : Block) : (s.put b).lines = s.lines ++ b.lines := by
  rw [← s.lines_whole]
  simp [put,lines]

theorem changeTokens_of_ne {o : Option ListKind} {k : ListKind} (h : o ≠ some k) :
    changeTokens o (some k) = changeTokens o none ++ [.opening k] := by
  cases o with
  | none => simp [changeTokens]
  | some j => simp [changeTokens,h]

theorem tokens_add (l : Line) :
    (s.add l).tokens = s.tokens ++ (changeTokens s.kind? l.listKind? ++ [l.token]) := by
  cases l with
  | item k t =>
    rw [add]
    rcases s.putItem_cases k t with ⟨o,ho,rfl,h⟩ | ⟨hk,h⟩
    · rw [h]
      simp [tokens,kind?,ho,Line.listKind?,changeTokens,OpenList.tokens,Line.token]
    · rw [h,Line.listKind?,changeTokens_of_ne hk,List.append_assoc,← List.append_assoc s.tokens,
        ← s.tokens_whole]
      rfl
  | heading level t => exact s.tokens_put (.heading level t)
  | blank => exact s.tokens_put .blank
  | paragraph t => exact s.tokens_put (.paragraph t)

theorem lines_add (l : Line) : (s.add l).lines = s.lines ++ [l] := by
  cases l with
  | item k t =>
    rw [add]
    rcases s.putItem_cases k t with ⟨o,ho,rfl,h⟩ | ⟨hk,h⟩
    · rw [h]
      simp [lines,ho,OpenList.lines]
    · rw [h,← s.lines_whole]
      rfl
  | heading level t => exact s.lines_put (.heading level t)
  | blank => exact s.lines_put .blank
  | paragraph t => exact s.lines_put (.paragraph t)

end Sheet

/-! ### Calls -/

/-- What a renderer is asked for. -/
inductive Call where
  | feed (line : List Char)
  | finish

namespace Renderer

/-- The text of a finished renderer, and the renderer as it is then. -/
def finish (r : Renderer) : String × Renderer := (r.close.html.render,r.close)

def call (r : Renderer) : Call → Renderer
  | .feed s => r.feed s
  | .finish => r.finish.2

/-- A new renderer after some calls. -/
def run (cs : List Call) : Renderer := cs.foldl call {}

/-- The parts as they are written. -/
def texts (r : Renderer) : List (List Char) := r.parts.toList.map fun f => f.flatMap Fragment.chars

/-- The lines that calls feed. -/
def fed (cs : List Call) : List (List Char) :=
  cs.filterMap fun
    | .feed s => some s
    | .finish => none

/-- `r.Shows s`: the parts of a renderer are the tokens of a sheet, and its flags name the open list. -/
structure Shows (r : Renderer) (s : Sheet) : Prop where
  ordered : r.inOrdered = true ↔ s.kind? = some .ordered
  unordered : r.inUnordered = true ↔ s.kind? = some .unordered
  reads : r.texts.map Token.read = s.tokens
  writes : s.tokens.map Token.html = r.texts

variable {r : Renderer} {s : Sheet}

theorem texts_holding (fs : List Fragment) (o : Option ListKind) : (holding (r.parts ++ fs) o).texts =
    r.texts ++ fs.map fun f => f.flatMap Fragment.chars := by
  simp [texts]

theorem shows_holding {parts : Array Fragment} {o : Option ListKind} (ho : o = s.kind?)
    (h : (holding parts o).texts = s.tokens.map Token.html) : (holding parts o).Shows s where
  ordered := by simp [holding,ho]
  unordered := by simp [holding,ho]
  reads := by
    rw [h,List.map_map,Function.LeftInverse.id Token.read_html,List.map_id]
  writes := h.symm

namespace Shows

theorem isSound (h : r.Shows s) : r.IsSound := by
  rintro ⟨ho,hu⟩
  exact absurd ((h.ordered.mp ho).symm.trans (h.unordered.mp hu)) (by decide)

theorem openList (h : r.Shows s) : r.openList = s.kind? := by
  unfold Renderer.openList
  split
  · rename_i ho
    exact (h.ordered.mp ho).symm
  rename_i ho
  split
  · rename_i hu
    exact (h.unordered.mp hu).symm
  · rename_i hu
    rcases hk : s.kind? with _ | _ | _
    · rfl
    · exact absurd (h.ordered.mpr hk) ho
    · exact absurd (h.unordered.mpr hk) hu

theorem add (h : r.Shows s) (l : Line) : (r.add l).Shows (s.add l) := by
  have hparts : ∀ (fs : List Fragment) (f : Fragment), r.parts ++ fs ++ [f] = r.parts ++ (fs ++ [f]) := by
    intro fs f
    apply Array.ext'
    simp
  rw [h.isSound.add_eq,h.openList,hparts]
  refine shows_holding (s.kind?_add l).symm ?_
  rw [texts_holding,List.map_append,map_chars_change,List.map_singleton,l.flatMap_chars_element,← h.writes,
    s.tokens_add]
  simp only [List.map_append,List.map_singleton]

theorem close (h : r.Shows s) : r.close.Shows { blocks := s.whole } := by
  have htokens : Sheet.tokens { blocks := s.whole } = s.tokens ++ changeTokens s.kind? none := by
    rw [← s.tokens_whole]
    exact List.append_nil _
  rw [h.isSound.close_eq,h.openList]
  refine shows_holding rfl ?_
  rw [texts_holding,map_chars_change,← h.writes,htokens,List.map_append]

end Shows

/-- Whatever is called, a renderer shows a sheet with the lines it was fed. -/
theorem exists_shows_run (cs : List Call) :
    ∃ s : Sheet, (run cs).Shows s ∧ s.lines = (fed cs).map Line.read := by
  induction cs using List.reverseRecOn with
  | nil => exact ⟨{},⟨by decide,by decide,rfl,rfl⟩,rfl⟩
  | append_singleton cs c ih =>
    obtain ⟨s,hs,hlines⟩ := ih
    have hrun : run (cs ++ [c]) = (run cs).call c := by simp [run]
    rw [hrun]
    cases c with
    | feed t =>
      refine ⟨s.add (.read t),hs.add _,?_⟩
      rw [s.lines_add,hlines]
      simp [fed]
    | finish =>
      refine ⟨{ blocks := s.whole },hs.close,?_⟩
      have hwhole : Sheet.lines { blocks := s.whole } = s.lines := by
        rw [← s.lines_whole]
        exact List.append_nil _
      rw [hwhole,hlines]
      simp [fed]

theorem isSound_run (cs : List Call) : (run cs).IsSound := by
  obtain ⟨s,hs,-⟩ := exists_shows_run cs
  exact hs.isSound

/-! ### What calls keep -/

theorem IsSound.parts_prefix_call (h : r.IsSound) (c : Call) : r.parts.toList <+: (r.call c).parts.toList := by
  cases c with
  | feed t =>
    change r.parts.toList <+: (r.add (.read t)).parts.toList
    rw [h.add_eq]
    simp
  | finish =>
    change r.parts.toList <+: r.close.parts.toList
    rw [h.close_eq]
    simp

/-- Later calls add parts after those that are there. -/
theorem parts_prefix_run (cs ds : List Call) : (run cs).parts.toList <+: (run (cs ++ ds)).parts.toList := by
  induction ds using List.reverseRecOn with
  | nil => simp
  | append_singleton ds d ih =>
    have hrun : run (cs ++ (ds ++ [d])) = (run (cs ++ ds)).call d := by simp [run]
    rw [hrun]
    exact ih.trans ((isSound_run _).parts_prefix_call d)

/-- Where no list is open, there is nothing to close. -/
theorem close_eq_self (ho : r.inOrdered = false) (hu : r.inUnordered = false) : r.close = r := by
  simp [close,closeList,isOpen,ho,hu]

theorem render_html (r : Renderer) : r.html.render = String.ofList r.texts.flatten := by
  simp [html,texts,Fragment.render,List.flatMap_def,List.map_flatten,List.flatten_flatten,Function.comp_def]

/-- After any calls: the parts are whole blocks and then the one list that the flags name, if they name one,
and these are the lines that were fed; the flags are not both set; later calls only add parts at the end.
Finishing leaves no list open and gives all parts, and once more it gives the same. -/
theorem run_showsBlocks (cs : List Call) :
    (∃ s : Sheet, (run cs).Shows s ∧ List.Forall₂ Line.Spells (fed cs) s.lines) ∧
    ¬ ((run cs).inOrdered = true ∧ (run cs).inUnordered = true) ∧
    (∀ ds, (run cs).parts.toList <+: (run (cs ++ ds)).parts.toList) ∧
    ∀ text r, (run cs).finish = (text,r) →
      r.inOrdered = false ∧ r.inUnordered = false ∧ text = String.ofList r.texts.flatten ∧
        r.finish = (text,r) := by
  obtain ⟨s,hs,hlines⟩ := exists_shows_run cs
  refine ⟨⟨s,hs,Line.forall₂_spells_iff.mpr hlines.symm⟩,hs.isSound,parts_prefix_run cs,?_⟩
  rintro text r hfinish
  obtain ⟨rfl,rfl⟩ := Prod.mk.inj hfinish
  have ho : (run cs).close.inOrdered = false := by
    simpa [Sheet.kind?] using hs.close.ordered
  have hu : (run cs).close.inUnordered = false := by
    simpa [Sheet.kind?] using hs.close.unordered
  exact ⟨ho,hu,render_html _,by rw [finish,close_eq_self ho hu]⟩

/-- A list is over when the renderer is finished, and a line end within an item is a part of its text. -/
example : (run [.feed "- a".toList,.finish,.feed "- b\n- c".toList]).texts =
    ["<ul>\n","  <li>a</li>\n","</ul>\n","<ul>\n","  <li>b\n- c</li>\n"].map String.toList := by
  decide +kernel

end Renderer

end BlogSite.Markup
