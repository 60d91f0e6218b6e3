import BlogSite.Proofs.MarkupLines
import Mathlib.Data.List.Chain

/-!
The page of a body as a row of blocks. A block is one line that is no item, or a list with at least
one item; two lists of one kind never follow each other. Rendering line by line writes exactly the
blocks of the body, and there is only one way to cut its lines into blocks.
-/

namespace BlogSite.Markup

open BlogSite.Text BlogSite.Html

/-- A part of a page that stands by itself. A list has a first item and more of them. -/
inductive Block where
  | list (kind : ListKind) (first : List Char) (more : List (List Char))
  | heading (level : Nat) (text : List Char)
  | blank
  | paragraph (text : List Char)

/-- A tag around its content. -/
def wrapped (tag inner : List Char) : List Char :=
  '<' :: tag ++ '>' :: inner ++ '<' :: '/' :: tag ++ ['>']

def ListKind.tag : ListKind → List Char
  | .ordered => ['o','l']
  | .unordered => ['u','l']

/-- An item of a list on the page. -/
def itemHtml (s : List Char) : List Char :=
  ' ' :: ' ' :: wrapped ['l','i'] (escape s) ++ ['\n']

namespace Block

/-- The lines that a block stands for. -/
def lines : Block → List Line
  | .list k first more => (first :: more).map (Line.item k)
  | .heading level s => [.heading level s]
  | .blank => [.blank]
  | .paragraph s => [.paragraph s]

def html : Block → List Char
  | .list k first more =>
    wrapped k.tag ('\n' :: (first :: more).flatMap itemHtml) ++ ['\n']
  | .heading level s => wrapped ('h' :: (toString level).toList) (escape s) ++ ['\n']
  | .blank => ['\n']
  | .paragraph s => wrapped ['p'] (escape s) ++ ['\n']

def listKind? : Block → Option ListKind
  | .list k _ _ => some k
  | _ => none

/-- Blocks that can stand side by side: they are not two lists of one kind. -/
def Apart (a b : Block) : Prop := a.listKind? = none ∨ a.listKind? ≠ b.listKind?

end Block

/-- A line put before the blocks that follow it. An item joins a list of its kind. -/
def Line.push : Line → List Block → List Block
  | .item k s, bs =>
    match bs with
    | .list k' first more :: rest =>
      if k = k' then .list k s (first :: more) :: rest
      else .list k s [] :: .list k' first more :: rest
    | bs => .list k s [] :: bs
  | .heading level s, bs => .heading level s :: bs
  | .blank, bs => .blank :: bs
  | .paragraph s, bs => .paragraph s :: bs

/-- The blocks of a row of lines: items that follow one another share a list. -/
def blocks (ls : List Line) : List Block := ls.foldr Line.push []

theorem lines_push (l : Line) (bs : List Block) :
    (l.push bs).flatMap Block.lines = l :: bs.flatMap Block.lines := by
  cases l with
  | item k s =>
    cases bs with
    | nil => simp [Line.push,Block.lines]
    | cons b rest =>
      cases b with
      | list k' first more =>
        by_cases hk : k = k'
        · subst k'
          simp [Line.push,Block.lines]
        · simp [Line.push,hk,Block.lines]
      | heading level t => simp [Line.push,Block.lines]
      | blank => simp [Line.push,Block.lines]
      | paragraph t => simp [Line.push,Block.lines]
  | heading level s => simp [Line.push,Block.lines]
  | blank => simp [Line.push,Block.lines]
  | paragraph s => simp [Line.push,Block.lines]

theorem lines_blocks (ls : List Line) : (blocks ls).flatMap Block.lines = ls := by
  induction ls with
  | nil => rfl
  | cons l ls ih =>
    change (l.push (blocks ls)).flatMap Block.lines = l :: ls
    rw [lines_push,ih]

/-- A line that is no item leaves the blocks after it alone. -/
theorem isChain_cons_of_listKind?_eq_none {b : Block} {bs : List Block} (hb : b.listKind? = none)
    (h : bs.IsChain Block.Apart) : (b :: bs).IsChain Block.Apart :=
  List.isChain_cons.mpr ⟨fun _ _ => Or.inl hb,h⟩

theorem isChain_push (l : Line) {bs : List Block} (h : bs.IsChain Block.Apart) :
    (l.push bs).IsChain Block.Apart := by
  cases l with
  | item k s =>
    cases bs with
    | nil => simp [Line.push]
    | cons b rest =>
      cases b with
      | list k' first more =>
        by_cases hk : k = k'
        · subst k'
          simpa [Line.push,List.isChain_cons,Block.Apart,Block.listKind?] using h
        · have ha : Block.Apart (.list k s []) (.list k' first more) := by
            simp [Block.Apart,Block.listKind?,hk]
          simpa [Line.push,hk,List.isChain_cons_cons,ha] using h
      | heading level t =>
        exact List.isChain_cons_cons.mpr ⟨by simp [Block.Apart,Block.listKind?],h⟩
      | blank => exact List.isChain_cons_cons.mpr ⟨by simp [Block.Apart,Block.listKind?],h⟩
      | paragraph t =>
        exact List.isChain_cons_cons.mpr ⟨by simp [Block.Apart,Block.listKind?],h⟩
  | heading level s => exact isChain_cons_of_listKind?_eq_none rfl h
  | blank => exact isChain_cons_of_listKind?_eq_none rfl h
  | paragraph s => exact isChain_cons_of_listKind?_eq_none rfl h

theorem isChain_blocks (ls : List Line) : (blocks ls).IsChain Block.Apart := by
  induction ls with
  | nil => exact List.isChain_nil
  | cons l ls ih => exact isChain_push l ih

/-- A list is what its items make of the blocks after it, if no list of its kind comes next. -/
theorem push_items (k : ListKind) (first : List Char) (more : List (List Char)) {bs : List Block}
    (h : ∀ b ∈ bs.head?, Block.Apart (.list k first more) b) :
    ((first :: more).map (Line.item k)).foldr Line.push bs = .list k first more :: bs := by
  induction more generalizing first with
  | nil =>
    cases bs with
    | nil => rfl
    | cons b rest =>
      cases b with
      | list k' t ts =>
        have hk : k ≠ k' := by simpa [Block.Apart,Block.listKind?] using h
        simp [Line.push,hk]
      | heading level t => rfl
      | blank => rfl
      | paragraph t => rfl
  | cons s more ih =>
    have hs : ((s :: more).map (Line.item k)).foldr Line.push bs = .list k s more :: bs := ih s h
    rw [List.map_cons,List.foldr_cons,hs]
    simp [Line.push]

theorem blocks_lines {bs : List Block} (h : bs.IsChain Block.Apart) :
    blocks (bs.flatMap Block.lines) = bs := by
  induction bs with
  | nil => rfl
  | cons b bs ih =>
    obtain ⟨hb,hbs⟩ := List.isChain_cons.mp h
    rw [List.flatMap_cons,blocks,List.foldr_append]
    change b.lines.foldr Line.push (blocks (bs.flatMap Block.lines)) = b :: bs
    rw [ih hbs]
    cases b with
    | list k first more => exact push_items k first more hb
    | heading level s => rfl
    | blank => rfl
    | paragraph s => rfl

/-- Lines are cut into blocks in one way only. -/
theorem eq_blocks_iff {bs : List Block} {ls : List Line} :
    bs = blocks ls ↔ bs.IsChain Block.Apart ∧ bs.flatMap Block.lines = ls := by
  constructor
  · rintro rfl
    exact ⟨isChain_blocks ls,lines_blocks ls⟩
  · rintro ⟨h,rfl⟩
    exact (blocks_lines h).symm

end BlogSite.Markup
