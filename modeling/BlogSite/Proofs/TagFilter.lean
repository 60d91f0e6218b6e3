import BlogSite.Proofs.TagAttributes
import BlogSite.Proofs.TextParts
import Mathlib.Data.List.Forall2

/-!
The tag filter of a blog. A reader of the page cuts the attribute of each card at the commas and
compares the parts with the tag of a button. That picks the cards of the posts with the tag as long
as no tag has a comma in it or is the value for all posts, and the empty tag does not meet posts
without tags; otherwise it does not.
-/

namespace BlogSite

open Html

theorem mem_distinct {α : Type} [DecidableEq α] {x : α} {xs : List α} : x ∈ distinct xs ↔ x ∈ xs := by
  have hseen : ∀ seen : List α, x ∈ xs.foldl (fun seen x => if x ∈ seen then seen else x :: seen) seen ↔
      x ∈ seen ∨ x ∈ xs := by
    induction xs with
    | nil => simp
    | cons y ys ih =>
      intro seen
      rw [List.foldl_cons,ih,List.mem_cons]
      split
      · rename_i hy
        constructor
        · rintro (h | h)
          · exact Or.inl h
          · exact Or.inr (Or.inr h)
        · rintro (h | rfl | h)
          · exact Or.inl h
          · exact Or.inl hy
          · exact Or.inr h
      · rw [List.mem_cons,or_assoc,or_left_comm]
  simp [distinct,hseen]

theorem mem_uniqueTags {posts : List Post} {tag : String} :
    tag ∈ uniqueTags posts ↔ ∃ p ∈ posts, tag ∈ p.tags := by
  rw [uniqueTags,mem_distinct,List.mem_flatMap]

namespace Theme

/-- The tags that a reader finds on each card of a page. -/
def cardTags (page : String) : List (List String) :=
  (attributeValues "data-post-tags" page).map (Text.parts ',')

/-- The tags that a reader finds on the buttons of a page, after the button for all posts. -/
def buttonTags (page : String) : List String := (attributeValues "data-tag-btn" page).tail

theorem cardTags_postList {t : Theme} (ht : t.IsPlain) (posts : List Post) :
    cardTags (t.postList posts).render =
      posts.map fun p => Text.parts ',' (",".intercalate p.tags) := by
  have hcards : attributeValues "data-post-tags" (t.postList posts).render =
      posts.map fun p => ",".intercalate p.tags := (reads_tags_postList ht posts).attributeValues
  rw [cardTags,hcards,List.map_map]
  rfl

theorem buttonTags_tagFilter {t : Theme} (ht : t.IsPlain) (posts : List Post) :
    buttonTags (t.tagFilter posts).render = uniqueTags posts := by
  have hread := reads_tagFilter ht posts
  unfold buttonTags
  split at hread
  · rename_i hnone
    have hbuttons : attributeValues "data-tag-btn" (t.tagFilter posts).render = List.map id [] :=
      hread.attributeValues
    rw [hbuttons,hnone]
    rfl
  · have hbuttons : attributeValues "data-tag-btn" (t.tagFilter posts).render =
        (allTags :: uniqueTags posts).map id := hread.attributeValues
    rw [hbuttons,List.map_id,List.tail_cons]

/-- Each tag of the posts has a button, with the tag beside the value for all posts, by which the
cards of the posts with the tag are found and no others. -/
def FilterAgrees (t : Theme) (posts : List Post) : Prop :=
  List.Forall₂ (fun tag button => button ≠ allTags ∧
      List.Forall₂ (fun p shown => button ∈ shown ↔ tag ∈ p.tags) posts
        (cardTags (t.postList posts).render))
    (uniqueTags posts) (buttonTags (t.tagFilter posts).render)

end Theme

/-- No tag has a comma in it or is the value for all posts, and not both the empty tag and posts
without tags are there. -/
structure Post.TagsApart (posts : List Post) : Prop where
  noComma : ∀ p ∈ posts, ∀ tag ∈ p.tags, ',' ∉ tag.toList
  notAll : ∀ p ∈ posts, ∀ tag ∈ p.tags, tag ≠ Theme.allTags
  someTags : ∀ p ∈ posts, "" ∈ p.tags → ∀ q ∈ posts, q.tags ≠ []

namespace Theme

/-- Cutting at the commas gives the tags back; no tags are read as the empty one. -/
theorem mem_parts_iff {tags : List String} (h : ∀ tag ∈ tags, ',' ∉ tag.toList) {tag : String} :
    tag ∈ Text.parts ',' (",".intercalate tags) ↔ tag ∈ tags ∨ tags = [] ∧ tag = "" := by
  by_cases hnone : tags = []
  · subst hnone
    simp [Text.parts,Text.splitOn]
  · have hparts : Text.parts ',' (",".intercalate tags) = tags := Text.parts_intercalate hnone h
    simp [hparts,hnone]

/-- What the filter has to do, told by the tags alone. -/
theorem filterAgrees_iff_tags {t : Theme} (ht : t.IsPlain) (posts : List Post) :
    t.FilterAgrees posts ↔ ∀ tag ∈ uniqueTags posts, tag ≠ allTags ∧
      ∀ p ∈ posts, (tag ∈ Text.parts ',' (",".intercalate p.tags) ↔ tag ∈ p.tags) := by
  unfold FilterAgrees
  rw [buttonTags_tagFilter ht,cardTags_postList ht,List.forall₂_same]
  simp only [List.forall₂_map_right_iff,List.forall₂_same]

/-- The filter of a page finds the right cards exactly when the tags of the posts are apart. -/
theorem filterAgrees_of_isPlain {t : Theme} (ht : t.IsPlain) (posts : List Post) :
    t.FilterAgrees posts ↔ Post.TagsApart posts := by
  rw [filterAgrees_iff_tags ht]
  constructor
  · intro h
    have htag : ∀ p ∈ posts, ∀ tag ∈ p.tags, tag ∈ uniqueTags posts :=
      fun p hp tag htag => mem_uniqueTags.mpr ⟨p,hp,htag⟩
    refine ⟨?_,?_,?_⟩
    · intro p hp tag hmem
      exact Text.notMem_of_mem_parts (((h tag (htag p hp tag hmem)).2 p hp).mpr hmem)
    · exact fun p hp tag hmem => (h tag (htag p hp tag hmem)).1
    · intro p hp hempty q hq hnone
      have hfound := (h "" (htag p hp "" hempty)).2 q hq
      rw [hnone] at hfound
      exact absurd (hfound.mp (by decide)) (by simp)
  · intro h tag hunique
    obtain ⟨p,hp,hmem⟩ := mem_uniqueTags.mp hunique
    refine ⟨h.notAll p hp tag hmem,?_⟩
    intro q hq
    rw [mem_parts_iff (h.noComma q hq)]
    constructor
    · rintro (hfound | ⟨hnone,rfl⟩)
      · exact hfound
      · exact absurd hnone (h.someTags p hp hmem q hq)
    · exact Or.inl

/-- For every theme and all posts, the buttons find the cards of the posts with their tags exactly when
no tag has a comma in it or is the value for all posts and the empty tag does not meet posts without
tags. -/
theorem filterAgrees_iff (name : String) (posts : List Post) :
    (named name).FilterAgrees posts ↔ Post.TagsApart posts := by
  have hmem : named name ∈ registry := by
    unfold named
    cases hfind : registry.find? (·.name = name) with
    | none => decide
    | some t => exact List.mem_of_find?_eq_some hfind
  exact filterAgrees_of_isPlain (isPlain_of_mem_registry _ hmem) posts

/-- A button for a tag with a comma in it finds no card. -/
theorem not_filterAgrees_comma :
    ¬ (named "word-retro").FilterAgrees
      [{ slug := "p", title := .str "T", date := "2024-01-01", author := .str "A", excerpt := .str "",
         tags := ["a,b"], content := "" }] := by
  rw [filterAgrees_of_isPlain (isPlain_of_mem_registry _ (by decide))]
  intro h
  exact h.noComma _ List.mem_cons_self "a,b" List.mem_cons_self (by decide)

end Theme

end BlogSite
