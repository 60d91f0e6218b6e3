import BlogSite.Value.Display

/-!
Blogs and their posts. What pages only show is kept as the value that was written; slugs, dates and
tags, which order and address pages, are texts.
-/

namespace BlogSite

structure Post where
  slug : String
  title : Value
  date : String
  author : Value
  excerpt : Value
  tags : List String
  content : String

/-- The planet that a blog is said to come from. -/
structure Planet where
  emoji : Value
  nameJa : Value
  name : Value

structure Blog where
  slug : String
  title : Value
  desc : Value
  author : Value
  theme : Value
  planet : Planet

/-- Things with newer dates first. Dates are compared as texts, and things with one date keep their
order. -/
def newestFirst {α : Type} (date : α → String) (xs : List α) : List α :=
  xs.mergeSort fun a b => date b ≤ date a

/-- Values in the order of their first occurrence, each once. -/
def distinct {α : Type} [DecidableEq α] (xs : List α) : List α :=
  (xs.foldl (fun seen x => if x ∈ seen then seen else x :: seen) []).reverse

/-- The tags of posts in the order of their first occurrence. -/
def uniqueTags (posts : List Post) : List String := distinct (posts.flatMap Post.tags)

end BlogSite
