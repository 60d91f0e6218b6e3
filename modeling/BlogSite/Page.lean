import BlogSite.Home
import BlogSite.Markup
import BlogSite.Path
import BlogSite.Table

/-!
What the pages of a site show: for each page the texts that are put into its template, by the names
of their tokens.
-/

namespace BlogSite

open BlogSite.Html BlogSite.Calendar

/-- What a page shows, by the names of the tokens. -/
abbrev Shown := List (String × String)

/-- A text escaped for a page. -/
def escapeText (s : String) : String := escapeValue (.str s)

namespace BlogPage

def path (b : Blog) : String := Path.joinAll "blogs" [b.slug, "index.html"]

/-- The date of the newest of some posts. -/
def latestDate : List Post → String
  | [] => "N/A"
  | p :: _ => escapeText p.date

/-- What the page of a blog shows. -/
def shown (t : Theme) (b : Blog) (posts : List Post) : Shown :=
  [("BLOG_TITLE", escapeValue b.title),
   ("BLOG_DESC", escapeValue b.desc),
   ("BLOG_AUTHOR", escapeValue b.author),
   ("BLOG_EMOJI", escapeValue b.planet.emoji),
   ("BLOG_SLUG", escapeText b.slug),
   ("PLANET_JA", escapeValue b.planet.nameJa),
   ("PLANET_EN", escapeValue b.planet.name),
   ("POST_COUNT", toString posts.length),
   ("LATEST_DATE", latestDate posts),
   ("POST_LIST", (t.postList posts).render),
   ("TAG_FILTER", (t.tagFilter posts).render)]

end BlogPage

namespace PostPage

def path (b : Blog) (p : Post) : String := Path.joinAll "blogs" [b.slug, "posts", p.slug ++ ".html"]

/-- A post between its neighbours: the next newer and the next older one. -/
structure Place where
  newer : Option Post
  post : Post
  older : Option Post

/-- The posts of a blog with their neighbours. `newer` comes before the first of them. -/
def placesFrom (newer : Option Post) : List Post → List Place
  | [] => []
  | p :: ps => ⟨newer, p, ps.head?⟩ :: placesFrom (some p) ps

def places (posts : List Post) : List Place := placesFrom none posts

/-- The label of the link to the post that came before. -/
def olderLabel : Value := .str "← 前の記事"

def newerLabel : Value := .str "次の記事 →"

/-- Tags in quotation marks, as a list in a script. -/
def rawTags (tags : List String) : String :=
  ", ".intercalate (tags.map fun t => "\"" ++ escapeText t ++ "\"")

/-- What the page of a post shows. -/
def shown (t : Theme) (b : Blog) (at_ : Place) : Shown :=
  let p := at_.post
  [("POST_TITLE", escapeValue p.title),
   ("POST_DATE", escapeText p.date),
   ("POST_AUTHOR", escapeValue p.author),
   ("POST_EXCERPT", escapeValue p.excerpt),
   ("POST_SLUG", escapeText p.slug),
   ("POST_CONTENT", Markup.render p.content),
   ("POST_TAGS", (t.tagBadges p.tags).render),
   ("POST_TAGS_RAW", rawTags p.tags),
   ("BLOG_TITLE", escapeValue b.title),
   ("BLOG_EMOJI", escapeValue b.planet.emoji),
   ("BLOG_SLUG", escapeText b.slug),
   ("PREV_POST", (t.navCard at_.older olderLabel).render),
   ("NEXT_POST", (t.navCard at_.newer newerLabel).render)]

end PostPage

namespace HomePage

def path : String := "index.html"

/-- The posts of blogs, by the slugs of the blogs. -/
abbrev Shelf := List (String × List Post)

/-- How many posts the home page shows. -/
def latestCount : Nat := 10

/-- All posts with their blogs, newest first. -/
def entries (blogs : List Blog) (shelf : Shelf) : List (Blog × Post) :=
  newestFirst (fun e => e.2.date)
    (blogs.flatMap fun b => ((shelf.lookup b.slug).getD []).map fun p => (b, p))

/-- Whether a text names a day that is recent; none when there is no telling. -/
def isRecent? (date : String) (today : Date) : Option Bool :=
  match Date.parse? date.toList with
  | none => some false
  | some d => d.isRecent? today

/-- The slugs of the blogs whose newest post is recent. -/
def recentSlugs? (today : Date) : Shelf → Option (List String)
  | [] => some []
  | (_, []) :: shelf => recentSlugs? today shelf
  | (slug, p :: _) :: shelf => do
    let recent ← isRecent? p.date today
    let slugs ← recentSlugs? today shelf
    return if recent then slug :: slugs else slugs

/-- A day as the home page names it. -/
def buildDate (d : Date) : String :=
  toString d.year ++ "年" ++ toString d.month ++ "月" ++ toString d.day ++ "日"

/-- What the home page shows. -/
def shown (title : Value) (today : Date) (blogs : List Blog) (shelf : Shelf)
    (recent : List String) : Shown :=
  let all := entries blogs shelf
  let latest := all.take latestCount
  [("SITE_TITLE", escapeValue title),
   ("BUILD_DATE", buildDate today),
   ("BLOG_TABLE_ROWS",
    (Home.blogRows blogs (shelf.map fun (slug, ps) => (slug, .int ps.length)) recent).render),
   ("TOTAL_BLOGS", toString blogs.length),
   ("TOTAL_POSTS", toString all.length),
   ("LATEST_DATE", BlogPage.latestDate (latest.map Prod.snd)),
   ("LATEST_POSTS", (Home.latestPosts latest).render)]

end HomePage

end BlogSite
