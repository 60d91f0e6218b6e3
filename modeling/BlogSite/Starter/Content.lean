import BlogSite.Json.Writer

/-!
The content of a new site: a list with one blog, and a post in it.
-/

namespace BlogSite.Starter

/-- A mapping from names to texts. -/
def texts (fields : List (String × String)) : Entries := fields.map fun (k, s) => (.str k, .str s)

/-- The blogs that a new site has. -/
def blogs : Value :=
  .list [.map (texts [
      ("slug", "hello-world"),
      ("title", "Hello World"),
      ("desc", "The first blog in the universe"),
      ("author", "Site Author"),
      ("theme", "word-retro")] ++
    [(.str "planet", .map (texts [("emoji", "🌍"), ("nameJa", "地球"), ("name", "Earth")]))])]

def blogList : String := Json.write blogs ++ "\n"

def welcomePost : String :=
  "---\n" ++
  "title: \"Welcome to StarBlog\"\n" ++
  "date: 2025-01-01\n" ++
  "author: Site Author\n" ++
  "excerpt: \"Your first post.\"\n" ++
  "tags:\n" ++
  "  - news\n" ++
  "---\n" ++
  "# Welcome\n" ++
  "\n" ++
  "StarBlog turns plain text posts into a multi-blog site.\n" ++
  "\n" ++
  "## Getting started\n" ++
  "1. Add blogs to content/blogs.json\n" ++
  "2. Write posts in content/blogs/<slug>/posts/\n" ++
  "3. Run starblog\n" ++
  "\n" ++
  "- Headings start with #\n" ++
  "- Lists start with - or 1.\n"

end BlogSite.Starter
