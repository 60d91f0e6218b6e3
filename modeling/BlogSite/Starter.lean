import BlogSite.Starter.Assets
import BlogSite.Starter.Content
import BlogSite.Starter.Templates
import BlogSite.World

/-!
A new site: the files that a project starts with. What is there already is left as it is.
-/

namespace BlogSite.Starter

/-- A file with its path from the root of the project. -/
structure File where
  path : String
  text : String

/-- The files of a new site, in the order in which they are placed. -/
def files : List File :=
  [⟨"templates/404.html", notFoundTemplate⟩,
   ⟨"templates/home.html", homeTemplate⟩,
   ⟨"templates/word-retro/blog-list.html", blogTemplate⟩,
   ⟨"templates/word-retro/post.html", postTemplate⟩,
   ⟨"public/assets/css/word-retro.css", styleSheet⟩,
   ⟨"public/assets/js/tag-filter.js", tagScript⟩,
   ⟨"content/blogs.json", blogList⟩,
   ⟨"content/blogs/hello-world/posts/welcome.md", welcomePost⟩]

/-- Places a file unless something is there. -/
def place (root : String) (f : File) : Run Unit := do
  let path := Path.join root f.path
  if ← Run.ask (·.isThere path) then Run.print ("File already exists: " ++ f.path)
  else
    Run.makeDirectories (Path.parent path)
    Run.writeText path f.text
    Run.print ("Created: " ++ f.path)

/-- What to do next with a new site. -/
def advice : List String :=
  ["\nStarter structure created successfully!",
   "\nNext steps:",
   "1. Edit the configuration file (starblog.yml)",
   "2. Add blogs to content/blogs.json and posts under content/blogs/<slug>/posts/",
   "3. Add templates/<theme>/ for every theme your blogs use",
   "4. Run 'starblog' to build your site"]

/-- Places the files of a new site below a root. -/
def create (root : String) : Run Unit := do
  files.forM (place root)
  advice.forM Run.print

end BlogSite.Starter
