import BlogSite.BlogList
import BlogSite.Minify.Assets
import BlogSite.Page
import BlogSite.PostFolder
import BlogSite.SitePaths
import BlogSite.Template

/-!
Building a site: the output directory is made anew, static files are copied, and then page after
page is written. The first failure stops a build and leaves what was written.
-/

namespace BlogSite

open BlogSite.Calendar

/-- What to build, and how. -/
structure Site where
  paths : SitePaths
  title : Value := .str ""
  defaultTheme : Value := .str Theme.default.name
  minify : Bool := false
  today : Date
  yaml : YamlReader
  compressors : Minify.Compressors

namespace Site

def info (message : String) : Run Unit := Run.report .build .info message

def detail (message : String) : Run Unit := Run.report .build .detail message

def templates (s : Site) : Template.Folder := ⟨s.paths.templatesDir⟩

def posts (s : Site) : PostFolder := ⟨s.paths.contentDir, s.yaml⟩

/-- Writes a file of the site, in a directory that is made if it is missing. -/
def writePage (s : Site) (relative text : String) : Run Unit := do
  let path := Path.join s.paths.outputDir relative
  Run.makeDirectories (Path.parent path)
  Run.writeText path text
  modify fun w => { w with pages := w.pages.push relative }
  detail ("Wrote " ++ relative)

/-- Makes the output directory anew, so that nothing old is left in it. -/
def resetOutput (s : Site) : Run Unit := do
  if ← Run.ask (·.isThere s.paths.outputDir) then Run.removeTree s.paths.outputDir
  Run.makeDirectories s.paths.outputDir

/-- Copies the static files, if there are any. -/
def copyPublic (s : Site) : Run Unit := do
  let source := s.paths.publicDir
  if ← Run.ask (·.isDirectory source) then
    Run.alter (·.copyTree source s.paths.outputDir)
    info ("Copied static assets from " ++ source)
  else detail ("No public directory at " ++ source ++ ", skipping asset copy")

/-- The theme that a blog is shown in, as it is named. -/
def themeName (s : Site) (b : Blog) : Value :=
  b.theme.orElse (s.defaultTheme.orElse (.str Theme.default.name))

/-- Writes the page of a post. -/
def writePost (s : Site) (folder : String) (t : Theme) (b : Blog) (at_ : PostPage.Place) :
    Run Unit := do
  let template ← s.templates.read (folder ++ "/post.html")
  s.writePage (PostPage.path b at_.post) (Template.fillNamed template (PostPage.shown t b at_))

/-- Writes the page of a blog and the pages of its posts. -/
def writeBlog (s : Site) (b : Blog) : Run (List Post) := do
  let name := s.themeName b
  let folder := String.ofList name.display
  match Theme.ofValue? name with
  | none => throw .wrongType
  | some theme =>
    info ("[" ++ folder ++ "] " ++ String.ofList b.title.display ++ " (" ++ b.slug ++ ")")
    let posts ← s.posts.load b.slug
    info ("  " ++ toString posts.length ++ " posts")
    let template ← s.templates.read (folder ++ "/blog-list.html")
    s.writePage (BlogPage.path b) (Template.fillNamed template (BlogPage.shown theme b posts))
    (PostPage.places posts).forM (s.writePost folder theme b)
    return posts

/-- Writes the pages of blogs one after the other, and puts their posts on a shelf. -/
def writeBlogs (s : Site) (shelf : HomePage.Shelf) : List Blog → Run HomePage.Shelf
  | [] => return shelf
  | b :: bs => do
    let posts ← s.writeBlog b
    writeBlogs s (Table.put b.slug posts shelf) bs

/-- Writes the home page. -/
def writeHome (s : Site) (blogs : List Blog) (shelf : HomePage.Shelf) : Run Unit := do
  info "Building home page"
  match HomePage.recentSlugs? s.today shelf with
  | none => throw .outOfRange
  | some recent =>
    let template ← s.templates.read "home.html"
    s.writePage HomePage.path
      (Template.fillNamed template (HomePage.shown s.title s.today blogs shelf recent))

/-- Writes the page for addresses that lead nowhere. -/
def writeNotFound (s : Site) : Run Unit := do
  info "Building 404 page"
  s.writePage "404.html" (← s.templates.read "404.html")

/-- Builds the site. The posts of the blogs are returned by the slugs of the blogs. -/
def build (s : Site) : Run HomePage.Shelf := do
  modify fun w => { w with pages := #[] }
  info "Starting site build..."
  s.resetOutput
  s.copyPublic
  let blogs ← BlogList.load s.paths.blogList
  info ("Loaded " ++ toString blogs.length ++ " blogs from " ++ s.paths.blogList)
  let shelf ← s.writeBlogs [] blogs
  s.writeHome blogs shelf
  s.writeNotFound
  s.writePage ".nojekyll" ""
  if s.minify then Minify.assets s.compressors s.paths.outputDir
  info ("Total blogs generated: " ++ toString blogs.length)
  info ("Total posts generated: " ++ toString ((shelf.map fun e => e.2.length).foldl (· + ·) 0))
  info ("Total files written: " ++ toString (← get).pages.size)
  return shelf

end Site

end BlogSite
