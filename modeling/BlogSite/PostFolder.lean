import BlogSite.FrontMatter
import BlogSite.Post
import BlogSite.World

/-!
The posts of a blog: the files in its folder that end in `.md`. A post has to have a title, a date
and an author; a draft has to have them too and is left out.
-/

namespace BlogSite

namespace Post

/-- What the front matter of a post has to give. -/
def requiredFields : List String := ["title", "date", "author"]

/-- The required fields that are not given. -/
def missingFields (metadata : Entries) : List String :=
  requiredFields.filter fun f => !(metadata.field f).truthy

/-- The tags of a post. Only lists and tuples hold tags. -/
def tagsOf : Value → List String
  | .list items | .tuple items => items.map fun v => String.ofList v.text
  | _ => []

/-- The number of characters in the text of a date. What follows, as the time of day, is cut. -/
def dateLength : Nat := 10

/-- A published post from its metadata and its body. -/
def ofParts (slug : String) (metadata : Entries) (body : String) : Post :=
  let shown := fun f => (metadata.field f).display
  { slug
    title := .str (String.ofList (shown "title"))
    date := String.ofList ((shown "date").take dateLength)
    author := .str (String.ofList (shown "author"))
    excerpt := (metadata.field "excerpt").orElse (.str "")
    tags := tagsOf (metadata.field "tags")
    content := body }

/-- What a post file holds. -/
inductive Reading where
  | draft
  | published (post : Post)

/-- Reads the text of a post file. `item` is the name of the file. -/
def read (yaml : YamlReader) (blog item slug text : String) : Except Failure Reading :=
  match FrontMatter.parse yaml text with
  | .error (.frontMatter fault) => .error (.invalidPost blog item fault)
  | .error f => .error f
  | .ok (metadata, body) =>
    match missingFields metadata with
    | [] =>
      if (metadata.field "draft").truthy then .ok .draft
      else .ok (.published (ofParts slug metadata body))
    | missing => .error (.invalidPost blog item (.missing missing))

end Post

/-- Where the posts of all blogs are, and how their metadata is read. -/
structure PostFolder where
  content : String
  yaml : YamlReader

namespace PostFolder

def ending : String := ".md"

/-- The directory with the posts of a blog. -/
def directory (f : PostFolder) (blog : String) : String :=
  Path.joinAll f.content ["blogs", blog, "posts"]

/-- Reads one post file; a draft is none. -/
def loadFile (f : PostFolder) (blog item slug : String) : Run (Option Post) := do
  let text ← Run.readText (Path.join (f.directory blog) item)
  match ← Run.settle (Post.read f.yaml blog item slug text) with
  | .draft =>
    Run.report .posts .detail ("Skipping draft: " ++ blog ++ "/posts/" ++ item)
    return none
  | .published post => return some post

/-- Reads post files one after the other. Other files are passed over. -/
def loadFiles (f : PostFolder) (blog : String) : List String → Run (List Post)
  | [] => return []
  | item :: items =>
    match Path.withoutEnding? ending item with
    | none => loadFiles f blog items
    | some slug => do
      let post ← f.loadFile blog item slug
      return post.toList ++ (← loadFiles f blog items)

/-- The published posts of a blog, newest first. A blog without a folder has none. -/
def load (f : PostFolder) (blog : String) : Run (List Post) := do
  let path := f.directory blog
  if ← Run.ask (·.isDirectory path) then
    let items ← Run.fetch (·.list path)
    return newestFirst Post.date (← f.loadFiles blog (Path.sortedNames items))
  else
    Run.report .posts .detail ("No posts directory for " ++ blog ++ ": " ++ path)
    return []

end PostFolder

end BlogSite
