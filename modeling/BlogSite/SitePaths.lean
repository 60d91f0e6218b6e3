import BlogSite.Failure
import BlogSite.Value.Basic

/-!
The places that a build reads from and writes to. Settings name them from the root of a project;
here they are absolute and normal.
-/

namespace BlogSite

structure SitePaths where
  contentDir : String
  templatesDir : String
  publicDir : String
  outputDir : String
deriving DecidableEq

namespace SitePaths

/-- The file that lists the blogs. -/
def blogList (p : SitePaths) : String := Path.join p.contentDir "blogs.json"

/-- The place that a path names when it is seen from the root. -/
def place (homes : Path.Homes) (root path : String) : String :=
  Path.normalise (Path.join root (Path.expandHome homes path))

/-- The place that a setting names. -/
def placeOf (homes : Path.Homes) (root : String) (settings : Entries) (key : String) :
    Except Failure String :=
  match settings.find? (.str key) with
  | none => .error .missingKey
  | some (.str path) => .ok (place homes root path)
  | some _ => .error .wrongType

/-- The places that settings name. -/
def ofSettings (homes : Path.Homes) (root : String) (settings : Entries) :
    Except Failure SitePaths := do
  let contentDir ← placeOf homes root settings "content"
  let templatesDir ← placeOf homes root settings "templates"
  let publicDir ← placeOf homes root settings "public"
  let outputDir ← placeOf homes root settings "output"
  return { contentDir, templatesDir, publicDir, outputDir }

end SitePaths

end BlogSite
