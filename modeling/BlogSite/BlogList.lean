import BlogSite.Json.Reader
import BlogSite.Post
import BlogSite.World

/-!
The list of blogs: a JSON file with one object for each blog. A blog has to have a slug; what else
is missing is shown as nothing.
-/

namespace BlogSite

/-- The planet of a blog. Anything but a mapping has no fields to take it from, unless it does not
count as given. -/
def Planet.ofValue (v : Value) : Except Failure Planet :=
  let read := fun (es : Entries) =>
    ({ emoji := es.fieldText "emoji", nameJa := es.fieldText "nameJa", name := es.fieldText "name" } :
      Planet)
  match v.orElse (.map []) with
  | .map es => .ok (read es)
  | _ => .error .noFields

/-- The blog that an entry of the list describes. -/
def Blog.ofEntries (es : Entries) : Except Failure Blog :=
  match es.find? (.str "slug") with
  | none => .error .missingKey
  | some slug => do
    let planet ← Planet.ofValue (es.field "planet")
    return {
      slug := String.ofList slug.display
      title := es.fieldText "title"
      desc := es.fieldText "desc"
      author := es.fieldText "author"
      theme := (es.field "theme").orElse .null
      planet }

namespace BlogList

/-- The blogs of the entries of a list. `position` is that of the first of them, counted from
one. -/
def ofItems (path : String) (position : Nat) : List Value → Except Failure (List Blog)
  | [] => .ok []
  | .map es :: vs =>
    if (Entries.field es "slug").truthy then do
      let blog ← Blog.ofEntries es
      return blog :: (← ofItems path (position + 1) vs)
    else .error (.invalidBlogList (.noSlug path position))
  | _ :: _ => .error (.invalidBlogList (.noSlug path position))

/-- The blogs that the text of a file lists. -/
def ofText (path text : String) : Except Failure (List Blog) :=
  match Json.read text with
  | .error .malformed => .error (.invalidBlogList (.notJson path))
  | .error .tooLong => .error .badValue
  | .ok (.list vs) => ofItems path 1 vs
  | .ok _ => .error (.invalidBlogList (.notList path))

/-- The blogs that a file lists, in its order. -/
def load (path : String) : Run (List Blog) := do
  if ← Run.ask (·.isThere path) then
    Run.settle (ofText path (← Run.readText path))
  else throw (.missingBlogList path)

end BlogList

end BlogSite
