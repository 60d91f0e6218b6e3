import BlogSite.Table
import BlogSite.Value.Display
import BlogSite.World

/-!
Templates: texts with tokens in double braces. A template is filled in one pass from left to right;
at each place the first of the tokens that starts there is replaced, longer tokens before shorter
ones. What is put in is not looked at again.
-/

namespace BlogSite.Template

/-- A token and what is put in its place. -/
abbrev Slots := List (List Char × List Char)

/-- The token of a name. -/
def token (name : List Char) : List Char := '\x7b' :: '\x7b' :: name ++ ['\x7d', '\x7d']

/-- The slots of named values. Of two values under one name the last one counts. -/
def slots (values : List (List Char × List Char)) : Slots :=
  Table.ofPairs (values.map fun v => (token v.1, v.2))

/-- Slots with longer tokens first. -/
def byLength (ss : Slots) : Slots := ss.mergeSort fun a b => b.1.length ≤ a.1.length

/-- The first slot whose token starts a text. -/
def match? (ss : Slots) (s : List Char) : Option (List Char × List Char) :=
  ss.find? fun x => x.1.isPrefixOf s

/-- Replaces tokens from left to right. `skip` characters belong to a token that is replaced
already. -/
def fillFrom (ss : Slots) : Nat → List Char → List Char
  | _, [] => []
  | skip + 1, _ :: cs => fillFrom ss skip cs
  | 0, c :: cs =>
    match match? ss (c :: cs) with
    | some (t, s) => s ++ fillFrom ss (t.length - 1) cs
    | none => c :: fillFrom ss 0 cs

/-- Fills a template with named texts. -/
def fillText (template : String) (values : List (List Char × List Char)) : String :=
  if values.isEmpty then template
  else String.ofList (fillFrom (byLength (slots values)) 0 template.toList)

/-- Fills a template with texts under fixed names. -/
def fillNamed (template : String) (values : List (String × String)) : String :=
  fillText template (values.map fun (n, s) => (n.toList, s.toList))

/-- Fills a template with named values. A value that is nothing leaves nothing. -/
def fill (template : String) (values : Entries) : String :=
  fillText template (values.map fun (k, v) => (k.display, v.text))

/-- Where the templates are. -/
structure Folder where
  path : String

namespace Folder

def pathOf (f : Folder) (relative : String) : String :=
  Path.normalise (Path.join f.path relative)

/-- The text of a template file. -/
def read (f : Folder) (relative : String) : Run String := do
  let path := f.pathOf relative
  if ← Run.ask (·.isFile path) then
    let text ← Run.readText path
    Run.report .templates .detail ("Loaded template: " ++ path)
    return text
  else throw (.missingTemplate path)

end Folder

end BlogSite.Template
