import BlogSite.Html.Fragment
import BlogSite.Text.Blank
import BlogSite.Text.Lines

/-!
The markup of post bodies: every line is one element, told by how it starts. Items that follow one
another share a list, which a renderer keeps open while it is fed line by line.
-/

namespace BlogSite.Markup

open BlogSite.Text BlogSite.Html

inductive ListKind where
  | ordered
  | unordered
deriving DecidableEq

/-- A line of markup with its text. -/
inductive Line where
  | heading (level : Nat) (text : List Char)
  | item (kind : ListKind) (text : List Char)
  | blank
  | paragraph (text : List Char)
deriving DecidableEq

namespace Line

/-- The text after the start of a line, if the line starts so. -/
def after? (start : List Char) (s : List Char) : Option (List Char) :=
  if start.isPrefixOf s then some (s.drop start.length) else none

/-- The text after a number, a point and a blank. -/
def afterNumber? (s : List Char) : Option (List Char) :=
  match s.takeWhile isDigit, s.dropWhile isDigit with
  | _ :: _, '.' :: c :: r => if isBlank c then some r else none
  | _, _ => none

/-- What a line is, by its first characters. -/
def read (s : List Char) : Line :=
  if let some r := after? "### ".toList s then .heading 3 r
  else if let some r := after? "## ".toList s then .heading 2 r
  else if let some r := after? "# ".toList s then .heading 1 r
  else if let some r := afterNumber? s then .item .ordered r
  else if let some r := after? "- ".toList s then .item .unordered r
  else if allBlank s then .blank
  else .paragraph s

end Line

namespace ListKind

def other : ListKind → ListKind
  | .ordered => .unordered
  | .unordered => .ordered

def opening : ListKind → Fragment
  | .ordered => [markup "<ol>\n"]
  | .unordered => [markup "<ul>\n"]

def closing : ListKind → Fragment
  | .ordered => [markup "</ol>\n"]
  | .unordered => [markup "</ul>\n"]

end ListKind

/-- The element of a line. -/
def Line.element : Line → Fragment
  | .heading level s =>
    let n := toString level
    [markup ("<h" ++ n ++ ">"), text (String.ofList s), markup ("</h" ++ n ++ ">\n")]
  | .item _ s => [markup "  <li>", text (String.ofList s), markup "</li>\n"]
  | .blank => [markup "\n"]
  | .paragraph s => [markup "<p>", text (String.ofList s), markup "</p>\n"]

/-- The list that a line belongs to. -/
def Line.listKind? : Line → Option ListKind
  | .item k _ => some k
  | _ => none

/-- The parts written so far, and for both kinds of lists whether one is open. -/
structure Renderer where
  parts : Array Fragment := #[]
  inOrdered : Bool := false
  inUnordered : Bool := false

namespace Renderer

def isOpen (r : Renderer) : ListKind → Bool
  | .ordered => r.inOrdered
  | .unordered => r.inUnordered

/-- The list that is open. -/
def openList (r : Renderer) : Option ListKind :=
  if r.inOrdered then some .ordered else if r.inUnordered then some .unordered else none

def setOpen (r : Renderer) (k : ListKind) (isOpen : Bool) : Renderer :=
  match k with
  | .ordered => { r with inOrdered := isOpen }
  | .unordered => { r with inUnordered := isOpen }

def write (r : Renderer) (part : Fragment) : Renderer := { r with parts := r.parts.push part }

/-- Closes a list of a kind, if one is open. -/
def closeList (r : Renderer) (k : ListKind) : Renderer :=
  if r.isOpen k then (r.write k.closing).setOpen k false else r

/-- Opens a list of a kind, unless one is open. -/
def enterList (r : Renderer) (k : ListKind) : Renderer :=
  if r.isOpen k then r else (r.write k.opening).setOpen k true

/-- Closes the lists that are open. -/
def close (r : Renderer) : Renderer := (r.closeList .ordered).closeList .unordered

/-- Writes the element of a line. An item stands in a list of its kind, everything else in none. -/
def add (r : Renderer) (l : Line) : Renderer :=
  match l.listKind? with
  | some k => ((r.closeList k.other).enterList k).write l.element
  | none => r.close.write l.element

def feed (r : Renderer) (s : List Char) : Renderer := r.add (.read s)

/-- Everything written so far. -/
def html (r : Renderer) : Fragment := r.parts.toList.flatten

end Renderer

/-- The lines of a body, without the carriage returns at their ends. -/
def bodyLines (body : String) : List (List Char) :=
  (lines body.toList).map (dropRight (· == '\r'))

/-- The HTML of a body; an empty one has none. -/
def fragment (body : String) : Fragment :=
  if body = "" then [] else ((bodyLines body).foldl Renderer.feed {}).close.html

def render (body : String) : String := (fragment body).render

end BlogSite.Markup
