import BlogSite.Html.Escape
import BlogSite.Value.Display

/-!
Fragments of HTML. A fragment is fixed markup with texts between it; rendering escapes the texts and
nothing else, so no text can be taken for markup.
-/

namespace BlogSite.Html

inductive Piece where
  | markup (s : String)
  | text (s : String)
deriving DecidableEq

abbrev Fragment := List Piece

namespace Fragment

/-- The characters of a piece on the page. -/
def chars : Piece → List Char
  | .markup s => s.toList
  | .text s => escape s.toList

def render (f : Fragment) : String := String.ofList (f.flatMap chars)

@[simp] theorem toList_render (f : Fragment) : (render f).toList = f.flatMap chars := by
  simp [render]

@[simp] theorem render_nil : render [] = "" := rfl

@[simp] theorem render_append (f g : Fragment) : render (f ++ g) = render f ++ render g := by
  simp [render, String.ofList_append]

/-- Fragments with a separator between each two. -/
def join (sep : String) : List Fragment → Fragment
  | [] => []
  | [f] => f
  | f :: fs => f ++ .markup sep :: join sep fs

end Fragment

/-- Fixed markup. -/
def markup (s : String) : Piece := .markup s

/-- A text, shown as it is. -/
def text (s : String) : Piece := .text s

/-- A value, shown as a text; nothing is shown as nothing. -/
def value (v : Value) : Piece := .text (String.ofList v.text)

/-- A value escaped for a page. -/
def escapeValue (v : Value) : String := String.ofList (escape v.text)

end BlogSite.Html
