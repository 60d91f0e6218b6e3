/-!
Escaping for HTML text and quoted attribute values. The ampersand is replaced first, so that the
ampersands of the other entities are left alone.
-/

namespace BlogSite.Html

/-- Puts a text in place of every occurrence of a character. -/
def replace (c : Char) (r : List Char) (s : List Char) : List Char :=
  s.flatMap fun x => if x = c then r else [x]

/-- The characters with a meaning in HTML and the entities that stand for them, in the order in
which they are replaced. -/
def entities : List (Char × List Char) :=
  [('&', "&amp;".toList), ('<', "&lt;".toList), ('>', "&gt;".toList), ('"', "&quot;".toList)]

/-- A text in which every character stands for itself when it is read as HTML. -/
def escape (s : List Char) : List Char :=
  entities.foldl (fun s e => replace e.1 e.2 s) s

@[simp] theorem replace_nil (c : Char) (r : List Char) : replace c r [] = [] := rfl

@[simp] theorem replace_append (c : Char) (r s t : List Char) :
    replace c r (s ++ t) = replace c r s ++ replace c r t := by
  simp [replace]

@[simp] theorem escape_nil : escape [] = [] := rfl

@[simp] theorem escape_append (s t : List Char) : escape (s ++ t) = escape s ++ escape t := by
  simp [escape, entities]

end BlogSite.Html
