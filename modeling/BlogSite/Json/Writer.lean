import BlogSite.Text.Digit
import BlogSite.Value.Display

/-!
Writing JSON with one item or member on a line, indented by two spaces a level.
-/

namespace BlogSite.Json

open BlogSite.Text

def escapedChar (c : Char) : List Char :=
  if c = '"' || c = '\\' then ['\\', c]
  else if c = '\n' then ['\\', 'n']
  else if c = '\r' then ['\\', 'r']
  else if c = '\t' then ['\\', 't']
  else if c = '\x08' then ['\\', 'b']
  else if c = '\x0c' then ['\\', 'f']
  else if c.toNat < 32 then '\\' :: 'u' :: hex 4 c.toNat
  else [c]

def string (s : List Char) : List Char := '"' :: s.flatMap escapedChar ++ ['"']

/-- A line break and the indentation of a level. -/
def newLine (level : Nat) : List Char := '\n' :: List.replicate (2 * level) ' '

/-- Parts between brackets, each on a line of its own. -/
def bracketed (left right : Char) (level : Nat) (parts : List (List Char)) : List Char :=
  if parts.isEmpty then [left, right]
  else left :: newLine (level + 1) ++ joinWith (',' :: newLine (level + 1)) parts ++
    newLine level ++ [right]

mutual

/-- A value on a level. What JSON has no form for is written as a string. -/
def render (level : Nat) : Value → List Char
  | .null => "null".toList
  | .bool b => (toString b).toList
  | .int n => Value.intText n
  | .float x => Value.floatText x
  | .str s => string s.toList
  | .list items | .tuple items | .set items =>
    bracketed '[' ']' level (renderItems (level + 1) items)
  | .map entries => bracketed '\x7b' '\x7d' level (renderMembers (level + 1) entries)
  | v => string v.display

def renderItems (level : Nat) : List Value → List (List Char)
  | [] => []
  | v :: vs => render level v :: renderItems level vs

def renderMembers (level : Nat) : List (Value × Value) → List (List Char)
  | [] => []
  | (k, v) :: es => (string k.display ++ ':' :: ' ' :: render level v) :: renderMembers level es

end

/-- The text of a value. -/
def write (v : Value) : String := String.ofList (render 0 v)

end BlogSite.Json
