import BlogSite.Text.Blank
import BlogSite.Text.Digit

/-!
Style sheets as rows of glyphs. A glyph is a character that rules may change, or a kept text (a
string, an important comment, the arguments of a calculation) that no rule looks into. Kept texts
count as parts of words.
-/

namespace BlogSite.Minify.Css

open BlogSite.Text

inductive Glyph where
  | char (c : Char)
  | kept (s : List Char)
deriving DecidableEq

abbrev Sheet := List Glyph

namespace Glyph

def isBlank : Glyph → Bool
  | .char c => Text.isBlank c
  | .kept _ => false

/-- Whether this is one of some characters. -/
def isOneOf (cs : String) : Glyph → Bool
  | .char c => cs.toList.contains c
  | .kept _ => false

def isDigit : Glyph → Bool
  | .char c => Text.isDigit c
  | .kept _ => false

/-- The value of a hexadecimal digit. -/
def hexValue? : Glyph → Option Nat
  | .char c => Text.hexValue? c
  | .kept _ => none

def isWord : Glyph → Bool
  | .char c => c.isAlphanum || c == '_'
  | .kept _ => true

def lower : Glyph → Glyph
  | .char c => .char c.toLower
  | .kept s => .kept s

/-- The characters that a glyph stands for. -/
def chars : Glyph → List Char
  | .char c => [c]
  | .kept s => s

end Glyph

def ofChars (s : List Char) : Sheet := s.map .char

def ofText (s : String) : Sheet := ofChars s.toList

/-- The text of a sheet. -/
def chars (g : Sheet) : List Char := g.flatMap Glyph.chars

/-- A shape at the start of a sheet: how many glyphs have it. -/
abbrev Shape := Sheet → Option Nat

namespace Shape

/-- One glyph of a class. -/
def one (p : Glyph → Bool) : Shape
  | g :: _ => if p g then some 1 else none
  | [] => none

/-- All glyphs of a class, of which there may be none. -/
def many (p : Glyph → Bool) : Shape := fun g => some (g.takeWhile p).length

/-- A word in any case. -/
def word (s : String) : Shape := fun g =>
  if (ofText s).isPrefixOf ((g.take s.length).map Glyph.lower) then some s.length else none

/-- A word in the case in which it is given. -/
def spelling (s : String) : Shape := fun g =>
  if (ofText s).isPrefixOf g then some s.length else none

/-- One shape after the other. -/
def andThen (a b : Shape) : Shape := fun g => do
  let m ← a g
  let n ← b (g.drop m)
  return m + n

/-- The first of some shapes that there is. -/
def firstOf (shapes : List Shape) : Shape := fun g => shapes.findSome? (· g)

/-- A shape or nothing. -/
def optional (a : Shape) : Shape := fun g => some ((a g).getD 0)

def all (shapes : List Shape) : Shape := shapes.foldr andThen fun _ => some 0

/-- The first of some words. -/
def words (ws : List String) : Shape := firstOf (ws.map word)

end Shape

/-- A rule: what to put in place of how many glyphs at the start of a sheet. -/
abbrev Rule := Sheet → Option (Sheet × Nat)

namespace Rule

/-- Changes what has a shape. -/
def change (shape : Shape) (f : Sheet → Sheet) : Rule := fun g =>
  (shape g).map fun n => (f (g.take n), n)

/-- Applies a rule from left to right. `skip` glyphs are replaced already. -/
def applyFrom (rule : Rule) : Nat → Sheet → Sheet
  | _, [] => []
  | skip + 1, _ :: g => applyFrom rule skip g
  | 0, x :: g =>
    match rule (x :: g) with
    | some (new, n) => new ++ applyFrom rule (n - 1) g
    | none => x :: applyFrom rule 0 g

def apply (rule : Rule) (g : Sheet) : Sheet := rule.applyFrom 0 g

end Rule

end BlogSite.Minify.Css
