import BlogSite.Text.Digit
import BlogSite.Text.Printable

/-!
Quoted texts, as values are shown inside lists and messages: single quotes, unless the text holds a
single quote and no double quote. A backslash announces what cannot be shown as itself.
-/

namespace BlogSite.Text

/-- The quote that surrounds a text. -/
def quoteFor (s : List Char) : Char :=
  if s.contains '\'' && !s.contains '"' then '"' else '\''

/-- A character that is shown by its number, in the narrowest of the three widths. -/
def numbered (c : Char) : List Char :=
  let n := c.toNat
  if n < 256 then '\\' :: 'x' :: hex 2 n
  else if n < 65536 then '\\' :: 'u' :: hex 4 n
  else '\\' :: 'U' :: hex 8 n

def quotedChar (quote c : Char) : List Char :=
  if c = quote || c = '\\' then ['\\', c]
  else if c = '\t' then ['\\', 't']
  else if c = '\n' then ['\\', 'n']
  else if c = '\r' then ['\\', 'r']
  else if isPrintable c then [c]
  else numbered c

/-- A text between quotes. -/
def quoted (s : List Char) : List Char :=
  let q := quoteFor s
  q :: s.flatMap (quotedChar q) ++ [q]

/-- Bytes between quotes after a `b`: those outside ASCII are shown by their numbers. -/
def quotedBytes (bs : List UInt8) : List Char :=
  let cs := bs.map fun b => Char.ofNat b.toNat
  let q := quoteFor cs
  'b' :: q :: cs.flatMap (fun c => if c.toNat < 127 then quotedChar q c else numbered c) ++ [q]

end BlogSite.Text
