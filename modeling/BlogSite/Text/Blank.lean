/-!
Blank characters: the white space of Unicode together with the four ASCII separators U+001C to
U+001F. Core's `Char.isWhitespace` knows four of them.
-/

namespace BlogSite.Text

/-- A character that separates words and never shows. -/
def isBlank (c : Char) : Bool :=
  let n := c.toNat
  (9 ≤ n && n ≤ 13) || (28 ≤ n && n ≤ 32) || n == 133 || n == 160 || n == 5760 ||
    (8192 ≤ n && n ≤ 8202) || n == 8232 || n == 8233 || n == 8239 || n == 8287 || n == 12288

theorem isBlank_of_isWhitespace {c : Char} (h : c.isWhitespace = true) : isBlank c = true := by
  simp only [Char.isWhitespace, Bool.or_eq_true, decide_eq_true_eq] at h
  rcases h with ((rfl | rfl) | rfl) | rfl <;> decide

/-- Nothing but blanks, the empty text included. -/
def allBlank (s : List Char) : Bool := s.all isBlank

/-- Drops the characters of a class from the end of a text. -/
def dropRight (p : Char → Bool) (s : List Char) : List Char :=
  (s.reverse.dropWhile p).reverse

/-- Drops blanks at both ends. -/
def trim (s : List Char) : List Char := dropRight isBlank (s.dropWhile isBlank)

end BlogSite.Text
