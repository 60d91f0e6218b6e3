/-!
Texts as lines. `lines` cuts at every line feed, so a text has one line more than it has line feeds;
`unifyBreaks` turns the three usual line ends into a line feed.
-/

namespace BlogSite.Text

/-- The pieces of a list between occurrences of a separator. -/
def splitOn {α : Type} [DecidableEq α] (sep : α) : List α → List (List α)
  | [] => [[]]
  | c :: cs =>
    if c = sep then [] :: splitOn sep cs
    else match splitOn sep cs with
      | [] => [[c]]
      | p :: ps => (c :: p) :: ps

theorem splitOn_ne_nil {α : Type} [DecidableEq α] (sep : α) (s : List α) :
    splitOn sep s ≠ [] := by
  cases s with
  | nil => simp [splitOn]
  | cons c cs =>
    unfold splitOn
    split
    · simp
    · split <;> simp

/-- The lines of a text, without their line feeds. -/
def lines (s : List Char) : List (List Char) := splitOn '\n' s

/-- Writes every line end, `\r\n` and a lone `\r` included, as a line feed. -/
def unifyBreaks : List Char → List Char
  | [] => []
  | '\r' :: '\n' :: cs => '\n' :: unifyBreaks cs
  | c :: cs => (if c = '\r' then '\n' else c) :: unifyBreaks cs

/-- Pieces with a separator between each two. -/
def joinWith {α : Type} (sep : List α) : List (List α) → List α
  | [] => []
  | [p] => p
  | p :: ps => p ++ sep ++ joinWith sep ps

theorem joinWith_splitOn {α : Type} [DecidableEq α] (sep : α) (s : List α) :
    joinWith [sep] (splitOn sep s) = s := by
  induction s with
  | nil => rfl
  | cons c cs ih =>
    have hne := splitOn_ne_nil sep cs
    unfold splitOn
    split
    · next h =>
      subst h
      cases hs : splitOn c cs with
      | nil => exact absurd hs hne
      | cons p ps => rw [hs] at ih; simp [joinWith, ih]
    · cases hs : splitOn sep cs with
      | nil => exact absurd hs hne
      | cons p ps => cases ps <;> simp_all [joinWith]

end BlogSite.Text
