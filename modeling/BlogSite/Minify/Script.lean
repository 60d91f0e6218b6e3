import BlogSite.Minify.Script.Lexeme
import BlogSite.Text.Blank

/-!
Scripts without comments and without the blanks and line ends that nothing depends on. A line end
stays where a statement may end, a space where two words or two signs would become one.
-/

namespace BlogSite.Minify.Script

/-- What stands between two lexemes. -/
inductive Gap where
  | none
  | spaces
  | lines
deriving DecidableEq

/-- A character that a statement may end with. -/
def mayEnd (c : Char) : Bool := isIdent c || "\x7d])\"'\x60+-".toList.contains c

/-- Whether a statement may begin here. A sign of inequality begins none. -/
def mayBegin : List Char → Bool
  | '!' :: '=' :: _ => false
  | c :: _ => isIdent c || "\x7b[(!+-".toList.contains c
  | [] => false

/-- Whether a line end after a pattern literal matters before a character. -/
def mayFollowPattern (c : Char) : Bool :=
  32 < c.toNat && !"\x7d])?:|,;.&=+-".toList.contains c

/-- The characters of a lexeme that are kept. -/
def Lexeme.chars : Lexeme → List Char
  | .code c => [c]
  | .literal s | .pattern s => s
  | .blank | .lineEnd => []

/-- What is left of a gap after a lexeme, when these characters come next. -/
def keptGap (before : Lexeme) (next : Lexeme) (rest : List Char) : Gap → List Char
  | .none => []
  | .spaces =>
    match before.chars.getLast?, rest.head? with
    | some a, some b =>
      if (isIdent a && isIdent b) || (a = '+' && b = '+') || (a = '-' && b = '-') then [' '] else []
    | _, _ => []
  | .lines =>
    let afterPattern := match before with
      | .pattern _ => rest.head?.any mayFollowPattern
      | _ => false
    let plain := before.chars.getLast?.any mayEnd && mayBegin rest
    let isPattern := match next with
      | .pattern _ => true
      | _ => false
    if afterPattern || (plain && !isPattern) then ['\n'] else []

/-- The text of lexemes after one that is written already, with the gap since then. `word` tells
that `return` stands there, after which a line end before a pattern stays. -/
def writeFrom (before : Option Lexeme) (word : List Char) (gap : Gap) : List Lexeme → List Char
  | [] => []
  | .blank :: ls => writeFrom before word (if gap = .lines then .lines else .spaces) ls
  | .lineEnd :: ls => writeFrom before word .lines ls
  | l :: ls =>
    let after := match l with
      | .code c => if isIdent c then c :: (if gap = .none then word else []) else []
      | _ => []
    let rest := l.chars ++ (match ls with
      | .code c :: _ => [c]
      | _ => [])
    let between := match before, l with
      | none, _ => []
      | some b, .pattern _ =>
        if gap = .lines && word == "nruter".toList then ['\n'] else keptGap b l rest gap
      | some b, _ => keptGap b l rest gap
    between ++ l.chars ++ writeFrom (some l) after .none ls

/-- The short form of a script. -/
def compress (text : String) : String :=
  String.ofList (Text.trim (writeFrom none [] .none (read text.toList)))

end BlogSite.Minify.Script
