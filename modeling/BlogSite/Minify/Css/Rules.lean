import BlogSite.Minify.Css.Glyph

/-!
The rules by which a style sheet gets shorter and keeps its meaning. Each rule is applied once, from
left to right; their order is part of what they do.
-/

namespace BlogSite.Minify.Css

open Shape

/-- Writes every run of blanks as one space. -/
def foldBlanks : Sheet → Sheet
  | [] => []
  | g :: h :: r =>
    if g.isBlank && h.isBlank then foldBlanks (h :: r)
    else (if g.isBlank then .char ' ' else g) :: foldBlanks (h :: r)
  | [g] => [if g.isBlank then .char ' ' else g]

/-- Whether a selector with a colon inside comes next, so that a space before the colon matters. -/
def selectorNext (g : Sheet) : Bool :=
  let ahead := g.takeWhile (· ≠ .char '\x7b')
  ahead.length < g.length && ahead.head?.any (· ≠ .char ':') && ahead.contains (.char ':')

/-- Leaves out spaces before marks. In a selector, the spaces before colons stay: they make a
descendant. -/
def tightenBefore (inSelector : Bool) : Sheet → Sheet
  | [] => []
  | g :: r =>
    let marks := if inSelector then "!\x7b\x7d;>+()]," else "!\x7b\x7d;:>+()],"
    if g.isBlank && r.head?.any (·.isOneOf marks) then tightenBefore inSelector r
    else
      let inside :=
        if g = .char '\x7b' then false
        else if g = .char '\x7d' && !inSelector then selectorNext r
        else inSelector
      g :: tightenBefore inside r

/-- A rule that writes a shape in lower case. -/
def lowered (shape : Shape) : Rule := .change shape (·.map Glyph.lower)

/-- A rule for one spelling. -/
def spelled (old new : String) : Rule := .change (spelling old) fun _ => ofText new

/-- What old browsers want: a space after the first line or letter of an element. -/
def firstPart : Rule :=
  .change (all [words [":first-line", ":first-letter"], one (·.isOneOf "\x7b,")]) fun g =>
    g.dropLast.map Glyph.lower ++ .char ' ' :: g.getLast?.toList

/-- A prefix that names the maker of a browser, if there is one. -/
def vendor : Shape :=
  optional (words ["-atsc-", "-khtml-", "-moz-", "-ms-", "-o-", "-wap-", "-webkit-"])

def directive : Shape :=
  all [word "@", firstOf [words ["font-face", "import"],
    all [vendor, words ["keyframe"]], words ["media", "page", "namespace"]]]

def pseudoClass : Shape :=
  all [word ":", words ["active", "after", "before", "checked", "disabled", "empty", "enabled",
    "first-child", "first-of-type", "focus", "hover", "last-child", "last-of-type", "link",
    "only-child", "only-of-type", "root", ":selection", "target", "visited"]]

def selectorFunction : Shape :=
  all [word ":", firstOf [words ["lang", "not", "nth-child", "nth-last-child", "nth-last-of-type",
    "nth-of-type"], all [vendor, word "any"]], word "("]

def valueFunction : Shape :=
  all [one fun g => g.isBlank || g.isOneOf ":,(", many Glyph.isBlank,
    firstOf [words ["attr", "color-stop", "from", "rgba", "to", "url"],
      all [vendor, firstOf [words ["calc", "max", "min"],
        all [optional (word "repeating-"), words ["linear", "radial"], word "-gradient"]]],
      word "-webkit-gradient"]]

/-- A condition keeps the space before its bracket. -/
def conditionSpace : Rule :=
  .change (all [one fun g => !g.isWord, word "and("]) fun g => g.take 1 ++ ofText "and ("

/-- No space after a mark. -/
def spaceAfterMark : Rule :=
  .change (all [one (·.isOneOf "!\x7b\x7d:;>+([,"), one Glyph.isBlank, many Glyph.isBlank])
    (·.take 1)

/-- No semicolon before a closing brace. -/
def lastSemicolon : Rule :=
  .change (all [one (· = .char ';'), many (· = .char ';'), one (· = .char '\x7d')]) fun _ =>
    [.char '\x7d']

def units : Shape :=
  firstOf [words ["px", "em", "%", "in", "cm", "mm", "pc", "pt", "ex", "deg"],
    all [optional (word "g"), word "rad"], all [optional (word "m"), word "s"],
    all [optional (word "k"), word "hz"]]

/-- Zero has no unit. -/
def zeroUnit : Rule :=
  .change (all [one fun g => g.isBlank || g.isOneOf ":(,",
      firstOf [all [word "0.0", units], all [word ".0", units], all [word "0", units]]]) fun g =>
    g.take 1 ++ [.char '0']

/-- The end of a declaration. -/
def ending : Shape := one (·.isOneOf ";\x7d")

/-- Zeros in a row say no more than one. -/
def zeros (row : String) : Rule :=
  .change (all [word row, ending]) fun g => ofText ":0" ++ g.getLast?.toList

/-- Places that need two numbers. -/
def position : Rule :=
  .change (all [words ["background-position", "webkit-mask-position", "transform-origin",
      "webkit-transform-origin", "moz-transform-origin", "o-transform-origin",
      "ms-transform-origin"], word ":0", ending]) fun g =>
    g.dropLast.map Glyph.lower ++ ofText " 0" ++ g.getLast?.toList

/-- A fraction does not begin with zeros. -/
def fraction : Rule :=
  .change (all [one fun g => g.isBlank || g = .char ':', word "0", many (· = .char '0'), word ".",
      one Glyph.isDigit]) fun g =>
    g.take 1 ++ .char '.' :: g.getLast?.toList

/-- The number that decimal digits between blanks spell. -/
def number? (s : List Char) : Option Nat :=
  let ds := Text.trim s
  if ds.isEmpty || !ds.all Text.isAsciiDigit then none
  else some (Text.ofDigits 10 (ds.map fun c => c.toNat - 48))

/-- A colour by its parts becomes one by its code; parts end at 255. -/
def colourParts : Rule := fun g => do
  let n ← all [spelling "rgb", many Glyph.isBlank, word "(",
    many fun x => x.isBlank || x.isDigit || x = .char ',', word ")"] g
  let inside := (chars (g.take n)).dropWhile (· != '(')
  let parts ← (splitParts (inside.drop 1).dropLast).mapM number?
  return (ofChars ('#' :: parts.flatMap fun p => Text.hex 2 (min p 255)), n)
where
  splitParts : List Char → List (List Char)
    | [] => [[]]
    | c :: cs =>
      match splitParts cs with
      | [] => [[c]]
      | p :: ps => if c = ',' then [] :: p :: ps else (c :: p) :: ps

/-- A colour code of six digits. -/
def colourCode : Shape := all (one (· = .char '#') :: List.replicate 6 (one (·.hexValue?.isSome)))

/-- Whether what follows a colour code lies in a block of declarations. -/
def insideBlock (g : Sheet) : Bool :=
  !(g.head?.any fun x => x.hexValue?.isSome) &&
    (g.takeWhile (· ≠ .char '\x7b')).contains (.char '\x7d')

/-- Three digits say as much as six that come in pairs. -/
def shortColour (digits : Sheet) : Sheet :=
  match digits.map Glyph.lower with
  | [h, a, b, c, d, e, f] => if a = b && c = d && e = f then [h, a, c, e] else [h, a, b, c, d, e, f]
  | other => other

/-- Codes of colours in blocks get short; those after an equals sign stay as they are. -/
def colour : Rule := fun g =>
  let given := all [word "=", many Glyph.isBlank, optional (one (·.isOneOf "\"'"))]
  let start := (given g).getD 0
  match colourCode (g.drop start) with
  | none => none
  | some n =>
    if insideBlock (g.drop (start + n)) then
      some (if start = 0 then shortColour (g.take n) else g.take (start + n), start + n)
    else none

/-- Colours whose name is shorter than their code. -/
def colourNames : List (String × String) :=
  [("#f00", "red"), ("#000080", "navy"), ("#808080", "gray"), ("#808000", "olive"),
   ("#800080", "purple"), ("#c0c0c0", "silver"), ("#008080", "teal"), ("#ffa500", "orange"),
   ("#800000", "maroon")]

def colourName : Rule := fun g =>
  colourNames.findSome? fun (code, name) =>
    Rule.change (all [one fun x => x.isBlank || x = .char ':', word code, ending])
      (fun m => m.take 1 ++ ofText name ++ m.getLast?.toList) g

/-- Where nothing is drawn, zero is enough. -/
def noBorder : Rule :=
  .change (all [words ["border-top", "border-right", "border-bottom", "border-left", "border",
      "outline", "background"], word ":none", ending]) fun g =>
    (g.takeWhile (· ≠ .char ':')).map Glyph.lower ++ ofText ":0" ++ g.getLast?.toList

/-- The old way to say how opaque something is. -/
def opacityFilter : Rule :=
  .change (word "progid:dximagetransform.microsoft.alpha(opacity=") fun _ =>
    ofText "alpha(opacity="

/-- A rule without declarations says nothing. -/
def emptyRule : Rule := fun g => do
  let n ← all [one fun x => !x.isOneOf "\x7d\x7b/;", many fun x => !x.isOneOf "\x7d\x7b/;"] g
  if (ofText "\x7b\x7d").isPrefixOf (g.drop n) then return ([], n + 2) else none

def manySemicolons : Rule :=
  .change (all [one (· = .char ';'), many (· = .char ';')]) fun _ => [.char ';']

/-- The rules after blanks are folded, in their order. -/
def rules : List (Sheet → Sheet) :=
  [fun g => tightenBefore (selectorNext g) g,
   (spelled "!important" " !important").apply, firstPart.apply, (spelled "*/ " "*/").apply,
   (lowered directive).apply, (lowered pseudoClass).apply, (lowered selectorFunction).apply,
   (lowered valueFunction).apply, conditionSpace.apply, spaceAfterMark.apply,
   lastSemicolon.apply, zeroUnit.apply, (zeros ":0 0 0 0").apply, (zeros ":0 0 0").apply,
   (zeros ":0 0").apply, position.apply, fraction.apply, colourParts.apply, colour.apply,
   colourName.apply, noBorder.apply, opacityFilter.apply, emptyRule.apply, manySemicolons.apply]

end BlogSite.Minify.Css
