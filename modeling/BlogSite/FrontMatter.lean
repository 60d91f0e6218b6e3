import BlogSite.Failure
import BlogSite.Text.Lines
import BlogSite.Yaml.Document

/-!
Front matter: a block between two lines of three hyphens at the start of a text. `split` cuts the
text, `parse` reads the block as a mapping.
-/

namespace BlogSite

/-- A reader of YAML texts. -/
abbrev YamlReader := String → Except Yaml.Fault Value

/-- The failure of a reading, apart from texts that are no YAML at all. -/
def Failure.ofYaml (noYaml noValue : Failure) : Yaml.Fault → Failure
  | .malformed => noYaml
  | .badValue => noValue
  | .outOfRange => .outOfRange
  | .unknownWord => .missingKey
  | .tooShort => .tooShort
  | .noDate => .noFields
  | .notText => .wrongType

namespace FrontMatter

def isBlankInLine (c : Char) : Bool := c == ' ' || c == '\t'

/-- What follows three hyphens and blanks at the head of a text. -/
def afterFence? : List Char → Option (List Char)
  | '-' :: '-' :: '-' :: r => some (r.dropWhile isBlankInLine)
  | _ => none

/-- What follows a line feed, or a carriage return and a line feed. -/
def afterBreak? : List Char → Option (List Char)
  | '\n' :: r => some r
  | '\r' :: '\n' :: r => some r
  | _ => none

/-- What follows the opening line. -/
def afterOpening? (s : List Char) : Option (List Char) := (afterFence? s).bind afterBreak?

/-- What follows the closing line, which may end with the text. -/
def afterClosing? (s : List Char) : Option (List Char) :=
  (afterFence? s).bind fun r => if r = [] then some [] else afterBreak? r

/-- The text before the first closing line and the text after it. -/
def seek (atLineStart : Bool) : List Char → Option (List Char × List Char)
  | [] => none
  | c :: cs =>
    let onward := (seek (c = '\n') cs).map fun (block, body) => (c :: block, body)
    if atLineStart then
      match afterClosing? (c :: cs) with
      | some body => some ([], body)
      | none => onward
    else onward

/-- The block and the body of a text with front matter. -/
def split? (s : List Char) : Option (List Char × List Char) :=
  (afterOpening? s).bind (seek true)

/-- A text without the byte order mark at its start. -/
def withoutMark : List Char → List Char
  | '\ufeff' :: r => r
  | s => s

/-- The metadata and the body of a text. A text without front matter is all body. -/
def parse (read : YamlReader) (text : String) : Except Failure (Entries × String) :=
  let s := withoutMark text.toList
  match split? s with
  | none => .ok ([], String.ofList s)
  | some (block, body) =>
    match read (String.ofList block) with
    | .error f => .error (.ofYaml (.frontMatter .invalidYaml) (.frontMatter .badValue) f)
    | .ok .null => .ok ([], String.ofList body)
    | .ok (.map es) => .ok (es, String.ofList body)
    | .ok v => .error (.frontMatter (.notMapping v.kind))

end FrontMatter

end BlogSite
