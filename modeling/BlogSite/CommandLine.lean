import BlogSite.Text.Digit
import BlogSite.Text.Lines
import BlogSite.Value.Display

/-!
The command line: options with long names, which may be shortened as long as they name one option.
A value follows its option as the next word or after an equals sign.
-/

namespace BlogSite.CommandLine

open BlogSite.Text

/-- What an option does. -/
inductive Action where
  /-- Takes a value for a setting, one of the choices if there are any. -/
  | store (key : String) (choices : List String)
  /-- Turns a setting on. -/
  | turnOn (key : String)
  | version
  | help
deriving DecidableEq

/-- An option by its names. -/
structure Opt where
  names : List String
  action : Action
  purpose : String
deriving DecidableEq

def options : List Opt :=
  [⟨["-h", "--help"], .help, "show this help message and exit"⟩,
   ⟨["--content"], .store "content" [],
    "Content directory containing blogs.json and blogs/<slug>/posts"⟩,
   ⟨["--templates"], .store "templates" [], "Templates directory"⟩,
   ⟨["--public"], .store "public" [], "Static files directory copied into the output root"⟩,
   ⟨["--output"], .store "output" [], "Output directory for the generated site"⟩,
   ⟨["--site-title"], .store "site_title" [], "Site title shown on the home page"⟩,
   ⟨["--default-theme"], .store "default_theme" [], "Theme for blogs that do not set one"⟩,
   ⟨["--minify"], .turnOn "minify", "Write minified copies of CSS and JS assets"⟩,
   ⟨["--logs"], .store "logs" [], "Directory for build log files"⟩,
   ⟨["--init"], .store "init" ["yml", "yaml", "json"],
    "Create a sample configuration file and starter project"⟩,
   ⟨["--version"], .version, "show program's version number and exit"⟩]

/-- Whether an option needs a value. -/
def Opt.takesValue (o : Opt) : Bool :=
  match o.action with
  | .store .. => true
  | _ => false

/-- The option with a name. -/
def named? (name : String) : Option Opt := options.find? fun o => o.names.contains name

/-- The options with the names that begin in some way. -/
def abbreviated (start : String) : List (Opt × String) :=
  options.flatMap fun o =>
    (o.names.filter fun n => start.toList.isPrefixOf n.toList).map fun n => (o, n)

/-- The parts before and after the first equals sign. -/
def cutAtEquals? (word : String) : Option (String × String) :=
  let s := word.toList
  if s.contains '=' then
    some (String.ofList (s.takeWhile (· != '=')),
      String.ofList ((s.dropWhile (· != '=')).drop 1))
  else none

/-- A negative number, which is no option. A line feed may end it. -/
def isNegativeNumber (word : String) : Bool :=
  match word.toList with
  | '-' :: s =>
    let s := if s.getLast? = some '\n' then s.dropLast else s
    let whole := s.takeWhile isDigit
    match s.dropWhile isDigit with
    | [] => !whole.isEmpty
    | '.' :: fraction => !fraction.isEmpty && fraction.all isDigit
    | _ => false
  | _ => false

/-- What a word of the command line is. -/
inductive Word where
  | plain (s : String)
  /-- Two hyphens, after which every word is plain. -/
  | dashes
  /-- An option with the value that an equals sign attaches to it. -/
  | option (o : Opt) (attached : Option String)
  /-- An option of one letter with more letters behind it. -/
  | cluster (o : Opt) (rest : String)
  | unknown (s : String)
deriving DecidableEq

/-- What a shortened name may stand for, with the full names. -/
def abbreviations (word : String) : List (String × Word) :=
  let (start, attached) := match cutAtEquals? word with
    | some (start, value) => (start, some value)
    | none => (word, none)
  (abbreviated start).map fun (o, n) => (n, .option o attached)

/-- What a word that is no full name may stand for. The first character of it is a hyphen. -/
def candidates (word : String) : List (String × Word) :=
  match word.toList with
  | '-' :: '-' :: _ => abbreviations word
  | '-' :: c :: rest =>
    let name := String.ofList ['-', c]
    ((named? name).map fun o => (name, .cluster o (String.ofList rest))).toList
  | _ => []

/-- The option that a full name and an equals sign begin, with the value. -/
def attachedTo? (word : String) : Option (Opt × String) := do
  let (name, value) ← cutAtEquals? word
  return (← named? name, value)

/-- What a word is by itself; a word that may stand for several options is refused. -/
def classify (word : String) : Except String Word :=
  if word.toList.head? ≠ some '-' then .ok (.plain word)
  else if let some o := named? word then .ok (.option o none)
  else if word = "-" then .ok (.plain word)
  else if let some (o, value) := attachedTo? word then .ok (.option o (some value))
  else match candidates word with
    | [(_, w)] => .ok w
    | [] =>
      if isNegativeNumber word || word.toList.contains ' ' then .ok (.plain word)
      else .ok (.unknown word)
    | several =>
      .error ("ambiguous option: " ++ word ++ " could match " ++
        ", ".intercalate (several.map Prod.fst))

/-- What the words of a command line are. -/
def classifyAll : List String → Except String (List Word)
  | [] => .ok []
  | w :: ws =>
    if w = "--" then .ok (.dashes :: ws.map .plain)
    else do
      let word ← classify w
      return word :: (← classifyAll ws)

/-- What a command line asks for. -/
inductive Request where
  /-- To go on with given settings. -/
  | proceed (given : Entries)
  | version
  | help
  | refused (message : String)

/-- A message about an option. -/
def about (o : Opt) (message : String) : Request :=
  .refused ("argument " ++ "/".intercalate o.names ++ ": " ++ message)

def shown (s : String) : String := String.ofList (Value.inspect (.str s))

/-- What is wrong with a value that is not among the choices. -/
def notAmong (value : String) (choices : List String) : String :=
  "invalid choice: " ++ shown value ++ " (choose from " ++
    ", ".intercalate (choices.map shown) ++ ")"

/-- Whether a value is one of the choices, if there are any. -/
def isAllowed (choices : List String) (value : String) : Bool :=
  choices.isEmpty || choices.contains value

/-- What letters behind `-h` leave that is no letter of an option but a value for one. -/
def leftover? : List Char → Option (List Char)
  | ['h'] => none
  | 'h' :: '=' :: value => some value
  | 'h' :: rest => leftover? rest
  | '-' :: rest => some ('-' :: rest)
  | _ => none

/-- The refusal of a value for an option that takes none. -/
def needless (o : Opt) (value : String) : Request :=
  about o ("ignored explicit argument " ++ shown value)

/-- Goes through the words of a command line from left to right. -/
def interpretFrom (given : Entries) (extras : List String) : List Word → Request
  | [] =>
    if extras.isEmpty then .proceed given
    else .refused ("unrecognized arguments: " ++ " ".intercalate extras)
  | .plain s :: ws | .unknown s :: ws => interpretFrom given (extras ++ [s]) ws
  | .dashes :: ws => interpretFrom given (extras ++ ["--"]) ws
  | .cluster o rest :: _ =>
    match leftover? rest.toList with
    | some value => needless o (String.ofList value)
    | none => .help
  | .option o (some value) :: ws =>
    match o.action with
    | .store key choices =>
      if isAllowed choices value then
        interpretFrom (given.put (.str key) (.str value)) extras ws
      else about o (notAmong value choices)
    | _ => needless o value
  | .option o none :: ws =>
    match o.action with
    | .turnOn key => interpretFrom (given.put (.str key) (.bool true)) extras ws
    | .version => .version
    | .help => .help
    | .store key choices =>
      match ws with
      | .plain value :: ws =>
        if isAllowed choices value then
          interpretFrom (given.put (.str key) (.str value)) extras ws
        else about o (notAmong value choices)
      | _ => about o "expected one argument"

/-- What the words of a command line ask for. -/
def interpret (words : List String) : Request :=
  match classifyAll words with
  | .error message => .refused message
  | .ok ws => interpretFrom [] [] ws

/-- How an option is written, with the name of its value. -/
def Opt.form (o : Opt) : String :=
  ", ".intercalate (o.names.map fun n =>
    match o.action with
    | .store _ [] => n ++ " " ++ ((n.drop 2).toString.toUpper.map fun c => if c = '-' then '_' else c)
    | .store _ choices => n ++ " \x7b" ++ ",".intercalate choices ++ "\x7d"
    | _ => n)

def usage : String :=
  "usage: starblog " ++ " ".intercalate (options.map fun o => "[" ++ o.form ++ "]")

/-- The text that explains the options. -/
def helpText : String :=
  usage ++ "\n\nStarBlog - Multi-blog Static Site Generator\n\noptions:\n" ++
    String.join (options.map fun o => "  " ++ o.form ++ "\n      " ++ o.purpose ++ "\n")

end BlogSite.CommandLine
