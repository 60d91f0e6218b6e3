import BlogSite.FrontMatter
import BlogSite.Json.Reader
import BlogSite.Json.Writer
import BlogSite.World

/-!
Settings: defaults, overlaid by a file in the project, overlaid by what the command line gives.
-/

namespace BlogSite

namespace Settings

/-- What holds for a project that sets nothing. -/
def defaults : Entries :=
  [(.str "content", .str "content"), (.str "templates", .str "templates"),
   (.str "public", .str "public"), (.str "output", .str "docs"),
   (.str "site_title", .str "スプリング☆ユニバース"), (.str "default_theme", .str "word-retro"),
   (.str "minify", .bool false), (.str "logs", .str "logs")]

/-- The files that may hold settings; the first one that is there counts. -/
def fileNames : List String := ["starblog.yml", "starblog.yaml", "starblog.json"]

/-- The wording for a project that needs a reader of YAML where there is none. -/
def noYaml : Failure :=
  .missingDependency ("PyYAML is required to read front matter and YAML settings. " ++
    "Install it with: pip install PyYAML")

/-- The reader of YAML, if there is one. -/
def requireYaml (yaml : Option YamlReader) : Except Failure YamlReader :=
  match yaml with
  | none => .error noYaml
  | some read => .ok read

/-- The formats of settings files. -/
inductive Format where
  | yaml
  | json
deriving DecidableEq

/-- The format that the ending of a path tells, in any case. -/
def formatOf (path : String) : Except Failure Format :=
  let ending := (Path.extension path).toLower
  if ending = ".yml" || ending = ".yaml" then .ok .yaml
  else if ending = ".json" then .ok .json
  else .error (.invalidSettings (.unsupportedFormat ending))

/-- The value of a settings file, read from its text. -/
def valueOf (path : String) (yaml : YamlReader) (format : Format) (text : String) :
    Except Failure Value :=
  match format with
  | .yaml => (yaml text).mapError (.ofYaml (.invalidSettings (.invalidYaml path)) .badValue)
  | .json => (Json.read text).mapError fun
    | .malformed => .invalidSettings (.invalidJson path)
    | .tooLong => .badValue

/-- The settings that a value spells. What does not count as given spells none. -/
def entriesOf (path : String) (v : Value) : Except Failure Entries :=
  match v.orElse (.map []) with
  | .map es => .ok es
  | _ => .error (.invalidSettings (.notMapping path))

/-- Reads a settings file. Only files in YAML need a reader of YAML. -/
def ofFile (yaml : Option YamlReader) (path : String) : Run Entries := do
  let format ← Run.settle (formatOf path)
  let read ← match format with
    | .yaml => Run.settle (requireYaml yaml)
    | .json => pure fun _ => .ok .null
  let text ← Run.readText path
  Run.settle (valueOf path read format text >>= entriesOf path)

/-- The settings file of a directory. -/
def find? (d : Disk) (directory : String) : Option String :=
  (fileNames.map (Path.join directory)).find? fun path => d.isThere path

/-- Overlays settings with given values. What is nothing is not given, and only settings that have
a default can be given. -/
def overlay (settings given : Entries) : Entries :=
  given.foldl (fun es (k, v) =>
    match v with
    | .null => es
    | _ => if (Entries.find? k defaults).isSome then Entries.put k v es else es) settings

/-- The text of a new settings file in YAML. -/
def sampleYaml : String :=
  "# StarBlog Configuration File\n\n" ++
  "# Site information\n" ++
  "site_title: " ++ String.ofList (Entries.field defaults "site_title").display ++ "\n" ++
  "default_theme: word-retro\n\n" ++
  "# Build settings\n" ++
  "content: content\n" ++
  "templates: templates\n" ++
  "public: public\n" ++
  "output: docs\n\n" ++
  "# Assets\n" ++
  "minify: false\n\n" ++
  "# Build logs (null disables the log file)\n" ++
  "logs: logs\n"

/-- The text of a new settings file, by the name of the format. -/
def sample? (format : String) : Option String :=
  if format = "yml" || format = "yaml" then some sampleYaml
  else if format = "json" then some (Json.write (.map defaults))
  else none

/-- Writes a new settings file in place of an old one and returns its path. A file of an unknown
format is left empty. -/
def writeSample (directory format : String) : Run String := do
  let path := Path.join directory ("starblog." ++ format)
  Run.writeText path ""
  match sample? format with
  | none => throw (.invalidSettings (.unsupportedFormat format))
  | some text =>
    Run.writeText path text
    return path

end Settings

/-- The settings of a project as they are known so far. -/
structure Settings where
  directory : String
  values : Entries := Settings.defaults
  /-- The file that was looked at last. -/
  file : Option String := none

namespace Settings

/-- Loads the settings file of the project, if there is one. A file that cannot be used is warned
about and changes nothing; any other failure is returned beside the settings. `here` is the
directory that the file is named from. -/
def load (s : Settings) (yaml : Option YamlReader) (here : String) :
    StateM World (Settings × Except Failure Unit) := do
  match find? (← get).disk s.directory with
  | none => return (s, .ok ())
  | some path =>
    let s := { s with file := some path }
    let (result, w) := (ofFile yaml path).go (← get)
    match result with
    | .ok [] => return (s, .ok ())
    | .ok es =>
      set (w.print ("Loaded configuration from: " ++ Path.relative here path))
      return ({ s with values := Entries.update s.values es }, .ok ())
    | .error f =>
      if f.isFileProblem then
        set (w.print ("Warning: Failed to load config file " ++ path ++ ": " ++ f.message))
        return (s, .ok ())
      else return (s, .error f)

end Settings

end BlogSite
