import BlogSite.Build
import BlogSite.CommandLine
import BlogSite.Settings
import BlogSite.Starter

/-!
The command: it builds the site of a project, or starts a new one. Whatever goes wrong in a build is
reported and ends the command with status 1.
-/

namespace BlogSite

open BlogSite.Calendar

/-- Where and when the command runs, and what it can use. -/
structure Session where
  directory : String
  home : Path.Homes
  /-- The time on the clock, for the log. -/
  now : Moment
  /-- The day in universal time, for the pages. -/
  today : Date
  yaml : Option YamlReader
  compressors : Minify.Compressors

namespace Session

def version : String := "1.0.0"

/-- The name of the log file of a run. -/
def logName (m : Moment) : String :=
  let d := m.date
  String.ofList ("starblog_".toList ++ Nat.toDigits 10 d.year ++ '-' :: Text.padded 2 d.month ++
    '-' :: Text.padded 2 d.day ++ '_' :: Text.padded 2 m.hour ++ '-' :: Text.padded 2 m.minute ++
    '-' :: Text.padded 2 m.second ++ ".log".toList)

/-- The time stamp on the lines of a log file. -/
def logStamp (m : Moment) : String :=
  String.ofList ({ m with microsecond := 0, offset := none }.iso ' ' ++
    ',' :: Text.padded 3 (m.microsecond / 1000))

/-- Opens the log file of this run in a directory, which is made if it is missing. An old file of
the same name is kept and goes on. -/
def openLog (s : Session) (directory : String) : Run Unit := do
  let folder := Path.join s.directory directory
  Run.makeDirectories folder
  let path := Path.normalise (Path.join folder (logName s.now))
  if !(← Run.ask (·.isFile path)) then Run.writeText path ""
  modify fun w => { w with logFile := some ⟨path, logStamp s.now⟩ }

/-- Starts the log that the settings ask for. Where none is given, there is no log file. -/
def startLog (s : Session) (logs : Value) : Run Unit :=
  if !logs.truthy then pure ()
  else match logs with
    | .str directory => s.openLog directory
    | _ => throw .wrongType

/-- The settings of a project, overlaid by those that are given. -/
def settings (s : Session) (given : Entries) : Run Entries := do
  let (known, w) := Settings.load { directory := s.directory } s.yaml s.directory (← get)
  set w
  Run.settle known.2
  return Settings.overlay known.1.values given

/-- The site that settings describe. -/
def site (s : Session) (settings : Entries) : Except Failure Site := do
  let yaml ← Settings.requireYaml s.yaml
  let paths ← SitePaths.ofSettings s.home s.directory settings
  return {
    paths
    title := settings.field "site_title"
    defaultTheme := settings.field "default_theme"
    minify := (settings.field "minify").truthy
    today := s.today
    yaml
    compressors := s.compressors }

/-- Builds the site of the project. -/
def build (s : Session) (given : Entries) : Run Unit := do
  let settings ← s.settings given
  s.startLog (settings.field "logs")
  let site ← Run.settle (s.site settings)
  let _ ← site.build

/-- Starts a new project with a settings file of a format. -/
def start (s : Session) (format : String) : Run Unit := do
  let path ← Settings.writeSample s.directory format
  Run.print ("Created sample configuration file: " ++ path)
  Run.print "\nCreating starter project structure..."
  Starter.create s.directory

/-- The places that the command may read or change: the project, and what its settings name. -/
def reach (s : Session) (words : List String) (w : World) : List String :=
  match CommandLine.interpret words with
  | .proceed given =>
    let named := match ((s.settings given).go w).1 with
      | .error _ => []
      | .ok settings =>
        let logs := match settings.field "logs" with
          | .str directory => [Path.normalise (Path.join s.directory directory)]
          | _ => []
        let dirs := match SitePaths.ofSettings s.home s.directory settings with
          | .ok p => [p.contentDir, p.templatesDir, p.publicDir, p.outputDir]
          | .error _ => []
        dirs ++ logs
    s.directory :: named
  | _ => []

/-- How far the command has come, before it says how long it took. -/
inductive Result where
  | built (r : Except Failure Unit)
  | started (r : Except Failure Unit)
  | answered
  | refused (message : String)

/-- Does what the words of a command line ask for. -/
def perform (s : Session) (words : List String) : StateM World Result := do
  match CommandLine.interpret words with
  | .refused message => return .refused message
  | .version =>
    modify (·.print ("starblog " ++ version))
    return .answered
  | .help =>
    modify (·.print CommandLine.helpText)
    return .answered
  | .proceed given =>
    match Entries.field given "init" with
    | .str format => return .started (← (s.start format).run)
    | _ => return .built (← (s.build given).run)

/-- How a command ends. -/
inductive Ending where
  | finished
  /-- A build failed, which is reported. -/
  | failed (f : Failure)
  /-- The command line was not understood. -/
  | refused (message : String)
  /-- A new project could not be started. -/
  | broken (f : Failure)

/-- The exit status; one that could not start a project counts as failed. -/
def Ending.status : Ending → Nat
  | .finished => 0
  | .failed _ | .broken _ => 1
  | .refused _ => 2

/-- A number of microseconds in seconds. -/
def secondsText (microseconds : Nat) : String :=
  toString (microseconds / 1000000) ++ "." ++
    String.ofList (Text.padded 6 (microseconds % 1000000))

/-- Reports how a command ends, after a time in microseconds. -/
def conclude (elapsed : Nat) : Result → StateM World Ending
  | .answered | .started (.ok _) => return .finished
  | .refused message => return .refused message
  | .started (.error f) => return .broken f
  | .built (.ok _) => do
    modify (·.report ⟨.command, .info,
      "Site build completed in " ++ secondsText elapsed ++ " seconds."⟩)
    return .finished
  | .built (.error f) => do
    modify (·.report ⟨.command, .error, "Build failed: " ++ f.message⟩)
    modify (·.report ⟨.command, .detail, "Build failure details"⟩)
    return .failed f

/-- The whole command. -/
def run (s : Session) (elapsed : Nat) (words : List String) : StateM World Ending := do
  conclude elapsed (← s.perform words)

end Session

end BlogSite
