import BlogSite.Failure
import BlogSite.Log
import BlogSite.Text.Lines

/-!
What a run reads and changes: the file tree, the records it reports, the lines it prints and the
pages it has written. A run that fails leaves the world as it was at that point.
-/

namespace BlogSite

/-- The log file of a run, with the time stamp that its lines carry. -/
structure LogFile where
  path : String
  stamp : String

structure World where
  disk : Disk
  log : Array Log.Record := #[]
  printed : Array String := #[]
  /-- The pages written so far, by their paths in the output directory. -/
  pages : Array String := #[]
  logFile : Option LogFile := none

/-- A computation in the world that may fail. -/
abbrev Run (α : Type) := ExceptT Failure (StateM World) α

/-- Runs a computation from a world. -/
def Run.go {α : Type} (r : Run α) (w : World) : Except Failure α × World :=
  StateT.run (ExceptT.run r) w

namespace World

/-- Adds a line to a log file that is still there. -/
def appendLine (d : Disk) (f : LogFile) (line : String) : Disk :=
  match d.read f.path with
  | .ok old => (d.write f.path (old ++ line.toUTF8)).toOption.getD d
  | .error _ => d

/-- Reports a record, to the log file too if there is one. -/
def report (w : World) (r : Log.Record) : World :=
  let disk := match w.logFile with
    | none => w.disk
    | some f => appendLine w.disk f (f.stamp ++ " - " ++ r.line ++ "\n")
  { w with disk, log := w.log.push r }

/-- Prints a line. -/
def print (w : World) (line : String) : World := { w with printed := w.printed.push line }

end World

namespace Run

/-- A result that does not depend on the world. -/
def settle {α : Type} (r : Except Failure α) : Run α := ExceptT.mk (pure r)

def report (source : Log.Source) (level : Log.Level) (message : String) : Run Unit :=
  modify (·.report ⟨source, level, message⟩)

def print (line : String) : Run Unit := modify (·.print line)

/-- The result of a question to the file tree. -/
def ask {α : Type} (q : Disk → α) : Run α := do return q (← get).disk

/-- What can be got from the file tree, or its fault as a failure. -/
def fetch {α : Type} (q : Disk → Except DiskFault α) : Run α := do
  match q (← get).disk with
  | .ok a => pure a
  | .error f => throw (.disk f)

/-- Changes the file tree at once or not at all. -/
def alter (c : Disk → Except DiskFault Disk) : Run Unit := do
  let d ← fetch c
  modify fun w => { w with disk := d }

/-- Removes a directory with all that is below it. A log file in it gets no more lines. -/
def removeTree (path : String) : Run Unit := do
  alter (·.removeTree path)
  modify fun w => { w with logFile := w.logFile.filter fun f => w.disk.isFile f.path }

/-- Makes sure that a directory is there. -/
def makeDirectories (path : String) : Run Unit := do
  let (r, d) := (← get).disk.makeDirectories path
  modify fun w => { w with disk := d }
  match r with
  | .ok () => pure ()
  | .error f => throw (.disk f)

/-- Reads a text file as it stands. -/
def readVerbatim (path : String) : Run String := do
  match String.fromUTF8? (← fetch (·.read path)) with
  | some s => pure s
  | none => throw .notText

/-- Reads a text file. Every line end in it counts as a line feed. -/
def readText (path : String) : Run String := do
  return String.ofList (Text.unifyBreaks (← readVerbatim path).toList)

/-- Writes a text file. -/
def writeText (path text : String) : Run Unit := alter (·.write path text.toUTF8)

end Run

end BlogSite
