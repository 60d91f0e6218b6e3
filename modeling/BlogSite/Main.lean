import BlogSite.Command
import BlogSite.Minify.Css
import BlogSite.Minify.Script
import Std.Time.DateTime
import Std.Time.Zoned

/-!
The program. It reads the files of the project into a file tree, runs the command on it, and brings
the files in line with the tree that comes out.
-/

namespace BlogSite.Program

open BlogSite.Calendar

/-- Adds what is at and below a path to a file tree; where nothing is, nothing is added. -/
partial def load (d : Disk) (path : String) : IO Disk := do
  match ← (IO.FS.realPath path).toBaseIO with
  | .error _ => return d
  | .ok there =>
    if ← there.isDir then
      let mut tree := (d.makeDirectories path).2
      for e in ← there.readDir do
        tree ← load tree (Path.join path e.fileName)
      return tree
    else return (d.write path (← IO.FS.readBinFile path)).toOption.getD d

def pathOf (at_ : Location) : String := "/" ++ Path.ofNames at_

/-- Takes away what a tree does not hold any more. -/
def remove (old new : Disk) : IO Unit := do
  for (at_, e) in old.entries do
    if new.entry? at_ != some e && (new.entry? at_.dropLast).isSome then
      match e, new.entry? at_ with
      | .directory, _ => IO.FS.removeDirAll (pathOf at_)
      | .file _, some (.file _) => pure ()
      | .file _, _ => IO.FS.removeFile (pathOf at_)

/-- Writes what a tree holds anew. -/
def write (old new : Disk) : IO Unit := do
  for (at_, e) in new.entries do
    if old.entry? at_ != some e then
      match e with
      | .directory => IO.FS.createDirAll (pathOf at_)
      | .file bytes => IO.FS.writeBinFile (pathOf at_) bytes

/-- A day of the calendar of the clock; the first day of all where there is no such day. -/
def dateOf (d : Std.Time.PlainDate) : Date :=
  (Date.of? d.year.toInt.toNat d.month.toInt.toNat d.day.toInt.toNat).getD
    { year := 1, month := 1, day := 1 }

def momentOf (m : Std.Time.PlainDateTime) : Moment :=
  { date := dateOf m.date
    hour := m.time.hour.toInt.toNat
    minute := m.time.minute.toInt.toNat
    second := m.time.second.toInt.toNat
    microsecond := m.time.nanosecond.toInt.toNat / 1000 }

/-- The universal time of a moment. -/
def universal (t : Std.Time.Timestamp) : Std.Time.PlainDateTime :=
  .ofWallTime (.ofTimestamp t .zero)

/-- Runs the command and returns its exit status. -/
def run (words : List String) : IO UInt32 := do
  let began ← IO.monoNanosNow
  let session : Session :=
    { directory := toString (← IO.currentDir)
      home := (← IO.getEnv "HOME").getD ""
      now := momentOf (← Std.Time.PlainDateTime.now)
      today := dateOf (universal (← Std.Time.Timestamp.now)).date
      yaml := some Yaml.read
      compressors := ⟨Minify.Css.compress, Minify.Script.compress⟩ }
  let here ← load Disk.empty session.directory
  let disk ← (session.reach words { disk := here }).foldlM load here
  let (result, w) := (session.perform words).run { disk }
  let elapsed := ((← IO.monoNanosNow) - began) / 1000
  let (ending, w) := (Session.conclude elapsed result).run w
  remove disk w.disk
  write disk w.disk
  for line in w.printed do IO.println line
  for record in w.log do
    if record.onConsole then IO.eprintln record.message
  match ending with
  | .refused message =>
    IO.eprintln CommandLine.usage
    IO.eprintln ("starblog: error: " ++ message)
  | .broken f => IO.eprintln f.message
  | _ => pure ()
  return ending.status.toUInt32

end BlogSite.Program

def main (words : List String) : IO UInt32 := BlogSite.Program.run words
