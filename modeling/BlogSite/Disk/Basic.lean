import BlogSite.Path

/-!
A file tree as a value. An entry is found by the names from the root down to it; the root is always
a directory. Operations take path texts, look names up one by one as an operating system does, and
say why they fail.
-/

namespace BlogSite

/-- The names from the root down to an entry. -/
abbrev Location := List String

inductive Entry where
  | file (bytes : ByteArray)
  | directory

instance : DecidableEq Entry
  | .file a, .file b =>
    match ByteArray.instDecidableEq a b with
    | isTrue h => isTrue (congrArg Entry.file h)
    | isFalse h => isFalse fun he => h (Entry.file.inj he)
  | .directory, .directory => isTrue rfl
  | .file _, .directory => isFalse nofun
  | .directory, .file _ => isFalse nofun

/-- A file tree, with one entry at each of its locations. -/
structure Disk where
  entries : List (Location × Entry)
  distinct : (entries.map Prod.fst).Nodup

/-- Why an operation on a file tree fails. -/
inductive DiskFault where
  | notFound
  | notDirectory
  | isDirectory
  | alreadyExists
  | nameTooLong
  | badName
deriving DecidableEq

namespace Disk

def empty : Disk := ⟨[], List.nodup_nil⟩

def entry? (d : Disk) (at_ : Location) : Option Entry :=
  if at_ = [] then some .directory else (d.entries.find? fun e => e.1 = at_).map (·.2)

theorem distinct_filter (d : Disk) (p : Location × Entry → Bool) :
    ((d.entries.filter p).map Prod.fst).Nodup :=
  d.distinct.sublist (List.filter_sublist.map Prod.fst)

/-- Puts an entry at a location in place of what is there. -/
def put (d : Disk) (at_ : Location) (e : Entry) : Disk where
  entries := d.entries.filter (fun x => x.1 ≠ at_) ++ [(at_, e)]
  distinct := by
    rw [List.map_append, List.nodup_append]
    refine ⟨d.distinct_filter _, by simp, ?_⟩
    simp only [List.mem_map, List.mem_filter, decide_eq_true_eq, List.map_cons, List.map_nil,
      List.mem_singleton]
    rintro l ⟨x, ⟨-, hx⟩, rfl⟩ _ rfl
    exact hx

/-- Takes away everything at and below a location. -/
def prune (d : Disk) (at_ : Location) : Disk where
  entries := d.entries.filter fun x => !at_.isPrefixOf x.1
  distinct := d.distinct_filter _

/-- The entries strictly below a location, seen from there. -/
def below (d : Disk) (at_ : Location) : List (Location × Entry) :=
  d.entries.filterMap fun x =>
    if at_.isPrefixOf x.1 && x.1.length != at_.length then some (x.1.drop at_.length, x.2) else none

/-- The names directly in a directory, in the order in which the tree holds them. -/
def names (d : Disk) (at_ : Location) : List String :=
  (d.below at_).filterMap fun x => match x.1 with
    | [n] => some n
    | _ => none

/-- The longest name that a directory takes, in bytes. -/
def nameLimit : Nat := 255

/-- Looks names up one by one. Every name but the last has to be a directory; the last one may be
missing. -/
def walk (d : Disk) (here : Location) : List String → Except DiskFault Location
  | [] => .ok here
  | n :: ns =>
    match d.entry? here with
    | none => .error .notFound
    | some (.file _) => .error .notDirectory
    | some .directory =>
      if nameLimit < n.utf8ByteSize then .error .nameTooLong
      else if n = "" || n = "." then walk d here ns
      else if n = ".." then walk d here.dropLast ns
      else walk d (here ++ [n]) ns

/-- The location that an absolute path names. -/
def locate (d : Disk) (p : String) : Except DiskFault Location :=
  if p.toList.contains '\x00' then .error .badName else d.walk [] (Path.names p)

/-- What a path names, if it can be looked up. -/
def lookup? (d : Disk) (p : String) : Option Entry :=
  match d.locate p with
  | .ok at_ => d.entry? at_
  | .error _ => none

def isThere (d : Disk) (p : String) : Bool := (d.lookup? p).isSome

def isFile (d : Disk) (p : String) : Bool := match d.lookup? p with
  | some (.file _) => true
  | _ => false

def isDirectory (d : Disk) (p : String) : Bool := d.lookup? p == some .directory

def read (d : Disk) (p : String) : Except DiskFault ByteArray := do
  match d.entry? (← d.locate p) with
  | none => .error .notFound
  | some .directory => .error .isDirectory
  | some (.file bytes) => .ok bytes

/-- Writes a file, in place of an old one if there is one. Its directory has to be there. -/
def write (d : Disk) (p : String) (bytes : ByteArray) : Except DiskFault Disk := do
  let at_ ← d.locate p
  match d.entry? at_ with
  | some .directory => .error .isDirectory
  | _ => .ok (d.put at_ (.file bytes))

def makeDirectory (d : Disk) (p : String) : Except DiskFault Disk := do
  let at_ ← d.locate p
  match d.entry? at_ with
  | some _ => .error .alreadyExists
  | none => .ok (d.put at_ .directory)

/-- Makes a directory and those above it that are missing. The names come last first. The tree that
is left when this fails holds the directories that could be made. -/
def makeDirectoriesFrom (d : Disk) : List String → Except DiskFault Unit × Disk
  | [] => (.ok (), d)
  | n :: up =>
    let path := "/" ++ Path.ofNames (n :: up).reverse
    let above := "/" ++ Path.ofNames up.reverse
    let (r, d) := if d.isThere above then (.ok (), d) else makeDirectoriesFrom d up
    match r with
    | .error f => (.error f, d)
    | .ok () =>
      if n = "." && d.isDirectory path then (.ok (), d)
      else match d.makeDirectory path with
        | .ok d => (.ok (), d)
        | .error f => if d.isDirectory path then (.ok (), d) else (.error f, d)

/-- Makes sure that a directory is there. -/
def makeDirectories (d : Disk) (p : String) : Except DiskFault Unit × Disk :=
  d.makeDirectoriesFrom ((Path.names p).filter (· ≠ "")).reverse

/-- Removes a directory with all that is below it. -/
def removeTree (d : Disk) (p : String) : Except DiskFault Disk := do
  let at_ ← d.locate p
  match d.entry? at_ with
  | none => .error .notFound
  | some (.file _) => .error .notDirectory
  | some .directory => .ok (d.prune at_)

/-- The names in a directory, in no particular order. -/
def list (d : Disk) (p : String) : Except DiskFault (List String) := do
  let at_ ← d.locate p
  match d.entry? at_ with
  | none => .error .notFound
  | some (.file _) => .error .notDirectory
  | some .directory => .ok (d.names at_)

/-- Puts entries below a location, each at its own place. -/
def overlay (d : Disk) (at_ : Location) (es : List (Location × Entry)) : Disk :=
  es.foldl (fun d e => d.put (at_ ++ e.1) e.2) d

/-- Copies all that is below one directory to another. -/
def copyTree (d : Disk) (source target : String) : Except DiskFault Disk := do
  let origin ← d.locate source
  let goal ← d.locate target
  .ok (d.overlay goal (d.below origin))

end Disk

end BlogSite
