import BlogSite.Text.Lines

/-!
Path texts. A path is a row of names between slashes; it is absolute when it starts with a slash.
Two slashes at the start are kept as two, three or more count as one.
-/

namespace BlogSite.Path

open BlogSite.Text

/-- The names of a path; two slashes in a row have an empty name between them. -/
def names (p : String) : List String := (splitOn '/' p.toList).map String.ofList

def ofNames (ns : List String) : String := "/".intercalate ns

def isAbsolute (p : String) : Bool := p.toList.head? == some '/'

/-- A path seen from another: an absolute one stands for itself. -/
def join (base p : String) : String :=
  if isAbsolute p then p
  else if base = "" || base.toList.getLast? == some '/' then base ++ p
  else base ++ "/" ++ p

def joinAll (base : String) (ps : List String) : String := ps.foldl join base

/-- The number of slashes that a path keeps at its start. -/
def leading (p : String) : Nat :=
  match p.toList with
  | '/' :: '/' :: '/' :: _ => 1
  | '/' :: '/' :: _ => 2
  | '/' :: _ => 1
  | _ => 0

/-- One step along a path: empty names and `.` stay, `..` goes back to the name before. Above the
start of an absolute path there is nothing to go back to. The last name comes first. -/
def step (absolute : Bool) (back : List String) (name : String) : List String :=
  if name = "" || name = "." then back
  else if name = ".." then
    match back with
    | [] => if absolute then [] else [".."]
    | last :: rest => if last = ".." then ".." :: back else rest
  else name :: back

/-- The names that are left when a path is walked along. -/
def walked (absolute : Bool) (ns : List String) : List String :=
  (ns.foldl (step absolute) []).reverse

/-- The shortest text of a path: no `.`, no empty name, and `..` only where nothing comes before
it. -/
def normalise (p : String) : String :=
  let slashes := leading p
  let body := ofNames (walked (0 < slashes) (names p))
  let full := String.ofList (List.replicate slashes '/') ++ body
  if full = "" then "." else full

/-- The directory that a path lies in. -/
def parent (p : String) : String :=
  let head := p.toList.reverse.dropWhile (· != '/')
  let bare := head.dropWhile (· == '/')
  String.ofList (if bare.isEmpty then head.reverse else bare.reverse)

/-- The last name of a path. -/
def name (p : String) : String :=
  String.ofList ((p.toList.reverse.takeWhile (· != '/')).reverse)

/-- What follows the last dot of a name, with the dot. Dots at the start of a name begin no
extension. -/
def extension (p : String) : String :=
  let base := (name p).toList.dropWhile (· == '.')
  if base.contains '.' then
    String.ofList ('.' :: (base.reverse.takeWhile (· != '.')).reverse)
  else ""

/-- Names in code point order. -/
def sortedNames (ns : List String) : List String := ns.mergeSort fun a b => !(b < a)

/-- A name without an ending, if it ends so. -/
def withoutEnding? (ending n : String) : Option String :=
  let (e, s) := (ending.toList, n.toList)
  if e.isSuffixOf s then some (String.ofList (s.take (s.length - e.length))) else none

/-- The home directories that are known: one's own, and those of users by their names. -/
structure Homes where
  own : Option String
  ofUser? : String → Option String := fun _ => none

instance : Coe String Homes := ⟨fun home => { own := some home }⟩

/-- The home directory that a name after `~` means. No name means one's own. -/
def Homes.find? (h : Homes) (user : String) : Option String :=
  if user = "" then h.own else h.ofUser? user

/-- The home directory in place of a first name that begins with `~`. A path with an unknown user
stays as it is. -/
def expandHome (homes : Homes) (p : String) : String :=
  match p.toList with
  | '~' :: rest =>
    match homes.find? (String.ofList (rest.takeWhile (· != '/'))) with
    | some home =>
      let bare := dropSlashes home.toList ++ rest.dropWhile (· != '/')
      if bare.isEmpty then "/" else String.ofList bare
    | none => p
  | _ => p
where
  dropSlashes (s : List Char) : List Char := (s.reverse.dropWhile (· == '/')).reverse

/-- The names that two paths share at their start are dropped from both. -/
def dropCommon : List String → List String → List String × List String
  | a :: as, b :: bs => if a = b then dropCommon as bs else (a :: as, b :: bs)
  | as, bs => (as, bs)

/-- The way from one absolute path to another. -/
def relative (start p : String) : String :=
  let (back, forth) := dropCommon (walked true (names start)) (walked true (names p))
  let way := back.map (fun _ => "..") ++ forth
  if way.isEmpty then "." else ofNames way

end BlogSite.Path
