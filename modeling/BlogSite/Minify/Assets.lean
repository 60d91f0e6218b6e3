import BlogSite.World

/-!
Short copies of the assets of a site: beside every style sheet and every script stands a copy that a
compressor has made.
-/

namespace BlogSite.Minify

/-- How style sheets and scripts get short. -/
structure Compressors where
  style : String → String
  script : String → String

/-- One kind of assets: the directory it is in, how the names of its files end, and the compressor
for them. -/
structure Kind where
  folder : String
  label : String
  compress : String → String

namespace Kind

def ending (k : Kind) : String := "." ++ k.folder

def shortEnding (k : Kind) : String := ".min" ++ k.ending

/-- The name of the short copy of a file. Files of other kinds, and short copies themselves, have
none. -/
def shortName? (k : Kind) (file : String) : Option String :=
  match Path.withoutEnding? k.ending file with
  | none => none
  | some stem =>
    if (Path.withoutEnding? k.shortEnding file).isSome then none else some (stem ++ k.shortEnding)

end Kind

def kinds (c : Compressors) : List Kind :=
  [⟨"css", "CSS", c.style⟩, ⟨"js", "JS", c.script⟩]

/-- Writes the short copy of one file. -/
def file (k : Kind) (directory name : String) : Run Unit := do
  match k.shortName? name with
  | none => return
  | some short =>
    let source ← Run.readText (Path.join directory name)
    Run.writeText (Path.join directory short) (k.compress source)
    Run.report .build .detail ("Minified " ++ k.label ++ ": " ++ name)

/-- Writes short copies of the files of one kind. A site without their directory has none. -/
def kind (output : String) (k : Kind) : Run Unit := do
  let directory := Path.joinAll output ["assets", k.folder]
  if ← Run.ask (·.isThere directory) then
    let names ← Run.fetch (·.list directory)
    (Path.sortedNames names).forM (file k directory)

/-- Writes short copies of all assets of a site. -/
def assets (c : Compressors) (output : String) : Run Unit := (kinds c).forM (kind output)

end BlogSite.Minify
