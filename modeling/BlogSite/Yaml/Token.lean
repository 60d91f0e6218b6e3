import BlogSite.Yaml.Cursor

/-!
The tokens of a YAML text. Whether a word is the key of a mapping shows only at the colon after it,
so every token keeps a slot before it for the marks of a key.
-/

namespace BlogSite.Yaml

inductive Directive where
  | version (major minor : Nat)
  | handle (handle start : String)
  | other
deriving DecidableEq

inductive Token where
  | directive (d : Directive)
  | documentStart
  | documentEnd
  | blockSequenceStart
  | blockMappingStart
  | blockEnd
  | flowSequenceStart
  | flowMappingStart
  | flowSequenceEnd
  | flowMappingEnd
  | blockEntry
  | flowEntry
  | key
  | value
  | alias (name : String)
  | anchor (name : String)
  | tag (handle : Option String) (suffix : String)
  | scalar (text : String) (plain : Bool)
  /-- The rest of the text cannot be cut into tokens. -/
  | broken (fault : Fault)
deriving DecidableEq

/-- A token with the marks that a later colon puts before it. -/
structure Slot where
  token : Token
  isKey : Bool := false
  opensMapping : Bool := false

/-- The tokens of a slot. -/
def Slot.tokens (s : Slot) : List Token :=
  (if s.opensMapping then [.blockMappingStart] else []) ++ (if s.isKey then [.key] else []) ++
    [s.token]

end BlogSite.Yaml
