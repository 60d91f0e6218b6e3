import BlogSite.Yaml.Implicit
import BlogSite.Yaml.Token

/-!
The document that tokens spell: a tree of tagged nodes in which every alias is replaced by what its
anchor names. A text holds at most one document.
-/

namespace BlogSite.Yaml

inductive Node where
  | scalar (tag : String) (text : String)
  | sequence (tag : String) (items : List Node)
  | mapping (tag : String) (pairs : List (Node × Node))
deriving Inhabited

def Node.tag : Node → String
  | .scalar t _ | .sequence t _ | .mapping t _ => t

/-- What is left to read of a document and what its anchors name; the node of an anchor is missing
while it is being read. -/
structure Reading where
  tokens : List Token
  anchors : List (String × Option Node) := []
  handles : List (String × String) := [("!", "!"), ("!!", Tag.space)]

namespace Reading

/-- A part of a document, read from the front of the tokens. -/
abbrev Part (α : Type) := StateT Reading (Except Fault) α

def peek? : Part (Option Token) := do return (← get).tokens.head?

/-- Whether the next token is one of some. -/
def sees (ts : List Token) : Part Bool := do
  match ← peek? with
  | some t => return ts.contains t
  | none => return false

def drop : Part Unit := modify fun r => { r with tokens := r.tokens.tail }

/-- Takes the next token if it is a certain one. -/
def takes (t : Token) : Part Bool := do
  if ← sees [t] then drop; return true
  else return false

/-- The next token does not fit, or the text is broken there. -/
def unexpected {α : Type} : Part α := do
  match ← peek? with
  | some (.broken f) => throw f
  | _ => throw .malformed

def expect (t : Token) : Part Unit := do
  if ← takes t then pure () else unexpected

/-- The node of an empty place. -/
def nothing : Node := .scalar (Tag.ofPlain []) ""

/-- The full tag that a handle and a suffix spell. -/
def fullTag (handle : Option String) (suffix : String) : Part String := do
  match handle with
  | none => return suffix
  | some h =>
    match (← get).handles.lookup h with
    | some start => return start ++ suffix
    | none => throw .malformed

/-- The anchor and the tag before a node, in either order. -/
def properties : Part (Option String × Option String) := do
  match ← peek? with
  | some (.anchor a) =>
    drop
    match ← peek? with
    | some (.tag h s) => drop; return (some a, some (← fullTag h s))
    | _ => return (some a, none)
  | some (.tag h s) =>
    drop
    match ← peek? with
    | some (.anchor a) => drop; return (some a, some (← fullTag h s))
    | _ => return (none, some (← fullTag h s))
  | _ => return (none, none)

/-- Names the node that follows; a name is used once. -/
def openAnchor (anchor : Option String) : Part Unit := do
  match anchor with
  | none => pure ()
  | some a =>
    if (← get).anchors.any (·.1 = a) then throw .malformed
    modify fun r => { r with anchors := (a, none) :: r.anchors }

def closeAnchor (anchor : Option String) (n : Node) : Part Unit := do
  match anchor with
  | none => pure ()
  | some a => modify fun r => { r with anchors := (a, some n) :: r.anchors }

/-- A given tag, unless it leaves the choice to the reader. -/
def tagOr (given : Option String) (default : String) : String :=
  match given with
  | none | some "!" => default
  | some t => t

/-- A place without content: only an anchor or a tag makes it a node. -/
def bare (anchor given : Option String) : Part Node := do
  match ← peek? with
  | some (.broken f) => throw f
  | _ =>
    if anchor.isSome || given.isSome then return .scalar (tagOr given nothing.tag) ""
    else throw .malformed

mutual

/-- A node. In a block it may be a block collection; the value of a key may be a sequence without
an indentation of its own. -/
def node (inBlock loose : Bool) : Nat → Part Node
  | 0 => throw .malformed
  | fuel + 1 => do
    match ← peek? with
    | some (.alias a) =>
      drop
      match (← get).anchors.lookup a with
      | some (some n) => return n
      | _ => throw .malformed
    | _ =>
      let (anchor, given) ← properties
      openAnchor anchor
      let n ← content inBlock loose anchor given fuel
      closeAnchor anchor n
      return n

def content (inBlock loose : Bool) (anchor given : Option String) : Nat → Part Node
  | 0 => throw .malformed
  | fuel + 1 => do
    match ← peek? with
    | some (.scalar text plain) =>
      drop
      let free := given == some "!" || (plain && given.isNone)
      return .scalar (tagOr given (if free then Tag.ofPlain text.toList else Tag.str)) text
    | some .flowSequenceStart =>
      drop
      return .sequence (tagOr given Tag.seq) (← flowItems true fuel)
    | some .flowMappingStart =>
      drop
      return .mapping (tagOr given Tag.map) (← flowPairs true fuel)
    | some .blockEntry =>
      if loose then return .sequence (tagOr given Tag.seq) (← looseItems fuel)
      else bare anchor given
    | some .blockSequenceStart =>
      if inBlock then
        drop
        return .sequence (tagOr given Tag.seq) (← blockItems fuel)
      else bare anchor given
    | some .blockMappingStart =>
      if inBlock then
        drop
        return .mapping (tagOr given Tag.map) (← blockPairs fuel)
      else bare anchor given
    | _ => bare anchor given

/-- A node, or nothing when one of some tokens follows at once. -/
def nodeUnless (stops : List Token) (inBlock loose : Bool) : Nat → Part Node
  | 0 => throw .malformed
  | fuel + 1 => do
    if ← sees stops then return nothing
    else node inBlock loose fuel

def blockItems : Nat → Part (List Node)
  | 0 => throw .malformed
  | fuel + 1 => do
    if ← takes .blockEntry then
      let n ← nodeUnless [.blockEntry, .blockEnd] true false fuel
      return n :: (← blockItems fuel)
    else
      expect .blockEnd
      return []

def looseItems : Nat → Part (List Node)
  | 0 => throw .malformed
  | fuel + 1 => do
    if ← takes .blockEntry then
      let n ← nodeUnless [.blockEntry, .key, .value, .blockEnd] true false fuel
      return n :: (← looseItems fuel)
    else return []

def blockPairs : Nat → Part (List (Node × Node))
  | 0 => throw .malformed
  | fuel + 1 => do
    if ← takes .key then
      let stops : List Token := [.key, .value, .blockEnd]
      let k ← nodeUnless stops true true fuel
      let v ← if ← takes .value then nodeUnless stops true true fuel else pure nothing
      return (k, v) :: (← blockPairs fuel)
    else
      expect .blockEnd
      return []

/-- A key and a value between brackets. -/
def flowPair (close : Token) : Nat → Part (Node × Node)
  | 0 => throw .malformed
  | fuel + 1 => do
    let k ← nodeUnless [.value, .flowEntry, close] false false fuel
    let v ← if ← takes .value then nodeUnless [.flowEntry, close] false false fuel
      else pure nothing
    return (k, v)

def flowItems (first : Bool) : Nat → Part (List Node)
  | 0 => throw .malformed
  | fuel + 1 => do
    if ← takes .flowSequenceEnd then return []
    unless first do expect .flowEntry
    if ← takes .key then
      let p ← flowPair .flowSequenceEnd fuel
      return .mapping Tag.map [p] :: (← flowItems false fuel)
    else if ← takes .flowSequenceEnd then return []
    else
      let n ← node false false fuel
      return n :: (← flowItems false fuel)

def flowPairs (first : Bool) : Nat → Part (List (Node × Node))
  | 0 => throw .malformed
  | fuel + 1 => do
    if ← takes .flowMappingEnd then return []
    unless first do expect .flowEntry
    if ← takes .key then
      let p ← flowPair .flowMappingEnd fuel
      return p :: (← flowPairs false fuel)
    else if ← takes .flowMappingEnd then return []
    else
      let n ← node false false fuel
      return (n, nothing) :: (← flowPairs false fuel)

end

/-- The directives before a document: at most one version, which has to be 1, and handles that
differ. The two common handles are there unless they are given another meaning. -/
def directives (version : Bool) (handles : List (String × String)) : Nat → Part Unit
  | 0 => throw .malformed
  | fuel + 1 => do
    match ← peek? with
    | some (.directive d) =>
      drop
      match d with
      | .version major _ =>
        if version || major != 1 then throw .malformed
        directives true handles fuel
      | .handle h start =>
        if (handles.lookup h).isSome then throw .malformed
        directives version ((h, start) :: handles) fuel
      | .other => directives version handles fuel
    | _ => modify fun r => { r with handles := handles ++ r.handles }

def isDirective : Token → Bool
  | .directive _ => true
  | _ => false

/-- The content of a document that a line of hyphens has started. -/
def afterStart (fuel : Nat) : Part Node := do
  match ← peek? with
  | none | some .documentStart | some .documentEnd | some (.directive _) => return nothing
  | _ => node true false fuel

/-- The document of a text, if there is one. -/
def document (fuel : Nat) : Part (Option Node) := do
  match ← peek? with
  | none => return none
  | some t =>
    if isDirective t || t = .documentStart then
      directives false [] fuel
      expect .documentStart
      return some (← afterStart fuel)
    else return some (← node true false fuel)

end Reading

/-- The document that a text holds, if it holds one. Lines of dots may follow it, and nothing
else. -/
def Node.ofTokens (ts : List Token) : Except Fault (Option Node) := do
  let fuel := 4 * ts.length + 8
  let (n, r) ← (Reading.document fuel).run { tokens := ts }
  match r.tokens.dropWhile (· = .documentEnd) with
  | [] => .ok n
  | .broken f :: _ => .error f
  | _ => .error .malformed

end BlogSite.Yaml
