import BlogSite.Yaml.Construct
import BlogSite.Yaml.Lexer

/-!
The value of a YAML text. Collections are filled after their surroundings are complete, level by
level: of two faults the one nearer the root is told, and of two on a level the first.
-/

namespace BlogSite.Yaml

/-- A fault and the level it lies on. -/
structure Blame where
  level : Nat
  fault : Fault

/-- A value or the first of its faults. -/
abbrev Outcome (α : Type) := Except Blame α

/-- Both outcomes, or the blame that comes first. -/
def both {α β γ : Type} (f : α → β → γ) : Outcome α → Outcome β → Outcome γ
  | .ok a, .ok b => .ok (f a b)
  | .error x, .error y => .error (if y.level < x.level then y else x)
  | .error x, .ok _ => .error x
  | .ok _, .error y => .error y

namespace Node

mutual

/-- The number of nodes on the longest way down. -/
def depth : Node → Nat
  | .scalar .. => 1
  | .sequence _ items => depthItems items + 1
  | .mapping _ pairs => depthPairs pairs + 1

def depthItems : List Node → Nat
  | [] => 0
  | n :: ns => max (depth n) (depthItems ns)

def depthPairs : List (Node × Node) → Nat
  | [] => 0
  | (k, v) :: ps => max (max (depth k) (depth v)) (depthPairs ps)

end

mutual

/-- The text of a node: its own, or that of the value of a mapping's `=` key. -/
def text? : Node → Option String
  | .scalar _ s => some s
  | .sequence .. => none
  | .mapping _ pairs => textOfPairs? pairs

def textOfPairs? : List (Node × Node) → Option String
  | [] => none
  | (k, v) :: ps => if k.tag = Tag.value then text? v else textOfPairs? ps

end

/-- An `=` key is a text like any other. -/
def plainKey : Node → Node
  | .scalar t s => .scalar (if t = Tag.value then Tag.str else t) s
  | .sequence t ns => .sequence (if t = Tag.value then Tag.str else t) ns
  | .mapping t ps => .mapping (if t = Tag.value then Tag.str else t) ps

mutual

/-- The pairs of a mapping with those of its merge keys before them. -/
def flatten : Nat → List (Node × Node) → Except Fault (List (Node × Node))
  | 0, _ => .error .malformed
  | fuel + 1, pairs => do
    let own := pairs.filterMap fun p =>
      if p.1.tag = Tag.merge then none else some (plainKey p.1, p.2)
    let merged ← mergedPairs fuel pairs
    .ok (merged ++ own)

def mergedPairs : Nat → List (Node × Node) → Except Fault (List (Node × Node))
  | 0, _ => .error .malformed
  | _ + 1, [] => .ok []
  | fuel + 1, (k, v) :: ps => do
    if k.tag = Tag.merge then
      let here ← match v with
        | .mapping _ pairs => flatten fuel pairs
        | .sequence _ items => mergedItems fuel items
        | .scalar .. => .error .malformed
      .ok (here ++ (← mergedPairs fuel ps))
    else mergedPairs fuel ps

/-- The pairs of several mappings, those of the last one first. -/
def mergedItems : Nat → List Node → Except Fault (List (Node × Node))
  | 0, _ => .error .malformed
  | _ + 1, [] => .ok []
  | fuel + 1, n :: ns => do
    match n with
    | .mapping _ pairs =>
      let here ← flatten fuel pairs
      .ok ((← mergedItems fuel ns) ++ here)
    | _ => .error .malformed

end

mutual

/-- The number of nodes, a bound for the steps that merging takes. -/
def size : Node → Nat
  | .scalar .. => 1
  | .sequence _ items => sizeItems items + 1
  | .mapping _ pairs => sizePairs pairs + 1

def sizeItems : List Node → Nat
  | [] => 1
  | n :: ns => size n + sizeItems ns + 1

def sizePairs : List (Node × Node) → Nat
  | [] => 1
  | (k, v) :: ps => size k + size v + sizePairs ps + 1

end

/-- Tells a fault of a level. -/
def atLevel {α : Type} (level : Nat) (r : Except Fault α) : Outcome α :=
  r.mapError fun f => ⟨level, f⟩

mutual

/-- The value of a node whose surroundings are on a level. -/
def build (level : Nat) : Nat → Node → Outcome Value
  | 0, _ => .error ⟨level, .malformed⟩
  | fuel + 1, n =>
    match Construct.scalar? n.tag with
    | some read =>
      match n.text? with
      | none => .error ⟨level, .malformed⟩
      | some s =>
        match n with
        | .mapping .. =>
          if n.tag = Tag.standard "timestamp" then .error ⟨level, .notText⟩
          else atLevel level (read s.toList)
        | _ => atLevel level (read s.toList)
    | none =>
      let inside := level + 1
      if n.tag = Tag.map then
        match n with
        | .mapping _ pairs => (buildMapping inside fuel pairs).map fun es => .map es
        | _ => .error ⟨inside, .malformed⟩
      else if n.tag = Tag.standard "set" then
        match n with
        | .mapping _ pairs => (buildMapping inside fuel pairs).map fun es => .set (es.map (·.1))
        | _ => .error ⟨inside, .malformed⟩
      else if n.tag = Tag.seq then
        match n with
        | .sequence _ items => (buildItems inside fuel items).map .list
        | _ => .error ⟨inside, .malformed⟩
      else if n.tag = Tag.standard "omap" || n.tag = Tag.standard "pairs" then
        match n with
        | .sequence _ items => (buildSingles inside fuel items).map .list
        | _ => .error ⟨inside, .malformed⟩
      else .error ⟨level, .malformed⟩

/-- The entries of a mapping after merging. -/
def buildMapping (level : Nat) : Nat → List (Node × Node) → Outcome Entries
  | 0, _ => .error ⟨level, .malformed⟩
  | fuel + 1, pairs =>
    match flatten (sizePairs pairs + 1) pairs with
    | .error f => .error ⟨level, f⟩
    | .ok flat => (buildPairs level fuel flat).map Entries.ofList

def buildPairs (level : Nat) : Nat → List (Node × Node) → Outcome (List (Value × Value))
  | 0, _ => .error ⟨level, .malformed⟩
  | _ + 1, [] => .ok []
  | fuel + 1, (k, v) :: ps =>
    let rest := buildPairs level fuel ps
    let here := match k with
      | .scalar .. =>
        both Prod.mk (build level fuel k) (build level fuel v)
      | _ =>
        match build level fuel k with
        | .ok key =>
          if key.isKey then both Prod.mk (.ok key) (build level fuel v)
          else .error ⟨level, .malformed⟩
        | .error b => .error (if b.level ≤ level then b else ⟨level, .malformed⟩)
    both (· :: ·) here rest

def buildItems (level : Nat) : Nat → List Node → Outcome (List Value)
  | 0, _ => .error ⟨level, .malformed⟩
  | _ + 1, [] => .ok []
  | fuel + 1, n :: ns => both (· :: ·) (build level fuel n) (buildItems level fuel ns)

/-- Mappings of one pair each, as pairs. -/
def buildSingles (level : Nat) : Nat → List Node → Outcome (List Value)
  | 0, _ => .error ⟨level, .malformed⟩
  | _ + 1, [] => .ok []
  | fuel + 1, n :: ns =>
    let here := match n with
      | .mapping _ [(k, v)] =>
        both (fun a b => Value.tuple [a, b]) (build level fuel k) (build level fuel v)
      | _ => .error ⟨level, .malformed⟩
    both (· :: ·) here (buildSingles level fuel ns)

end

end Node

/-- The value of a YAML text; a text without a document is nothing. -/
def read (s : String) : Except Fault Value := do
  match ← Node.ofTokens (Token.scan s.toList) with
  | none => .ok .null
  | some n => (n.build 0 (4 * n.size + 4)).mapError (·.fault)

end BlogSite.Yaml
