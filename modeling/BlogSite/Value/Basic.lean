import BlogSite.Calendar.Moment
import BlogSite.Decimal.Shortest

/-!
The values that metadata, settings and the list of blogs can hold. Entries of a mapping keep the
order in which their keys were first written.
-/

namespace BlogSite

open BlogSite.Calendar

inductive Value where
  | null
  | bool (b : Bool)
  | int (n : Int)
  | float (x : Float)
  | str (s : String)
  | bytes (bs : List UInt8)
  | date (d : Date)
  | moment (m : Moment)
  | list (items : List Value)
  | tuple (items : List Value)
  | map (entries : List (Value × Value))
  | set (items : List Value)
deriving Inhabited

namespace Value

/-- The integer that a floating point number is, if it is one. -/
def exactInt? (x : Float) : Option Int :=
  if x == 0.0 then some 0
  else if x.isNaN || x.isInf then none
  else
    let bits := x.toBits.toNat
    let b := Decimal.Binary.ofBits (bits % Nat.pow 2 63)
    let m : Int := if Nat.pow 2 63 ≤ bits then -(b.mantissa : Int) else b.mantissa
    if 0 ≤ b.exponent then some (m * Int.pow 2 b.exponent.toNat)
    else if m % Int.pow 2 (-b.exponent).toNat = 0 then some (m / Int.pow 2 (-b.exponent).toNat)
    else none

/-- Truth values count as the integers 0 and 1. -/
def asInt? : Value → Option Int
  | .bool b => some (if b then 1 else 0)
  | .int n => some n
  | .float x => exactInt? x
  | _ => none

mutual

/-- Whether two values are the same key of a mapping. Numbers of every kind are compared by what
they count. -/
def same : Value → Value → Bool
  | .null, .null => true
  | .str a, .str b => a == b
  | .bytes a, .bytes b => a == b
  | .date a, .date b => decide (a = b)
  | .moment a, .moment b => a.agrees b
  | .float a, .float b => a == b
  | .list as, .list bs => sameAll as bs
  | .tuple as, .tuple bs => sameAll as bs
  | a, b =>
    match a.asInt?, b.asInt? with
    | some m, some n => m == n
    | _, _ => false

def sameAll : List Value → List Value → Bool
  | [], [] => true
  | a :: as, b :: bs => same a b && sameAll as bs
  | _, _ => false

end

mutual

/-- Whether a value can be the key of a mapping: what can grow cannot. -/
def isKey : Value → Bool
  | .list _ | .map _ | .set _ => false
  | .tuple items => allKeys items
  | _ => true

def allKeys : List Value → Bool
  | [] => true
  | v :: vs => isKey v && allKeys vs

end

/-- Whether a value counts as given: nothing, zero and what is empty do not. -/
def truthy : Value → Bool
  | .null => false
  | .bool b => b
  | .int n => n != 0
  | .float x => x != 0.0
  | .str s => s != ""
  | .bytes bs => !bs.isEmpty
  | .date _ | .moment _ => true
  | .list items | .tuple items | .set items => !items.isEmpty
  | .map entries => !entries.isEmpty

/-- A value, or another when it does not count as given. -/
def orElse (v other : Value) : Value := if v.truthy then v else other

/-- What kind of value this is, as messages name it. -/
def kind : Value → String
  | .null => "NoneType"
  | .bool _ => "bool"
  | .int _ => "int"
  | .float _ => "float"
  | .str _ => "str"
  | .bytes _ => "bytes"
  | .date _ => "date"
  | .moment _ => "datetime"
  | .list _ => "list"
  | .tuple _ => "tuple"
  | .map _ => "dict"
  | .set _ => "set"

end Value

/-- A mapping: its keys are pairwise different. -/
abbrev Entries := List (Value × Value)

namespace Entries

/-- What a key stands for. -/
def find? (key : Value) : Entries → Option Value
  | [] => none
  | (k, v) :: es => if k.same key then some v else find? key es

/-- What a textual key stands for, and nothing when it is absent. -/
def field (es : Entries) (key : String) : Value := (find? (.str key) es).getD .null

/-- What a textual key stands for, and the empty text when it is absent. -/
def fieldText (es : Entries) (key : String) : Value := (find? (.str key) es).getD (.str "")

/-- Gives a key a value: in its old place if the mapping has the key, else at the end. -/
def put (key value : Value) : Entries → Entries
  | [] => [(key, value)]
  | (k, v) :: es => if k.same key then (k, value) :: es else (k, v) :: put key value es

/-- The entries of a mapping with those of another put into it, one after the other. -/
def update (es new : Entries) : Entries := new.foldl (fun es e => es.put e.1 e.2) es

/-- The mapping that a list of pairs spells: the last value of a key wins. -/
def ofList (pairs : List (Value × Value)) : Entries := update [] pairs

end Entries

end BlogSite
