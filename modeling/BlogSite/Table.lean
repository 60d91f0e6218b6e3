/-!
Tables: rows of keys with what belongs to them, in the order in which the keys were first written.
-/

namespace BlogSite.Table

/-- Gives a key a value: in its old place if the table has the key, else at the end. -/
def put {κ α : Type} [DecidableEq κ] (key : κ) (a : α) : List (κ × α) → List (κ × α)
  | [] => [(key, a)]
  | (k, b) :: rows => if k = key then (k, a) :: rows else (k, b) :: put key a rows

/-- The table that a row of pairs spells: the last value of a key counts. -/
def ofPairs {κ α : Type} [DecidableEq κ] (pairs : List (κ × α)) : List (κ × α) :=
  pairs.foldl (fun rows p => put p.1 p.2 rows) []

end BlogSite.Table
