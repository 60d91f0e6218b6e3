import BlogSite.Template
import Mathlib.Data.List.Basic
import Mathlib.Data.Set.Basic
import Mathlib.Data.List.Nodup

/-!
Filling a template as a cut. From left to right a template is cut into single characters and slots;
a slot is the longest token that starts at its place. The cut knows the names alone, and what is put
into the slots is never cut again.
-/

namespace BlogSite.Template

/-- A part of a template: a character that stays, or a slot for a named value. -/
inductive Part where
  | char (c : Char)
  | slot (name : String)

/-- The name whose token is the longest of those that start a text. -/
def Longest (names : Set String) (s : List Char) (n : String) : Prop :=
  n ∈ names ∧ token n.toList <+: s ∧
    ∀ k ∈ names, token k.toList <+: s → (token k.toList).length ≤ (token n.toList).length

/-- The cut of a text at the tokens of some names, from left to right. -/
inductive Cut (names : Set String) : List Char → List Part → Prop
  | done : Cut names [] []
  | slot {s : List Char} {n : String} {parts : List Part} (longest : Longest names s n)
      (rest : Cut names (s.drop (token n.toList).length) parts) : Cut names s (.slot n :: parts)
  | char {c : Char} {cs : List Char} {parts : List Part}
      (none : ∀ n ∈ names, ¬ token n.toList <+: c :: cs) (rest : Cut names cs parts) :
      Cut names (c :: cs) (.char c :: parts)

/-- Values under names, each name once. -/
structure Naming where
  rows : List (String × Value)
  nodup : (rows.map Prod.fst).Nodup

namespace Naming

def names (m : Naming) : Set String := { n | n ∈ m.rows.map Prod.fst }

/-- The mapping with the names as textual keys. -/
def entries (m : Naming) : Entries := m.rows.map fun r => (.str r.1,r.2)

/-- What a name leaves in a template: its value as a text, and nothing for a value that is none. -/
def shown (m : Naming) (n : String) : List Char :=
  match m.rows.lookup n with
  | none => token n.toList
  | some .null => []
  | some v => v.display

end Naming

namespace Part

/-- The characters of the template that a part stands for. -/
def source : Part → List Char
  | .char c => [c]
  | .slot n => token n.toList

/-- What a part becomes. -/
def filled (m : Naming) : Part → List Char
  | .char c => [c]
  | .slot n => m.shown n

end Part

/-! ### Tokens -/

theorem token_ne_nil (n : List Char) : token n ≠ [] := by simp [token]

theorem token_injective : Function.Injective token := by
  intro a b h
  simpa [token] using h

theorem token_toList_injective : Function.Injective fun n : String => token n.toList :=
  fun _ _ h => String.toList_injective (token_injective h)

/-- Two names whose tokens are the longest at one place are the same. -/
theorem Longest.unique {names : Set String} {s : List Char} {n k : String}
    (hn : Longest names s n) (hk : Longest names s k) : n = k := by
  have hlength := Nat.le_antisymm (hk.2.2 n hn.1 hn.2.1) (hn.2.2 k hk.1 hk.2.1)
  apply token_toList_injective
  exact List.IsPrefix.eq_of_length (List.prefix_of_prefix_length_le hn.2.1 hk.2.1 hlength.le) hlength

/-! ### The cut of a text -/

/-- There is at most one cut. -/
theorem Cut.unique {names : Set String} {s : List Char} {ps qs : List Part}
    (hp : Cut names s ps) (hq : Cut names s qs) : ps = qs := by
  induction hp generalizing qs with
  | done =>
    cases hq with
    | done => rfl
    | @slot _ n _ longest _ =>
      exact absurd (List.prefix_nil.mp longest.2.1) (token_ne_nil n.toList)
  | @slot s n parts longest _ ih =>
    cases hq with
    | done => exact absurd (List.prefix_nil.mp longest.2.1) (token_ne_nil n.toList)
    | @slot _ k _ longest' rest' =>
      obtain rfl := longest.unique longest'
      rw [ih rest']
    | char none _ => exact absurd longest.2.1 (none n longest.1)
  | @char c cs parts none _ ih =>
    cases hq with
    | @slot _ n _ longest _ => exact absurd longest.2.1 (none n longest.1)
    | char _ rest' => rw [ih rest']

/-- The parts of a cut make up the text. -/
theorem Cut.flatMap_source {names : Set String} {s : List Char} {ps : List Part}
    (h : Cut names s ps) : ps.flatMap Part.source = s := by
  induction h with
  | done => rfl
  | slot longest _ ih =>
    rw [List.flatMap_cons,ih]
    exact List.prefix_iff_eq_append.mp longest.2.1
  | char _ _ ih => simp [Part.source,ih]

theorem Cut.slot_mem {names : Set String} {s : List Char} {ps : List Part} {n : String}
    (h : Cut names s ps) (hn : Part.slot n ∈ ps) : n ∈ names := by
  induction h with
  | done => simp at hn
  | slot longest _ ih =>
    rcases List.mem_cons.mp hn with hn | hn
    · obtain rfl := Part.slot.inj hn
      exact longest.1
    · exact ih hn
  | char _ _ ih =>
    rcases List.mem_cons.mp hn with hn | hn
    · exact absurd hn (by simp)
    · exact ih hn

end BlogSite.Template
