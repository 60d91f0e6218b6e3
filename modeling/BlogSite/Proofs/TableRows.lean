import BlogSite.Table
import Mathlib.Data.List.Basic
import Mathlib.Data.List.Induction
import Mathlib.Data.List.Nodup

/-!
Tables by their keys. Every key has one row, and of the pairs that a table is made of the last one with a key
counts; pairs with different keys are a table already.
-/

namespace BlogSite

namespace Table

variable {κ α : Type} [DecidableEq κ]

/-- A new key is written at the end of a table. -/
theorem put_of_notMem {key : κ} (a : α) {rows : List (κ × α)}
    (h : key ∉ rows.map Prod.fst) : put key a rows = rows ++ [(key,a)] := by
  induction rows with
  | nil => rfl
  | cons r rows ih =>
    simp only [List.map_cons,List.mem_cons,not_or] at h
    rw [put,if_neg (Ne.symm h.1),ih h.2]
    rfl

/-- Pairs with different keys are a table already. -/
theorem ofPairs_of_nodup {rows : List (κ × α)}
    (h : (rows.map Prod.fst).Nodup) : ofPairs rows = rows := by
  have hfold : ∀ done : List (κ × α), ((done ++ rows).map Prod.fst).Nodup →
      rows.foldl (fun rs p => put p.1 p.2 rs) done = done ++ rows := by
    clear h
    induction rows with
    | nil => simp
    | cons r rows ih =>
      intro done hnodup
      have hr : r.1 ∉ done.map Prod.fst := by
        simp only [List.map_append,List.map_cons] at hnodup
        intro hm
        exact (List.nodup_append.mp hnodup).2.2 _ hm _ (by simp) rfl
      rw [List.foldl_cons,put_of_notMem r.2 hr,ih _ (by simpa using hnodup)]
      simp
  exact hfold [] (by simpa using h)

/-- What holds of all keys of some pairs holds of all keys of their table. -/
theorem forall_ofPairs {P : κ → Prop} {pairs : List (κ × α)}
    (h : ∀ p ∈ pairs, P p.1) : ∀ r ∈ ofPairs pairs, P r.1 := by
  have hput : ∀ (rows : List (κ × α)) (key : κ) (a : α), P key → (∀ r ∈ rows, P r.1) →
      ∀ r ∈ put key a rows, P r.1 := by
    intro rows key a hkey hrows
    induction rows with
    | nil => simpa [put] using hkey
    | cons r rows ih =>
      obtain ⟨hr,hrest⟩ := List.forall_mem_cons.mp hrows
      rw [put]
      split
      · exact List.forall_mem_cons.mpr ⟨hr,hrest⟩
      · exact List.forall_mem_cons.mpr ⟨hr,ih hrest⟩
  have hfold : ∀ rows : List (κ × α), (∀ r ∈ rows, P r.1) →
      ∀ r ∈ pairs.foldl (fun rows p => put p.1 p.2 rows) rows, P r.1 := by
    induction pairs with
    | nil => exact fun _ hrows => hrows
    | cons p pairs ih =>
      obtain ⟨hp,hpairs⟩ := List.forall_mem_cons.mp h
      exact fun rows hrows => ih hpairs _ (hput rows p.1 p.2 hp hrows)
  exact hfold [] (by simp)

theorem lookup_cons_eq (p : κ × α) (rows : List (κ × α)) (k : κ) :
    (p :: rows).lookup k = if k = p.1 then some p.2 else rows.lookup k := by
  obtain ⟨l,b⟩ := p
  by_cases hk : k = l
  · simp [hk]
  · have hother : (k == l) = false := by simpa using hk
    rw [List.lookup_cons,hother,if_neg hk]

theorem lookup_put (key : κ) (a : α) (rows : List (κ × α)) (k : κ) :
    (put key a rows).lookup k = if k = key then some a else rows.lookup k := by
  induction rows with
  | nil => exact lookup_cons_eq (key,a) [] k
  | cons r rows ih =>
    rw [put]
    split
    · rename_i hr
      subst hr
      rw [lookup_cons_eq,lookup_cons_eq]
      split
      · rfl
      · rfl
    · rename_i hr
      rw [lookup_cons_eq,lookup_cons_eq,ih]
      by_cases hk : k = r.1
      · simp [hk,hr]
      · simp [hk]

/-- Of the pairs with one key the last one is found. -/
theorem lookup_ofPairs (ps : List (κ × α)) (k : κ) : (ofPairs ps).lookup k = ps.reverse.lookup k := by
  induction ps using List.reverseRecOn with
  | nil => rfl
  | append_singleton ps p ih =>
    unfold ofPairs at ih ⊢
    rw [List.foldl_append,List.foldl_cons,List.foldl_nil,lookup_put,ih,List.reverse_append,
      List.reverse_singleton,List.singleton_append,lookup_cons_eq]

theorem mem_map_fst_put {key k : κ} {a : α} {rows : List (κ × α)} :
    k ∈ (put key a rows).map Prod.fst ↔ k = key ∨ k ∈ rows.map Prod.fst := by
  induction rows with
  | nil => simp [put]
  | cons r rows ih =>
    rw [put]
    split
    · rename_i hr
      simp [hr]
    · rw [List.map_cons,List.mem_cons,ih,List.map_cons,List.mem_cons]
      tauto

theorem nodup_put (key : κ) (a : α) {rows : List (κ × α)} (h : (rows.map Prod.fst).Nodup) :
    ((put key a rows).map Prod.fst).Nodup := by
  induction rows with
  | nil => simp [put]
  | cons r rows ih =>
    obtain ⟨hr,hrows⟩ := List.nodup_cons.mp h
    rw [put]
    split
    · exact h
    · rename_i hne
      refine List.nodup_cons.mpr ⟨?_,ih hrows⟩
      rw [mem_map_fst_put]
      exact fun hmem => hmem.elim hne hr

/-- Every key has one row. -/
theorem nodup_ofPairs (ps : List (κ × α)) : ((ofPairs ps).map Prod.fst).Nodup := by
  induction ps using List.reverseRecOn with
  | nil => exact List.nodup_nil
  | append_singleton ps p ih =>
    unfold ofPairs at ih ⊢
    rw [List.foldl_append]
    exact nodup_put p.1 p.2 ih

theorem mem_iff_lookup {rows : List (κ × α)} (h : (rows.map Prod.fst).Nodup) {k : κ} {a : α} :
    (k,a) ∈ rows ↔ rows.lookup k = some a := by
  induction rows with
  | nil => simp
  | cons r rows ih =>
    obtain ⟨hr,hrows⟩ := List.nodup_cons.mp h
    rw [lookup_cons_eq,List.mem_cons,ih hrows]
    split
    · rename_i hk
      subst hk
      have hnone : rows.lookup r.1 ≠ some a := by
        intro hlookup
        exact hr (List.mem_map.mpr ⟨(r.1,a),(ih hrows).mpr hlookup,rfl⟩)
      simp [hnone,Prod.ext_iff,eq_comm]
    · rename_i hk
      simp [hk,Prod.ext_iff]

end Table

end BlogSite
