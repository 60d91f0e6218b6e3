import BlogSite.Value.Basic

/-!
What a textual key stands for in a mapping that is written over another one: what it stands for in the new
mapping, and if that does not have it, what it stood for before.
-/

namespace BlogSite

/-- A text is the same key as no other value. -/
theorem Value.same_str_iff {k : Value} {key : String} : k.same (.str key) = true ↔ k = .str key := by
  cases k <;> simp [Value.same,Value.asInt?]

theorem Value.str_same_iff {k : Value} {key : String} : (Value.str key).same k = true ↔ k = .str key := by
  cases k <;> simp [Value.same,Value.asInt?]
  exact eq_comm

namespace Entries

/-- What a textual key stands for in a row of entries. Of several entries with the key, which no mapping
has, the last one counts. -/
def last? (key : String) (es : Entries) : Option Value := find? (.str key) es.reverse

variable {key : String} {es new : Entries}

theorem find?_cons (k : Value) (e : Value × Value) (es : Entries) :
    find? k (e :: es) = if e.1.same k then some e.2 else find? k es :=
  rfl

theorem find?_append (k : Value) (es new : Entries) :
    find? k (es ++ new) = (find? k es).or (find? k new) := by
  induction es with
  | nil => rfl
  | cons e es ih =>
    rw [List.cons_append,find?_cons,find?_cons,ih]
    split <;> rfl

theorem find?_put_str (k v : Value) (es : Entries) :
    find? (.str key) (es.put k v) = if k.same (.str key) then some v else find? (.str key) es := by
  induction es with
  | nil => rfl
  | cons e es ih =>
    change find? (.str key) (if e.1.same k then (e.1,v) :: es else (e.1,e.2) :: put k v es) = _
    by_cases hsame : e.1.same k = true
    · -- The old key stays in the row. It is a text just when the new one is that text.
      have hkey : e.1.same (.str key) = k.same (.str key) := by
        rw [Bool.eq_iff_iff,Value.same_str_iff,Value.same_str_iff]
        constructor
        · intro he
          rwa [he,Value.str_same_iff] at hsame
        · rintro rfl
          exact Value.same_str_iff.mp hsame
      rw [if_pos hsame,find?_cons,find?_cons,hkey]
      split <;> rfl
    · rw [if_neg hsame,find?_cons,find?_cons,ih]
      by_cases he : e.1.same (.str key) = true
      · have hk : ¬ k.same (.str key) = true := by
          rw [Value.same_str_iff]
          rintro rfl
          exact hsame he
        rw [if_pos he,if_pos he,if_neg hk]
      · rw [if_neg he,if_neg he]

/-- A mapping that is written over another one counts first. -/
theorem find?_update_str (es new : Entries) :
    find? (.str key) (es.update new) = (new.last? key).or (find? (.str key) es) := by
  induction new generalizing es with
  | nil => rfl
  | cons e new ih =>
    change find? (.str key) ((es.put e.1 e.2).update new) = _
    rw [ih,find?_put_str,last?,last?,List.reverse_cons,find?_append,find?_cons,Option.or_assoc]
    split <;> rfl

theorem update_append (es new more : Entries) : es.update (new ++ more) = (es.update new).update more :=
  List.foldl_append

/-- What was written in between is not seen where the last mapping has the key, or where it changes nothing. -/
theorem find?_update_update_iff {old : Entries} :
    (∀ key, find? (.str key) ((es.update old).update new) = find? (.str key) (es.update new)) ↔
      ∀ key value, old.last? key = some value → new.last? key = none →
        find? (.str key) es = some value := by
  refine forall_congr' fun key => ?_
  rw [find?_update_str,find?_update_str,find?_update_str]
  cases hnew : new.last? key <;> cases hold : old.last? key <;> simp [eq_comm]

/-- Entries with other keys can be left out. -/
theorem last?_filter {p : Value × Value → Bool} (h : ∀ e ∈ es, e.1 = .str key → p e = true) :
    last? key (es.filter p) = es.last? key := by
  have hfind : ∀ fs : Entries, (∀ e ∈ fs, e.1 = .str key → p e = true) →
      find? (.str key) (fs.filter p) = find? (.str key) fs := by
    intro fs hfs
    induction fs with
    | nil => rfl
    | cons e fs ih =>
      obtain ⟨he,hrest⟩ := List.forall_mem_cons.mp hfs
      rw [List.filter_cons]
      split
      · rw [find?_cons,find?_cons,ih hrest]
      · rename_i hp
        rw [ih hrest,find?_cons,if_neg fun hkey => hp (he (Value.same_str_iff.mp hkey))]
  rw [last?,← List.filter_reverse,hfind _ fun e he => h e (List.mem_reverse.mp he)]
  rfl

end Entries

end BlogSite
