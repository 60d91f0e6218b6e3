import BlogSite.Proofs.TableRows
import BlogSite.Proofs.TemplateCut
import Mathlib.Data.List.Perm.Basic

/-!
Filling follows the cut. Sorted by length, the first slot that matches has the longest token, so the
one pass over a template replaces the slots of its cut and copies the characters between them.
-/

namespace BlogSite

namespace Template

/-- The first match among slots with longer tokens first is a match with the longest token. -/
theorem match?_byLength_eq_some {ss : Slots} {s : List Char} {x : List Char × List Char}
    (h : match? (byLength ss) s = some x) :
    x ∈ ss ∧ x.1 <+: s ∧ ∀ y ∈ ss, y.1 <+: s → y.1.length ≤ x.1.length := by
  obtain ⟨hx,before,after,hsplit,hbefore⟩ := List.find?_eq_some_iff_append.mp h
  have hmem : ∀ y, y ∈ ss ↔ y ∈ before ++ x :: after := by
    intro y
    rw [← hsplit]
    exact (List.mem_mergeSort).symm
  have hsorted : (before ++ x :: after).Pairwise fun a b => decide (b.1.length ≤ a.1.length) := by
    rw [← hsplit]
    apply List.pairwise_mergeSort
    · intro a b c hab hbc
      simp only [decide_eq_true_eq] at hab hbc ⊢
      omega
    · intro a b
      simp only [Bool.or_eq_true,decide_eq_true_eq]
      omega
  refine ⟨(hmem x).mpr (by simp),by simpa using hx,?_⟩
  intro y hy hstart
  rcases List.mem_append.mp ((hmem y).mp hy) with hb | hb
  · exact absurd hstart (by simpa [← List.isPrefixOf_iff_prefix] using hbefore y hb)
  · rcases List.mem_cons.mp hb with rfl | ha
    · exact le_rfl
    · have h := (List.pairwise_cons.mp (List.pairwise_append.mp hsorted).2.1).1 y ha
      simpa using h

theorem match?_byLength_eq_none {ss : Slots} {s : List Char}
    (h : match? (byLength ss) s = none) : ∀ y ∈ ss, ¬ y.1 <+: s := by
  intro y hy
  have hy' : y ∈ byLength ss := List.mem_mergeSort.mpr hy
  simpa using List.find?_eq_none.mp h y hy'

theorem fillFrom_skip (ss : Slots) (skip : Nat) (s : List Char) :
    fillFrom ss skip s = fillFrom ss 0 (s.drop skip) := by
  induction s generalizing skip with
  | nil => cases skip <;> simp [fillFrom]
  | cons c cs ih =>
    cases skip with
    | zero => rfl
    | succ skip => simpa [fillFrom] using ih skip

/-- A slot that matches is replaced, and the pass goes on after its token. -/
theorem fillFrom_of_match {ss : Slots} {s t v : List Char} (h : match? ss s = some (t,v))
    (ht : t ≠ []) (hs : s ≠ []) : fillFrom ss 0 s = v ++ fillFrom ss 0 (s.drop t.length) := by
  obtain ⟨c,cs,rfl⟩ := List.exists_cons_of_ne_nil hs
  obtain ⟨d,ds,rfl⟩ := List.exists_cons_of_ne_nil ht
  rw [fillFrom,h]
  simp [fillFrom_skip ss ds.length]

theorem fillFrom_of_no_match {ss : Slots} {c : Char} {cs : List Char}
    (h : match? ss (c :: cs) = none) : fillFrom ss 0 (c :: cs) = c :: fillFrom ss 0 cs := by
  rw [fillFrom,h]

/-- A text without braces is left as it is. -/
theorem fillNamed_of_no_brace {template : String} (h : '\x7b' ∉ template.toList)
    (values : List (String × String)) : fillNamed template values = template := by
  have htoken : ∀ x ∈ slots (values.map fun v => (v.1.toList,v.2.toList)), x.1.head? = some '\x7b' := by
    refine Table.forall_ofPairs (P := fun t : List Char => t.head? = some '\x7b') fun p hp => ?_
    obtain ⟨v,-,rfl⟩ := List.mem_map.mp hp
    rfl
  have hfill : ∀ s : List Char, '\x7b' ∉ s → ∀ ss : Slots, (∀ x ∈ ss, x.1.head? = some '\x7b') →
      fillFrom (byLength ss) 0 s = s := by
    intro s hs ss hss
    induction s with
    | nil => rfl
    | cons c cs ih =>
      have hnone : match? (byLength ss) (c :: cs) = none := by
        rw [Option.eq_none_iff_forall_ne_some]
        intro x hx
        obtain ⟨hmem,⟨rest,hrest⟩,-⟩ := match?_byLength_eq_some hx
        have hhead := hss x hmem
        cases hx1 : x.1 with
        | nil => simp [hx1] at hhead
        | cons d ds =>
          rw [hx1] at hhead hrest
          obtain ⟨rfl,-⟩ := List.cons.inj hrest
          exact hs (by simp [Option.some.inj hhead])
      rw [fillFrom_of_no_match hnone,ih fun hmem => hs (List.mem_cons_of_mem _ hmem)]
  unfold fillNamed fillText
  split
  · rfl
  · rw [hfill _ h _ htoken,String.ofList_toList]

namespace Naming

/-- The slots of a mapping: the token of each name, with what the name leaves. -/
def slots (m : Naming) : Slots := m.rows.map fun r => (token r.1.toList,r.2.text)

theorem slots_eq (m : Naming) :
    Template.slots (m.entries.map fun (k,v) => (k.display,v.text)) = m.slots := by
  have hrows : ((m.entries.map fun (k,v) => (k.display,v.text)).map fun v => (token v.1,v.2)) =
      m.slots := by
    simp [entries,slots,Value.display]
  have hnodup : (m.slots.map Prod.fst).Nodup := by
    have hmap : m.slots.map Prod.fst = (m.rows.map Prod.fst).map fun n => token n.toList := by
      simp [slots]
    rw [hmap]
    exact m.nodup.map token_toList_injective
  rw [Template.slots,hrows,Table.ofPairs_of_nodup hnodup]

theorem lookup_eq_some {rows : List (String × Value)} (h : (rows.map Prod.fst).Nodup)
    {r : String × Value} (hr : r ∈ rows) : rows.lookup r.1 = some r.2 := by
  induction rows with
  | nil => simp at hr
  | cons a rows ih =>
    obtain ⟨k,v⟩ := a
    simp only [List.map_cons,List.nodup_cons] at h
    rcases List.mem_cons.mp hr with rfl | hmem
    · simp
    · have hne : r.1 ≠ k := by
        rintro rfl
        exact h.1 (List.mem_map_of_mem hmem)
      have hbeq : (r.1 == k) = false := by simpa using hne
      rw [List.lookup_cons,hbeq]
      exact ih h.2 hmem

theorem shown_eq (m : Naming) {r : String × Value} (hr : r ∈ m.rows) : m.shown r.1 = r.2.text := by
  rw [shown,lookup_eq_some m.nodup hr]
  cases r.2 <;> rfl

/-- Where a slot matches, it is the one with the longest token, and holds what its name leaves. -/
theorem longest_of_match? (m : Naming) {s : List Char} {x : List Char × List Char}
    (h : match? (byLength m.slots) s = some x) :
    ∃ n, Longest m.names s n ∧ x = (token n.toList,m.shown n) := by
  obtain ⟨hx,hstart,hlongest⟩ := match?_byLength_eq_some h
  obtain ⟨r,hr,rfl⟩ := List.mem_map.mp hx
  refine ⟨r.1,⟨List.mem_map_of_mem hr,hstart,?_⟩,by rw [m.shown_eq hr]⟩
  intro k hk hkstart
  obtain ⟨q,hq,rfl⟩ := List.mem_map.mp hk
  exact hlongest _ (List.mem_map_of_mem hq) hkstart

theorem not_prefix_of_match? (m : Naming) {s : List Char}
    (h : match? (byLength m.slots) s = none) : ∀ n ∈ m.names, ¬ token n.toList <+: s := by
  intro n hn
  obtain ⟨r,hr,rfl⟩ := List.mem_map.mp hn
  exact match?_byLength_eq_none h _ (List.mem_map_of_mem hr)

/-- One pass over a text cuts it and fills the slots of the cut. -/
theorem exists_cut (m : Naming) (s : List Char) : ∃ parts, Cut m.names s parts ∧
    fillFrom (byLength m.slots) 0 s = parts.flatMap (Part.filled m) := by
  induction hn : s.length using Nat.strongRecOn generalizing s with
  | ind n ih =>
    cases s with
    | nil => exact ⟨[],.done,rfl⟩
    | cons c cs =>
      cases hmatch : match? (byLength m.slots) (c :: cs) with
      | none =>
        obtain ⟨parts,hcut,hfill⟩ := ih cs.length (by simp [← hn]) cs rfl
        refine ⟨.char c :: parts,.char (m.not_prefix_of_match? hmatch) hcut,?_⟩
        rw [fillFrom_of_no_match hmatch,hfill]
        rfl
      | some x =>
        obtain ⟨k,hlongest,rfl⟩ := m.longest_of_match? hmatch
        have hpos : 0 < (token k.toList).length := List.length_pos_iff.mpr (token_ne_nil _)
        have hshort : ((c :: cs).drop (token k.toList).length).length < n := by
          simp only [List.length_drop,← hn,List.length_cons]
          omega
        obtain ⟨parts,hcut,hfill⟩ := ih _ hshort _ rfl
        refine ⟨.slot k :: parts,.slot hlongest hcut,?_⟩
        rw [fillFrom_of_match hmatch (token_ne_nil _) (by simp),hfill]
        rfl

theorem fill_eq_fillFrom (template : String) (m : Naming) :
    fill template m.entries = String.ofList (fillFrom (byLength m.slots) 0 template.toList) := by
  rw [fill,fillText,slots_eq]
  split
  · rename_i hempty
    obtain ⟨parts,hcut,hfill⟩ := m.exists_cut template.toList
    have hnil : m.rows = [] := by simpa [entries] using hempty
    have hsame : parts.flatMap (Part.filled m) = parts.flatMap Part.source := by
      apply List.flatMap_congr
      intro p hp
      cases p with
      | char c => rfl
      | slot n =>
        have hmem := hcut.slot_mem hp
        simp [names,hnil] at hmem
    rw [hfill,hsame,hcut.flatMap_source,String.ofList_toList]
  · rfl

theorem names_eq_of_perm {m k : Naming} (h : m.rows.Perm k.rows) : m.names = k.names := by
  ext n
  exact (h.map Prod.fst).mem_iff

theorem shown_eq_of_perm {m k : Naming} (h : m.rows.Perm k.rows) {n : String} (hn : n ∈ m.names) :
    m.shown n = k.shown n := by
  obtain ⟨r,hr,rfl⟩ := List.mem_map.mp hn
  rw [m.shown_eq hr,k.shown_eq (h.mem_iff.mp hr)]

end Naming

theorem fill_eq_of_cut {template : String} {m : Naming} {parts : List Part}
    (h : Cut m.names template.toList parts) :
    fill template m.entries = String.ofList (parts.flatMap (Part.filled m)) := by
  obtain ⟨parts',hcut,hfill⟩ := m.exists_cut template.toList
  rw [m.fill_eq_fillFrom,hfill,h.unique hcut]

/-- A template has one cut at the tokens of a set of names. Filling it with any values under these
names, in any order, keeps the characters of the cut and puts the values into its slots. -/
theorem fill_follows_cut (template : String) (m : Naming) :
    ∃ parts : List Part, Cut m.names template.toList parts ∧
      (∀ others, Cut m.names template.toList others → others = parts) ∧
      parts.flatMap Part.source = template.toList ∧
      (∀ n, Part.slot n ∈ parts → n ∈ m.names) ∧
      (∀ k : Naming, k.names = m.names →
        fill template k.entries = String.ofList (parts.flatMap (Part.filled k))) ∧
      ∀ k : Naming, k.rows.Perm m.rows → fill template k.entries = fill template m.entries := by
  obtain ⟨parts,hcut,-⟩ := m.exists_cut template.toList
  refine ⟨parts,hcut,fun others h => h.unique hcut,hcut.flatMap_source,fun n => hcut.slot_mem,?_,?_⟩
  · intro k hk
    exact fill_eq_of_cut (hk ▸ hcut)
  · intro k hperm
    rw [fill_eq_of_cut hcut,fill_eq_of_cut (Naming.names_eq_of_perm hperm ▸ hcut)]
    congr 1
    apply List.flatMap_congr
    intro p hp
    cases p with
    | char c => rfl
    | slot n =>
      have hn : n ∈ k.names := Naming.names_eq_of_perm hperm ▸ hcut.slot_mem hp
      exact Naming.shown_eq_of_perm hperm hn

end Template

end BlogSite
