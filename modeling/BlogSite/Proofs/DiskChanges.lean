import BlogSite.Proofs.DiskTree

/-!
Taking away all that is below a location, and copying all that is below one location to another: what
each does to the entries of a tree.
-/

namespace BlogSite

namespace Disk

variable {d : Disk}

/-! ### Taking away -/

theorem entry?_prune (d : Disk) (at_ l : Location) :
    Disk.entry? (d.prune at_) l = if l ≠ [] ∧ at_ <+: l then none else d.entry? l := by
  by_cases hl : l = []
  · simp [hl]
  · apply Option.ext
    intro e
    by_cases hbelow : at_ <+: l
    · simp [entry?_eq_some_iff hl,prune,hl,hbelow]
    · have hkept : at_.isPrefixOf l = false := by simpa [← List.isPrefixOf_iff_prefix] using hbelow
      simp [entry?_eq_some_iff hl,prune,hbelow,hkept]

theorem IsTree.prune (h : d.IsTree) (at_ : Location) : (d.prune at_).IsTree := by
  constructor
  · intro l e he
    rw [entry?_prune] at he
    split at he
    · exact absurd he (by simp)
    · exact h.named l e he
  · intro l n e he
    rw [entry?_prune] at he ⊢
    split at he
    · exact absurd he (by simp)
    · rename_i hkept
      rw [if_neg]
      · exact h.closed l n e he
      · rintro ⟨-,hbelow⟩
        exact hkept ⟨by simp,hbelow.trans (List.prefix_append l [n])⟩

/-! ### Copying -/

theorem mem_below_iff {at_ r : Location} {e : Entry} :
    (r,e) ∈ d.below at_ ↔ r ≠ [] ∧ d.entry? (at_ ++ r) = some e := by
  unfold below
  rw [List.mem_filterMap]
  constructor
  · rintro ⟨⟨l,x⟩,hx,hr⟩
    split at hr
    · rename_i hbelow
      simp only [Bool.and_eq_true,bne_iff_ne,List.isPrefixOf_iff_prefix] at hbelow
      obtain ⟨⟨t,rfl⟩,hlen⟩ := hbelow
      have ht : t ≠ [] := by
        rintro rfl
        simp at hlen
      simp only [List.drop_left,Option.some.injEq,Prod.mk.injEq] at hr
      obtain ⟨rfl,rfl⟩ := hr
      exact ⟨ht,(entry?_eq_some_iff (by simp [ht])).mpr hx⟩
    · exact absurd hr (by simp)
  · rintro ⟨hr,he⟩
    have hmem := (entry?_eq_some_iff (by simp [hr])).mp he
    exact ⟨_,hmem,by simp [hr]⟩

theorem nodup_below (d : Disk) (at_ : Location) : ((d.below at_).map Prod.fst).Nodup := by
  have hkeys : (d.below at_).map Prod.fst =
      (d.entries.map Prod.fst).filterMap fun l =>
        if at_.isPrefixOf l && l.length != at_.length then some (l.drop at_.length) else none := by
    rw [below,List.map_filterMap,List.filterMap_map]
    apply List.filterMap_congr
    intro x _
    dsimp only [Function.comp]
    split <;> rfl
  rw [hkeys]
  apply d.distinct.filterMap
  intro k k' r hk hk'
  simp only [Option.mem_def,Option.ite_none_right_eq_some,Bool.and_eq_true,
    List.isPrefixOf_iff_prefix,Option.some.injEq] at hk hk'
  obtain ⟨⟨⟨t,rfl⟩,-⟩,hr⟩ := hk
  obtain ⟨⟨⟨t',rfl⟩,-⟩,hr'⟩ := hk'
  simp only [List.drop_left] at hr hr'
  rw [hr,hr']

theorem overlay_cons (d : Disk) (at_ : Location) (x : Location × Entry)
    (es : List (Location × Entry)) :
    d.overlay at_ (x :: es) = (d.put (at_ ++ x.1) x.2).overlay at_ es := rfl

theorem entry?_overlay_of_notMem {at_ l : Location} {es : List (Location × Entry)}
    (hes : ∀ x ∈ es, x.1 ≠ []) (h : ∀ x ∈ es, l ≠ at_ ++ x.1) :
    Disk.entry? (d.overlay at_ es) l = d.entry? l := by
  induction es generalizing d with
  | nil => rfl
  | cons x es ih =>
    have hne : at_ ++ x.1 ≠ [] := by simp [hes x (by simp)]
    rw [overlay_cons,ih (fun y hy => hes y (by simp [hy])) (fun y hy => h y (by simp [hy])),entry?_put hne,
      if_neg (h x (by simp))]

theorem entry?_overlay_of_mem {at_ : Location} {es : List (Location × Entry)}
    (hes : ∀ x ∈ es, x.1 ≠ []) (hnodup : (es.map Prod.fst).Nodup) {x : Location × Entry}
    (hx : x ∈ es) : Disk.entry? (d.overlay at_ es) (at_ ++ x.1) = some x.2 := by
  induction es generalizing d with
  | nil => exact absurd hx (by simp)
  | cons y es ih =>
    obtain ⟨hy,hnodup⟩ := List.nodup_cons.mp hnodup
    have hrest : ∀ z ∈ es, z.1 ≠ [] := fun z hz => hes z (by simp [hz])
    rcases List.mem_cons.mp hx with rfl | hx
    · have hother : ∀ z ∈ es, at_ ++ x.1 ≠ at_ ++ z.1 := by
        intro z hz heq
        exact hy (List.append_cancel_left heq ▸ List.mem_map_of_mem hz)
      rw [overlay_cons,entry?_overlay_of_notMem hrest hother,
        entry?_put (by simp [hes x (by simp)]),if_pos rfl]
    · rw [overlay_cons]
      exact ih hrest hnodup hx

theorem copyTree_eq_ok {source target : String} {d' : Disk}
    (h : d.copyTree source target = .ok d') : ∃ origin goal, d.locate source = .ok origin ∧
      d.locate target = .ok goal ∧ d' = d.overlay goal (d.below origin) := by
  unfold copyTree at h
  obtain ⟨origin,horigin,h⟩ := exists_of_bind_eq_ok h
  obtain ⟨goal,hgoal,h⟩ := exists_of_bind_eq_ok h
  exact ⟨origin,goal,horigin,hgoal,(Except.ok.inj h).symm⟩

/-- Below the goal a copy has the entries of its origin over those that were there. -/
theorem entry?_copy (d : Disk) (origin goal : Location) {r : Location} (hr : r ≠ []) :
    Disk.entry? (d.overlay goal (d.below origin)) (goal ++ r) =
      (d.entry? (origin ++ r)).or (d.entry? (goal ++ r)) := by
  have hes : ∀ x ∈ d.below origin, x.1 ≠ [] := fun x hx => (mem_below_iff.mp hx).1
  cases he : d.entry? (origin ++ r) with
  | some e =>
    exact entry?_overlay_of_mem hes (d.nodup_below origin) (mem_below_iff.mpr ⟨hr,he⟩)
  | none =>
    rw [Option.none_or]
    refine entry?_overlay_of_notMem hes ?_
    intro x hx heq
    have hx' := (mem_below_iff.mp hx).2
    rw [← List.append_cancel_left heq,he] at hx'
    exact absurd hx' (by simp)

theorem entry?_copy_of_not_below (d : Disk) (origin goal : Location) {l : Location}
    (hl : l = goal ∨ ¬ goal <+: l) :
    Disk.entry? (d.overlay goal (d.below origin)) l = d.entry? l := by
  refine entry?_overlay_of_notMem (fun x hx => (mem_below_iff.mp hx).1) ?_
  rintro x hx rfl
  rcases hl with hl | hl
  · exact (mem_below_iff.mp hx).1 (by simpa using hl)
  · exact hl (List.prefix_append goal x.1)

/-- A copy into an empty directory looks like its origin. -/
theorem entry?_copy_of_empty {origin goal : Location}
    (horigin : d.entry? origin = some .directory) (hgoal : d.entry? goal = some .directory)
    (hempty : ∀ r, r ≠ [] → d.entry? (goal ++ r) = none) (r : Location) :
    Disk.entry? (d.overlay goal (d.below origin)) (goal ++ r) = d.entry? (origin ++ r) := by
  by_cases hr : r = []
  · subst hr
    rw [entry?_copy_of_not_below d origin goal (Or.inl (List.append_nil goal)),List.append_nil,
      List.append_nil,hgoal,horigin]
  · rw [entry?_copy d origin goal hr,hempty r hr,Option.or_none]

theorem IsTree.copy (h : d.IsTree) {origin goal : Location}
    (horigin : d.entry? origin = some .directory) (hgoal : d.entry? goal = some .directory)
    (hempty : ∀ r, r ≠ [] → d.entry? (goal ++ r) = none) :
    (d.overlay goal (d.below origin)).IsTree := by
  have hcopy := entry?_copy_of_empty horigin hgoal hempty
  constructor
  · intro l e he n hn
    by_cases hl : goal <+: l
    · obtain ⟨r,rfl⟩ := hl
      rw [hcopy] at he
      rcases List.mem_append.mp hn with hn | hn
      · exact h.named _ _ hgoal n hn
      · exact h.named _ _ he n (by simp [hn])
    · rw [entry?_copy_of_not_below d origin goal (Or.inr hl)] at he
      exact h.named l e he n hn
  · intro l n e he
    by_cases hl : goal <+: l
    · obtain ⟨r,rfl⟩ := hl
      rw [List.append_assoc,hcopy] at he
      rw [hcopy]
      exact h.closed _ n e (by simpa using he)
    · rw [entry?_copy_of_not_below d origin goal (Or.inr hl)]
      by_cases hlast : goal <+: l ++ [n]
      · -- The goal itself lies directly in this directory.
        rcases List.prefix_concat_iff.mp hlast with rfl | hup
        · exact h.closed l n _ hgoal
        · exact absurd hup hl
      · rw [entry?_copy_of_not_below d origin goal (Or.inr hlast)] at he
        exact h.closed l n e he

end Disk

end BlogSite
