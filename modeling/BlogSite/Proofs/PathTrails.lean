import BlogSite.Proofs.DiskTree

/-!
The ways that paths go, steps back included. A path that can be looked up leads to the place that is
left of its names, and goes through the places of its first names. A path that never leads back above
where it starts goes through no places but those below, and those on the way down to its start.
-/

namespace BlogSite

namespace Path

/-- The names of a path that are not empty. -/
def legs (p : String) : List String := (names p).filter (· ≠ "")

/-- The places that a path goes through from the root on. -/
def Passes (p : String) (l : List String) : Prop := ∃ ks, ks <+: legs p ∧ walked true ks = l

/-- A path that can be seen from any place and never leads back above it. -/
def StaysBelow (p : String) : Prop := isAbsolute p = false ∧ ".." ∉ walked false (legs p)

instance (p : String) : Decidable (StaysBelow p) :=
  inferInstanceAs (Decidable (isAbsolute p = false ∧ ".." ∉ walked false (legs p)))

/-! ### Legs -/

theorem foldl_step_filter (absolute : Bool) (ns back : List String) :
    (ns.filter (· ≠ "")).foldl (step absolute) back = ns.foldl (step absolute) back := by
  induction ns generalizing back with
  | nil => rfl
  | cons n ns ih =>
    by_cases hn : n = ""
    · subst hn
      simpa [step] using ih back
    · simpa [hn] using ih (step absolute back n)

theorem walked_legs (absolute : Bool) (p : String) :
    walked absolute (legs p) = walked absolute (names p) := by
  rw [walked,walked,legs,foldl_step_filter]

theorem noSlash_of_mem_legs {p n : String} (h : n ∈ legs p) : '/' ∉ n.toList :=
  noSlash_of_mem_names (List.mem_filter.mp h).1

theorem legs_append_slash (p q : String) : legs (p ++ "/" ++ q) = legs p ++ legs q := by
  rw [legs,names_append_slash,List.filter_append]
  rfl

theorem legs_slash (p : String) : legs (p ++ "/") = legs p := by
  have h := legs_append_slash p ""
  rw [String.append_empty,show legs "" = [] by decide,List.append_nil] at h
  exact h

theorem legs_of_isStep {n : String} (h : IsStep n) : legs n = [n] := by
  simp [legs,names_of_noSlash h.noSlash,h.ne_empty]

theorem IsDirect.legs_eq {p : String} (h : IsDirect p) : legs p = place p := by
  obtain ⟨k,hk⟩ := h.straight
  rw [legs,hk,List.filter_append,List.filter_replicate]
  simpa using fun n hn => (isStep_of_mem_place hn).ne_empty

/-- Slashes at the end of a path add nothing to it. -/
theorem legs_append_slashes (t : List Char) {s : List Char} (hs : ∀ c ∈ s, c = '/') :
    legs (String.ofList (t ++ s)) = legs (String.ofList t) := by
  induction s using List.reverseRecOn with
  | nil => simp
  | append_singleton s c ih =>
    obtain rfl := hs c (by simp)
    have hlast : String.ofList (t ++ (s ++ ['/'])) = String.ofList (t ++ s) ++ "/" := by
      apply String.toList_injective
      simp
    rw [hlast,legs_slash]
    exact ih fun c hc => hs c (by simp [hc])

theorem legs_join (base : String) {p : String} (hp : isAbsolute p = false) :
    legs (join base p) = legs base ++ legs p := by
  by_cases hbase : base = ""
  · subst hbase
    simp [join,hp,show legs "" = [] by decide]
  · by_cases hend : base.toList.getLast? = some '/'
    · obtain ⟨t,ht⟩ := List.getLast?_eq_some_iff.mp hend
      obtain rfl : base = String.ofList t ++ "/" := by
        apply String.toList_injective
        simp [ht]
      have hjoin : join (String.ofList t ++ "/") p = String.ofList t ++ "/" ++ p := by simp [join,hp]
      rw [hjoin,legs_append_slash,legs_slash]
    · have hjoin : join base p = base ++ "/" ++ p := by simp [join,hp,hbase,hend]
      rw [hjoin,legs_append_slash]

theorem isAbsolute_append {base : String} (hbase : base ≠ "") (p : String) :
    isAbsolute (base ++ p) = isAbsolute base := by
  unfold isAbsolute
  rw [String.toList_append]
  cases hs : base.toList with
  | nil => exact absurd (String.toList_injective hs) hbase
  | cons c s => rfl

theorem isAbsolute_join_eq (base p : String) :
    isAbsolute (join base p) = (isAbsolute base || isAbsolute p) := by
  unfold join
  split
  · simp_all
  · rename_i hp
    rw [Bool.not_eq_true] at hp
    by_cases hbase : base = ""
    · subst hbase
      simp [hp,show isAbsolute "" = false by decide]
    · split
      · rw [isAbsolute_append hbase,hp,Bool.or_false]
      · rw [String.append_assoc,isAbsolute_append hbase,hp,Bool.or_false]

/-- On the way to a path one comes through its parent. -/
theorem legs_parent {p : String} (hp : isAbsolute p = true) : legs (parent p) <+: legs p := by
  obtain ⟨q,m,hsplit,hm⟩ := exists_last_slash hp
  obtain ⟨slashes,rest,hq,hslashes,hparent⟩ : ∃ slashes rest, q = rest ++ slashes ∧
      (∀ c ∈ slashes, c = '/') ∧ parent p = String.ofList (if rest.isEmpty then q ++ ['/'] else rest) := by
    refine ⟨(q.reverse.takeWhile (· == '/')).reverse,(q.reverse.dropWhile (· == '/')).reverse,?_,?_,?_⟩
    · rw [← List.reverse_append,List.takeWhile_append_dropWhile,List.reverse_reverse]
    · intro c hc
      simpa using List.mem_takeWhile_imp (List.mem_reverse.mp hc)
    · simp [parent,dropWhile_name hsplit hm]
  have hlegs : legs p = legs (String.ofList q) ++ legs (String.ofList m) := by
    rw [← legs_append_slash]
    congr 1
    apply String.toList_injective
    simp [hsplit]
  have hsame : legs (parent p) = legs (String.ofList q) := by
    rw [hparent]
    split
    · exact legs_append_slashes q (by simp)
    · rw [hq,legs_append_slashes rest hslashes]
  rw [hsame,hlegs]
  exact List.prefix_append _ _

/-! ### Places on the way -/

theorem passes_place (p : String) : Passes p (place p) :=
  ⟨legs p,List.prefix_rfl,walked_legs true p⟩

theorem Passes.of_parent {p : String} (hp : isAbsolute p = true) {l : List String}
    (h : Passes (parent p) l) : Passes p l := by
  obtain ⟨ks,hks,hl⟩ := h
  exact ⟨ks,hks.trans (legs_parent hp),hl⟩

theorem IsDirect.passes_iff {p : String} (h : IsDirect p) {l : List String} :
    Passes p l ↔ l <+: place p := by
  have hsteps : ∀ ks, ks <+: place p → walked true ks = ks := by
    intro ks hks
    have hplain : ∀ n ∈ ks, IsStep n := fun n hn => isStep_of_mem_place (hks.subset hn)
    simpa using walked_replicate_append hplain 0
  unfold Passes
  rw [h.legs_eq]
  constructor
  · rintro ⟨ks,hks,rfl⟩
    rwa [hsteps ks hks]
  · intro hl
    exact ⟨l,hl,hsteps l hl⟩

/-! ### Paths that stay below their start -/

/-- A step back that nothing came before is never taken back. -/
theorem back_mem_foldl_step {ns back : List String} (h : ".." ∈ back) :
    ".." ∈ ns.foldl (step false) back := by
  induction ns generalizing back with
  | nil => exact h
  | cons n ns ih =>
    apply ih
    unfold step
    split
    · exact h
    split
    · cases back with
      | nil => exact absurd h (by simp)
      | cons last rest =>
        by_cases hlast : last = ".."
        · simp [hlast]
        · simpa [hlast,Ne.symm hlast] using h
    · exact List.mem_cons_of_mem n h

/-- While no step leads back above the start, what came before the start does not matter. -/
theorem foldl_step_append {ns : List String} (h : ".." ∉ ns.foldl (step false) []) (absolute : Bool)
    (back : List String) : ns.foldl (step absolute) back = ns.foldl (step false) [] ++ back := by
  induction ns using List.reverseRecOn with
  | nil => rfl
  | append_singleton ns n ih =>
    rw [List.foldl_append,List.foldl_cons,List.foldl_nil] at h ⊢
    have hbefore : ".." ∉ ns.foldl (step false) [] := by
      intro hback
      have hstill : ".." ∈ [n].foldl (step false) (ns.foldl (step false) []) :=
        back_mem_foldl_step hback
      exact h hstill
    rw [List.foldl_append,List.foldl_cons,List.foldl_nil,ih hbefore]
    generalize ns.foldl (step false) [] = front at h hbefore
    unfold step at h ⊢
    split
    · rfl
    split
    · rename_i hstay hback
      cases front with
      | nil => exact absurd (by simp [hback]) h
      | cons last rest =>
        have hlast : last ≠ ".." := fun heq => hbefore (by simp [heq])
        simp [hlast]
    · rfl

theorem StaysBelow.of_prefix {ks ns : List String} (h : ".." ∉ walked false ns) (hks : ks <+: ns) :
    ".." ∉ walked false ks := by
  obtain ⟨rest,rfl⟩ := hks
  intro hback
  refine h (List.mem_reverse.mpr ?_)
  rw [List.foldl_append]
  exact back_mem_foldl_step (List.mem_reverse.mp hback)

/-- A path that stays below a directory goes through no places but those below it, and those on the way
down to it. -/
theorem StaysBelow.passes {base p : String} (hp : StaysBelow p) (hbase : IsDirect base)
    {l : List String} (hl : Passes (join base p) l) : l <+: place base ∨ place base <+: l := by
  obtain ⟨ks,hks,rfl⟩ := hl
  rw [legs_join base hp.1] at hks
  rcases List.prefix_or_prefix_of_prefix hks (List.prefix_append (legs base) (legs p)) with
    hup | ⟨down,rfl⟩
  · exact Or.inl (hbase.passes_iff.mp ⟨ks,hup,rfl⟩)
  · have hdown := (List.prefix_append_right_inj (legs base)).mp hks
    refine Or.inr ⟨walked false down,?_⟩
    have hstart : (legs base).foldl (step true) [] = (place base).reverse := by
      rw [place,← walked_legs,walked,List.reverse_reverse]
    have hfront := foldl_step_append
      (fun hback => StaysBelow.of_prefix hp.2 hdown (List.mem_reverse.mpr hback)) true
    rw [walked,walked,List.foldl_append,hfront,hstart]
    simp

end Path

namespace Disk

variable {d : Disk}

/-- A walk leads to what is left of the names that are walked along. -/
theorem walk_eq_walked {here l : Location} {ns : List String} (hhere : ∀ n ∈ here, Path.IsName n)
    (hns : ∀ n ∈ ns, '/' ∉ n.toList ∧ '\x00' ∉ n.toList) (h : d.walk here ns = .ok l) :
    l = (ns.foldl (Path.step true) here.reverse).reverse ∧ ∀ n ∈ l, Path.IsName n := by
  induction ns generalizing here with
  | nil =>
    obtain rfl := Except.ok.inj h
    exact ⟨by simp,hhere⟩
  | cons m ns ih =>
    have hrest := fun n hn => hns n (List.mem_cons_of_mem m hn)
    rw [List.foldl_cons]
    obtain ⟨-,hshort,⟨hstay,h⟩ | ⟨hback,h⟩ | ⟨⟨hempty,hdot,hback⟩,h⟩⟩ := walk_cons_eq_ok_iff.mp h
    · have hstep : Path.step true here.reverse m = here.reverse := by simp_all [Path.step]
      rw [hstep]
      exact ih hhere hrest h
    · have hstep : Path.step true here.reverse m = here.dropLast.reverse := by
        rcases List.eq_nil_or_concat here with rfl | ⟨up,last,rfl⟩
        · simp [Path.step,hback]
        · simp [Path.step,hback,(hhere last (by simp)).ne_back]
      rw [hstep]
      exact ih (fun n hn => hhere n (List.dropLast_subset here hn)) hrest h
    · have hm : Path.IsName m := ⟨⟨hempty,hdot,hback,(hns m (by simp)).1⟩,(hns m (by simp)).2,hshort⟩
      have hnames : ∀ n ∈ here ++ [m], Path.IsName n := by
        intro n hn
        rcases List.mem_append.mp hn with hn | hn
        · exact hhere n hn
        · exact List.mem_singleton.mp hn ▸ hm
      have hstep : Path.step true here.reverse m = (here ++ [m]).reverse := by
        rw [Path.step_of_isStep hm.toIsStep,List.reverse_append]
        rfl
      rw [hstep]
      exact ih hnames hrest h

/-- A path that can be looked up leads to its place. -/
theorem eq_place_of_locate {p : String} {l : Location} (h : d.locate p = .ok l) :
    l = Path.place p ∧ ∀ n ∈ l, Path.IsName n := by
  unfold locate at h
  split at h
  · exact absurd h (by simp)
  · rename_i hnul
    have hnames : ∀ n ∈ Path.names p, '/' ∉ n.toList ∧ '\x00' ∉ n.toList := by
      intro n hn
      refine ⟨Path.noSlash_of_mem_names hn,fun hc => ?_⟩
      exact hnul (by simpa using (Path.mem_toList_iff_exists_names (by decide)).mpr ⟨n,hn,hc⟩)
    exact walk_eq_walked (by simp) hnames h

end Disk

end BlogSite
