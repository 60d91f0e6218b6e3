import BlogSite.Path
import BlogSite.Proofs.TextParts
import Mathlib.Data.List.TakeWhile
import Mathlib.Tactic.ByContra

/-!
The places that paths name. A path that leads straight down from the root has its place in its names;
joining paths, going to the parent and shortening a path do to the places what they say.
-/

namespace BlogSite

namespace Path

/-- A single name that leads one step down. -/
structure IsStep (n : String) : Prop where
  ne_empty : n ≠ ""
  ne_dot : n ≠ "."
  ne_back : n ≠ ".."
  noSlash : '/' ∉ n.toList

instance (n : String) : Decidable (IsStep n) :=
  decidable_of_iff (n ≠ "" ∧ n ≠ "." ∧ n ≠ ".." ∧ '/' ∉ n.toList)
    ⟨fun h => ⟨h.1,h.2.1,h.2.2.1,h.2.2.2⟩,fun h => ⟨h.ne_empty,h.ne_dot,h.ne_back,h.noSlash⟩⟩

/-- The names that are left when a path is walked along from the root. -/
def place (p : String) : List String := walked true (names p)

/-- An absolute path without a detour: no empty name but for the slashes at its start, no `.` and
no `..`. -/
structure IsDirect (p : String) : Prop where
  absolute : isAbsolute p = true
  straight : ∃ k, names p = List.replicate k "" ++ place p

/-! ### Names -/

theorem names_append_slash (p q : String) : names (p ++ "/" ++ q) = names p ++ names q :=
  Text.parts_append p q

theorem names_of_noSlash {n : String} (h : '/' ∉ n.toList) : names n = [n] :=
  Text.parts_of_notMem h

theorem noSlash_of_mem_names {p n : String} (h : n ∈ names p) : '/' ∉ n.toList :=
  Text.notMem_of_mem_parts h

theorem names_ne_nil (p : String) : names p ≠ [] := by
  simpa [names] using Text.splitOn_ne_nil '/' p.toList

theorem names_ofNames {ns : List String} (hne : ns ≠ []) (h : ∀ n ∈ ns, '/' ∉ n.toList) :
    names (ofNames ns) = ns :=
  Text.parts_intercalate hne h

theorem mem_toList_iff_exists_names {p : String} {c : Char} (hc : c ≠ '/') :
    c ∈ p.toList ↔ ∃ n ∈ names p, c ∈ n.toList := by
  rw [Text.mem_iff_exists_splitOn hc,names]
  constructor
  · rintro ⟨s,hs,hcs⟩
    exact ⟨String.ofList s,List.mem_map_of_mem hs,by simpa using hcs⟩
  · rintro ⟨n,hn,hcn⟩
    obtain ⟨s,hs,rfl⟩ := List.mem_map.mp hn
    exact ⟨s,hs,by simpa using hcn⟩

/-! ### Walking along names -/

theorem step_of_isStep {n : String} (h : IsStep n) (absolute : Bool) (back : List String) :
    step absolute back n = n :: back := by
  simp [step,h.ne_empty,h.ne_dot,h.ne_back]

theorem foldl_step_of_isStep {ns : List String} (h : ∀ n ∈ ns, IsStep n) (absolute : Bool)
    (back : List String) : ns.foldl (step absolute) back = ns.reverse ++ back := by
  induction ns generalizing back with
  | nil => rfl
  | cons n ns ih =>
    rw [List.foldl_cons,step_of_isStep (h n (by simp)),ih fun k hk => h k (by simp [hk])]
    simp

theorem foldl_step_replicate (k : Nat) (absolute : Bool) (back : List String) :
    (List.replicate k "").foldl (step absolute) back = back := by
  induction k with
  | zero => rfl
  | succ k ih => simpa [List.replicate_succ,step] using ih

theorem walked_replicate_append {ns : List String} (h : ∀ n ∈ ns, IsStep n) (k : Nat) :
    walked true (List.replicate k "" ++ ns) = ns := by
  simp [walked,List.foldl_append,foldl_step_replicate,foldl_step_of_isStep h]

/-- From the root on, only steps down are left. -/
theorem isStep_of_mem_foldl_step {ns back : List String} (hns : ∀ n ∈ ns, '/' ∉ n.toList)
    (hback : ∀ n ∈ back, IsStep n) : ∀ n ∈ ns.foldl (step true) back, IsStep n := by
  induction ns generalizing back with
  | nil => exact hback
  | cons m ns ih =>
    refine ih (fun n hn => hns n (by simp [hn])) ?_
    unfold step
    split
    · exact hback
    · rename_i hstay
      simp only [Bool.or_eq_true,decide_eq_true_eq,not_or] at hstay
      split
      · cases back with
        | nil => simp
        | cons last rest =>
          have hlast := hback last (by simp)
          simp only [hlast.ne_back,if_false]
          exact fun n hn => hback n (by simp [hn])
      · rename_i hdown
        intro n hn
        rcases List.mem_cons.mp hn with rfl | hn
        · exact ⟨hstay.1,hstay.2,hdown,hns n (by simp)⟩
        · exact hback n hn

theorem isStep_of_mem_place {p n : String} (h : n ∈ place p) : IsStep n := by
  have hmem : n ∈ (names p).foldl (step true) [] := List.mem_reverse.mp h
  exact isStep_of_mem_foldl_step (fun m hm => noSlash_of_mem_names hm) (by simp) n hmem

/-! ### Direct paths -/

theorem isAbsolute_iff {p : String} : isAbsolute p = true ↔ ∃ s, p.toList = '/' :: s := by
  unfold isAbsolute
  cases p.toList with
  | nil => simp
  | cons c s => simp

theorem not_isAbsolute_of_isStep {p : String} (h : ∀ n ∈ names p, IsStep n) : isAbsolute p = false := by
  rw [Bool.eq_false_iff]
  intro hp
  obtain ⟨s,hs⟩ := isAbsolute_iff.mp hp
  have hmem : "" ∈ names p := by simp [names,hs,Text.splitOn]
  exact (h "" hmem).ne_empty rfl

theorem isDirect_of_names {p : String} {k : Nat} {ns : List String} (habsolute : isAbsolute p = true)
    (hnames : names p = List.replicate k "" ++ ns) (hns : ∀ n ∈ ns, IsStep n) :
    IsDirect p ∧ place p = ns := by
  have hplace : place p = ns := by rw [place,hnames,walked_replicate_append hns]
  exact ⟨⟨habsolute,k,by rw [hplace,hnames]⟩,hplace⟩

theorem names_join_of_isStep {base p : String} (hbase : ∀ n ∈ names base, IsStep n)
    (hp : ∀ n ∈ names p, IsStep n) : names (join base p) = names base ++ names p := by
  have hne : base ≠ "" := by
    rintro rfl
    exact (hbase "" (by decide)).ne_empty rfl
  have hend : base.toList.getLast? ≠ some '/' := by
    intro hend
    obtain ⟨s,hs⟩ := List.getLast?_eq_some_iff.mp hend
    have hmem : "" ∈ names base := by simp [names,hs,Text.splitOn_append_cons,Text.splitOn]
    exact (hbase "" hmem).ne_empty rfl
  simp [join,not_isAbsolute_of_isStep hp,hne,hend,names_append_slash]

theorem names_joinAll_of_isStep {base : String} (hbase : ∀ n ∈ names base, IsStep n)
    {ns : List String} (hns : ∀ n ∈ ns, IsStep n) : names (joinAll base ns) = names base ++ ns := by
  induction ns generalizing base with
  | nil => exact (List.append_nil _).symm
  | cons n ns ih =>
    have hn := hns n (by simp)
    have hnames := names_of_noSlash hn.noSlash
    have hjoin := names_join_of_isStep hbase (p := n) (by simpa [hnames] using hn)
    have hsteps : ∀ m ∈ names (join base n), IsStep m := by
      intro m hm
      rw [hjoin,hnames] at hm
      rcases List.mem_append.mp hm with hm | hm
      · exact hbase m hm
      · exact List.mem_singleton.mp hm ▸ hn
    change names (joinAll (join base n) ns) = _
    rw [ih hsteps fun m hm => hns m (by simp [hm]),hjoin,hnames,List.append_assoc]
    rfl

theorem isAbsolute_join {base : String} (h : isAbsolute base = true) (p : String) :
    isAbsolute (join base p) = true := by
  obtain ⟨s,hs⟩ := isAbsolute_iff.mp h
  unfold join
  split
  · assumption
  · apply isAbsolute_iff.mpr
    split
    · exact ⟨s ++ p.toList,by simp [hs]⟩
    · exact ⟨s ++ '/' :: p.toList,by simp [hs]⟩

/-- Only the root ends in a slash. -/
theorem IsDirect.exists_of_slash {p : String} (hp : IsDirect p)
    (hend : p.toList.getLast? = some '/') :
    ∃ t j, p = t ++ "/" ∧ names t = List.replicate j "" ∧ place p = [] := by
  obtain ⟨k,hk⟩ := hp.straight
  obtain ⟨t,ht⟩ := List.getLast?_eq_some_iff.mp hend
  obtain rfl : p = String.ofList t ++ "/" := by
    apply String.toList_injective
    simp [ht]
  have hnames : names (String.ofList t ++ "/") = names (String.ofList t) ++ [""] := by
    simpa [names_of_noSlash] using names_append_slash (String.ofList t) ""
  have hroot : place (String.ofList t ++ "/") = [] := by
    rcases List.eq_nil_or_concat (place (String.ofList t ++ "/")) with hnil | ⟨l,n,hl⟩
    · exact hnil
    · have hlast : n = "" := by
        have h := congrArg List.getLast? (hnames.symm.trans hk)
        simpa [hl,eq_comm] using h
      exact absurd hlast (isStep_of_mem_place (p := String.ofList t ++ "/") (by simp [hl])).ne_empty
  obtain ⟨j,rfl⟩ : ∃ j, k = j + 1 := by
    cases k with
    | zero => simp [hroot,names_ne_nil] at hk
    | succ j => exact ⟨j,rfl⟩
  refine ⟨String.ofList t,j,rfl,?_,hroot⟩
  rw [hnames,hroot,List.replicate_succ'] at hk
  simpa using hk

/-- The place of a path below another lies below the place of that. -/
theorem IsDirect.join {base p : String} (hbase : IsDirect base) (hp : ∀ n ∈ names p, IsStep n) :
    IsDirect (Path.join base p) ∧ place (Path.join base p) = place base ++ names p := by
  have hrel := not_isAbsolute_of_isStep hp
  obtain ⟨k,hk⟩ := hbase.straight
  have habsolute := isAbsolute_join hbase.absolute p
  have hne : base ≠ "" := by
    rintro rfl
    exact absurd hbase.absolute (by decide)
  have hsteps : ∀ n ∈ place base ++ names p, IsStep n := by
    intro n hn
    rcases List.mem_append.mp hn with hn | hn
    · exact isStep_of_mem_place hn
    · exact hp n hn
  by_cases hend : base.toList.getLast? = some '/'
  · obtain ⟨t,j,rfl,hbefore,hroot⟩ := hbase.exists_of_slash hend
    refine isDirect_of_names (k := j) habsolute ?_ hsteps
    have hjoin : Path.join (t ++ "/") p = t ++ "/" ++ p := by simp [Path.join,hrel]
    rw [hjoin,names_append_slash,hbefore,hroot,List.nil_append]
  · refine isDirect_of_names (k := k) habsolute ?_ hsteps
    have hjoin : Path.join base p = base ++ "/" ++ p := by simp [Path.join,hrel,hne,hend]
    rw [hjoin,names_append_slash,hk,List.append_assoc]

/-- One name below a path leads one step down. -/
theorem IsDirect.join_step {base n : String} (hbase : IsDirect base) (hn : IsStep n) :
    IsDirect (Path.join base n) ∧ place (Path.join base n) = place base ++ [n] := by
  have hnames := names_of_noSlash hn.noSlash
  obtain ⟨hjoin,hplace⟩ := hbase.join (p := n) (by simpa [hnames] using hn)
  exact ⟨hjoin,hnames ▸ hplace⟩

/-- Names below a path lead to places below its place. -/
theorem IsDirect.joinAll {base : String} (hbase : IsDirect base) {ns : List String}
    (hns : ∀ n ∈ ns, IsStep n) :
    IsDirect (Path.joinAll base ns) ∧ place (Path.joinAll base ns) = place base ++ ns := by
  induction ns generalizing base with
  | nil => exact ⟨hbase,(List.append_nil _).symm⟩
  | cons n ns ih =>
    obtain ⟨hjoin,hplace⟩ := hbase.join_step (hns n (by simp))
    obtain ⟨hall,hplaces⟩ := ih hjoin fun m hm => hns m (by simp [hm])
    refine ⟨hall,hplaces.trans ?_⟩
    simp [hplace]

/-- What comes before the last slash of an absolute path, and the name after it. -/
theorem exists_last_slash {p : String} (hp : isAbsolute p = true) :
    ∃ q m, p.toList = q ++ '/' :: m ∧ '/' ∉ m := by
  obtain ⟨s,hs⟩ := isAbsolute_iff.mp hp
  have hslash : '/' ∈ p.toList.reverse := by simp [hs]
  obtain ⟨m,q,hsplit,hm⟩ := List.eq_append_cons_of_mem hslash
  exact ⟨q.reverse,m.reverse,by rw [← List.reverse_reverse p.toList,hsplit]; simp,by simpa using hm⟩

section

variable {p : String} {m : List Char}

theorem dropWhile_name {q : List Char} (hsplit : p.toList = q ++ '/' :: m) (hm : '/' ∉ m) :
    p.toList.reverse.dropWhile (· != '/') = '/' :: q.reverse := by
  rw [hsplit,List.reverse_append,List.reverse_cons,List.append_assoc,
    List.dropWhile_append_of_pos (by simpa using fun c hc => ne_of_mem_of_not_mem hc hm)]
  simp

/-- The parent of a name right after the root is the root, with all its slashes. -/
theorem parent_of_slashes {q : List Char} (hsplit : p.toList = q ++ '/' :: m) (hm : '/' ∉ m)
    (hq : ∀ c ∈ q, c = '/') : parent p = String.ofList q ++ "/" := by
  have hbare : q.reverse.dropWhile (· == '/') = [] :=
    List.dropWhile_eq_nil_iff.mpr (by simpa using hq)
  apply String.toList_injective
  simp [parent,dropWhile_name hsplit hm,hbare]

theorem parent_of_ne_slash {t : List Char} {c : Char} (hsplit : p.toList = t ++ [c] ++ '/' :: m)
    (hm : '/' ∉ m) (hc : c ≠ '/') : parent p = String.ofList (t ++ [c]) := by
  simp [parent,dropWhile_name hsplit hm,hc]

end

/-- A text that ends in a name ends in a character of that name. -/
theorem exists_last_of_names {q : List Char} {ns : List String} {n : String} (hn : n ≠ "")
    (hq : names (String.ofList q) = ns ++ [n]) : ∃ t c, q = t ++ [c] ∧ c ≠ '/' := by
  have hlast := congrArg List.getLast? hq
  rcases List.eq_nil_or_concat q with rfl | ⟨t,c,rfl⟩
  · exact absurd (by simpa [names,Text.splitOn] using hlast.symm) hn
  · refine ⟨t,c,by simp,?_⟩
    rintro rfl
    exact absurd (by simpa [names,Text.splitOn_append_cons,Text.splitOn] using hlast.symm) hn

/-- The parent of a path is the place that its last name is in. -/
theorem IsDirect.parent {p : String} (hp : IsDirect p) {l : List String} {n : String}
    (hplace : place p = l ++ [n]) : IsDirect (Path.parent p) ∧ place (Path.parent p) = l := by
  obtain ⟨k,hk⟩ := hp.straight
  obtain ⟨s,hs⟩ := isAbsolute_iff.mp hp.absolute
  obtain ⟨q,m,hsplit,hm⟩ := exists_last_slash hp.absolute
  have hnames : names p = names (String.ofList q) ++ [String.ofList m] := by
    simp [names,hsplit,Text.splitOn_append_cons,Text.splitOn_of_notMem hm]
  have hq : names (String.ofList q) = List.replicate k "" ++ l := by
    have h := hnames.symm.trans hk
    rw [hplace,← List.append_assoc] at h
    exact (List.append_inj' h rfl).1
  have hl : ∀ k ∈ l, IsStep k := fun k hk => isStep_of_mem_place (p := p) (by simp [hplace,hk])
  rcases List.eq_nil_or_concat l with rfl | ⟨l,last,rfl⟩
  · -- Before the last name there are only slashes.
    have hslashes : ∀ c ∈ q, c = '/' := by
      intro c hc
      by_contra hne
      obtain ⟨n,hn,hcn⟩ := (mem_toList_iff_exists_names (p := String.ofList q) hne).mp (by simpa using hc)
      rw [hq,List.append_nil] at hn
      simp [List.eq_of_mem_replicate hn] at hcn
    rw [parent_of_slashes hsplit hm hslashes]
    refine isDirect_of_names (k := k + 1) ?_ ?_ hl
    · rw [isAbsolute_iff]
      cases q with
      | nil => exact ⟨[],by simp⟩
      | cons c q => exact ⟨q ++ ['/'],by simp [hslashes c (by simp)]⟩
    · have hroot := names_append_slash (String.ofList q) ""
      rw [String.append_empty] at hroot
      rw [hroot,hq,List.replicate_succ',List.append_nil,List.append_nil]
      rfl
  · rw [List.concat_eq_append,← List.append_assoc] at hq
    obtain ⟨t,c,rfl,hc⟩ := exists_last_of_names (hl last (by simp)).ne_empty hq
    rw [parent_of_ne_slash hsplit hm hc]
    refine isDirect_of_names (k := k) ?_ (by rw [hq,List.concat_eq_append,List.append_assoc]) hl
    rw [isAbsolute_iff]
    rw [hsplit] at hs
    cases t with
    | nil => exact absurd (by simpa using congrArg List.head? hs) hc
    | cons d t => exact ⟨t ++ [c],by simpa using congrArg List.head? hs⟩

theorem leading_eq {p : String} (hp : isAbsolute p = true) : leading p = 1 ∨ leading p = 2 := by
  obtain ⟨s,hs⟩ := isAbsolute_iff.mp hp
  unfold leading
  split <;> simp_all

theorem names_replicate_append (k : Nat) (p : String) :
    names (String.ofList (List.replicate k '/') ++ p) = List.replicate k "" ++ names p := by
  induction k with
  | zero => simp
  | succ k ih =>
    have h : String.ofList (List.replicate (k + 1) '/') ++ p =
        "" ++ "/" ++ (String.ofList (List.replicate k '/') ++ p) := by
      apply String.toList_injective
      simp [List.replicate_succ]
    rw [h,names_append_slash,ih,List.replicate_succ]
    rfl

/-- Slashes and then steps down make a direct path. -/
theorem isDirect_slashes {k : Nat} (hk : 0 < k) {ns : List String} (hns : ∀ n ∈ ns, IsStep n) :
    IsDirect (String.ofList (List.replicate k '/') ++ ofNames ns) ∧
      place (String.ofList (List.replicate k '/') ++ ofNames ns) = ns := by
  have habsolute : isAbsolute (String.ofList (List.replicate k '/') ++ ofNames ns) = true := by
    obtain ⟨j,rfl⟩ := Nat.exists_eq_succ_of_ne_zero (Nat.pos_iff_ne_zero.mp hk)
    exact isAbsolute_iff.mpr ⟨List.replicate j '/' ++ (ofNames ns).toList,by simp [List.replicate_succ]⟩
  have hnames := names_replicate_append k (ofNames ns)
  by_cases hroot : ns = []
  · refine isDirect_of_names (k := k + 1) habsolute ?_ hns
    rw [hnames,hroot,List.replicate_succ',List.append_nil]
    rfl
  · rw [names_ofNames hroot fun n hn => (hns n hn).noSlash] at hnames
    exact isDirect_of_names habsolute hnames hns

/-- The shortest form of an absolute path: its slashes, and then the names of its place. -/
theorem normalise_eq {p : String} (hp : isAbsolute p = true) :
    normalise p = String.ofList (List.replicate (leading p) '/') ++ ofNames (place p) := by
  have hpos : 0 < leading p := by rcases leading_eq hp with h | h <;> omega
  have hne : String.ofList (List.replicate (leading p) '/') ++ ofNames (place p) ≠ "" := by
    intro hempty
    have h := congrArg (fun s => s.toList.length) hempty
    simp at h
    omega
  unfold place at hne ⊢
  simp only [normalise,decide_eq_true hpos,hne,if_false]

/-- A path in its shortest form is direct and names the same place. -/
theorem isDirect_normalise {p : String} (hp : isAbsolute p = true) :
    IsDirect (normalise p) ∧ place (normalise p) = place p := by
  have hpos : 0 < leading p := by rcases leading_eq hp with h | h <;> omega
  rw [normalise_eq hp]
  exact isDirect_slashes hpos fun n hn => isStep_of_mem_place hn

end Path

end BlogSite
