import BlogSite.Proofs.DiskTree

/-!
Making a directory with those above it. Directories are added on the way to it and nothing else
changes; this fails only where a name cannot be given or a file is in the way.
-/

namespace BlogSite

namespace Disk

variable {d : Disk}

theorem walk_append (d : Disk) (here : Location) (ns ms : List String) :
    d.walk here (ns ++ ms) = (d.walk here ns).bind fun l => d.walk l ms := by
  induction ns generalizing here with
  | nil => rfl
  | cons n ns ih =>
    rw [List.cons_append,walk,walk]
    split
    · rfl
    · rfl
    · split
      · rfl
      split
      · exact ih here
      split
      · exact ih here.dropLast
      · exact ih (here ++ [n])

/-- A name that a directory can hold is found in it, or found to be missing. -/
theorem IsTree.reach_concat (h : d.IsTree) {l : Location} {n : String}
    (hdir : d.entry? l = some .directory) (hn : Path.IsName n) :
    d.reach (l ++ [n]) = .ok (l ++ [n]) := by
  have hl := h.reach_eq hdir
  have hshort := Nat.not_lt.mpr hn.short
  unfold reach at hl ⊢
  split at hl
  · exact absurd hl (by simp)
  · rename_i hnul
    have hnul' : (l ++ [n]).any (·.toList.contains '\x00') = false := by
      simp only [List.any_append,Bool.eq_false_iff.mpr hnul]
      simpa using hn.noNul
    rw [hnul',walk_append,hl]
    simp [Except.bind,walk,hdir,hshort,hn.ne_empty,hn.ne_dot,hn.ne_back]

/-- What stands in the way of making a directory: a name that none can have, or a file. -/
def Blocked (d : Disk) (ns : Location) : Prop :=
  (∃ n ∈ ns, ¬ Path.IsName n) ∨ ∃ l bytes, l <+: ns ∧ d.entry? l = some (.file bytes)

theorem Blocked.concat {ns : Location} (h : d.Blocked ns) (n : String) : d.Blocked (ns ++ [n]) := by
  rcases h with ⟨m,hm,hname⟩ | ⟨l,bytes,hl,hfile⟩
  · exact Or.inl ⟨m,by simp [hm],hname⟩
  · exact Or.inr ⟨l,bytes,hl.trans (List.prefix_append _ _),hfile⟩

/-- Nothing stands in the way of a directory that is there. -/
theorem IsTree.not_blocked (h : d.IsTree) {ns : Location} (hdir : d.entry? ns = some .directory) :
    ¬ d.Blocked ns := by
  rintro (⟨n,hn,hname⟩ | ⟨l,bytes,⟨m,rfl⟩,hfile⟩)
  · exact hname (h.named _ _ hdir n hn)
  · cases m with
    | nil => simp [hfile] at hdir
    | cons n m => simp [h.directory_of_append (by simp) hdir] at hfile

/-- A tree grows to a location when directories are added on the way to it and nothing else
changes. -/
def GrownTo (d : Disk) (ns : Location) (d' : Disk) : Prop :=
  ∀ l, d'.entry? l = d.entry? l ∨ d.entry? l = none ∧ d'.entry? l = some .directory ∧ l <+: ns

namespace GrownTo

variable {ns ms : Location} {d' d'' : Disk}

theorem refl (d : Disk) (ns : Location) : d.GrownTo ns d := fun _ => Or.inl rfl

theorem trans (h : d.GrownTo ns d') (h' : d'.GrownTo ms d'') (hns : ns <+: ms) :
    d.GrownTo ms d'' := by
  intro l
  rcases h l with hl | ⟨hnone,hdir,hl⟩
  · rw [← hl]
    exact h' l
  · rcases h' l with hl' | ⟨hnone',-,-⟩
    · exact Or.inr ⟨hnone,hl'.trans hdir,hl.trans hns⟩
    · simp [hdir] at hnone'

theorem file_iff (h : d.GrownTo ns d') {l : Location} {bytes : ByteArray} :
    d'.entry? l = some (.file bytes) ↔ d.entry? l = some (.file bytes) := by
  rcases h l with hl | ⟨hnone,hdir,-⟩
  · rw [hl]
  · simp [hnone,hdir]

theorem blocked_iff (h : d.GrownTo ns d') : d'.Blocked ms ↔ d.Blocked ms := by
  simp only [Blocked,h.file_iff]

end GrownTo

/-- The outcome of making the directories on the way to a location: a tree that has grown to it,
with the last of them unless something stands in the way. -/
structure MadeTo (d : Disk) (ns : Location) (r : Except DiskFault Unit × Disk) : Prop where
  tree : r.2.IsTree
  grown : d.GrownTo ns r.2
  made : r.1 = .ok () → Disk.entry? r.2 ns = some .directory
  failed : ∀ f, r.1 = .error f → d.Blocked ns

/-- Nothing is made where something stands in the way. -/
theorem MadeTo.not_blocked {ns : Location} {r : Except DiskFault Unit × Disk} (h : d.MadeTo ns r)
    (hok : r.1 = .ok ()) : ¬ d.Blocked ns := by
  rw [← h.grown.blocked_iff]
  exact h.tree.not_blocked (h.made hok)

/-- The last directory on the way, made when the one above it is there. -/
theorem IsTree.madeTo_makeDirectory (h : d.IsTree) {p : String} (hp : Path.IsDirect p)
    {l : Location} {n : String} (hplace : Path.place p = l ++ [n])
    (hdir : d.entry? l = some .directory ∨ d.Blocked l) :
    d.MadeTo (l ++ [n]) (match d.makeDirectory p with
      | .ok d => (.ok (),d)
      | .error f => if d.isDirectory p then (.ok (),d) else (.error f,d)) := by
  cases hm : d.makeDirectory p with
  | ok d' =>
    obtain ⟨k,hk,hnone,rfl⟩ := makeDirectory_eq_ok hm
    obtain ⟨rfl,hnames,hup⟩ := exists_of_locate_direct hp hk
    rw [hplace] at hnone hnames ⊢
    refine ⟨h.put (hup l n hplace) (hnames n (by simp)) (Or.inl rfl),?_,?_,by simp⟩
    · intro (k : Location)
      rw [entry?_put (by simp)]
      by_cases hk : k = l ++ [n]
      · exact Or.inr ⟨hk ▸ hnone,by simp [hk],by simp [hk]⟩
      · exact Or.inl (by simp [hk])
    · intro _
      simp [entry?_put]
  | error f =>
    by_cases hthere : d.isDirectory p = true
    · simp only [hthere,if_true]
      refine ⟨h,.refl d _,fun _ => ?_,by simp⟩
      rw [← hplace]
      exact (h.isDirectory_iff hp).mp hthere
    · simp only [hthere]
      refine ⟨h,.refl d _,by simp,fun _ _ => ?_⟩
      rcases hdir with hdir | hblocked
      · by_cases hn : Path.IsName n
        · have hlocate : d.locate p = .ok (l ++ [n]) := by
            rw [locate_eq_reach d hp,hplace]
            exact h.reach_concat hdir hn
          rw [h.isDirectory_iff hp,hplace] at hthere
          cases he : d.entry? (l ++ [n]) with
          | none => simp [makeDirectory,hlocate,he,bind,Except.bind] at hm
          | some e =>
            cases e with
            | directory => exact absurd he hthere
            | file bytes => exact Or.inr ⟨l ++ [n],bytes,List.prefix_rfl,he⟩
        · exact Or.inl ⟨n,by simp,hn⟩
      · exact hblocked.concat n

theorem IsTree.madeTo_from (h : d.IsTree) {ns : Location} (hns : ∀ n ∈ ns, Path.IsStep n) :
    d.MadeTo ns (d.makeDirectoriesFrom ns.reverse) := by
  induction ns using List.reverseRecOn with
  | nil => exact ⟨h,.refl d _,fun _ => rfl,by simp [makeDirectoriesFrom]⟩
  | append_singleton ns n ih =>
    have hsteps : ∀ m ∈ ns, Path.IsStep m := fun m hm => hns m (by simp [hm])
    have hup := Path.isDirect_slashes (k := 1) (by decide) hsteps
    have hpath := Path.isDirect_slashes (k := 1) (by decide) hns
    have hdot : (n = ".") = False := eq_false (hns n (by simp)).ne_dot
    have habove : ∃ r : Except DiskFault Unit × Disk,
        (if d.isThere ("/" ++ Path.ofNames ns) then (Except.ok (),d)
          else d.makeDirectoriesFrom ns.reverse) = r ∧ r.2.IsTree ∧ d.GrownTo ns r.2 ∧
        (r.1 = .ok () → Disk.entry? r.2 ns = some .directory ∨ r.2.Blocked ns) ∧
        ∀ f, r.1 = .error f → d.Blocked ns := by
      split
      · rename_i hthere
        refine ⟨_,rfl,h,.refl d ns,fun _ => ?_,by simp⟩
        have hsome := h.isThere_eq hup.1
        rw [hup.2] at hsome
        obtain ⟨e,he⟩ := Option.isSome_iff_exists.mp (hsome.symm.trans hthere)
        cases e with
        | directory => exact Or.inl he
        | file bytes => exact Or.inr (Or.inr ⟨ns,bytes,List.prefix_rfl,he⟩)
      · have hmade := ih hsteps
        exact ⟨_,rfl,hmade.tree,hmade.grown,fun hok => Or.inl (hmade.made hok),hmade.failed⟩
    obtain ⟨⟨r,d'⟩,hr,htree,hgrown,hok,hfailed⟩ := habove
    rw [List.reverse_append,List.reverse_singleton,List.singleton_append,makeDirectoriesFrom]
    simp only [List.reverse_cons,List.reverse_reverse,hdot,decide_false,Bool.false_and,
      Bool.false_eq_true,if_false,hr]
    have hprefix : ns <+: ns ++ [n] := List.prefix_append ns [n]
    cases r with
    | error f =>
      refine ⟨htree,hgrown.trans (.refl d' _) hprefix,by simp,fun _ _ => ?_⟩
      exact (hfailed f rfl).concat n
    | ok _ =>
      have hlast := htree.madeTo_makeDirectory hpath.1 hpath.2 (hok rfl)
      exact ⟨hlast.tree,hgrown.trans hlast.grown hprefix,hlast.made,
        fun f hf => hgrown.blocked_iff.mp (hlast.failed f hf)⟩

/-- The directories that a direct path asks for are made, unless something stands in the way. -/
theorem IsTree.madeTo (h : d.IsTree) {p : String} (hp : Path.IsDirect p) :
    d.MadeTo (Path.place p) (d.makeDirectories p) := by
  obtain ⟨k,hk⟩ := hp.straight
  have hsteps : ∀ n ∈ Path.place p, Path.IsStep n := fun n hn => Path.isStep_of_mem_place hn
  have hfilter : (Path.names p).filter (· ≠ "") = Path.place p := by
    rw [hk,List.filter_append,List.filter_replicate]
    simpa using fun n hn => (hsteps n hn).ne_empty
  unfold makeDirectories
  rw [hfilter]
  exact h.madeTo_from hsteps

end Disk

end BlogSite
