import BlogSite.Proofs.LoadedContent

/-!
What loading passes over: drafts that have all that a post needs, and what is no post file. A project
without some of them gives the same posts or the same failure, whatever else is in the way of loading.
-/

namespace BlogSite

/-- Items in directories with posts, told by the name of their blog and their own. -/
abbrev Items := String → String → Prop

theorem Path.sortedNames_filter (keep : String → Bool) (ns : List String) :
    sortedNames (ns.filter keep) = (sortedNames ns).filter keep := by
  refine List.Perm.eq_of_pairwise ?_ (pairwise_sortedNames_le _)
    ((pairwise_sortedNames_le ns).filter keep) ?_
  · exact fun a b _ _ hab hba => String.le_antisymm hab hba
  · exact (sortedNames_perm _).trans ((sortedNames_perm ns).filter keep).symm

/-- A world in which everything in a region is gone, with a log file that is there. -/
structure World.Removed (Y : Location → Prop) (w w' : World) : Prop where
  gone : ∀ l, Y l → w'.disk.entry? l = none
  kept : ∀ l, ¬ Y l → w'.disk.entry? l = w.disk.entry? l
  logFile : ∀ f, f ∈ w'.logFile ↔ f ∈ w.logFile ∧ ¬ Y (Path.place f.path)

/-- A region that holds all that is below what it holds can be removed. -/
theorem World.Removed.isSound {Y : Location → Prop} {w w' : World} (h : w.Removed Y w')
    (hY : ∀ l r, Y l → Y (l ++ r)) (hw : w.IsSound) : w'.IsSound where
  tree := by
    have hold : ∀ l e, w'.disk.entry? l = some e → ¬ Y l ∧ w.disk.entry? l = some e := by
      intro l e he
      have hl : ¬ Y l := by
        intro hl
        simp [h.gone l hl] at he
      exact ⟨hl,(h.kept l hl).symm.trans he⟩
    refine ⟨fun l e he => hw.tree.named l e (hold l e he).2,fun l n e he => ?_⟩
    obtain ⟨hn,hentry⟩ := hold _ e he
    exact (h.kept l fun hl => hn (hY l [n] hl)).trans (hw.tree.closed l n e hentry)
  named := fun f hf => hw.named f ((h.logFile f).mp hf).1
  direct := fun f hf => hw.direct f ((h.logFile f).mp hf).1
  logged := by
    rintro l ⟨f,hf,rfl⟩
    obtain ⟨hmem,hl⟩ := (h.logFile f).mp hf
    rw [h.kept _ hl]
    exact hw.logged _ ⟨f,hmem,rfl⟩

/-- Whether a post file holds a draft. -/
def Post.Reading.isDraft : Reading → Bool
  | .draft => true
  | .published _ => false

namespace PostFolder

variable (f : PostFolder) (d : Disk) (blog : String)

/-- A draft that has all that a post needs. -/
def IsDraft (item : String) : Prop :=
  ∃ metadata body, f.Holds d blog item metadata body ∧ Post.missingFields metadata = [] ∧
    (metadata.field "draft").truthy = true

/-- What loading passes over: a draft that has all that a post needs, or what is no post file. -/
def Skips (item : String) : Prop := ending.toList <:+ item.toList → f.IsDraft d blog item

/-- A place at or below one of some items. -/
def AtItem (items : Items) (l : Location) : Prop :=
  ∃ blog item, items blog item ∧ Path.place f.content ++ ["blogs",blog,"posts",item] <+: l

variable {f d blog} {items : Items}

theorem IsDraft.reading {item : String} (h : f.IsDraft d blog item) (slug : String) :
    f.reading d blog item slug = .ok .draft := by
  obtain ⟨metadata,body,hholds,hmissing,hdraft⟩ := h
  exact reading_eq_ok_iff.mpr ⟨metadata,body,hholds,hmissing,by rw [if_pos hdraft]⟩

/-- A file that is read as a draft is one. -/
theorem isDraft_of_reading {item : String} (slug : String)
    (h : (f.reading d blog item slug).toOption.map Post.Reading.isDraft = some true) :
    f.IsDraft d blog item := by
  cases hr : f.reading d blog item slug with
  | error e => simp [hr,Except.toOption] at h
  | ok r =>
    obtain ⟨metadata,body,hholds,hmissing,hpost⟩ := reading_eq_ok_iff.mp hr
    refine ⟨metadata,body,hholds,hmissing,?_⟩
    by_contra hdraft
    rw [hr,hpost,if_neg hdraft] at h
    simp [Except.toOption,Post.Reading.isDraft] at h

/-! ### The places of items -/

theorem AtItem.append {l : Location} (h : f.AtItem items l) (r : Location) : f.AtItem items (l ++ r) := by
  obtain ⟨blog,item,hitem,hl⟩ := h
  exact ⟨blog,item,hitem,hl.trans (List.prefix_append l r)⟩

theorem AtItem.content {l : Location} (h : f.AtItem items l) : Path.place f.content <+: l := by
  obtain ⟨blog,item,-,hl⟩ := h
  exact (List.prefix_append _ _).trans hl

/-- No item has its place at or above the directories with the posts. -/
theorem not_atItem_of_length {r : Location} (hr : r.length < 4) : ¬ f.AtItem items (Path.place f.content ++ r) := by
  rintro ⟨blog,item,-,hl⟩
  have hlength := ((List.prefix_append_right_inj _).mp hl).length_le
  exact absurd hlength (by simpa using hr)

theorem atItem_iff {item : String} :
    f.AtItem items (Path.place f.content ++ ["blogs",blog,"posts"] ++ [item]) ↔ items blog item := by
  rw [List.append_assoc]
  constructor
  · rintro ⟨blog',item',hitem,hl⟩
    have heq := ((List.prefix_append_right_inj _).mp hl).eq_of_length rfl
    simp only [List.cons_append,List.nil_append,List.cons.injEq,and_true,true_and] at heq
    rwa [heq.1,heq.2] at hitem
  · exact fun hitem => ⟨blog,item,hitem,List.prefix_rfl⟩

/-- A path avoids the places of items if it leads straight to another place. -/
theorem avoids_atItem {p : String} (hp : Path.IsDirect p) (h : ¬ f.AtItem items (Path.place p)) :
    Path.Avoids p (f.AtItem items) := by
  intro l hl hat
  obtain ⟨r,hr⟩ := hp.passes_iff.mp hl
  exact h (hr ▸ hat.append r)

/-! ### Loading without them -/

/-- Files that are passed over are missed by nobody. -/
theorem readAll_filter {reading : String → String → Except Failure Post.Reading} {keep : String → Bool}
    {ns : List String} (h : ∀ item ∈ ns, keep item = false → ∀ slug,
      Path.withoutEnding? ending item = some slug → reading item slug = .ok .draft) :
    readAll reading (ns.filter keep) = readAll reading ns := by
  induction ns with
  | nil => rfl
  | cons item ns ih =>
    have hrest := ih fun i hi => h i (by simp [hi])
    cases hkeep : keep item with
    | true => simp only [List.filter_cons,hkeep,if_true,readAll,hrest]
    | false =>
      rw [List.filter_cons,if_neg (by simp [hkeep]),hrest,readAll]
      cases hslug : Path.withoutEnding? ending item with
      | none => rfl
      | some slug => simp only [h item (by simp) hkeep slug hslug]

/-- Without items that are passed over, a directory lists the other names in the same order. -/
theorem sortedNames_removed {w w' : World} (h : w.Removed (f.AtItem items) w') (blog : String)
    {keep : String → Bool} (hkeep : ∀ n, keep n = true ↔ ¬ items blog n) :
    Path.sortedNames (w'.disk.names (Path.place f.content ++ ["blogs",blog,"posts"])) =
      (Path.sortedNames (w.disk.names (Path.place f.content ++ ["blogs",blog,"posts"]))).filter keep := by
  rw [← Path.sortedNames_filter]
  apply Path.sortedNames_eq_of_perm
  rw [List.perm_ext_iff_of_nodup (w'.disk.nodup_names _) ((w.disk.nodup_names _).filter _)]
  intro n
  rw [List.mem_filter,Disk.mem_names_iff,Disk.mem_names_iff,hkeep]
  by_cases hn : items blog n
  · rw [h.gone _ (atItem_iff.mpr hn)]
    simp [hn]
  · rw [h.kept _ (mt atItem_iff.mp hn)]
    simp [hn]

open Classical in
/-- Without items that are passed over, a blog has the same posts or the same failure. -/
theorem load_eq_of_removed {w w' : World} (h : w.Removed (f.AtItem items) w') (hw : w.IsSound)
    (hf : Path.IsDirect f.content) (hblog : Path.IsStep blog)
    (hskips : ∀ item, items blog item → f.Skips w.disk blog item) :
    ((f.load blog).go w').1 = ((f.load blog).go w).1 := by
  have hw' := h.isSound (fun _ r hl => hl.append r) hw
  obtain ⟨hdirect,hplace⟩ := isDirect_directory hf hblog
  have hat := h.kept _ (not_atItem_of_length (r := ["blogs",blog,"posts"]) (by simp))
  rw [← hplace] at hat
  by_cases hdir : w.disk.entry? (Path.place (f.directory blog)) = some .directory
  · have hlist := (hw.tree.list_eq_ok_iff hdirect).mpr ⟨hdir,rfl⟩
    have hlist' := (hw'.tree.list_eq_ok_iff hdirect).mpr ⟨hat.trans hdir,rfl⟩
    have hkeep : ∀ n, decide (¬ items blog n) = true ↔ ¬ items blog n := by simp
    have hnames := sortedNames_removed h blog hkeep
    rw [← hplace] at hnames
    rw [go_load_of_list hlist hw.named,go_load_of_list hlist' hw'.named,hnames]
    refine congrArg _ (Eq.trans (readAll_congr fun item hitem slug _ => ?_) (readAll_filter ?_))
    · obtain ⟨hmem,hkeep⟩ := List.mem_filter.mp hitem
      obtain ⟨e,he⟩ := Disk.mem_names_iff.mp ((Path.sortedNames_perm _).mem_iff.mp hmem)
      have he' := h.kept _ (mt atItem_iff.mp (by simpa using hkeep))
      rw [← hplace] at he'
      exact reading_eq_of_entry rfl hw.tree hw'.tree hdirect hdirect he (he'.trans he) slug
    · intro item _ hkeep slug hslug
      have hitem : items blog item := by simpa using hkeep
      obtain rfl := Path.withoutEnding?_eq_some_iff.mp hslug
      exact (hskips _ hitem (by simp)).reading slug
  · have hdir' := fun hd => hdir (hat.symm.trans hd)
    rw [(load_eq_ok_iff hw hdirect).mpr (Or.inl ⟨hdir,rfl⟩),
      (load_eq_ok_iff hw' hdirect).mpr (Or.inl ⟨hdir',rfl⟩)]

end PostFolder

end BlogSite
