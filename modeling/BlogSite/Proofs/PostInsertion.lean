import BlogSite.Proofs.LoadedContent

/-!
One more post. The posts of a blog stand in an order that is strict on their dates and file names, so a
post that is added comes between two neighbours and leaves the order of the others alone.
-/

namespace BlogSite

namespace PostFolder

variable {f : PostFolder} {d d' : Disk} {blog : String} {w w' : World}

/-! ### Posts on the shelf -/

theorem sound_of_readAll {items : List String} {found : List Post}
    (h : readAll (f.reading d blog) items = .ok found) : f.Sound d blog items := by
  induction items generalizing found with
  | nil => exact fun item hitem => absurd hitem List.not_mem_nil
  | cons item items ih =>
    have hrest : ∀ {rest}, readAll (f.reading d blog) items = .ok rest →
        (∀ slug, item = slug ++ ending → ∃ r, f.reading d blog item slug = .ok r) →
          f.Sound d blog (item :: items) := fun htail hitem =>
      List.forall_mem_cons.mpr ⟨hitem,ih htail⟩
    unfold readAll at h
    cases hslug : Path.withoutEnding? ending item with
    | none =>
      simp only [hslug] at h
      refine hrest h fun slug hitem => ?_
      rw [Path.withoutEnding?_eq_some_iff.mpr hitem] at hslug
      exact absurd hslug (by simp)
    | some slug =>
      simp only [hslug] at h
      cases hr : f.reading d blog item slug with
      | error e => simp [hr] at h
      | ok r =>
        have hitem : ∀ slug', item = slug' ++ ending → ∃ r, f.reading d blog item slug' = .ok r := by
          intro slug' hitem
          rw [Path.withoutEnding?_eq_some_iff.mpr hitem] at hslug
          obtain rfl := Option.some.inj hslug
          exact ⟨r,hr⟩
        simp only [hr] at h
        cases r with
        | draft => exact hrest h hitem
        | published post =>
          cases htail : readAll (f.reading d blog) items with
          | error e => simp [htail,Except.map] at h
          | ok rest => exact hrest htail hitem

theorem Publishes.isPublished {item : String} {p : Post} (h : f.Publishes d blog item p) :
    f.IsPublished d blog item := by
  obtain ⟨metadata,body,hholds,hdraft,hname,-⟩ := h
  exact ⟨p.slug,metadata,body,hname,hholds,hdraft⟩

/-- What is loaded is what stands on the shelf of the files in the directory. -/
theorem eq_shelf_of_load (hw : w.IsSound) (hdirect : Path.IsDirect (f.directory blog)) {posts : List Post}
    (hload : ((f.load blog).go w).1 = .ok posts) :
    posts = (f.shelf w.disk blog (w.disk.names (Path.place (f.directory blog)))).map Prod.snd := by
  rcases (load_eq_ok_iff hw hdirect).mp hload with ⟨hdir,rfl⟩ | ⟨-,found,hfound,rfl⟩
  · have hempty : w.disk.names (Path.place (f.directory blog)) = [] := by
      rw [List.eq_nil_iff_forall_not_mem]
      intro n hn
      obtain ⟨e,he⟩ := Disk.mem_names_iff.mp hn
      exact hdir (hw.tree.closed _ n e he)
    simp [hempty,shelf,Path.sortedNames,newestFirst]
  · have hsound := sound_of_readAll hfound
    rw [map_snd_shelf,Except.ok.inj (hfound.symm.trans (readAll_eq_ok hsound))]

/-- A post file that is new puts its post between two neighbours. -/
theorem exists_shelf_insert {items items' : List String} {item : String} {p : Post}
    (hnodup : items.Nodup) (hnodup' : items'.Nodup) (hitem : item ∉ items)
    (hitems : ∀ n, n ∈ items' ↔ n ∈ items ∨ n = item)
    (hsame : ∀ n ∈ items, post? (f.reading d' blog) n = post? (f.reading d blog) n)
    (hnew : post? (f.reading d' blog) item = some p) :
    ∃ before after, f.shelf d blog items = before ++ after ∧
      f.shelf d' blog items' = before ++ (item,p) :: after := by
  have hmem : (item,p) ∈ f.shelf d' blog items' :=
    mem_shelf_iff.mpr ⟨(hitems item).mpr (Or.inr rfl),hnew⟩
  obtain ⟨before,after,hsplit⟩ := List.append_of_mem hmem
  refine ⟨before,after,?_,hsplit⟩
  have hsub : (before ++ after).Sublist (f.shelf d' blog items') :=
    hsplit ▸ (List.sublist_cons_self _ after).append_left before
  have hstrict : ∀ a b : String × Post, (b.2.date < a.2.date ∨ b.2.date = a.2.date ∧ a.1 < b.1) →
      (a.2.date < b.2.date ∨ a.2.date = b.2.date ∧ b.1 < a.1) → a = b := by
    rintro a b (hdate | ⟨hdate,hname⟩) (hdate' | ⟨hdate',hname'⟩)
    · exact absurd hdate' (String.lt_asymm hdate)
    · exact absurd (hdate' ▸ hdate) (String.lt_irrefl _)
    · exact absurd (hdate ▸ hdate') (String.lt_irrefl _)
    · exact absurd hname' (String.lt_asymm hname)
  have hnodups : (f.shelf d' blog items').Nodup := (nodup_shelf hnodup').of_map _
  -- Apart from the new one, the posts on the two shelves are the same.
  have hothers : ∀ x, x ∈ before ++ after ↔ x ∈ f.shelf d' blog items' ∧ x ≠ (item,p) := by
    intro x
    have hnot : (item,p) ∉ before ++ after := by
      have hperm : (before ++ (item,p) :: after).Perm ((item,p) :: (before ++ after)) := List.perm_middle
      exact (List.nodup_cons.mp (hperm.nodup_iff.mp (hsplit ▸ hnodups))).1
    constructor
    · exact fun hx => ⟨hsub.subset hx,fun heq => hnot (heq ▸ hx)⟩
    · rintro ⟨hx,hne⟩
      rw [hsplit,List.mem_append,List.mem_cons] at hx
      rw [List.mem_append]
      tauto
  refine List.Perm.eq_of_pairwise (fun a b _ _ => hstrict a b) (pairwise_shelf hnodup)
    ((pairwise_shelf hnodup').sublist hsub) ?_
  rw [List.perm_ext_iff_of_nodup ((nodup_shelf hnodup).of_map _) (hnodups.sublist hsub)]
  intro x
  rw [hothers,mem_shelf_iff,mem_shelf_iff,hitems]
  constructor
  · rintro ⟨hx,hpost⟩
    refine ⟨⟨Or.inl hx,(hsame _ hx).trans hpost⟩,?_⟩
    rintro rfl
    exact hitem hx
  · rintro ⟨⟨hx | hx,hpost⟩,hne⟩
    · exact ⟨hx,(hsame _ hx).symm.trans hpost⟩
    · refine absurd ?_ hne
      rw [hx,hnew] at hpost
      exact Prod.ext hx (Option.some.inj hpost).symm

/-! ### Posts that are loaded -/

/-- A directory that has one more file, which is published, gives one more post. -/
theorem exists_load_insert (hw : w.IsSound) (hw' : w'.IsSound)
    (hdirect : Path.IsDirect (f.directory blog)) {item : String}
    (hitem : item ∉ w.disk.names (Path.place (f.directory blog)))
    (hnames : ∀ n, n ∈ w'.disk.names (Path.place (f.directory blog)) ↔
      n ∈ w.disk.names (Path.place (f.directory blog)) ∨ n = item)
    (hsame : ∀ n slug, n = slug ++ ending → n ≠ item →
      w'.disk.entry? (Path.place (f.directory blog) ++ [n]) =
        w.disk.entry? (Path.place (f.directory blog) ++ [n]))
    (hnew : f.IsPublished w'.disk blog item) {posts posts' : List Post}
    (hload : ((f.load blog).go w).1 = .ok posts) (hload' : ((f.load blog).go w').1 = .ok posts') :
    ∃ before p after, posts = before ++ after ∧ posts' = before ++ p :: after ∧
      item = p.slug ++ ending := by
  have hmem' := (hnames item).mpr (Or.inr rfl)
  have hsound : f.Sound w'.disk blog (w'.disk.names (Path.place (f.directory blog))) := by
    rcases (load_eq_ok_iff hw' hdirect).mp hload' with ⟨hdir,-⟩ | ⟨-,found,hfound,-⟩
    · obtain ⟨e,he⟩ := Disk.mem_names_iff.mp hmem'
      exact absurd (hw'.tree.closed _ item e he) hdir
    · intro n hn
      exact sound_of_readAll hfound n ((Path.sortedNames_perm _).mem_iff.mpr hn)
  obtain ⟨p,hp⟩ := (exists_post?_iff hsound hmem').mpr hnew
  have hsame' : ∀ n ∈ w.disk.names (Path.place (f.directory blog)),
      post? (f.reading w'.disk blog) n = post? (f.reading w.disk blog) n := by
    intro n hn
    unfold post?
    cases hslug : Path.withoutEnding? ending n with
    | none => rfl
    | some slug =>
      obtain ⟨e,he⟩ := Disk.mem_names_iff.mp hn
      have hne : n ≠ item := fun heq => hitem (heq ▸ hn)
      have he' := (hsame n slug (Path.withoutEnding?_eq_some_iff.mp hslug) hne).trans he
      simp only [reading_eq_of_entry rfl hw.tree hw'.tree hdirect hdirect he he' slug]
  obtain ⟨before,after,hbefore,hafter⟩ := exists_shelf_insert (w.disk.nodup_names _) (w'.disk.nodup_names _)
    hitem hnames hsame' hp
  obtain ⟨-,-,-,-,hslug,-⟩ := publishes_of_post? hp
  refine ⟨before.map Prod.snd,p,after.map Prod.snd,?_,?_,hslug⟩
  · rw [eq_shelf_of_load hw hdirect hload,hbefore,List.map_append]
  · rw [eq_shelf_of_load hw' hdirect hload',hafter,List.map_append,List.map_cons]

end PostFolder

end BlogSite
