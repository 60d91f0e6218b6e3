import BlogSite.Proofs.ShortCopies

/-!
How a build ends. Once the static files are copied, either all pages of the site are written or only the
first of them, up to the step that fails.
-/

namespace BlogSite

namespace Site

variable {s : Site} {base w : World}

/-! ### What a build starts from -/

/-- The slugs of the blogs that a world lists are single names. -/
def SlugsAreSteps (s : Site) (w : World) : Prop :=
  ∀ blogs, ((BlogList.load s.paths.blogList).go w).1 = .ok blogs → ∀ b ∈ blogs, Path.IsStep b.slug

theorem SlugsAreSteps.opened (h : s.SlugsAreSteps w) (hs : s.paths.IsApart) (hw : w.IsSound) :
    s.SlugsAreSteps w.opened := by
  intro blogs hload
  exact h blogs (BlogList.load_eq_ok_of_sameBelow hw.opened hw hs.content (hw.sameBelow_opened _) hload)

theorem quiet_summarise (blogs : List Blog) (shelf : HomePage.Shelf) :
    (summarise blogs shelf).Quiet := by
  unfold summarise
  refine (Run.quiet_report _ _ _).bind fun _ => (Run.quiet_report _ _ _).bind fun _ => ?_
  refine Run.quiet_get.bind fun w => (Run.quiet_report _ _ _).bind fun _ => Run.quiet_pure _

theorem go_summarise (blogs : List Blog) (shelf : HomePage.Shelf) (w : World) :
    ((summarise blogs shelf).go w).1 = .ok shelf := rfl

/-- The last reports tell the result and leave the site as it is. -/
theorem meets_summarise {I : World → Prop} (hI : ∀ w m, I w → I (w.report m)) (hw : I w)
    (blogs : List Blog) (shelf : HomePage.Shelf) :
    (summarise blogs shelf).Meets w (fun result v => result = shelf ∧ I v) fun _ _ => False := by
  have hgo := go_summarise blogs shelf w
  refine ⟨fun result v h => ⟨?_,(quiet_summarise blogs shelf I hI w hw).result result v h⟩,?_⟩
  · rw [h] at hgo
    exact Except.ok.inj hgo
  · intro f v h
    rw [h] at hgo
    exact absurd hgo (by simp)

theorem Written.loadBlogs {ps : List Sheet} (h : s.Written base ps w) (hs : s.paths.IsApart)
    (hbase : base.IsSound) :
    (BlogList.load s.paths.blogList).Meets w
      (fun blogs v => s.Written base ps v ∧ ((BlogList.load s.paths.blogList).go base).1 = .ok blogs)
      fun _ v => s.Written base ps v ∧
        ∀ blogs, ((BlogList.load s.paths.blogList).go base).1 ≠ .ok blogs := by
  have hquiet : (BlogList.load s.paths.blogList).Meets w (fun _ => s.Written base ps)
      fun _ => s.Written base ps :=
    BlogList.quiet_load _ _ (fun _ m hu => hu.report m) w h
  obtain ⟨pages,-,hstage,-⟩ := h
  have hsame := hstage.sameBelow hs hbase
  refine ⟨fun blogs v hgo => ⟨hquiet.result blogs v hgo,?_⟩,
    fun f v hgo => ⟨hquiet.failure f v hgo,fun blogs hblogs => ?_⟩⟩
  · exact BlogList.load_eq_ok_of_sameBelow hstage.sound hbase hs.content hsame (congrArg Prod.fst hgo)
  · have hload := BlogList.load_eq_ok_of_sameBelow hbase hstage.sound hs.content hsame.symm hblogs
    exact absurd (hload.symm.trans (congrArg Prod.fst hgo)) (by simp)

/-! ### Sites that are finished -/

/-- A site whose pages have all been written, and nothing else. -/
structure Filled (s : Site) (base : World) (blogs : List Blog) (shelf : HomePage.Shelf) (w : World) :
    Prop where
  listed : ((BlogList.load s.paths.blogList).go base).1 = .ok blogs
  loaded : ∀ b ∈ blogs, ((s.posts.load b.slug).go base).1 = .ok (s.postsIn base b.slug)
  shelved : shelf = shelfOf (s.postsIn base) blogs
  written : s.Written base (s.sheets blogs (s.postsIn base)) w

/-- A site whose pages have all been written, with the short copies that are asked for. -/
structure Finished (s : Site) (base : World) (blogs : List Blog) (shelf : HomePage.Shelf) (w : World) :
    Prop where
  listed : ((BlogList.load s.paths.blogList).go base).1 = .ok blogs
  loaded : ∀ b ∈ blogs, ((s.posts.load b.slug).go base).1 = .ok (s.postsIn base b.slug)
  shelved : shelf = shelfOf (s.postsIn base) blogs
  written : ∃ pages, s.pagesOf? base.disk [] (s.sheets blogs (s.postsIn base)) = some pages ∧
    s.Stage base (s.finished (s.filesWith base.disk pages)) w ∧
    w.pages.toList = (s.sheets blogs (s.postsIn base)).map Sheet.path

section Finished

variable {blogs : List Blog} {shelf : HomePage.Shelf}

theorem Finished.kept (h : s.Finished base blogs shelf w) : s.Kept base w := by
  obtain ⟨pages,-,hstage,-⟩ := h.written
  exact hstage.kept

theorem Finished.report (h : s.Finished base blogs shelf w) (r : Log.Record) :
    s.Finished base blogs shelf (w.report r) := by
  obtain ⟨pages,hpages,hstage,hpaths⟩ := h.written
  exact ⟨h.listed,h.loaded,h.shelved,pages,hpages,hstage.report r,hpaths⟩

/-- Where no short copies are asked for, a site is finished when it is filled. -/
theorem Finished.filled (h : s.Finished base blogs shelf w) (hminify : s.minify = false) :
    s.Filled base blogs shelf w := by
  obtain ⟨pages,hpages,hstage,hpaths⟩ := h.written
  rw [finished,if_neg (by simp [hminify])] at hstage
  exact ⟨h.listed,h.loaded,h.shelved,pages,hpages,hstage,hpaths⟩

theorem Filled.shorten (h : s.Filled base blogs shelf w) (hs : s.paths.IsApart) :
    s.shorten.Meets w (fun _ => s.Finished base blogs shelf)
      fun _ v => s.Kept base v ∧ s.minify = true := by
  obtain ⟨pages,hpages,hstage,hpaths⟩ := h.written
  have hfinished : ∀ v : World, s.Stage base (s.finished (s.filesWith base.disk pages)) v ∧
      v.pages = w.pages → s.Finished base blogs shelf v := fun v hv =>
    ⟨h.listed,h.loaded,h.shelved,pages,hpages,hv.1,hv.2 ▸ hpaths⟩
  cases hminify : s.minify with
  | true => exact (hstage.shorten hs).imp (fun _ v hv => hfinished v hv) fun _ _ hv => ⟨hv,rfl⟩
  | false =>
    unfold Site.shorten
    rw [if_neg (by simp [hminify])]
    refine (Run.meets_pure _).mpr (hfinished w ⟨?_,rfl⟩)
    rwa [finished,if_neg (by simp [hminify])]

end Finished

/-! ### Sites that are not finished -/

/-- The first pages of the site of some blogs, when its build fails. No page is among them of a blog
whose posts cannot be loaded, nor of the blogs after it; and when the failure tells of posts, the pages
are those of all blogs before the one that has them. -/
structure Unfinished (s : Site) (base : World) (blogs : List Blog) (done : List Sheet) (f : Failure) :
    Prop where
  first : done <+: s.sheets blogs (s.postsIn base)
  short : done.length < (s.sheets blogs (s.postsIn base)).length
  unread : ∀ before b after e, blogs = before ++ b :: after →
    ((s.posts.load b.slug).go base).1 = .error e →
    done <+: s.blogPages (s.postsIn base) before
  reason : f.blog? = none ∨ ∃ before b after, blogs = before ++ b :: after ∧
    ((s.posts.load b.slug).go base).1 = .error f ∧
    done = s.blogPages (s.postsIn base) before

/-- The pages that are written when a build fails after the static files have been copied. -/
def Abandoned (s : Site) (base : World) (f : Failure) (w : World) : Prop :=
  ((∀ blogs, ((BlogList.load s.paths.blogList).go base).1 ≠ .ok blogs) ∧ s.Written base [] w) ∨
  ∃ blogs done, ((BlogList.load s.paths.blogList).go base).1 = .ok blogs ∧
    s.Unfinished base blogs done f ∧ s.Written base done w

theorem Abandoned.kept {f : Failure} (h : s.Abandoned base f w) : s.Kept base w := by
  rcases h with ⟨-,hw⟩ | ⟨_,_,-,-,hw⟩
  · exact hw.kept
  · exact hw.kept

theorem blogPages_append (posts : String → List Post) (bs cs : List Blog) :
    s.blogPages posts (bs ++ cs) = s.blogPages posts bs ++ s.blogPages posts cs := by
  simp [blogPages]

theorem blogPages_isPrefixOf (posts : String → List Post) (before : List Blog) (b : Blog)
    (after : List Blog) :
    s.blogPages posts before ++ s.blogSheets b (posts b.slug) <+:
      s.blogPages posts (before ++ b :: after) := by
  rw [blogPages_append,List.prefix_append_right_inj]
  exact List.prefix_append _ _

/-- Of two members of a list, the second one stands before the first, is the first or comes after. -/
theorem mem_or_of_append_cons_eq {α : Type} {before after before' after' : List α} {x y : α}
    (h : before ++ x :: after = before' ++ y :: after') :
    y ∈ before ∨ (before' = before ∧ y = x) ∨ ∃ zs, before' = before ++ x :: zs := by
  rcases List.append_eq_append_iff.mp h with ⟨zs,hbefore,hzs⟩ | ⟨zs,hbefore,hzs⟩
  · cases zs with
    | nil =>
      obtain ⟨rfl,-⟩ := List.cons.inj hzs
      exact Or.inr (Or.inl ⟨by simpa using hbefore,rfl⟩)
    | cons z zs =>
      obtain ⟨rfl,-⟩ := List.cons.inj hzs
      exact Or.inr (Or.inr ⟨zs,hbefore⟩)
  · cases zs with
    | nil =>
      obtain ⟨rfl,-⟩ := List.cons.inj hzs
      exact Or.inr (Or.inl ⟨by simpa using hbefore.symm,rfl⟩)
    | cons z zs =>
      obtain ⟨rfl,-⟩ := List.cons.inj hzs
      exact Or.inl (by simp [hbefore])

/-- A blog whose posts cannot be loaded is not among those that are done. -/
theorem Broken.unfinished {before : List Blog} {b : Blog} {f : Failure}
    (hbefore : ∀ c ∈ before, ((s.posts.load c.slug).go base).1 = .ok (s.postsIn base c.slug))
    (h : s.Broken base (s.blogPages (s.postsIn base) before) b f w) (after : List Blog) :
    ∃ done, s.Unfinished base (before ++ b :: after) done f ∧ s.Written base done w := by
  obtain ⟨⟨done,hdone,hwritten,hnone⟩,hreason⟩ := h
  have hblog : ∀ cs, s.blogPages (s.postsIn base) before ++ done <+:
      s.blogPages (s.postsIn base) (before ++ b :: cs) := fun cs =>
    ((List.prefix_append_right_inj _).mpr hdone).trans (blogPages_isPrefixOf _ before b cs)
  have hself : ∀ e, ((s.posts.load b.slug).go base).1 = .error e →
      s.blogPages (s.postsIn base) before ++ done = s.blogPages (s.postsIn base) before := by
    intro e he
    rw [hnone e he,List.append_nil]
  refine ⟨s.blogPages (s.postsIn base) before ++ done,⟨?_,?_,?_,?_⟩,hwritten⟩
  · exact (hblog after).trans (List.prefix_append _ _)
  · refine Nat.lt_of_le_of_lt (hblog after).length_le ?_
    simp [sheets,blogPages]
  · intro before' b' after' e hsplit he
    rcases mem_or_of_append_cons_eq hsplit with hb' | ⟨rfl,rfl⟩ | ⟨cs,rfl⟩
    · exact absurd ((hbefore b' hb').symm.trans he) (by simp)
    · exact (hself e he).symm ▸ List.prefix_rfl
    · exact hblog cs
  · exact hreason.imp_right fun he => ⟨before,b,after,rfl,he,hself f he⟩

theorem Stuck.abandoned {blogs : List Blog} {done rest : List Sheet} {f : Failure}
    (h : s.Stuck base done f w)
    (hblogs : ((BlogList.load s.paths.blogList).go base).1 = .ok blogs)
    (hloaded : ∀ b ∈ blogs, ((s.posts.load b.slug).go base).1 = .ok (s.postsIn base b.slug))
    (hall : s.sheets blogs (s.postsIn base) = done ++ rest) (hrest : rest ≠ []) :
    s.Abandoned base f w := by
  refine Or.inr ⟨blogs,done,hblogs,⟨hall ▸ List.prefix_append _ _,?_,?_,Or.inl h.2⟩,h.1⟩
  · rw [hall,List.length_append]
    exact Nat.lt_add_of_pos_right (List.length_pos_iff.mpr hrest)
  · rintro before b after e rfl he
    exact absurd ((hloaded b (by simp)).symm.trans he) (by simp)

/-! ### The whole site -/

/-- What a build does once the static files are copied. -/
def writeAll (s : Site) : Run HomePage.Shelf := do
  let blogs ← BlogList.load s.paths.blogList
  info ("Loaded " ++ toString blogs.length ++ " blogs from " ++ s.paths.blogList)
  let shelf ← s.writeBlogs [] blogs
  s.writeHome blogs shelf
  s.writeNotFound
  s.writePage ".nojekyll" ""
  s.shorten
  summarise blogs shelf

theorem fill_eq (s : Site) : s.fill = s.copyPublic >>= fun _ => s.writeAll := rfl

/-- All pages are written, or the build fails with the first of them written. -/
theorem Written.writeAll (h : s.Written base [] w) (hs : s.paths.IsApart) (hbase : base.IsSound)
    (hslugs : s.SlugsAreSteps base) :
    s.writeAll.Meets w (fun shelf v => ∃ blogs, s.Finished base blogs shelf v)
      fun f v => s.Kept base v ∧ (s.minify = false → s.Abandoned base f v) := by
  have hleft : ∀ {f v}, s.Abandoned base f v →
      s.Kept base v ∧ (s.minify = false → s.Abandoned base f v) := fun hv => ⟨hv.kept,fun _ => hv⟩
  unfold Site.writeAll
  refine Run.meets_bind.mpr ((h.loadBlogs hs hbase).imp ?_ fun f v hv => hleft (Or.inl hv.symm))
  rintro blogs u ⟨hu,hblogs⟩
  rw [Run.meets_bind]
  refine (Run.meets_report _ _ _).mpr (Run.meets_bind.mpr ?_)
  refine (Written.writeBlogs hs hbase (hslugs blogs hblogs) [] (hu.report _)).imp ?_ ?_
  case refine_2 =>
    rintro f v ⟨before,b,after,rfl,hbefore,hv⟩
    obtain ⟨done,hdone⟩ := hv.unfinished hbefore after
    exact hleft (Or.inr ⟨_,done,hblogs,hdone⟩)
  rintro shelf u ⟨hu,hposts,hshelf⟩
  have hshelf' : shelf = shelfOf (s.postsIn base) blogs := hshelf
  have hstuck : ∀ {done f v} rest, rest ≠ [] → s.sheets blogs (s.postsIn base) = done ++ rest →
      s.Stuck base done f v → s.Kept base v ∧ (s.minify = false → s.Abandoned base f v) :=
    fun _ hrest hall hv => hleft (hv.abandoned hblogs hposts hall hrest)
  refine Run.meets_bind.mpr ((hu.writeHome hs hbase blogs shelf).imp ?_ fun f v =>
    hstuck _ (List.cons_ne_nil _ _) rfl)
  intro _ u hu
  refine Run.meets_bind.mpr ((hu.writeNotFound hs hbase).imp ?_ fun f v =>
    hstuck [s.notFoundSheet,markerSheet] (by simp) (by simp [sheets,blogPages,hshelf']))
  intro _ u hu
  refine Run.meets_bind.mpr ((hu.writeMarker hs).imp ?_ fun f v =>
    hstuck [markerSheet] (by simp) (by simp [sheets,blogPages,hshelf']))
  intro _ u hu
  have hfilled : s.Filled base blogs shelf u := by
    refine ⟨hblogs,hposts,hshelf',?_⟩
    rw [hshelf'] at hu
    simpa [sheets,blogPages] using hu
  refine Run.meets_bind.mpr ((hfilled.shorten hs).imp ?_ fun f v hv => ⟨hv.1,by simp [hv.2]⟩)
  intro _ u hu
  have hreports : ∀ v m, s.Finished base blogs shelf v → s.Finished base blogs shelf (v.report m) :=
    fun _ m hv => hv.report m
  refine (meets_summarise hreports hu blogs shelf).imp ?_ fun _ _ => False.elim
  rintro result v ⟨rfl,hv⟩
  exact ⟨blogs,hv⟩

/-- However far it gets, a build changes only what is in the output directory and the log file; and if
it succeeds, the site is finished. -/
theorem Fresh.finish (h : s.Fresh base w) (hs : s.paths.IsApart) (hbase : base.IsSound)
    (hpages : base.pages = #[]) (hslugs : s.SlugsAreSteps base) :
    s.fill.Meets w (fun shelf v => ∃ blogs, s.Finished base blogs shelf v) fun _ => s.Kept base := by
  rw [fill_eq]
  refine (h.copyPublic hs hpages).bind fun _ u hu => ?_
  exact (hu.writeAll hs hbase hslugs).imp (fun _ _ hv => hv) fun _ _ hv => hv.1

/-- Without short copies, the files of a site that is finished are its pages over the static files. -/
theorem Fresh.fill (h : s.Fresh base w) (hs : s.paths.IsApart) (hbase : base.IsSound)
    (hpages : base.pages = #[]) (hslugs : s.SlugsAreSteps base) :
    s.fill.Meets w
      (fun shelf v => s.Kept base v ∧ (s.minify = false → ∃ blogs, s.Filled base blogs shelf v))
      fun _ => s.Kept base := by
  refine (h.finish hs hbase hpages hslugs).imp ?_ fun _ _ => id
  rintro shelf v ⟨blogs,hv⟩
  exact ⟨hv.kept,fun hminify => ⟨blogs,hv.filled hminify⟩⟩

/-- A build that succeeds finishes the site of what is there once it has reported its start. -/
theorem exists_finished (hs : s.paths.IsApart) (hw : w.IsSound) (hslugs : s.SlugsAreSteps w)
    {shelf : HomePage.Shelf} {v : World} (hgo : s.build.go w = (.ok shelf,v)) :
    ∃ blogs, s.Finished w.opened blogs shelf v := by
  have hfile := not_file_of_build hs.output hw hgo
  rw [go_build] at hgo
  obtain ⟨a,b,hreset,hfill⟩ := Run.exists_of_go_bind hgo
  obtain ⟨hfresh,-⟩ := (meets_resetOutput hs.output hw.opened (not_file_opened hfile)).result a b hreset
  exact (hfresh.finish hs hw.opened rfl (hslugs.opened hs hw)).result shelf v hfill

end Site

end BlogSite
