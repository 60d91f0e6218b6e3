import BlogSite.Proofs.SitePages

/-!
Filling the output directory. Each step of a build adds its pages to those that are written. A step
that fails leaves the pages before it, and of its own pages the first ones.
-/

namespace BlogSite

/-! ### The paths of pages -/

theorem Path.isStep_page {slug : String} (h : '/' ∉ slug.toList) : IsStep (slug ++ ".html") := by
  have hlong : ∀ n : String, n.toList.length < 5 → slug ++ ".html" ≠ n := by
    rintro n hn rfl
    have hending : ".html".toList.length = 5 := by decide
    rw [String.toList_append,List.length_append] at hn
    omega
  refine ⟨hlong "" (by decide),hlong "." (by decide),hlong ".." (by decide),?_⟩
  simp [h]

theorem BlogPage.names_path {b : Blog} (hb : Path.IsStep b.slug) :
    Path.names (BlogPage.path b) = ["blogs",b.slug,"index.html"] ∧
      ∀ n ∈ ["blogs",b.slug,"index.html"], Path.IsStep n := by
  have hfixed : Path.names "blogs" = ["blogs"] ∧ Path.IsStep "blogs" ∧ Path.IsStep "index.html" := by
    decide
  have hnames : Path.names (BlogPage.path b) = Path.names "blogs" ++ [b.slug,"index.html"] :=
    Path.names_joinAll_of_isStep (by simpa [hfixed.1] using hfixed.2.1)
      (by simpa using ⟨hb,hfixed.2.2⟩)
  rw [hfixed.1] at hnames
  exact ⟨hnames,by simpa using ⟨hfixed.2.1,hb,hfixed.2.2⟩⟩

theorem PostPage.names_path {b : Blog} (hb : Path.IsStep b.slug) {p : Post} (hp : '/' ∉ p.slug.toList) :
    Path.names (PostPage.path b p) = ["blogs",b.slug,"posts",p.slug ++ ".html"] ∧
      ∀ n ∈ ["blogs",b.slug,"posts",p.slug ++ ".html"], Path.IsStep n := by
  have hfixed : Path.names "blogs" = ["blogs"] ∧ Path.IsStep "blogs" ∧ Path.IsStep "posts" := by
    decide
  have hpage := Path.isStep_page hp
  have hnames : Path.names (PostPage.path b p) =
      Path.names "blogs" ++ [b.slug,"posts",p.slug ++ ".html"] :=
    Path.names_joinAll_of_isStep (by simpa [hfixed.1] using hfixed.2.1)
      (by simpa using ⟨hb,hfixed.2.2,hpage⟩)
  rw [hfixed.1] at hnames
  exact ⟨hnames,by simpa using ⟨hfixed.2.1,hb,hfixed.2.2,hpage⟩⟩

/-- A short copy is named by its asset. -/
theorem Minify.Kind.shortName?_eq_some {k : Kind} {name short : String}
    (h : k.shortName? name = some short) :
    ∃ stem, name = stem ++ k.ending ∧ short = stem ++ k.shortEnding := by
  unfold shortName? at h
  split at h
  · exact absurd h (by simp)
  · rename_i stem hstem
    split at h
    · exact absurd h (by simp)
    · exact ⟨stem,Path.withoutEnding?_eq_some_iff.mp hstem,(Option.some.inj h).symm⟩

/-- The directories of assets. -/
theorem Minify.folder_of_mem_kinds {c : Compressors} {k : Kind} (hk : k ∈ kinds c) :
    k.folder = "css" ∨ k.folder = "js" := by
  simp only [kinds,List.mem_cons,List.not_mem_nil,or_false] at hk
  rcases hk with rfl | rfl <;> simp

theorem Minify.isStep_folder {c : Compressors} {k : Kind} (hk : k ∈ kinds c) : Path.IsStep k.folder := by
  have hfolders : Path.IsStep "css" ∧ Path.IsStep "js" := by decide
  rcases folder_of_mem_kinds hk with h | h
  · exact h ▸ hfolders.1
  · exact h ▸ hfolders.2

theorem Minify.Kind.isStep_of_shortName? {k : Kind} (hk : Path.IsStep k.folder) {name short : String}
    (hname : Path.IsStep name) (h : k.shortName? name = some short) : Path.IsStep short := by
  obtain ⟨stem,hstem,rfl⟩ := shortName?_eq_some h
  have hlong : ∀ n : String, n.toList.length < 4 → stem ++ k.shortEnding ≠ n := by
    rintro n hn rfl
    have hmin : ".min".toList.length = 4 := by decide
    simp only [shortEnding,String.toList_append,List.length_append] at hn
    omega
  have hnone : '/' ∉ stem.toList := fun hslash => hname.noSlash (by simp [hstem,hslash])
  refine ⟨hlong "" (by decide),hlong "." (by decide),hlong ".." (by decide),?_⟩
  simp [shortEnding,ending,hnone,hk.noSlash]

namespace PostPage

theorem map_post_placesFrom (newer : Option Post) (posts : List Post) :
    (placesFrom newer posts).map Place.post = posts := by
  induction posts generalizing newer with
  | nil => rfl
  | cons p ps ih => simp [placesFrom,ih]

/-- Every post has one place among the posts of its blog. -/
theorem map_post_places (posts : List Post) : (places posts).map Place.post = posts :=
  map_post_placesFrom none posts

end PostPage

namespace Site

variable {s : Site} {base w : World}

/-! ### Static files -/

theorem Fresh.entry?_statics (h : s.Fresh base w) (hs : s.paths.IsApart) (r : Location) :
    w.disk.entry? (Path.place s.paths.publicDir ++ r) =
      base.disk.entry? (Path.place s.paths.publicDir ++ r) :=
  h.entry _ (hs.statics_apart.append r)

/-- The static files, copied as they were found, are the files of the output directory. -/
theorem Fresh.stage_copied (h : s.Fresh base w) (hs : s.paths.IsApart)
    (hdir : w.disk.entry? (Path.place s.paths.publicDir) = some .directory) :
    s.Stage base (s.publicFiles base.disk)
      { w with disk := w.disk.overlay s.outputPlace (w.disk.below (Path.place s.paths.publicDir)) } := by
  have hcopy := Disk.entry?_copy_of_empty hdir h.output h.empty
  have hother : ∀ l, ¬ s.outputPlace <+: l →
      Disk.entry? (w.disk.overlay s.outputPlace (w.disk.below (Path.place s.paths.publicDir))) l =
        w.disk.entry? l :=
    fun l hl => Disk.entry?_copy_of_not_below w.disk _ _ (Or.inr hl)
  have hroot : Disk.entry? (w.disk.overlay s.outputPlace
      (w.disk.below (Path.place s.paths.publicDir))) s.outputPlace = some .directory :=
    (Disk.entry?_copy_of_not_below w.disk _ _ (Or.inl rfl)).trans h.output
  have htree := h.sound.tree.copy hdir h.output h.empty
  refine ⟨h.sound.withDisk htree ?_,hroot,?_,?_,?_,h.logFile⟩
  · rintro l ⟨f,hf,rfl⟩
    obtain ⟨bytes,he⟩ := h.sound.logged _ ⟨f,hf,rfl⟩
    exact ⟨bytes,(hother _ ((h.logFile f).mp hf).2).trans he⟩
  · intro r
    unfold publicFiles
    split
    · rename_i hr
      rw [hr,List.append_nil]
      exact Disk.bytesAt?_of_directory hroot
    · exact Disk.bytesAt?_congr ((hcopy r).trans (h.entry?_statics hs r))
  · intro l hl
    exact congrArg (Functor.map Entry.isDirectory) ((hother l hl.2).trans (h.entry l hl))
  · exact fun l hl _ => (hother l hl.2).trans (h.entry l hl)

/-- Without a directory of static files there are none. -/
theorem Fresh.publicFiles_eq (h : s.Fresh base w) (hs : s.paths.IsApart)
    (hdir : w.disk.entry? (Path.place s.paths.publicDir) ≠ some .directory) :
    s.publicFiles base.disk = fun _ => none := by
  funext r
  unfold publicFiles
  split
  · rfl
  · rename_i hr
    rw [← Disk.bytesAt?_congr (h.entry?_statics hs r),Option.eq_none_iff_forall_ne_some]
    intro bytes hbytes
    rw [Disk.bytesAt?_eq_some_iff] at hbytes
    exact hdir (h.sound.tree.directory_of_append hr hbytes)

/-- After the static files no page is written yet. -/
theorem Fresh.copyPublic (h : s.Fresh base w) (hs : s.paths.IsApart) (hpages : base.pages = #[]) :
    s.copyPublic.Meets w (fun _ => s.Written base []) fun _ => s.Kept base := by
  have hwritten : ∀ v : World, v.pages = w.pages → s.Stage base (s.publicFiles base.disk) v →
      s.Written base [] v :=
    fun v hv hstage => ⟨[],rfl,hstage,by simp [hv,h.pages,hpages]⟩
  unfold Site.copyPublic
  simp only
  rw [Run.meets_bind,Run.meets_ask]
  split
  · rename_i hdir
    rw [h.sound.tree.isDirectory_iff hs.statics] at hdir
    rw [Run.meets_bind]
    apply Run.meets_alter
    case hbad => exact fun _ _ => h.stage.kept
    intro d hd
    obtain ⟨origin,goal,horigin,hgoal,rfl⟩ := Disk.copyTree_eq_ok hd
    obtain ⟨rfl,-⟩ := Disk.exists_of_locate_direct hs.statics horigin
    obtain ⟨rfl,-⟩ := Disk.exists_of_locate_direct hs.output hgoal
    refine (Run.meets_report _ _ _).mpr (hwritten _ rfl ?_)
    exact (h.stage_copied hs hdir).report _
  · rename_i hdir
    rw [h.sound.tree.isDirectory_iff hs.statics] at hdir
    refine (Run.meets_report _ _ _).mpr (hwritten _ rfl ?_)
    rw [h.publicFiles_eq hs hdir]
    exact h.stage.report _

/-! ### Blogs and posts -/

/-- Apart from log files, what a stage has below the content directory was there at the start. -/
theorem Stage.sameBelow {files : Files} (h : s.Stage base files w) (hs : s.paths.IsApart)
    (hbase : base.IsSound) :
    Disk.SameBelow (Path.place s.paths.contentDir) w.disk base.disk := by
  exact ⟨fun r => h.kind _ (hs.content_apart.append r),
    fun r hr => h.entry _ (hs.content_apart.append r) fun hlog => hr (hbase.named.isLogAt hlog)⟩

/-- The posts of a blog, or the failure to load them, are those that were there at the start. -/
theorem Written.load {ps : List Sheet} (h : s.Written base ps w) (hs : s.paths.IsApart)
    (hbase : base.IsSound) {b : Blog} (hb : Path.IsStep b.slug) :
    (s.posts.load b.slug).Meets w
      (fun posts v => s.Written base ps v ∧ ((s.posts.load b.slug).go base).1 = .ok posts ∧
        posts = s.postsIn base b.slug)
      fun f v => s.Written base ps v ∧ ((s.posts.load b.slug).go base).1 = .error f := by
  have hquiet : (s.posts.load b.slug).Meets w (fun _ => s.Written base ps) fun _ => s.Written base ps :=
    s.posts.quiet_load b.slug _ (fun _ m hu => hu.report m) w h
  obtain ⟨pages,-,hstage,-⟩ := h
  have hload := PostFolder.load_eq_of_sameBelow (f := s.posts) hstage.sound hbase hs.content hb
    (hstage.sameBelow hs hbase)
  constructor
  case failure => exact fun f v hgo => ⟨hquiet.failure f v hgo,hload.trans (congrArg Prod.fst hgo)⟩
  intro posts v hgo
  have hposts := hload.trans (congrArg Prod.fst hgo)
  refine ⟨hquiet.result posts v hgo,hposts,?_⟩
  simp [postsIn,hposts,Except.toOption]

theorem Written.writePost {ps : List Sheet} (h : s.Written base ps w) (hs : s.paths.IsApart)
    (hbase : base.IsSound) (t : Theme) {b : Blog} (hb : Path.IsStep b.slug) {at_ : PostPage.Place}
    (hp : '/' ∉ at_.post.slug.toList) :
    (s.writePost (String.ofList (s.themeName b).display) t b at_).Meets w
      (fun _ => s.Written base (ps ++ [s.postSheet t b at_])) (s.Stuck base ps) := by
  have hend : ".html".toList <:+ (String.ofList (s.themeName b).display ++ "/post.html").toList :=
    ⟨(String.ofList (s.themeName b).display ++ "/post").toList,by simp⟩
  obtain ⟨hnames,hsteps⟩ := PostPage.names_path hb hp
  unfold Site.writePost
  refine (h.read hs hbase hend (p := s.postSheet t b at_) rfl).bind fun template v hv => ?_
  have hpage := hv.1.writePage hs hv.2 (show ∀ n ∈ Path.names (PostPage.path b at_.post), _ from
    hnames ▸ hsteps)
  exact hpage

/-- The first pages of a blog are added when writing it fails, and none if its posts cannot be loaded. -/
structure Broken (s : Site) (base : World) (ps : List Sheet) (b : Blog) (f : Failure) (w : World) :
    Prop where
  written : ∃ done, done <+: s.blogSheets b (s.postsIn base b.slug) ∧ s.Written base (ps ++ done) w ∧
    ∀ e, ((s.posts.load b.slug).go base).1 = .error e → done = []
  reason : f.blog? = none ∨ ((s.posts.load b.slug).go base).1 = .error f

theorem Written.broken {ps : List Sheet} (h : s.Written base ps w) {b : Blog} {f : Failure}
    (hf : f.blog? = none ∨ ((s.posts.load b.slug).go base).1 = .error f) : s.Broken base ps b f w :=
  ⟨⟨[],List.nil_prefix,by simpa using h,fun _ _ => rfl⟩,hf⟩

/-- A step that reads no posts leaves the pages of the blog that are done. -/
theorem Stuck.broken {ps done : List Sheet} {b : Blog} {f : Failure} (h : s.Stuck base (ps ++ done) f w)
    (hdone : done <+: s.blogSheets b (s.postsIn base b.slug)) {posts : List Post}
    (hload : ((s.posts.load b.slug).go base).1 = .ok posts) : s.Broken base ps b f w := by
  refine ⟨⟨done,hdone,h.1,fun e he => ?_⟩,Or.inl h.2⟩
  exact absurd (hload.symm.trans he) (by simp)

/-- The page of a blog and the pages of its posts are added. -/
theorem Written.writeBlog {ps : List Sheet} (h : s.Written base ps w) (hs : s.paths.IsApart)
    (hbase : base.IsSound) {b : Blog} (hb : Path.IsStep b.slug) :
    (s.writeBlog b).Meets w
      (fun posts v => s.Written base (ps ++ s.blogSheets b posts) v ∧
        ((s.posts.load b.slug).go base).1 = .ok posts ∧ posts = s.postsIn base b.slug)
      (s.Broken base ps b) := by
  have hend : ".html".toList <:+ (String.ofList (s.themeName b).display ++ "/blog-list.html").toList :=
    ⟨(String.ofList (s.themeName b).display ++ "/blog-list").toList,by simp⟩
  obtain ⟨hnames,hsteps⟩ := BlogPage.names_path hb
  unfold Site.writeBlog
  simp only
  cases htheme : Theme.ofValue? (s.themeName b) with
  | none => exact (Run.meets_throw _).mpr (h.broken (Or.inl rfl))
  | some t =>
    have hsheets : ∀ posts, s.blogSheets b posts =
        s.blogSheet t b posts :: (PostPage.places posts).map (s.postSheet t b) := by
      simp [blogSheets,htheme]
    simp only
    rw [Run.meets_bind]
    refine (Run.meets_report _ _ _).mpr (Run.meets_bind.mpr ?_)
    refine ((h.report _).load hs hbase hb).imp ?_ fun f u hu => hu.1.broken (Or.inr hu.2)
    rintro posts u ⟨hu,hload,hposts⟩
    have hbroken : ∀ {done f v}, done <+: s.blogSheets b posts → s.Stuck base (ps ++ done) f v →
        s.Broken base ps b f v := fun hdone hv => hv.broken (hposts ▸ hdone) hload
    rw [Run.meets_bind]
    refine (Run.meets_report _ _ _).mpr (Run.meets_bind.mpr ?_)
    refine ((hu.report _).read hs hbase hend (p := s.blogSheet t b posts) rfl).imp ?_ ?_
    case refine_2 => exact fun f v hv => hbroken List.nil_prefix (by simpa using hv)
    intro template v hv
    refine Run.meets_bind.mpr ((hv.1.writePage hs hv.2 (hnames ▸ hsteps)).imp ?_ ?_)
    case refine_2 => exact fun f v hv => hbroken List.nil_prefix (by simpa using hv)
    intro _ v hv
    have hslugs := (PostFolder.slugs_of_load hbase hs.content hb hload).1
    have hplaces : ∀ done at_ rest, PostPage.places posts = done ++ at_ :: rest → ∀ w,
        s.Written base (ps ++ s.blogSheet t b posts :: done.map (s.postSheet t b)) w →
        (s.writePost (String.ofList (s.themeName b).display) t b at_).Meets w
          (fun _ => s.Written base
            (ps ++ s.blogSheet t b posts :: (done ++ [at_]).map (s.postSheet t b)))
          (s.Broken base ps b) := by
      intro done at_ rest hall w hw
      have hat : at_ ∈ PostPage.places posts := by simp [hall]
      have hpost : at_.post ∈ posts := PostPage.map_post_places posts ▸ List.mem_map_of_mem hat
      refine (hw.writePost hs hbase t hb (hslugs _ hpost)).imp (fun _ v hv => by simpa using hv) ?_
      refine fun f v hv => hbroken ?_ hv
      rw [hsheets,hall,List.map_append]
      exact (List.prefix_cons_inj _).mpr (List.prefix_append _ _)
    refine Run.Meets.bind (Run.meets_forM_append hplaces hv) fun _ v hv => ?_
    exact (Run.meets_pure _).mpr ⟨hsheets posts ▸ hv,hload,hposts⟩

/-- The pages of all blogs are added, and their posts put on the shelf. If writing fails, it fails at
one of the blogs, with those before it done. -/
theorem Written.writeBlogs {ps : List Sheet} (hs : s.paths.IsApart) (hbase : base.IsSound)
    {blogs : List Blog} (hblogs : ∀ b ∈ blogs, Path.IsStep b.slug) (shelf : HomePage.Shelf)
    (h : s.Written base ps w) :
    (s.writeBlogs shelf blogs).Meets w
      (fun result v =>
        s.Written base (ps ++ s.blogPages (s.postsIn base) blogs) v ∧
        (∀ b ∈ blogs, ((s.posts.load b.slug).go base).1 = .ok (s.postsIn base b.slug)) ∧
        result = (blogs.map fun b => (b.slug,s.postsIn base b.slug)).foldl
          (fun rows p => Table.put p.1 p.2 rows) shelf)
      fun f v => ∃ before b after, blogs = before ++ b :: after ∧
        (∀ c ∈ before, ((s.posts.load c.slug).go base).1 = .ok (s.postsIn base c.slug)) ∧
        s.Broken base (ps ++ s.blogPages (s.postsIn base) before) b f v := by
  induction blogs generalizing ps shelf w with
  | nil => exact (Run.meets_pure _).mpr ⟨by simpa [blogPages] using h,by simp,rfl⟩
  | cons b bs ih =>
    unfold Site.writeBlogs
    refine Run.meets_bind.mpr ((h.writeBlog hs hbase (hblogs b (by simp))).imp ?_ ?_)
    case refine_2 => exact fun f v hv => ⟨[],b,bs,rfl,by simp,by simpa [blogPages] using hv⟩
    rintro posts v ⟨hv,hload,rfl⟩
    have hloads : ∀ {cs : List Blog},
        (∀ c ∈ cs, ((s.posts.load c.slug).go base).1 = .ok (s.postsIn base c.slug)) →
        ∀ c ∈ b :: cs, ((s.posts.load c.slug).go base).1 = .ok (s.postsIn base c.slug) :=
      fun hcs => List.forall_mem_cons.mpr ⟨hload,hcs⟩
    refine (ih (fun c hc => hblogs c (by simp [hc])) _ hv).imp ?_ ?_
    · rintro result u ⟨hu,hrest,hresult⟩
      exact ⟨by simpa [blogPages] using hu,hloads hrest,hresult⟩
    · rintro f u ⟨before,c,after,rfl,hbefore,hu⟩
      exact ⟨b :: before,c,after,rfl,hloads hbefore,by simpa [blogPages] using hu⟩

/-! ### The other pages -/

theorem Written.writeHome {ps : List Sheet} (h : s.Written base ps w) (hs : s.paths.IsApart)
    (hbase : base.IsSound) (blogs : List Blog) (shelf : HomePage.Shelf) :
    (s.writeHome blogs shelf).Meets w (fun _ => s.Written base (ps ++ [s.homeSheet blogs shelf]))
      (s.Stuck base ps) := by
  have hsteps : ∀ n ∈ Path.names HomePage.path, Path.IsStep n := by decide
  unfold Site.writeHome
  rw [Run.meets_bind]
  refine (Run.meets_report _ _ _).mpr ?_
  cases hrecent : HomePage.recentSlugs? s.today shelf with
  | none => exact (Run.meets_throw _).mpr ⟨h.report _,rfl⟩
  | some recent =>
    have hread := (h.report ⟨.build,.info,"Building home page"⟩).read hs hbase
      (show ".html".toList <:+ "home.html".toList by decide) (p := s.homeSheet blogs shelf) rfl
    refine hread.bind fun template v hv => ?_
    have hpage := hv.1.writePage hs hv.2 hsteps
    simpa only [homeSheet,hrecent,Option.getD_some] using hpage

theorem Written.writeNotFound {ps : List Sheet} (h : s.Written base ps w) (hs : s.paths.IsApart)
    (hbase : base.IsSound) :
    s.writeNotFound.Meets w (fun _ => s.Written base (ps ++ [s.notFoundSheet]))
      (s.Stuck base ps) := by
  have hsteps : ∀ n ∈ Path.names "404.html", Path.IsStep n := by decide
  unfold Site.writeNotFound
  rw [Run.meets_bind]
  refine (Run.meets_report _ _ _).mpr ?_
  have hread := (h.report ⟨.build,.info,"Building 404 page"⟩).read hs hbase
    (show ".html".toList <:+ "404.html".toList by decide) (p := s.notFoundSheet) rfl
  refine hread.bind fun template v hv => ?_
  have hpage := hv.1.writePage hs hv.2 hsteps
  exact hpage

theorem Written.writeMarker {ps : List Sheet} (h : s.Written base ps w) (hs : s.paths.IsApart) :
    (s.writePage ".nojekyll" "").Meets w (fun _ => s.Written base (ps ++ [markerSheet]))
      (s.Stuck base ps) := by
  have hsteps : ∀ n ∈ Path.names ".nojekyll", Path.IsStep n := by decide
  exact h.writePage hs (p := markerSheet) (t := "") (fun _ _ => rfl) hsteps

end Site

end BlogSite
