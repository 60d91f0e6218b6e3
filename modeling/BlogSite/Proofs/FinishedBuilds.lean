import BlogSite.Proofs.FailedBuilds

/-!
What a build leaves when it succeeds, with short copies or without, told by what was there before it
started: its pages are made of the blogs and posts that are listed and of the templates then, over the
static files; only a log file among these has got a line more when it is copied.
-/

namespace BlogSite

namespace Site

variable {s : Site} {w v : World} {b : Blog}

/-! ### Before and after the start -/

/-- The place of a template ends as its name does. -/
theorem exists_place_template {relative : String} (hend : ".html".toList <:+ relative.toList) :
    ∃ k n, Path.place (s.templates.pathOf relative) = k ++ [n] ∧ ".html".toList <:+ n.toList := by
  have hending : ".html".toList <:+ (s.templates.pathOf relative).toList :=
    Path.suffix_normalise (hend.trans (Path.suffix_join _ _)) (by decide) (by decide)
  obtain ⟨k,n,hnames,hn,hproper⟩ := Path.exists_names_eq hending (by decide) (by decide)
  exact ⟨_,n,by rw [Path.place,hnames,Path.walked_concat true k hproper],hn⟩

/-- A template that is named by a single name lies in the directory of the templates. -/
theorem place_template (hs : s.paths.IsApart) {name : String} (hname : Path.IsStep name) :
    Path.place (s.templates.pathOf name) = Path.place s.paths.templatesDir ++ [name] := by
  obtain ⟨hdirect,hplace⟩ := hs.templates.join_step hname
  exact (Path.isDirect_normalise hdirect.absolute).2.trans hplace

/-- No log file lies where a template is looked up. -/
theorem not_logAt_template (hw : w.IsSound) {relative : String}
    (hend : ".html".toList <:+ relative.toList) :
    ¬ w.LogAt (Path.place (s.templates.pathOf relative)) := by
  obtain ⟨k,n,hplace,hn⟩ := exists_place_template (s := s) hend
  rw [hplace]
  exact fun hlog => Disk.not_isLogAt_concat k hn (by decide) (by decide) (hw.named.isLogAt hlog)

/-- The start of a build leaves templates as they are. -/
theorem bytesAt?_template_opened (hw : w.IsSound) {relative : String}
    (hend : ".html".toList <:+ relative.toList) :
    w.opened.disk.bytesAt? (Path.place (s.templates.pathOf relative)) =
      w.disk.bytesAt? (Path.place (s.templates.pathOf relative)) :=
  Disk.bytesAt?_congr (World.entry?_report { w with pages := #[] } _
    (not_logAt_template (hw.withPages #[]) hend))

/-- Static files that are no log files are copied as they were found. -/
theorem publicFiles_opened {r : Location} (hr : ¬ w.LogAt (Path.place s.paths.publicDir ++ r)) :
    s.publicFiles w.opened.disk r = s.publicFiles w.disk r := by
  unfold publicFiles
  split
  · rfl
  · exact Disk.bytesAt?_congr (World.entry?_report { w with pages := #[] } _ hr)

theorem postsIn_opened (hs : s.paths.IsApart) (hw : w.IsSound) (hb : Path.IsStep b.slug) :
    s.postsIn w.opened b.slug = s.postsIn w b.slug := by
  rw [postsIn,load_opened hs hw hb,postsIn]

/-- The pages of a blog are in its directory. -/
theorem prefix_of_mem_blogSheets (hb : Path.IsStep b.slug) {posts : List Post}
    (hposts : ∀ p ∈ posts, '/' ∉ p.slug.toList) {p : Sheet} (hp : p ∈ s.blogSheets b posts) :
    ["blogs",b.slug] <+: Path.names p.path := by
  rcases List.mem_cons.mp hp with rfl | hp
  · exact ⟨["index.html"],(BlogPage.names_path hb).1.symm⟩
  · obtain ⟨at_,hat,rfl⟩ := List.mem_map.mp hp
    have hpost : at_.post ∈ posts := PostPage.map_post_places posts ▸ List.mem_map_of_mem hat
    exact ⟨["posts",at_.post.slug ++ ".html"],(PostPage.names_path hb (hposts _ hpost)).1.symm⟩

theorem noSlash_postsIn (hs : s.paths.IsApart) (hw : w.IsSound) (hb : Path.IsStep b.slug) :
    ∀ p ∈ s.postsIn w b.slug, '/' ∉ p.slug.toList :=
  (slugs_postsIn hs hw hb).1

/-! ### Pages that stay -/

section Pages

variable {found : Disk} {before pages : Pages}

/-- Where no page is written, none is added. -/
theorem lookup_pagesOf? {ps : List Sheet} (h : s.pagesOf? found before ps = some pages) {r : Location}
    (hr : ∀ p ∈ ps, Path.names p.path ≠ r) : pages.lookup r = before.lookup r := by
  induction ps generalizing before with
  | nil => rw [Option.some.inj h]
  | cons p ps ih =>
    obtain ⟨hp,hps⟩ := List.forall_mem_cons.mp hr
    obtain ⟨bytes,-,h⟩ := Option.bind_eq_some_iff.mp h
    have hne : (r == Path.names p.path) = false := by simpa using Ne.symm hp
    rw [ih h hps,List.lookup_cons,hne]

/-- A page that no later one replaces has the bytes that were made when it was written. -/
theorem exists_lookup_pagesOf? {front back : List Sheet} {p : Sheet}
    (h : s.pagesOf? found before (front ++ p :: back) = some pages)
    (hback : ∀ q ∈ back, Path.names q.path ≠ Path.names p.path) :
    ∃ mid bytes, s.pagesOf? found before front = some mid ∧ p.bytes? (s.lookIn found mid) = some bytes ∧
      pages.lookup (Path.names p.path) = some bytes := by
  rw [pagesOf?_append] at h
  obtain ⟨mid,hmid,h⟩ := Option.bind_eq_some_iff.mp h
  obtain ⟨bytes,hbytes,h⟩ := Option.bind_eq_some_iff.mp h
  refine ⟨mid,bytes,hmid,hbytes,?_⟩
  rw [lookup_pagesOf? h hback]
  simp

end Pages

/-! ### Builds that succeed -/

/-- The site that a build has left. -/
structure Built (s : Site) (w : World) (blogs : List Blog) (shelf : HomePage.Shelf) (v : World) : Prop where
  listed : ((BlogList.load s.paths.blogList).go w).1 = .ok blogs
  loaded : ∀ b ∈ blogs, ((s.posts.load b.slug).go w).1 = .ok (s.postsIn w b.slug)
  shelved : shelf = shelfOf (s.postsIn w) blogs
  files : ∃ pages, s.pagesOf? w.opened.disk [] (s.sheets blogs (s.postsIn w)) = some pages ∧
    ∀ r, v.disk.bytesAt? (s.outputPlace ++ r) = s.finished (s.filesWith w.opened.disk pages) r

theorem exists_built (hs : s.paths.IsApart) (hw : w.IsSound) (hslugs : s.SlugsAreSteps w)
    {shelf : HomePage.Shelf} (hgo : s.build.go w = (.ok shelf,v)) : ∃ blogs, s.Built w blogs shelf v := by
  obtain ⟨blogs,hlisted,hloaded,hshelved,pages,hpages,hstage,-⟩ := exists_finished hs hw hslugs hgo
  have hblogs := BlogList.load_eq_ok_of_sameBelow hw.opened hw hs.content (hw.sameBelow_opened _) hlisted
  have hposts : ∀ b ∈ blogs, s.postsIn w.opened b.slug = s.postsIn w b.slug := fun b hb =>
    postsIn_opened hs hw (hslugs blogs hblogs b hb)
  rw [sheets_congr hposts] at hpages
  refine ⟨blogs,hblogs,fun b hb => ?_,?_,pages,hpages,hstage.files⟩
  · rw [← load_opened hs hw (hslugs blogs hblogs b hb),← hposts b hb]
    exact hloaded b hb
  · rw [hshelved,shelfOf,shelfOf,List.map_congr_left fun b hb => by rw [hposts b hb]]

end Site

end BlogSite
