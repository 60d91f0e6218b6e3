import BlogSite.Proofs.IsolatedBlogs
import BlogSite.Proofs.PostInsertion
import BlogSite.Proofs.ShelvedRows
import Mathlib.Data.List.Infix

/-!
Adding a post. A site with one more post differs from the site without it in few pages: the one of the
post, those of the two posts that it comes between, the page of its blog and the home page. Everything
else that is built is the same, unless one of these pages is a template.
-/

namespace BlogSite

namespace Site

variable {s : Site} {w w' v v' : World} {b : Blog} {item : String}

/-! ### Projects with one more post -/

/-- Where a file with a post of a blog lies. -/
def postPlace (s : Site) (b : Blog) (item : String) : Location :=
  Path.place (s.posts.directory b.slug) ++ [item]

/-- The second project has one more file, with a published post of a listed blog, and the directories on
the way to it. Otherwise the two are the same, but for the bytes of log files and for what an earlier
build has left. -/
structure AddsPost (s : Site) (w w' : World) (b : Blog) (item : String) : Prop where
  step : Path.IsStep item
  listed : ∀ blogs, ((BlogList.load s.paths.blogList).go w).1 = .ok blogs → b ∈ blogs
  logs : ∀ l, w.LogAt l ↔ w'.LogAt l
  entry : ∀ l, ¬ s.outputPlace <+: l → ¬ w.LogAt l → ¬ l <+: s.postPlace b item →
    w'.disk.entry? l = w.disk.entry? l
  free : ∀ l, l <+: s.postPlace b item → ∀ bytes, w.disk.entry? l ≠ some (.file bytes)
  absent : w.disk.entry? (s.postPlace b item) = none
  published : s.posts.IsPublished w'.disk b.slug item

/-- The pages that a new post changes: the home page, the page of its blog, its own page and those of the
posts before and after it. -/
def changedPages (b : Blog) (before : List Post) (p : Post) (after : List Post) : List Location :=
  ["index.html"] :: ["blogs",b.slug,"index.html"] ::
    (before.getLast?.toList ++ p :: after.head?.toList).map fun q =>
      ["blogs",b.slug,"posts",q.slug ++ ".html"]

/-- The posts of a blog lie in the content directory. -/
theorem isDirect_posts (hs : s.paths.IsApart) {slug : String} (hslug : Path.IsStep slug) :
    Path.IsDirect (s.posts.directory slug) ∧ Path.place (s.posts.directory slug) =
      Path.place s.paths.contentDir ++ ["blogs",slug,"posts"] :=
  PostFolder.isDirect_directory (f := s.posts) hs.content hslug

theorem postPlace_eq (hs : s.paths.IsApart) (hb : Path.IsStep b.slug) (item : String) :
    s.postPlace b item = Path.place s.paths.contentDir ++ ["blogs",b.slug,"posts",item] := by
  rw [postPlace,(isDirect_posts hs hb).2,List.append_assoc]
  rfl

/-- No build writes content. -/
theorem not_output_content (hs : s.paths.IsApart) (r : Location) :
    ¬ s.outputPlace <+: Path.place s.paths.contentDir ++ r :=
  hs.content_apart.not_prefix (List.prefix_append _ r)

namespace AddsPost

variable (h : s.AddsPost w w' b item)

include h

theorem kind (hw : w.IsSound) (hw' : w'.IsSound) {l : Location} (hout : ¬ s.outputPlace <+: l)
    (hl : ¬ l <+: s.postPlace b item) : Entry.SameKind (w'.disk.entry? l) (w.disk.entry? l) := by
  by_cases hlog : w.LogAt l
  · obtain ⟨x,hx⟩ := hw.logged l hlog
    obtain ⟨y,hy⟩ := hw'.logged l ((h.logs l).mp hlog)
    rw [hx,hy]
    rfl
  · rw [h.entry l hout hlog hl]
    rfl

theorem exists_file (hs : s.paths.IsApart) (hw' : w'.IsSound) (hb : Path.IsStep b.slug) :
    ∃ bytes, w'.disk.entry? (s.postPlace b item) = some (.file bytes) := by
  obtain ⟨hdirect,-⟩ := isDirect_posts hs hb
  obtain ⟨hpath,hat⟩ := PostFolder.isDirect_pathOf hdirect h.step
  obtain ⟨-,-,-,-,⟨text,htext,-⟩,-⟩ := h.published
  obtain ⟨bytes,hbytes,-⟩ := (hw'.tree.textAt_eq_ok_iff hpath).mp htext
  rw [hat] at hbytes
  exact ⟨bytes,Disk.bytesAt?_eq_some_iff.mp hbytes⟩

/-! ### What is loaded -/

theorem load_blogs (hs : s.paths.IsApart) (hw : w.IsSound) (hw' : w'.IsSound) (hb : Path.IsStep b.slug)
    {blogs : List Blog} (hload : ((BlogList.load s.paths.blogList).go w).1 = .ok blogs) :
    ((BlogList.load s.paths.blogList).go w').1 = .ok blogs := by
  have hending : ".json".toList <:+ "blogs.json".toList := by decide
  have hlog := Disk.not_isLogAt_concat (Path.place s.paths.contentDir) hending (by decide) (by decide)
  refine BlogList.load_eq_ok_of_entry hw hw' hs.content (h.entry _ (not_output_content hs _) ?_ ?_) hload
  · exact fun hat => hlog (hw.named.isLogAt hat)
  · rw [postPlace_eq hs hb,List.prefix_append_right_inj]
    simp

/-- The posts of the blog are those that it had and, somewhere between them, the new one. -/
theorem exists_posts_eq (hs : s.paths.IsApart) (hw : w.IsSound) (hw' : w'.IsSound)
    (hb : Path.IsStep b.slug) {posts posts' : List Post}
    (hload : ((s.posts.load b.slug).go w).1 = .ok posts)
    (hload' : ((s.posts.load b.slug).go w').1 = .ok posts') :
    ∃ before p after, posts = before ++ after ∧ posts' = before ++ p :: after ∧
      item = p.slug ++ PostFolder.ending := by
  obtain ⟨hdirect,hplace⟩ := isDirect_posts hs hb
  have hout : ∀ n, ¬ s.outputPlace <+: s.postPlace b n := by
    intro n
    rw [postPlace_eq hs hb]
    exact not_output_content hs _
  have hother : ∀ {n}, n ≠ item → ¬ s.postPlace b n <+: s.postPlace b item := by
    intro n hn
    rw [postPlace_eq hs hb,postPlace_eq hs hb,List.prefix_append_right_inj]
    simpa using hn
  have hnames : ∀ {u : World} {n}, n ∈ u.disk.names (Path.place (s.posts.directory b.slug)) ↔
      u.disk.entry? (s.postPlace b n) ≠ none := fun {u n} =>
    Disk.mem_names_iff.trans Option.ne_none_iff_exists'.symm
  refine PostFolder.exists_load_insert hw hw' hdirect ?_ (fun n => ?_) (fun n slug hslug hn => ?_)
    h.published hload hload'
  · exact fun hmem => hnames.mp hmem h.absent
  · rw [hnames,hnames]
    by_cases hn : n = item
    · obtain ⟨bytes,hbytes⟩ := h.exists_file hs hw' hb
      simp [hn,hbytes]
    · simp [hn,(h.kind hw hw' (hout n) (hother hn)).none_iff]
  · exact h.entry _ (hout n) (fun hlog => PostFolder.not_isLogAt_item _ hslug (hw.named.isLogAt hlog)) (hother hn)

/-- The other blogs have the posts that they had. -/
theorem postsIn_eq (hs : s.paths.IsApart) (hw : w.IsSound) (hw' : w'.IsSound) (hb : Path.IsStep b.slug)
    {slug : String} (hslug : Path.IsStep slug) (hne : slug ≠ b.slug) :
    s.postsIn w' slug = s.postsIn w slug := by
  obtain ⟨hdirect,hplace⟩ := isDirect_posts hs hslug
  have hout : ∀ r, ¬ s.outputPlace <+: Path.place (s.posts.directory slug) ++ r := by
    intro r
    rw [hplace,List.append_assoc]
    exact not_output_content hs _
  have hother : ∀ r, ¬ Path.place (s.posts.directory slug) ++ r <+: s.postPlace b item := by
    intro r
    rw [hplace,postPlace_eq hs hb,List.append_assoc,List.prefix_append_right_inj]
    simp [hne]
  have hsame : Disk.SameAt (Path.place (s.posts.directory slug)) (Path.place (s.posts.directory slug))
      w.disk w'.disk := by
    refine ⟨fun r => (h.kind hw hw' (hout r) (hother r)).symm,fun r hr => ?_⟩
    exact (h.entry _ (hout r) (fun hlog => hr (hw.named.isLogAt hlog)) (hother r)).symm
  rw [postsIn,postsIn,PostFolder.load_eq_of_sameAt rfl hw hw' hdirect hdirect hsame]

/-! ### What pages are made of -/

/-- A template is the same unless it is a page that may differ. -/
theorem looksAlike (hs : s.paths.IsApart) (hw : w.IsSound) (hw' : w'.IsSound) (hb : Path.IsStep b.slug)
    {Z : Location → Prop} {relative : String} (hend : ".html".toList <:+ relative.toList)
    (hZ : ∀ r, Path.place (s.templates.pathOf relative) = s.outputPlace ++ r → ¬ Z r) :
    s.LooksAlike s w.opened.disk w'.opened.disk Z (Path.place (s.templates.pathOf relative))
      (Path.place (s.templates.pathOf relative)) := by
  by_cases hout : s.outputPlace <+: Path.place (s.templates.pathOf relative)
  · obtain ⟨r,hr⟩ := hout
    exact .inside r (hZ r hr.symm) hr.symm hr.symm
  refine .outside hout hout ?_
  rw [bytesAt?_template_opened hw hend,bytesAt?_template_opened hw' hend]
  by_cases hl : Path.place (s.templates.pathOf relative) <+: s.postPlace b item
  · -- On the way to the new file there are only directories.
    have hnone : w.disk.bytesAt? (Path.place (s.templates.pathOf relative)) = none := by
      rw [Option.eq_none_iff_forall_ne_some]
      exact fun bytes hbytes => h.free _ hl bytes (Disk.bytesAt?_eq_some_iff.mp hbytes)
    obtain ⟨k,n,hplace,hn⟩ := exists_place_template (s := s) hend
    obtain ⟨t,ht⟩ := hl
    have hne : t ≠ [] := by
      rintro rfl
      rw [hplace,postPlace,List.append_nil] at ht
      obtain ⟨-,heq⟩ := List.append_inj' ht rfl
      obtain rfl : n = item := by simpa using heq
      obtain ⟨slug,-,-,hname,-⟩ := h.published
      obtain ⟨t,ht⟩ := hn
      have hlast := congrArg List.getLast? (ht.trans (congrArg String.toList hname))
      simp at hlast
    obtain ⟨bytes,hbytes⟩ := h.exists_file hs hw' hb
    rw [← ht] at hbytes
    rw [hnone,Disk.bytesAt?_of_directory (hw'.tree.directory_of_append hne hbytes)]
  · exact Disk.bytesAt?_congr (h.entry _ hout (not_logAt_template hw hend) hl).symm

theorem publicFiles_eq (hs : s.paths.IsApart) (hb : Path.IsStep b.slug)
    (hcontent : Location.Apart (Path.place s.paths.contentDir) (Path.place s.paths.publicDir))
    {r : Location} (hr : ¬ w.LogAt (Path.place s.paths.publicDir ++ r)) :
    s.publicFiles w'.disk r = s.publicFiles w.disk r := by
  unfold publicFiles
  split
  · rfl
  refine Disk.bytesAt?_congr (h.entry _ (hs.statics_apart.not_prefix (List.prefix_append _ r)) hr ?_)
  rw [postPlace_eq hs hb]
  exact fun hup => hcontent.not_prefix (List.prefix_append _ _) ((List.prefix_append _ r).trans hup)

end AddsPost

/-! ### Sheets -/

section Sheets

variable {found found' : Disk} {Z : Location → Prop} {before after : List Post} {p : Post}

/-- The pages of a blog with one more post match off the pages that it changes. -/
theorem matched_blogSheets_insert {c : Blog} (hc : Path.IsStep c.slug)
    (hposts : ∀ q ∈ before ++ p :: after, '/' ∉ q.slug.toList)
    (hZ : ∀ r ∈ changedPages c before p after, Z r)
    (hlooks : ∀ file ∈ themeFiles,
      s.LooksAlike s found found' Z (s.templatePlace c file) (s.templatePlace c file)) :
    s.Matched s found found' Z (s.blogSheets c (before ++ after))
      (s.blogSheets c (before ++ p :: after)) := by
  have hindex : Z (Path.names (BlogPage.path c)) := by
    rw [(BlogPage.names_path hc).1]
    exact hZ _ (by simp [changedPages])
  refine .left hindex (.right hindex (.placesFrom (fun at_ => counterparts_postSheet hlooks _ at_) ?_ none))
  intro at_ hat
  have hmem : at_.post ∈ before ++ p :: after := by
    simp only [List.mem_append,List.mem_cons,Option.mem_toList] at hat ⊢
    rcases hat with hlast | rfl | hhead
    · exact Or.inl (List.mem_of_getLast? hlast)
    · exact Or.inr (Or.inl rfl)
    · exact Or.inr (Or.inr (List.mem_of_head? hhead))
  have hpath : Path.names (PostPage.path c at_.post) = _ := (PostPage.names_path hc (hposts _ hmem)).1
  rw [show ∀ t, (s.postSheet t c at_).path = PostPage.path c at_.post from fun _ => rfl,hpath]
  refine hZ _ (List.mem_cons_of_mem _ (List.mem_cons_of_mem _ ?_))
  exact List.mem_map_of_mem hat

/-- So do all pages of the site. -/
theorem matched_sheets_insert {blogs : List Blog} (hblogs : ∀ c ∈ blogs, Path.IsStep c.slug)
    {posts posts' : String → List Post}
    (hother : ∀ c ∈ blogs, c.slug ≠ b.slug → posts' c.slug = posts c.slug)
    (hbefore : posts b.slug = before ++ after) (hafter : posts' b.slug = before ++ p :: after)
    (hposts : ∀ q ∈ posts' b.slug, '/' ∉ q.slug.toList) (hZ : ∀ r ∈ changedPages b before p after, Z r)
    (hlooks : ∀ c ∈ blogs, ∀ file ∈ themeFiles,
      s.LooksAlike s found found' Z (s.templatePlace c file) (s.templatePlace c file))
    (hlost : s.LooksAlike s found found' Z (Path.place (s.templates.pathOf "404.html"))
      (Path.place (s.templates.pathOf "404.html"))) :
    s.Matched s found found' Z (s.sheets blogs posts) (s.sheets blogs posts') := by
  refine .append (.flatMap fun c hc => ?_) ?_
  · by_cases hslug : c.slug = b.slug
    · have hchanged : changedPages c before p after = changedPages b before p after := by
        rw [changedPages,changedPages,hslug]
      rw [hslug,hbefore,hafter]
      exact matched_blogSheets_insert (hblogs c hc) (hafter ▸ hposts) (hchanged ▸ hZ) (hlooks c hc)
    · rw [hother c hc hslug]
      exact .blogSheets rfl (hlooks c hc) _
  · have hhome : Z (Path.names HomePage.path) := by
      have hnames : Path.names HomePage.path = ["index.html"] := by decide
      rw [hnames]
      exact hZ _ List.mem_cons_self
    refine .left hhome (.right hhome (.both ⟨rfl,rfl,Or.inr ⟨_,_,rfl,rfl,hlost⟩⟩ ?_))
    exact .both ⟨rfl,rfl,Or.inl ⟨rfl,rfl⟩⟩ .nil

/-- The posts of a blog are found on the shelf under its slug. -/
theorem lookup_shelfOf (posts : String → List Post) (blogs : List Blog) (slug : String) :
    (shelfOf posts blogs).lookup slug = if slug ∈ blogs.map Blog.slug then some (posts slug) else none := by
  rw [shelfOf,Table.lookup_ofPairs,← List.map_reverse]
  have hlookup : ∀ bs : List Blog, (bs.map fun c => (c.slug,posts c.slug)).lookup slug =
      if slug ∈ bs.map Blog.slug then some (posts slug) else none := by
    intro bs
    induction bs with
    | nil => rfl
    | cons c bs ih =>
      rw [List.map_cons,Table.lookup_cons_eq,ih]
      by_cases hc : slug = c.slug
      · simp [hc]
      · simp [hc]
  rw [hlookup]
  simp

end Sheets

/-- No copy of a log file is looked up as a template. -/
theorem not_logAt_template_copy (hw : w.IsSound) {relative : String}
    (hend : ".html".toList <:+ relative.toList) {r : Location}
    (hplace : Path.place (s.templates.pathOf relative) = s.outputPlace ++ r) (hr : r ≠ []) :
    ¬ w.LogAt (Path.place s.paths.publicDir ++ r) := by
  obtain ⟨k,n,hk,hn⟩ := exists_place_template (s := s) hend
  obtain ⟨t,m,rfl⟩ := (List.eq_nil_or_concat' r).resolve_left hr
  rw [hplace,← List.append_assoc] at hk
  obtain ⟨-,heq⟩ := List.append_inj' hk rfl
  obtain rfl : m = n := by simpa using heq
  rw [← List.append_assoc]
  exact fun hat => Disk.not_isLogAt_concat _ hn (by decide) (by decide) (hw.named.isLogAt hat)

/-- No asset that has a short copy is a log file. -/
theorem not_isLogAt_asset {c : Minify.Compressors} {k : Minify.Kind} (hk : k ∈ Minify.kinds c)
    {name short : String} (hshort : k.shortName? name = some short) (l : Location) :
    ¬ Disk.IsLogAt (l ++ k.asset name) := by
  obtain ⟨stem,rfl,-⟩ := Minify.Kind.shortName?_eq_some hshort
  have hfixed : ∀ folder ∈ ["css","js"], ("." ++ folder).toList ≠ [] ∧
      ("." ++ folder).toList.getLast? ≠ some 'g' := by decide
  have hending : k.ending.toList ≠ [] ∧ k.ending.toList.getLast? ≠ some 'g' :=
    hfixed k.folder (by simpa using Minify.folder_of_mem_kinds hk)
  rw [Minify.Kind.asset,show ["assets",k.folder,stem ++ k.ending] =
    ["assets",k.folder] ++ [stem ++ k.ending] from rfl,← List.append_assoc]
  exact Disk.not_isLogAt_concat _ (e := k.ending.toList) (by simp) hending.1 hending.2

/-- Where the files of a site may differ that has one more post: the pages that the post changes and copies
of log files. -/
def MayDiffer (s : Site) (w : World) (b : Blog) (before : List Post) (p : Post) (after : List Post)
    (r : Location) : Prop :=
  r ∈ changedPages b before p after ∨ r ≠ [] ∧ w.LogAt (Path.place s.paths.publicDir ++ r)

/-- The pages of both sites over the static files agree there, where no template is a page that may
differ. -/
theorem AddsPost.agreeOff_pages (h : s.AddsPost w w' b item) (hs : s.paths.IsApart) (hw : w.IsSound)
    (hw' : w'.IsSound)
    (hcontent : Location.Apart (Path.place s.paths.contentDir) (Path.place s.paths.publicDir))
    {blogs : List Blog} (hsteps : ∀ c ∈ blogs, Path.IsStep c.slug) (hb : Path.IsStep b.slug)
    {before after : List Post} {p : Post}
    (hother : ∀ c ∈ blogs, c.slug ≠ b.slug → s.postsIn w' c.slug = s.postsIn w c.slug)
    (hbefore : s.postsIn w b.slug = before ++ after) (hafter : s.postsIn w' b.slug = before ++ p :: after)
    (htemplates : ∀ c ∈ blogs, ∀ file ∈ themeFiles, ∀ r ∈ changedPages b before p after,
      s.templatePlace c file ≠ s.outputPlace ++ r) {pages pages' : Pages}
    (hpages : s.pagesOf? w.opened.disk [] (s.sheets blogs (s.postsIn w)) = some pages)
    (hpages' : s.pagesOf? w'.opened.disk [] (s.sheets blogs (s.postsIn w')) = some pages') :
    (s.finished (s.filesWith w.opened.disk pages)).AgreeOff (s.MayDiffer w b before p after)
      (s.finished (s.filesWith w'.opened.disk pages')) := by
  have hlooks : ∀ c ∈ blogs, ∀ file ∈ themeFiles,
      s.LooksAlike s w.opened.disk w'.opened.disk (s.MayDiffer w b before p after)
        (s.templatePlace c file) (s.templatePlace c file) := by
    intro c hc file hfile
    refine h.looksAlike hs hw hw' hb (suffix_themeFile hfile _) ?_
    rintro k hk (hchanged | ⟨hne,hat⟩)
    · exact htemplates c hc file hfile k hchanged hk
    · exact not_logAt_template_copy hw (suffix_themeFile hfile _) hk hne hat
  have hlost : s.LooksAlike s w.opened.disk w'.opened.disk (s.MayDiffer w b before p after)
      (Path.place (s.templates.pathOf "404.html")) (Path.place (s.templates.pathOf "404.html")) := by
    refine h.looksAlike hs hw hw' hb (by decide) fun k hk => ?_
    rw [place_template hs (by decide)] at hk
    exact absurd ⟨k,hk.symm⟩ (hs.templates_apart.not_prefix (List.prefix_append _ _))
  have hstart : (s.filesWith w.opened.disk []).AgreeOff (s.MayDiffer w b before p after)
      (s.filesWith w'.opened.disk []) := by
    intro k hk
    cases k with
    | nil => rfl
    | cons n k =>
      have hlog : ¬ w.LogAt (Path.place s.paths.publicDir ++ n :: k) := fun hat =>
        hk (Or.inr ⟨List.cons_ne_nil _ _,hat⟩)
      simp only [filesWith,List.lookup_nil,Option.none_or]
      rw [publicFiles_opened hlog,publicFiles_opened fun hat => hlog ((h.logs _).mpr hat),
        h.publicFiles_eq hs hb hcontent hlog]
  have hmatched := matched_sheets_insert hsteps hother hbefore hafter
    (noSlash_postsIn hs hw' hb) (fun k hk => Or.inl hk) hlooks hlost
  refine (hmatched.agreeOff hstart hpages hpages').finished ?_
  rintro k hk name short hshort (hchanged | ⟨-,hat⟩)
  · simp [changedPages,Minify.Kind.asset] at hchanged
  · exact not_isLogAt_asset hk hshort _ (hw.named.isLogAt hat)

/-! ### Posts that are put there -/

/-- The sample project without its post. -/
def emptyProject : World :=
  { sampleProject with disk := sampleProject.disk.prune ["content","blogs","a","posts","p.md"] }

/-- The project with a post again. -/
def refilledProject : World :=
  { emptyProject with
    disk := emptyProject.disk.put ["content","blogs","a","posts","p.md"]
      (.file (PostFolder.samplePage "2024-03-01" "")) }

theorem isSound_emptyProject : emptyProject.IsSound :=
  ⟨isSound_sampleProject.tree.prune _,isSound_sampleProject.named,isSound_sampleProject.direct,
    by simp [World.LogAt,emptyProject,sampleProject]⟩

theorem isSound_refilledProject : refilledProject.IsSound :=
  ⟨Disk.isTree_of_entries (by decide),isSound_emptyProject.named,isSound_emptyProject.direct,
    by simp [World.LogAt,refilledProject,emptyProject,sampleProject]⟩

theorem listed_emptyProject (blogs : List Blog)
    (h : ((BlogList.load sample.paths.blogList).go emptyProject).1 = .ok blogs) :
    blogs = [plainBlog "a" ""] :=
  listed_of_arePlain [("a","")] (by decide +kernel) blogs h

theorem slugsAreSteps_empty : sample.SlugsAreSteps emptyProject := by
  intro blogs hblogs b hb
  have hstep : Path.IsStep "a" := by decide
  rw [listed_emptyProject blogs hblogs,List.mem_singleton] at hb
  exact hb ▸ hstep

theorem apart_sample :
    Location.Apart (Path.place sample.paths.contentDir) (Path.place sample.paths.publicDir) := by
  have hplaces : Path.place sample.paths.contentDir = ["content"] ∧
      Path.place sample.paths.publicDir = ["public"] := by decide +kernel
  rw [hplaces.1,hplaces.2]
  exact ⟨by decide,by decide⟩

/-- A file that is put where nothing is adds a post, if it holds one. -/
theorem addsPost_put {w : World} {item : String} {bytes : ByteArray} (hstep : Path.IsStep item)
    (hlisted : ∀ blogs, ((BlogList.load s.paths.blogList).go w).1 = .ok blogs → b ∈ blogs)
    (hfree : ∀ l ∈ (s.postPlace b item).inits, w.disk.entry? l = none ∨ w.disk.entry? l = some .directory)
    (habsent : w.disk.entry? (s.postPlace b item) = none)
    (hpost : (PostFolder.post? (s.posts.reading (w.disk.put (s.postPlace b item) (.file bytes)) b.slug)
      item).isSome) :
    s.AddsPost w { w with disk := w.disk.put (s.postPlace b item) (.file bytes) } b item where
  step := hstep
  listed := hlisted
  logs := fun _ => Iff.rfl
  entry := by
    intro l _ _ hl
    have hne : l ≠ s.postPlace b item := by
      rintro rfl
      exact hl List.prefix_rfl
    exact (Disk.entry?_put (by simp [postPlace]) _ l).trans (if_neg hne)
  free := by
    intro l hl bytes
    rcases hfree l ((List.mem_inits _ _).mpr hl) with hnone | hdir
    · simp [hnone]
    · simp [hdir]
  absent := habsent
  published := by
    obtain ⟨p,hp⟩ := Option.isSome_iff_exists.mp hpost
    exact (PostFolder.publishes_of_post? hp).isPublished

theorem addsPost_sample : sample.AddsPost emptyProject refilledProject (plainBlog "a" "") "p.md" := by
  have hplace : sample.postPlace (plainBlog "a" "") "p.md" = ["content","blogs","a","posts","p.md"] := by
    decide +kernel
  unfold refilledProject
  rw [← hplace]
  refine addsPost_put (by decide) (fun blogs h => by simp [listed_emptyProject blogs h]) ?_ ?_ ?_
  · rw [hplace]
    decide
  · rw [hplace]
    decide
  · rw [hplace]
    decide +kernel

theorem addsPost_lending :
    sample.AddsPost lendingProject lentProject (plainBlog "a" "") "blog-list.md" := by
  have hplace : sample.postPlace (plainBlog "a" "") "blog-list.md" =
      ["content","blogs","a","posts","blog-list.md"] := by decide +kernel
  unfold lentProject
  rw [← hplace]
  have hlisted : ∀ blogs, ((BlogList.load sample.paths.blogList).go lendingProject).1 = .ok blogs →
      plainBlog "a" "" ∈ blogs := fun blogs h => by simp [listed_lendingProject blogs h,lendingBlogs]
  refine addsPost_put (by decide) hlisted ?_ ?_ ?_
  · rw [hplace]
    decide
  · rw [hplace]
    decide
  · rw [hplace]
    decide +kernel

/-! ### Sites with one more post -/

/-- With one more published post, the blog has its posts in their order and the new one somewhere between
them, and the other blogs have the posts that they had. Where none of the pages that this changes is a
template of a blog, all other files of the site are the same, but for copies of log files. -/
theorem build_adds (hs : s.paths.IsApart) (hw : w.IsSound) (hw' : w'.IsSound)
    (hcontent : Location.Apart (Path.place s.paths.contentDir) (Path.place s.paths.publicDir))
    (hslugs : s.SlugsAreSteps w) (h : s.AddsPost w w' b item) {shelf shelf' : HomePage.Shelf}
    (hgo : s.build.go w = (.ok shelf,v)) (hgo' : s.build.go w' = (.ok shelf',v')) :
    ∃ before p after, shelf.lookup b.slug = some (before ++ after) ∧
      shelf'.lookup b.slug = some (before ++ p :: after) ∧ item = p.slug ++ ".md" ∧
      (∀ slug, slug ≠ b.slug → shelf'.lookup slug = shelf.lookup slug) ∧
      ((∀ blogs, ((BlogList.load s.paths.blogList).go w).1 = .ok blogs → ∀ c ∈ blogs,
          ∀ file ∈ themeFiles, ∀ r ∈ changedPages b before p after,
            s.templatePlace c file ≠ s.outputPlace ++ r) →
        ∀ r, r ∉ changedPages b before p after → ¬ w.LogAt (Path.place s.paths.publicDir ++ r) →
          v'.disk.bytesAt? (s.outputPlace ++ r) = v.disk.bytesAt? (s.outputPlace ++ r)) := by
  obtain ⟨blogs,hlisted,hloaded,hshelf,pages,hpages,hfiles⟩ := exists_built hs hw hslugs hgo
  have hsteps := hslugs blogs hlisted
  have hmem := h.listed blogs hlisted
  have hb := hsteps b hmem
  have hlisted' := h.load_blogs hs hw hw' hb hlisted
  have hslugs' : s.SlugsAreSteps w' := by
    intro found hfound
    obtain rfl := Except.ok.inj (hlisted'.symm.trans hfound)
    exact hsteps
  obtain ⟨found,hfound,hloaded',hshelf',pages',hpages',hfiles'⟩ := exists_built hs hw' hslugs' hgo'
  obtain rfl := Except.ok.inj (hlisted'.symm.trans hfound)
  obtain ⟨before,p,after,hbefore,hafter,hname⟩ :=
    h.exists_posts_eq hs hw hw' hb (hloaded b hmem) (hloaded' b hmem)
  have hother : ∀ c ∈ blogs, c.slug ≠ b.slug → s.postsIn w' c.slug = s.postsIn w c.slug := fun c hc hne =>
    h.postsIn_eq hs hw hw' hb (hsteps c hc) hne
  have hslug : b.slug ∈ blogs.map Blog.slug := List.mem_map_of_mem hmem
  refine ⟨before,p,after,?_,?_,hname,fun slug hne => ?_,fun htemplates r hr hlog => ?_⟩
  · rw [hshelf,lookup_shelfOf,if_pos hslug,hbefore]
  · rw [hshelf',lookup_shelfOf,if_pos hslug,hafter]
  · rw [hshelf,hshelf',lookup_shelfOf,lookup_shelfOf]
    split
    · rename_i hlisted
      obtain ⟨c,hc,rfl⟩ := List.mem_map.mp hlisted
      rw [hother c hc hne]
    · rfl
  · have hagree := h.agreeOff_pages hs hw hw' hcontent hsteps hb hother hbefore hafter
      (htemplates blogs hlisted) hpages hpages'
    rw [hfiles,hfiles',hagree r]
    rintro (hchanged | ⟨-,hat⟩)
    · exact hr hchanged
    · exact hlog hat

theorem build_adds_sample :
    (sample.paths.IsApart ∧ emptyProject.IsSound ∧ refilledProject.IsSound ∧
      Location.Apart (Path.place sample.paths.contentDir) (Path.place sample.paths.publicDir) ∧
      sample.SlugsAreSteps emptyProject ∧
      sample.AddsPost emptyProject refilledProject (plainBlog "a" "") "p.md") ∧
    ∃ shelf v shelf' v', sample.build.go emptyProject = (.ok shelf,v) ∧
      sample.build.go refilledProject = (.ok shelf',v') ∧
      ∃ before p after, shelf.lookup "a" = some (before ++ after) ∧
        shelf'.lookup "a" = some (before ++ p :: after) ∧ "p.md" = p.slug ++ ".md" ∧
        (∀ slug, slug ≠ "a" → shelf'.lookup slug = shelf.lookup slug) ∧
        ∀ r, r ∉ changedPages (plainBlog "a" "") before p after →
          v'.disk.bytesAt? (sample.outputPlace ++ r) = v.disk.bytesAt? (sample.outputPlace ++ r) := by
  obtain ⟨shelf,v,hgo⟩ : ∃ shelf v, sample.build.go emptyProject = (.ok shelf,v) :=
    Run.exists_go_of_isOk (by decide +kernel)
  obtain ⟨shelf',v',hgo'⟩ : ∃ shelf v, sample.build.go refilledProject = (.ok shelf,v) :=
    Run.exists_go_of_isOk (by decide +kernel)
  obtain ⟨before,p,after,hbefore,hafter,hname,hother,hpages⟩ := build_adds isApart_sample
    isSound_emptyProject isSound_refilledProject apart_sample slugsAreSteps_empty addsPost_sample hgo hgo'
  refine ⟨⟨isApart_sample,isSound_emptyProject,isSound_refilledProject,apart_sample,slugsAreSteps_empty,
    addsPost_sample⟩,shelf,v,shelf',v',hgo,hgo',before,p,after,hbefore,hafter,hname,hother,fun r hr => ?_⟩
  refine hpages (fun blogs hblogs c hc file hfile k _ hk => ?_) r hr (by
    simp [World.LogAt,emptyProject,sampleProject])
  have hplaces : ∀ file ∈ themeFiles, ¬ ["out"] <+: sample.templatePlace (plainBlog "a" "") file := by
    decide +kernel
  rw [listed_emptyProject blogs hblogs,List.mem_singleton] at hc
  rw [hc,outputPlace_sample] at hk
  exact hplaces file hfile ⟨k,hk.symm⟩

/-- A new post changes one page more where its page is a template. -/
theorem build_adds_lent :
    (sample.paths.IsApart ∧ lendingProject.IsSound ∧ lentProject.IsSound ∧
      Location.Apart (Path.place sample.paths.contentDir) (Path.place sample.paths.publicDir) ∧
      (∀ blogs, ((BlogList.load sample.paths.blogList).go lendingProject).1 = .ok blogs →
        blogs.map Blog.slug = ["a","b"]) ∧
      sample.AddsPost lendingProject lentProject (plainBlog "a" "") "blog-list.md") ∧
    (sample.build.go lendingProject).1.isOk = true ∧ (sample.build.go lentProject).1.isOk = true ∧
    (∀ before p after, ["blogs","b","index.html"] ∉ changedPages (plainBlog "a" "") before p after) ∧
    (sample.build.go lentProject).2.disk.bytesAt? (sample.outputPlace ++ ["blogs","b","index.html"]) ≠
      (sample.build.go lendingProject).2.disk.bytesAt?
        (sample.outputPlace ++ ["blogs","b","index.html"]) := by
  refine ⟨⟨isApart_sample,isSound_lendingProject,isSound_lentProject,apart_sample,fun blogs hblogs => ?_,
    addsPost_lending⟩,lending_sample.2.1,lent_sample.1,by simp [changedPages,plainBlog],?_⟩
  · rw [listed_lendingProject blogs hblogs]
    rfl
  · rw [bytesAt?_lending,lent_sample.2]
    decide +kernel

end Site

end BlogSite
