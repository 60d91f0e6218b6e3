import BlogSite.Proofs.FinishedBuilds
import BlogSite.Proofs.PageMatching
import BlogSite.Proofs.RepeatedBuilds

/-!
Blogs do not touch each other. What a build leaves in the directory of a blog depends on the entry of the
blog in the list, on its posts, on the two templates that its theme names and on the static files for this
directory: not on the other blogs, their order, their posts and their themes, and not on the day or the
title of the site.
-/

namespace BlogSite

namespace Site

variable {s s' : Site} {w w' v v' : World} {b : Blog}

/-! ### The pages of a blog -/

/-- Of the pages of a site with different slugs, only those of a blog are in its directory. -/
theorem exists_sheets_eq {blogs : List Blog} (hsteps : ∀ c ∈ blogs, Path.IsStep c.slug)
    (hdistinct : (blogs.map Blog.slug).Nodup) {posts : String → List Post}
    (hposts : ∀ c ∈ blogs, ∀ p ∈ posts c.slug, '/' ∉ p.slug.toList) (hb : b ∈ blogs) :
    ∃ front back, s.sheets blogs posts = front ++ (s.blogSheets b (posts b.slug) ++ back) ∧
      ∀ p ∈ front ++ back, ¬ ["blogs",b.slug] <+: Path.names p.path := by
  obtain ⟨before,after,rfl⟩ := List.append_of_mem hb
  have hother : ∀ c ∈ before ++ after, c.slug ≠ b.slug := by
    have hperm : (before ++ b :: after).Perm (b :: (before ++ after)) := List.perm_middle
    have hnodup := ((hperm.map Blog.slug).nodup_iff.mp hdistinct)
    rw [List.map_cons,List.nodup_cons] at hnodup
    exact fun c hc heq => hnodup.1 (heq ▸ List.mem_map_of_mem hc)
  have hblogs : ∀ c ∈ before ++ after, ∀ p ∈ s.blogSheets c (posts c.slug),
      ¬ ["blogs",b.slug] <+: Path.names p.path := by
    intro c hc p hp hbelow
    have hmem : c ∈ before ++ b :: after := by
      simp only [List.mem_append,List.mem_cons] at hc ⊢
      tauto
    obtain ⟨r,hr⟩ := prefix_of_mem_blogSheets (hsteps c hmem) (hposts c hmem) hp
    obtain ⟨k,hk⟩ := hbelow
    have hsame : c.slug = b.slug ∧ r = k := by simpa using hr.trans hk.symm
    exact hother c hc hsame.1
  obtain ⟨last,hlast,hall⟩ : ∃ last, (∀ p ∈ last, ¬ ["blogs",b.slug] <+: Path.names p.path) ∧
      s.sheets (before ++ b :: after) posts = s.blogPages posts (before ++ b :: after) ++ last := by
    refine ⟨_,?_,rfl⟩
    have hfixed : Path.names "index.html" = ["index.html"] ∧ Path.names "404.html" = ["404.html"] ∧
        Path.names ".nojekyll" = [".nojekyll"] := by decide
    intro p hp
    simp only [List.mem_cons,List.not_mem_nil,or_false] at hp
    rcases hp with rfl | rfl | rfl <;>
      simp [homeSheet,notFoundSheet,markerSheet,HomePage.path,hfixed]
  refine ⟨s.blogPages posts before,s.blogPages posts after ++ last,by simp [hall,blogPages],?_⟩
  intro p hp
  simp only [blogPages,List.mem_append,List.mem_flatMap] at hp
  rcases hp with ⟨c,hc,hp⟩ | ⟨c,hc,hp⟩ | hp
  · exact hblogs c (by simp [hc]) p hp
  · exact hblogs c (by simp [hc]) p hp
  · exact hlast p hp

/-! ### Projects that share a blog -/

/-- Two projects have the same entry for a blog, the same posts in its directory but for log files, the
same default theme and the same static files for its directory. -/
structure SharesBlog (s s' : Site) (w w' : World) (b : Blog) : Prop where
  listed : ∀ blogs, ((BlogList.load s.paths.blogList).go w).1 = .ok blogs → b ∈ blogs
  listed' : ∀ blogs, ((BlogList.load s'.paths.blogList).go w').1 = .ok blogs → b ∈ blogs
  yaml : s.yaml = s'.yaml
  posts : Disk.SameAt (Path.place (s.posts.directory b.slug)) (Path.place (s'.posts.directory b.slug))
    w.disk w'.disk
  theme : s.defaultTheme = s'.defaultTheme
  statics : ∀ r, s.publicFiles w.disk (["blogs",b.slug] ++ r) =
    s'.publicFiles w'.disk (["blogs",b.slug] ++ r)

/-- Two projects have the same templates for a blog, where no build writes. -/
def SharesTheme (s s' : Site) (w w' : World) (b : Blog) : Prop :=
  ∀ file ∈ themeFiles, ¬ s.outputPlace <+: s.templatePlace b file ∧
    ¬ s'.outputPlace <+: s'.templatePlace b file ∧
    w.disk.bytesAt? (s.templatePlace b file) = w'.disk.bytesAt? (s'.templatePlace b file)

/-- Templates in directories that agree are shared. -/
theorem sharesTheme_of_below (hs : s.paths.IsApart) (hs' : s'.paths.IsApart)
    (hsame : ∀ r, w.disk.bytesAt? (Path.place s.paths.templatesDir ++ r) =
      w'.disk.bytesAt? (Path.place s'.paths.templatesDir ++ r))
    (hbelow : ∀ file ∈ themeFiles, ∃ r, s.templatePlace b file = Path.place s.paths.templatesDir ++ r ∧
      s'.templatePlace b file = Path.place s'.paths.templatesDir ++ r) : s.SharesTheme s' w w' b := by
  intro file hfile
  obtain ⟨r,hr,hr'⟩ := hbelow file hfile
  rw [hr,hr']
  exact ⟨hs.templates_apart.not_prefix (List.prefix_append _ r),
    hs'.templates_apart.not_prefix (List.prefix_append _ r),hsame r⟩

/-- Where the outputs of two projects may differ that share a blog: outside of its directory, and in a
copy of a log file. -/
def Elsewhere (s s' : Site) (w w' : World) (b : Blog) (r : Location) : Prop :=
  ¬ ["blogs",b.slug] <+: r ∨ w.LogAt (Path.place s.paths.publicDir ++ r) ∨
    w'.LogAt (Path.place s'.paths.publicDir ++ r)

theorem SharesBlog.postsIn_eq (h : s.SharesBlog s' w w' b) (hs : s.paths.IsApart)
    (hs' : s'.paths.IsApart) (hw : w.IsSound) (hw' : w'.IsSound) (hb : Path.IsStep b.slug) :
    s.postsIn w b.slug = s'.postsIn w' b.slug := by
  obtain ⟨hdirect,-⟩ := PostFolder.isDirect_directory (f := s.posts) hs.content hb
  obtain ⟨hdirect',-⟩ := PostFolder.isDirect_directory (f := s'.posts) hs'.content hb
  rw [postsIn,postsIn,PostFolder.load_eq_of_sameAt h.yaml hw hw' hdirect hdirect' h.posts]

theorem SharesTheme.looksAlike (h : s.SharesTheme s' w w' b) (hw : w.IsSound) (hw' : w'.IsSound)
    {Z : Location → Prop} {file : String} (hfile : file ∈ themeFiles) :
    s.LooksAlike s' w.opened.disk w'.opened.disk Z (s.templatePlace b file) (s'.templatePlace b file) := by
  obtain ⟨hl,hl',hbytes⟩ := h file hfile
  refine .outside hl hl' ?_
  unfold templatePlace at hbytes ⊢
  rw [bytesAt?_template_opened hw (suffix_themeFile hfile _),
    bytesAt?_template_opened hw' (suffix_themeFile hfile _),hbytes]

/-! ### A blog that is shared, and one that borrows pages -/

/-- A blog whose entry gives its slug and, where it names one, its theme. -/
def plainBlog (slug theme : String) : Blog where
  slug
  title := .str ""
  desc := .str ""
  author := .str ""
  theme := if theme = "" then .null else .str theme
  planet := ⟨.str "",.str "",.str ""⟩

/-- Whether a blog is such a one. -/
def isPlain (slug theme : String) : Blog → Bool
  | ⟨x,.str "",.str "",.str "",.null,⟨.str "",.str "",.str ""⟩⟩ => x = slug ∧ theme = ""
  | ⟨x,.str "",.str "",.str "",.str y,⟨.str "",.str "",.str ""⟩⟩ => x = slug ∧ y = theme ∧ theme ≠ ""
  | _ => false

theorem eq_plainBlog {slug theme : String} (h : isPlain slug theme b = true) : b = plainBlog slug theme := by
  unfold isPlain at h
  split at h <;> simp_all [plainBlog]

/-- Whether blogs are such ones, in their order. -/
def arePlain : List (String × String) → List Blog → Bool
  | [],[] => true
  | x :: xs,b :: bs => isPlain x.1 x.2 b && arePlain xs bs
  | _,_ => false

theorem eq_of_arePlain {xs : List (String × String)} {blogs : List Blog} (h : arePlain xs blogs = true) :
    blogs = xs.map fun x => plainBlog x.1 x.2 := by
  induction xs generalizing blogs with
  | nil => cases blogs <;> simp_all [arePlain]
  | cons x xs ih =>
    cases blogs with
    | nil => simp [arePlain] at h
    | cons b bs =>
      simp only [arePlain,Bool.and_eq_true] at h
      rw [eq_plainBlog h.1,ih h.2,List.map_cons]

/-- A world lists such blogs if it can be computed to. -/
theorem listed_of_arePlain (xs : List (String × String)) {r : Except Failure (List Blog)}
    (h : r.toOption.map (arePlain xs) = some true) (blogs : List Blog) (hblogs : r = .ok blogs) :
    blogs = xs.map fun x => plainBlog x.1 x.2 :=
  eq_of_arePlain (Run.eq_of_toOption_map h hblogs)

/-- A site of another day with a title. -/
def otherSample : Site := { sample with title := .str "Stars",today := (Calendar.Date.of? 2025 1 1).get rfl }

theorem isApart_otherSample : otherSample.paths.IsApart := isApart_sample

/-- The sample project with one more blog, which is listed first. -/
def crowdedProject : World :=
  { sampleProject with
    disk :=
      (((sampleProject.disk.put ["content","blogs.json"]
        (.file "[\x7b\"slug\":\"b\"\x7d,\x7b\"slug\":\"a\"\x7d]".toUTF8)).put
        ["content","blogs","b"] .directory).put ["content","blogs","b","posts"] .directory).put
        ["content","blogs","b","posts","q.md"] (.file (PostFolder.samplePage "2024-04-01" "")) }

theorem isSound_crowdedProject : crowdedProject.IsSound :=
  ⟨Disk.isTree_of_entries (by decide),isSound_sampleProject.named,isSound_sampleProject.direct,
    by simp [World.LogAt,crowdedProject,sampleProject]⟩

theorem listed_sampleProject (blogs : List Blog)
    (h : ((BlogList.load sample.paths.blogList).go sampleProject).1 = .ok blogs) :
    blogs = [plainBlog "a" ""] :=
  listed_of_arePlain [("a","")] (by decide +kernel) blogs h

/-- The blogs that the crowded project lists, and that it is built. -/
theorem crowded_sample :
    ((BlogList.load otherSample.paths.blogList).go crowdedProject).1.toOption.map
        (arePlain [("b",""),("a","")]) = some true ∧
      (otherSample.build.go crowdedProject).1.isOk = true := by decide +kernel

theorem listed_crowdedProject (blogs : List Blog)
    (h : ((BlogList.load otherSample.paths.blogList).go crowdedProject).1 = .ok blogs) :
    blogs = [plainBlog "b" "",plainBlog "a" ""] :=
  listed_of_arePlain [("b",""),("a","")] crowded_sample.1 blogs h

/-- A project with the list file of another one lists the same blogs. -/
theorem listed_of_entry {w w' : World} (hw : w.IsSound) (hw' : w'.IsSound)
    (h : w.disk.entry? ["content","blogs.json"] = w'.disk.entry? ["content","blogs.json"])
    {blogs : List Blog} (hlisted : ((BlogList.load sample.paths.blogList).go w').1 = .ok blogs) :
    ((BlogList.load sample.paths.blogList).go w).1 = .ok blogs := by
  have hplace : Path.place sample.paths.contentDir = ["content"] := by decide
  refine BlogList.load_eq_ok_of_entry hw' hw isApart_sample.content ?_ hlisted
  rw [hplace]
  exact h

theorem slugsAreSteps_crowded : otherSample.SlugsAreSteps crowdedProject := by
  intro blogs hblogs b hb
  have hsteps : Path.IsStep "a" ∧ Path.IsStep "b" := by decide
  rw [listed_crowdedProject blogs hblogs] at hb
  simp only [List.mem_cons,List.not_mem_nil,or_false] at hb
  rcases hb with rfl | rfl
  · exact hsteps.2
  · exact hsteps.1

/-- The places of the sample site. -/
theorem places_sample : Path.place (sample.posts.directory "a") = ["content","blogs","a","posts"] ∧
    Path.place sample.paths.templatesDir = ["templates"] ∧
    Path.place sample.paths.publicDir = ["public"] := by decide

/-- The new blog leaves the old one and all that is not content as it was. -/
theorem entry?_crowdedProject {l : Location}
    (h : ["content","blogs","a"] <+: l ∨ ["public"] <+: l ∨ ["templates"] <+: l) :
    crowdedProject.disk.entry? l = sampleProject.disk.entry? l := by
  rcases h with ⟨r,rfl⟩ | ⟨r,rfl⟩ | ⟨r,rfl⟩ <;> simp [crowdedProject,Disk.entry?_put]

theorem sharesBlog_sample :
    sample.SharesBlog otherSample sampleProject crowdedProject (plainBlog "a" "") where
  listed := fun blogs h => by simp [listed_sampleProject blogs h]
  listed' := fun blogs h => by simp [listed_crowdedProject blogs h]
  yaml := rfl
  posts := by
    have hsame : ∀ r, sampleProject.disk.entry? (["content","blogs","a","posts"] ++ r) =
        crowdedProject.disk.entry? (["content","blogs","a","posts"] ++ r) := fun r =>
      (entry?_crowdedProject (Or.inl ⟨"posts" :: r,rfl⟩)).symm
    rw [show otherSample.posts = sample.posts from rfl,show (plainBlog "a" "").slug = "a" from rfl,
      places_sample.1]
    exact ⟨fun r => congrArg _ (hsame r),fun r _ => hsame r⟩
  theme := rfl
  statics := by
    intro r
    rw [publicFiles,publicFiles,show otherSample.paths = sample.paths from rfl,places_sample.2.2]
    exact congrArg _ (Disk.bytesAt?_congr (entry?_crowdedProject (Or.inr (Or.inl ⟨_,rfl⟩))).symm)

theorem sharesTheme_sample :
    sample.SharesTheme otherSample sampleProject crowdedProject (plainBlog "a" "") := by
  obtain ⟨-,htemplates,-⟩ := places_sample
  refine sharesTheme_of_below isApart_sample isApart_otherSample (fun r => ?_) fun file hfile => ?_
  · refine Disk.bytesAt?_congr (entry?_crowdedProject (Or.inr (Or.inr ?_))).symm
    rw [htemplates]
    exact List.prefix_append _ r
  · have hplaces : sample.templatePlace (plainBlog "a" "") "/blog-list.html" =
          Path.place sample.paths.templatesDir ++ ["word-retro","blog-list.html"] ∧
        sample.templatePlace (plainBlog "a" "") "/post.html" =
          Path.place sample.paths.templatesDir ++ ["word-retro","post.html"] := by
      decide
    simp only [themeFiles,List.mem_cons,List.not_mem_nil,or_false] at hfile
    rcases hfile with rfl | rfl
    · exact ⟨_,hplaces.1,hplaces.1⟩
    · exact ⟨_,hplaces.2,hplaces.2⟩

/-- A project with a blog that takes its templates from where the pages of another one are. -/
def lendingProject : World where
  disk :=
    { entries :=
        [(["content"],.directory),(["content","blogs"],.directory),
          (["content","blogs.json"],.file
            "[\x7b\"slug\":\"a\"\x7d,\x7b\"slug\":\"b\",\"theme\":\"../out/blogs/a/posts\"\x7d]".toUTF8),
          (["content","blogs","a"],.directory),(["content","blogs","a","posts"],.directory),
          (["templates"],.directory),(["templates","home.html"],.file "Home".toUTF8),
          (["templates","404.html"],.file "Lost".toUTF8),(["templates","word-retro"],.directory),
          (["templates","word-retro","blog-list.html"],.file "Blog".toUTF8),
          (["templates","word-retro","post.html"],.file "".toUTF8),(["public"],.directory),
          (["public","blogs"],.directory),(["public","blogs","a"],.directory),
          (["public","blogs","a","posts"],.directory),
          (["public","blogs","a","posts","blog-list.html"],.file "Static".toUTF8)]
      distinct := by decide }

/-- The same project with a post in the other blog. -/
def lentProject : World :=
  { lendingProject with
    disk := lendingProject.disk.put ["content","blogs","a","posts","blog-list.md"]
      (.file (PostFolder.samplePage "2024-03-01" "")) }

/-- The blogs of these two projects. -/
def lendingBlogs : List Blog := [plainBlog "a" "",plainBlog "b" "../out/blogs/a/posts"]

theorem isSound_lendingProject : lendingProject.IsSound :=
  ⟨Disk.isTree_of_entries (by decide),by simp [World.LogNamed,lendingProject],by simp [lendingProject],
    by simp [World.LogAt,lendingProject]⟩

theorem isSound_lentProject : lentProject.IsSound :=
  ⟨Disk.isTree_of_entries (by decide),isSound_lendingProject.named,isSound_lendingProject.direct,
    by simp [World.LogAt,lentProject,lendingProject]⟩

/-- The blogs that the lending project lists, that it is built, and that it has no posts. -/
theorem lending_sample :
    ((BlogList.load sample.paths.blogList).go lendingProject).1.toOption.map
        (arePlain [("a",""),("b","../out/blogs/a/posts")]) = some true ∧
      (sample.build.go lendingProject).1.isOk = true ∧
      (sample.postsIn lendingProject "a").length = 0 ∧ (sample.postsIn lendingProject "b").length = 0 := by
  decide +kernel

theorem listed_lendingProject (blogs : List Blog)
    (h : ((BlogList.load sample.paths.blogList).go lendingProject).1 = .ok blogs) : blogs = lendingBlogs :=
  listed_of_arePlain [("a",""),("b","../out/blogs/a/posts")] lending_sample.1 blogs h

theorem slugsAreSteps_lending : sample.SlugsAreSteps lendingProject := by
  intro blogs hblogs b hb
  have hsteps : ∀ x ∈ lendingBlogs.map Blog.slug, Path.IsStep x := by decide
  rw [listed_lendingProject blogs hblogs] at hb
  exact hsteps _ (List.mem_map_of_mem hb)

theorem entry?_lentProject {l : Location} (h : ¬ ["content","blogs","a"] <+: l) :
    lentProject.disk.entry? l = lendingProject.disk.entry? l := by
  have hne : l ≠ ["content","blogs","a","posts","blog-list.md"] := by
    rintro rfl
    exact h ⟨_,rfl⟩
  simp [lentProject,Disk.entry?_put,hne]

theorem listed_lentProject (blogs : List Blog)
    (h : ((BlogList.load sample.paths.blogList).go lentProject).1 = .ok blogs) : blogs = lendingBlogs :=
  listed_lendingProject blogs
    (listed_of_entry isSound_lendingProject isSound_lentProject (entry?_lentProject (by simp)).symm h)

theorem sharesBlog_lending :
    sample.SharesBlog sample lendingProject lentProject (plainBlog "b" "../out/blogs/a/posts") where
  listed := fun blogs h => by simp [listed_lendingProject blogs h,lendingBlogs]
  listed' := fun blogs h => by simp [listed_lentProject blogs h,lendingBlogs]
  yaml := rfl
  posts := by
    have hplace : Path.place (sample.posts.directory "b") = ["content","blogs","b","posts"] := by
      decide
    have hsame : ∀ r, lendingProject.disk.entry? (["content","blogs","b","posts"] ++ r) =
        lentProject.disk.entry? (["content","blogs","b","posts"] ++ r) := fun r =>
      (entry?_lentProject (by simp)).symm
    rw [show (plainBlog "b" "../out/blogs/a/posts").slug = "b" from rfl,hplace]
    exact ⟨fun r => congrArg _ (hsame r),fun r _ => hsame r⟩
  theme := rfl
  statics := by
    intro r
    rw [publicFiles,publicFiles,places_sample.2.2]
    exact congrArg _ (Disk.bytesAt?_congr (entry?_lentProject (by simp))).symm

/-- With the post, the page at the place of the template is empty, and so is the page that is made of
it. -/
theorem lent_sample : (sample.build.go lentProject).1.isOk = true ∧
    (sample.build.go lentProject).2.disk.bytesAt? (sample.outputPlace ++ ["blogs","b","index.html"]) =
      some "".toUTF8 := by
  have hrun : ((sample.build.go lentProject).1.isOk,
      (sample.build.go lentProject).2.disk.bytesAt? ["out","blogs","b","index.html"]) =
        (true,some "".toUTF8) := by decide +kernel
  rw [outputPlace_sample]
  exact Prod.mk.inj hrun

/-- Without it, the page of the borrowing blog is made of the static file, as there is no page at its
place. -/
theorem bytesAt?_lending :
    (sample.build.go lendingProject).2.disk.bytesAt? (sample.outputPlace ++ ["blogs","b","index.html"]) =
      some "Static".toUTF8 := by
  let a := plainBlog "a" ""
  let b := plainBlog "b" "../out/blogs/a/posts"
  obtain ⟨-,hok,hnoneA,hnoneB⟩ := lending_sample
  obtain ⟨shelf,v,hgo⟩ := Run.exists_go_of_isOk hok
  obtain ⟨blogs,hlisted,-,-,pages,hpages,hfiles⟩ :=
    exists_built isApart_sample isSound_lendingProject slugsAreSteps_lending hgo
  obtain rfl := listed_lendingProject blogs hlisted
  have hposts : sample.postsIn lendingProject a.slug = [] ∧ sample.postsIn lendingProject b.slug = [] :=
    ⟨List.length_eq_zero_iff.mp hnoneA,List.length_eq_zero_iff.mp hnoneB⟩
  have hplaces : Path.names (BlogPage.path a) = ["blogs","a","index.html"] ∧
      Path.names (BlogPage.path b) = ["blogs","b","index.html"] ∧
      sample.templatePlace b "/blog-list.html" = ["out"] ++ ["blogs","a","posts","blog-list.html"] := by
    decide
  have hfixed : Path.names "index.html" = ["index.html"] ∧ Path.names "404.html" = ["404.html"] ∧
      Path.names ".nojekyll" = [".nojekyll"] := by decide
  obtain ⟨t,ht⟩ : ∃ t, sample.blogSheets a [] = [sample.blogSheet t a []] := ⟨_,rfl⟩
  obtain ⟨t',ht'⟩ : ∃ t, sample.blogSheets b [] = [sample.blogSheet t b []] := ⟨_,rfl⟩
  have hsheets : sample.sheets lendingBlogs (sample.postsIn lendingProject) =
      [sample.blogSheet t a []] ++ sample.blogSheet t' b [] :: [sample.homeSheet lendingBlogs
        (shelfOf (sample.postsIn lendingProject) lendingBlogs),sample.notFoundSheet,markerSheet] := by
    have hblogs : lendingBlogs = [a,b] := rfl
    simp [sheets,hblogs,hposts,ht,ht']
  rw [hsheets] at hpages
  obtain ⟨mid,bytes,hmid,hbytes,hlookup⟩ := exists_lookup_pagesOf? hpages (by
    simp [blogSheet,homeSheet,notFoundSheet,markerSheet,HomePage.path,hfixed,hplaces])
  have hnone : mid.lookup ["blogs","a","posts","blog-list.html"] = none := by
    rw [lookup_pagesOf? hmid (by simp [blogSheet,hplaces]),List.lookup_nil]
  have hlook : sample.lookIn lendingProject.opened.disk mid (sample.templatePlace b "/blog-list.html") =
      some "Static".toUTF8 := by
    rw [hplaces.2.2,lookIn,outputPlace_sample,if_pos (List.prefix_append _ _),List.drop_left,filesWith,hnone,
      Option.none_or]
    decide +kernel
  have hindex : (sample.blogSheet t' b []).bytes? (sample.lookIn lendingProject.opened.disk mid) =
      some "Static".toUTF8 := by
    have htext : Text.ofBytes? "Static".toUTF8 = some "Static" := by decide +kernel
    have hfill : Template.fillNamed "Static" (BlogPage.shown t' b []) = "Static" :=
      Template.fillNamed_of_no_brace (by decide) _
    unfold templatePlace at hlook
    simp only [Sheet.bytes?,blogSheet,hlook,Option.bind_eq_bind,Option.bind_some,htext,hfill]
    rfl
  rw [hgo,hfiles,finished_of_not_asset (by simp),filesWith]
  rw [show (sample.blogSheet t' b []).path = BlogPage.path b from rfl,hplaces.2.1] at hlookup
  rw [hlookup,← hbytes,hindex]
  rfl

/-! ### Isolation -/

/-- Builds of two projects that share a blog give the directory of the blog the same files, whatever else
is in the projects, but for copies of log files. -/
theorem build_isolated (hs : s.paths.IsApart) (hs' : s'.paths.IsApart) (hw : w.IsSound)
    (hw' : w'.IsSound) (hslugs : s.SlugsAreSteps w) (hslugs' : s'.SlugsAreSteps w')
    (hdistinct : ∀ blogs, ((BlogList.load s.paths.blogList).go w).1 = .ok blogs →
      (blogs.map Blog.slug).Nodup)
    (hdistinct' : ∀ blogs, ((BlogList.load s'.paths.blogList).go w').1 = .ok blogs →
      (blogs.map Blog.slug).Nodup)
    (h : s.SharesBlog s' w w' b) (htheme : s.SharesTheme s' w w' b) {shelf shelf' : HomePage.Shelf}
    (hgo : s.build.go w = (.ok shelf,v)) (hgo' : s'.build.go w' = (.ok shelf',v')) {r : Location}
    (hr : ¬ w.LogAt (Path.place s.paths.publicDir ++ (["blogs",b.slug] ++ r)))
    (hr' : ¬ w'.LogAt (Path.place s'.paths.publicDir ++ (["blogs",b.slug] ++ r))) :
    v.disk.bytesAt? (s.outputPlace ++ (["blogs",b.slug] ++ r)) =
      v'.disk.bytesAt? (s'.outputPlace ++ (["blogs",b.slug] ++ r)) := by
  obtain ⟨blogs,hlisted,-,-,pages,hpages,hfiles⟩ := exists_built hs hw hslugs hgo
  obtain ⟨blogs',hlisted',-,-,pages',hpages',hfiles'⟩ := exists_built hs' hw' hslugs' hgo'
  have hsteps := hslugs blogs hlisted
  have hsteps' := hslugs' blogs' hlisted'
  have hb := h.listed blogs hlisted
  have hb' := h.listed' blogs' hlisted'
  have hposts := h.postsIn_eq hs hs' hw hw' (hsteps b hb)
  have htheme' : s.themeName b = s'.themeName b := by rw [themeName,themeName,h.theme]
  have hnames : ∀ c ∈ blogs, ∀ p ∈ s.postsIn w c.slug, '/' ∉ p.slug.toList :=
    fun c hc => noSlash_postsIn hs hw (hsteps c hc)
  have hnames' : ∀ c ∈ blogs', ∀ p ∈ s'.postsIn w' c.slug, '/' ∉ p.slug.toList :=
    fun c hc => noSlash_postsIn hs' hw' (hsteps' c hc)
  obtain ⟨front,back,hsheets,hother⟩ :=
    exists_sheets_eq (s := s) hsteps (hdistinct blogs hlisted) hnames hb
  obtain ⟨front',back',hsheets',hother'⟩ :=
    exists_sheets_eq (s := s') hsteps' (hdistinct' blogs' hlisted') hnames' hb'
  rw [hsheets] at hpages
  rw [hsheets',← hposts] at hpages'
  simp only [List.mem_append] at hother hother'
  have hmatched : s.Matched s' w.opened.disk w'.opened.disk (s.Elsewhere s' w w' b)
      (front ++ (s.blogSheets b (s.postsIn w b.slug) ++ back))
      (front' ++ (s'.blogSheets b (s.postsIn w b.slug) ++ back')) := by
    have hblog := Matched.blogSheets (Z := s.Elsewhere s' w w' b) htheme'
      (fun _ => htheme.looksAlike hw hw') (s.postsIn w b.slug)
    refine (Matched.of_region ?_ ?_).append (hblog.append (Matched.of_region ?_ ?_))
    · exact fun p hp => Or.inl (hother p (Or.inl hp))
    · exact fun p hp => Or.inl (hother' p (Or.inl hp))
    · exact fun p hp => Or.inl (hother p (Or.inr hp))
    · exact fun p hp => Or.inl (hother' p (Or.inr hp))
  have hstart : (s.filesWith w.opened.disk []).AgreeOff (s.Elsewhere s' w w' b)
      (s'.filesWith w'.opened.disk []) := by
    rintro k hk
    simp only [Elsewhere,not_or,not_not] at hk
    obtain ⟨⟨t,rfl⟩,hlog,hlog'⟩ := hk
    simp only [filesWith,List.lookup_nil,Option.none_or]
    rw [publicFiles_opened hlog,publicFiles_opened hlog']
    exact h.statics t
  have hhere : ¬ s.Elsewhere s' w w' b (["blogs",b.slug] ++ r) := by
    rintro (hout | hlog | hlog)
    · exact hout (List.prefix_append _ r)
    · exact hr hlog
    · exact hr' hlog
  rw [hfiles,hfiles',finished_of_not_asset (by simp),finished_of_not_asset (by simp)]
  exact hmatched.agreeOff hstart hpages hpages' _ hhere

theorem build_isolated_sample :
    (sample.paths.IsApart ∧ otherSample.paths.IsApart ∧ sampleProject.IsSound ∧ crowdedProject.IsSound ∧
      sample.SlugsAreSteps sampleProject ∧ otherSample.SlugsAreSteps crowdedProject ∧
      (∀ blogs, ((BlogList.load sample.paths.blogList).go sampleProject).1 = .ok blogs →
        (blogs.map Blog.slug).Nodup) ∧
      (∀ blogs, ((BlogList.load otherSample.paths.blogList).go crowdedProject).1 = .ok blogs →
        (blogs.map Blog.slug).Nodup) ∧
      sample.SharesBlog otherSample sampleProject crowdedProject (plainBlog "a" "") ∧
      sample.SharesTheme otherSample sampleProject crowdedProject (plainBlog "a" "")) ∧
    ∃ shelf v shelf' v', sample.build.go sampleProject = (.ok shelf,v) ∧
      otherSample.build.go crowdedProject = (.ok shelf',v') ∧
      ∀ r, v.disk.bytesAt? (sample.outputPlace ++ (["blogs","a"] ++ r)) =
        v'.disk.bytesAt? (otherSample.outputPlace ++ (["blogs","a"] ++ r)) := by
  have hdistinct : ∀ blogs, ((BlogList.load sample.paths.blogList).go sampleProject).1 = .ok blogs →
      (blogs.map Blog.slug).Nodup := fun blogs h => by simp [slugs_sampleProject blogs h]
  have hdistinct' : ∀ blogs, ((BlogList.load otherSample.paths.blogList).go crowdedProject).1 = .ok blogs →
      (blogs.map Blog.slug).Nodup := fun blogs h => by simp [listed_crowdedProject blogs h,plainBlog]
  obtain ⟨shelf,v,hgo⟩ := exists_go_sample
  obtain ⟨shelf',v',hgo'⟩ : ∃ shelf v, otherSample.build.go crowdedProject = (.ok shelf,v) :=
    Run.exists_go_of_isOk crowded_sample.2
  refine ⟨⟨isApart_sample,isApart_otherSample,isSound_sampleProject,isSound_crowdedProject,
    slugsAreSteps_sample,slugsAreSteps_crowded,hdistinct,hdistinct',sharesBlog_sample,
    sharesTheme_sample⟩,shelf,v,shelf',v',hgo,hgo',?_⟩
  intro r
  have hlog : ∀ l, ¬ sampleProject.LogAt l := by simp [World.LogAt,sampleProject]
  have hlog' : ∀ l, ¬ crowdedProject.LogAt l := by simp [World.LogAt,crowdedProject,sampleProject]
  exact build_isolated isApart_sample isApart_otherSample isSound_sampleProject isSound_crowdedProject
    slugsAreSteps_sample slugsAreSteps_crowded hdistinct hdistinct' sharesBlog_sample sharesTheme_sample
    hgo hgo' (hlog _) (hlog' _)

/-- A blog whose theme leads to the pages of another blog is changed with the posts of that one. -/
theorem build_borrows :
    (sample.paths.IsApart ∧ lendingProject.IsSound ∧ lentProject.IsSound ∧
      (∀ blogs, ((BlogList.load sample.paths.blogList).go lendingProject).1 = .ok blogs →
        blogs = [plainBlog "a" "",plainBlog "b" "../out/blogs/a/posts"]) ∧
      (∀ blogs, ((BlogList.load sample.paths.blogList).go lentProject).1 = .ok blogs →
        blogs = [plainBlog "a" "",plainBlog "b" "../out/blogs/a/posts"]) ∧
      sample.SharesBlog sample lendingProject lentProject (plainBlog "b" "../out/blogs/a/posts") ∧
      (∀ l, ¬ ["content","blogs","a"] <+: l → lentProject.disk.entry? l = lendingProject.disk.entry? l)) ∧
    (sample.build.go lendingProject).1.isOk = true ∧ (sample.build.go lentProject).1.isOk = true ∧
    (sample.build.go lendingProject).2.disk.bytesAt? (sample.outputPlace ++ ["blogs","b","index.html"]) ≠
      (sample.build.go lentProject).2.disk.bytesAt? (sample.outputPlace ++ ["blogs","b","index.html"]) := by
  refine ⟨⟨isApart_sample,isSound_lendingProject,isSound_lentProject,listed_lendingProject,
    listed_lentProject,sharesBlog_lending,fun _ => entry?_lentProject⟩,lending_sample.2.1,lent_sample.1,?_⟩
  rw [bytesAt?_lending,lent_sample.2]
  decide

end Site

end BlogSite
