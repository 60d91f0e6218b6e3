import BlogSite.Proofs.DayTexts
import BlogSite.Proofs.SiteOutcomes
import BlogSite.Proofs.TemplateFilling
import BlogSite.Yaml.Document
import Mathlib.Algebra.BigOperators.Group.List.Basic
import Mathlib.Algebra.GroupWithZero.Nat

/-!
The files of a site that has been built. They are the pages of the blogs and posts, each once and at its
own place, over the static files, and nothing else.
-/

namespace BlogSite

namespace Site

variable {s : Site} {w v : World}

/-- The places of the pages of a site, in the order in which they are written. -/
def pagePlaces (blogs : List Blog) (posts : String → List Post) : List Location :=
  blogs.flatMap (fun b => ["blogs",b.slug,"index.html"] ::
    (posts b.slug).map fun p => ["blogs",b.slug,"posts",p.slug ++ ".html"]) ++
  [["index.html"],["404.html"],[".nojekyll"]]

theorem places_pagesOf? {found : Disk} {ps : List Sheet} {before pages : Pages}
    (h : s.pagesOf? found before ps = some pages) :
    pages.reverse.map Prod.fst =
      before.reverse.map Prod.fst ++ ps.map fun p => Path.names p.path := by
  induction ps generalizing before with
  | nil =>
    obtain rfl := Option.some.inj h
    simp
  | cons p ps ih =>
    unfold pagesOf? at h
    cases hbytes : p.bytes? (s.lookIn found before) with
    | none => simp [hbytes] at h
    | some bytes =>
      simp only [hbytes,Option.bind_eq_bind,Option.bind_some] at h
      rw [ih h]
      simp

/-- The paths of the pages lead to their places. -/
theorem map_names_sheets {blogs : List Blog} {posts : String → List Post}
    (hblogs : ∀ b ∈ blogs, Path.IsStep b.slug)
    (hposts : ∀ b ∈ blogs, ∀ p ∈ posts b.slug, '/' ∉ p.slug.toList) :
    (s.sheets blogs posts).map (fun p => Path.names p.path) = pagePlaces blogs posts := by
  have hlast : ([s.homeSheet blogs (shelfOf posts blogs),s.notFoundSheet,markerSheet].map
      fun p => Path.names p.path) = [["index.html"],["404.html"],[".nojekyll"]] := by
    have hfixed : Path.names "index.html" = ["index.html"] ∧ Path.names "404.html" = ["404.html"] ∧
        Path.names ".nojekyll" = [".nojekyll"] := by decide
    simp [homeSheet,notFoundSheet,markerSheet,HomePage.path,hfixed]
  rw [sheets,pagePlaces,List.map_append,hlast,List.map_flatMap]
  congr 1
  apply List.flatMap_congr
  intro b hb
  have hblog := (BlogPage.names_path (hblogs b hb)).1
  have hplaces : (PostPage.places (posts b.slug)).map (fun at_ => Path.names (PostPage.path b at_.post)) =
      (posts b.slug).map fun p => ["blogs",b.slug,"posts",p.slug ++ ".html"] := by
    rw [← List.map_congr_left fun p hp => (PostPage.names_path (hblogs b hb) (hposts b hb p hp)).1]
    conv_rhs => rw [← PostPage.map_post_places (posts b.slug),List.map_map]
    rfl
  simp only [blogSheets,List.map_cons,List.map_map,blogSheet,hblog]
  exact congrArg _ hplaces

/-- No two pages have one place. -/
theorem nodup_pagePlaces {blogs : List Blog} {posts : String → List Post}
    (hblogs : (blogs.map Blog.slug).Nodup)
    (hposts : ∀ b ∈ blogs, ((posts b.slug).map Post.slug).Nodup) :
    (pagePlaces blogs posts).Nodup := by
  have hsecond : ∀ b : Blog, ∀ l ∈ ["blogs",b.slug,"index.html"] ::
      (posts b.slug).map (fun p => ["blogs",b.slug,"posts",p.slug ++ ".html"]), l[1]? = some b.slug := by
    intro b l hl
    rcases List.mem_cons.mp hl with rfl | hl
    · rfl
    · obtain ⟨p,-,rfl⟩ := List.mem_map.mp hl
      rfl
  unfold pagePlaces
  refine List.nodup_append.mpr ⟨List.nodup_flatMap.mpr ⟨?_,?_⟩,by decide,?_⟩
  · intro b hb
    refine List.nodup_cons.mpr ⟨by simp,?_⟩
    have hinjective : Function.Injective fun n : String => ["blogs",b.slug,"posts",n ++ ".html"] := by
      intro n n' hn
      simpa using hn
    have hnodup := (hposts b hb).map hinjective
    rwa [List.map_map] at hnodup
  · refine (List.pairwise_map.mp hblogs).imp fun {b c} hne l hl hl' => hne ?_
    exact Option.some.inj ((hsecond b l hl).symm.trans (hsecond c l hl'))
  · intro l hl k hk
    obtain ⟨b,-,hl⟩ := List.mem_flatMap.mp hl
    have hlen := hsecond b l hl
    rintro rfl
    simp only [List.mem_cons,List.not_mem_nil,or_false] at hk
    rcases hk with rfl | rfl | rfl <;> simp at hlen

theorem length_sheets (blogs : List Blog) (posts : String → List Post) :
    (s.sheets blogs posts).length =
      (blogs.map fun b => (posts b.slug).length).sum + blogs.length + 3 := by
  have hplaces : ∀ ps : List Post, (PostPage.places ps).length = ps.length := by
    intro ps
    rw [← List.length_map (f := PostPage.Place.post),PostPage.map_post_places]
  have hblog : ∀ b ∈ blogs, (s.blogSheets b (posts b.slug)).length = (posts b.slug).length + 1 := by
    intro b _
    simp [blogSheets,hplaces]
  rw [sheets,List.length_append,List.length_flatMap,List.map_congr_left hblog,List.sum_map_add]
  simp

/-- A site with its directories next to each other. -/
def sample : Site where
  paths := ⟨"/content","/templates","/public","/out"⟩
  today := .sample
  yaml := Yaml.read
  compressors := ⟨id,id⟩

/-- A project with one blog, one post and one static file. An earlier build has left a page that
the site no longer has. -/
def sampleProject : World where
  disk :=
    { entries :=
        [(["content"],.directory),(["content","blogs"],.directory),
          (["content","blogs.json"],.file "[\x7b\"slug\":\"a\"\x7d]".toUTF8),
          (["content","blogs","a"],.directory),(["content","blogs","a","posts"],.directory),
          (["content","blogs","a","posts","p.md"],.file (PostFolder.samplePage "2024-03-01" "")),
          (["templates"],.directory),(["templates","home.html"],.file "Home".toUTF8),
          (["templates","404.html"],.file "Lost".toUTF8),(["templates","word-retro"],.directory),
          (["templates","word-retro","blog-list.html"],.file "Blog".toUTF8),
          (["templates","word-retro","post.html"],.file "Post".toUTF8),
          (["public"],.directory),(["public","style.css"],.file "p".toUTF8),
          (["out"],.directory),(["out","old.html"],.file "Old".toUTF8)]
      distinct := by decide }

theorem isApart_sample : sample.paths.IsApart := by
  have hdirect : ∀ n ∈ ["content","templates","public","out"],
      Path.IsDirect ("/" ++ n) ∧ Path.place ("/" ++ n) = [n] := by
    intro n hn
    simp only [List.mem_cons,List.not_mem_nil,or_false] at hn
    rcases hn with rfl | rfl | rfl | rfl <;>
      exact Path.isDirect_of_names (k := 1) (by decide) (by decide) (by decide)
  obtain ⟨hcontent,hcontent'⟩ := hdirect "content" (by simp)
  obtain ⟨htemplates,htemplates'⟩ := hdirect "templates" (by simp)
  obtain ⟨hpublic,hpublic'⟩ := hdirect "public" (by simp)
  obtain ⟨hout,hout'⟩ := hdirect "out" (by simp)
  refine ⟨hcontent,htemplates,hpublic,hout,?_,?_,?_⟩ <;>
    simp only [Location.Apart,sample]
  · exact hcontent'.symm ▸ hout'.symm ▸ (by decide)
  · exact htemplates'.symm ▸ hout'.symm ▸ (by decide)
  · exact hpublic'.symm ▸ hout'.symm ▸ (by decide)

theorem isSound_sampleProject : sampleProject.IsSound where
  tree := Disk.isTree_of_entries (by decide)
  named := by simp [World.LogNamed,sampleProject]
  direct := by simp [sampleProject]
  logged := by simp [World.LogAt,sampleProject]

theorem slugs_sampleProject (blogs : List Blog)
    (h : ((BlogList.load sample.paths.blogList).go sampleProject).1 = .ok blogs) :
    blogs.map Blog.slug = ["a"] :=
  Run.eq_of_toOption_map (g := List.map Blog.slug) (by decide +kernel) h

theorem slugsAreSteps_sample : sample.SlugsAreSteps sampleProject := by
  intro blogs hblogs b hb
  have hslug : b.slug ∈ ["a"] := slugs_sampleProject blogs hblogs ▸ List.mem_map_of_mem hb
  have hstep : Path.IsStep "a" := by decide
  exact List.mem_singleton.mp hslug ▸ hstep

theorem exists_go_sample : ∃ shelf v, sample.build.go sampleProject = (.ok shelf,v) :=
  Run.exists_go_of_isOk (by decide +kernel)

/-- A build that succeeds without short copies leaves in the output directory the pages of the blogs it
lists and of their posts, the home page, the page for addresses that lead nowhere and the marker file,
each once with the text that is made of its template, over the static files; nothing else is there. -/
theorem build_files (hs : s.paths.IsApart) (hw : w.IsSound) (hminify : s.minify = false)
    (hslugs : s.SlugsAreSteps w)
    (hdistinct : ∀ blogs, ((BlogList.load s.paths.blogList).go w).1 = .ok blogs →
      (blogs.map Blog.slug).Nodup)
    {shelf : HomePage.Shelf} (hgo : s.build.go w = (.ok shelf,v)) :
    ∃ (blogs : List Blog) (posts : String → List Post) (pages : Pages),
      ((BlogList.load s.paths.blogList).go w).1 = .ok blogs ∧
      (∀ b ∈ blogs, ((s.posts.load b.slug).go w).1 = .ok (posts b.slug)) ∧
      shelf = blogs.map (fun b => (b.slug,posts b.slug)) ∧
      s.pagesOf? w.opened.disk [] (s.sheets blogs posts) = some pages ∧
      pages.reverse.map Prod.fst = pagePlaces blogs posts ∧ (pagePlaces blogs posts).Nodup ∧
      (∀ r, v.disk.bytesAt? (s.outputPlace ++ r) =
        (pages.lookup r).or (s.publicFiles w.opened.disk r)) ∧
      v.pages.size = (shelf.map fun x => x.2.length).sum + blogs.length + 3 := by
  have hfile := not_file_of_build hs.output hw hgo
  rw [go_build] at hgo
  obtain ⟨a,b,hreset,hfill⟩ := Run.exists_of_go_bind hgo
  obtain ⟨hfresh,-⟩ := (meets_resetOutput hs.output hw.opened (not_file_opened hfile)).result a b hreset
  obtain ⟨-,hall⟩ := (hfresh.fill hs hw.opened rfl (hslugs.opened hs hw)).result shelf v hfill
  obtain ⟨blogs,hlisted,hloaded,hshelf,pages,hpages,hstage,hpaths⟩ := hall hminify
  have hblogs := BlogList.load_eq_ok_of_sameBelow hw.opened hw hs.content (hw.sameBelow_opened _) hlisted
  have hsteps := hslugs blogs hblogs
  have hposts : ∀ b ∈ blogs,
      ((s.posts.load b.slug).go w).1 = .ok (s.postsIn w.opened b.slug) := fun b hb =>
    PostFolder.load_eq_ok_of_sameBelow (f := s.posts) hw.opened hw hs.content (hsteps b hb)
      (hw.sameBelow_opened _) (hloaded b hb)
  have hown := fun b hb => PostFolder.slugs_of_load (f := s.posts) hw hs.content (hsteps b hb) (hposts b hb)
  have hshelf' : shelf = blogs.map fun b => (b.slug,s.postsIn w.opened b.slug) := by
    rw [hshelf,shelfOf,Table.ofPairs_of_nodup]
    rw [List.map_map]
    exact hdistinct blogs hblogs
  refine ⟨blogs,s.postsIn w.opened,pages,hblogs,hposts,hshelf',hpages,?_,?_,hstage.files,?_⟩
  · rw [places_pagesOf? hpages]
    exact map_names_sheets hsteps fun b hb => (hown b hb).1
  · exact nodup_pagePlaces (hdistinct blogs hblogs) fun b hb => (hown b hb).2
  · have hlength := congrArg List.length hpaths
    rw [Array.length_toList,List.length_map,length_sheets] at hlength
    rw [hlength,hshelf',List.map_map]
    rfl

theorem build_files_sample :
    (sample.paths.IsApart ∧ sampleProject.IsSound ∧ sample.minify = false ∧
      sample.SlugsAreSteps sampleProject ∧
      ∀ blogs, ((BlogList.load sample.paths.blogList).go sampleProject).1 = .ok blogs →
        (blogs.map Blog.slug).Nodup) ∧
    ∃ (shelf : HomePage.Shelf) (v : World) (blogs : List Blog) (posts : String → List Post)
      (pages : Pages), sample.build.go sampleProject = (.ok shelf,v) ∧
      ((BlogList.load sample.paths.blogList).go sampleProject).1 = .ok blogs ∧
      (∀ b ∈ blogs, ((sample.posts.load b.slug).go sampleProject).1 = .ok (posts b.slug)) ∧
      shelf = blogs.map (fun b => (b.slug,posts b.slug)) ∧
      sample.pagesOf? sampleProject.opened.disk [] (sample.sheets blogs posts) = some pages ∧
      pages.reverse.map Prod.fst = pagePlaces blogs posts ∧ (pagePlaces blogs posts).Nodup ∧
      (∀ r, v.disk.bytesAt? (sample.outputPlace ++ r) =
        (pages.lookup r).or (sample.publicFiles sampleProject.opened.disk r)) ∧
      v.pages.size = (shelf.map fun x => x.2.length).sum + blogs.length + 3 := by
  have hdistinct : ∀ blogs, ((BlogList.load sample.paths.blogList).go sampleProject).1 = .ok blogs →
      (blogs.map Blog.slug).Nodup := by
    intro blogs hblogs
    rw [slugs_sampleProject blogs hblogs]
    decide
  have hok : (sample.build.go sampleProject).1.isOk = true := by decide +kernel
  refine ⟨⟨isApart_sample,isSound_sampleProject,rfl,slugsAreSteps_sample,hdistinct⟩,?_⟩
  cases hgo : sample.build.go sampleProject with
  | mk e v =>
    cases e with
    | error f =>
      rw [hgo] at hok
      exact absurd hok (by simp [Except.isOk,Except.toBool])
    | ok shelf =>
      obtain ⟨blogs,posts,pages,hbuilt⟩ := build_files isApart_sample isSound_sampleProject rfl
        slugsAreSteps_sample hdistinct hgo
      exact ⟨shelf,v,blogs,posts,pages,rfl,hbuilt⟩

end Site

end BlogSite
