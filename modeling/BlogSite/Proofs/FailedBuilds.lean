import BlogSite.Proofs.BuiltSite

/-!
Builds that fail. Whatever stops a build after the static files are copied, the output directory has the
first pages of the site over the static files and nothing else, each page whole, in the order in which a
build that succeeds writes them.
-/

namespace BlogSite

namespace Site

variable {s : Site} {w u v : World}

theorem blogPages_congr {blogs : List Blog} {posts posts' : String → List Post}
    (h : ∀ b ∈ blogs, posts b.slug = posts' b.slug) :
    s.blogPages posts blogs = s.blogPages posts' blogs :=
  List.flatMap_congr fun b hb => by rw [h b hb]

theorem sheets_congr {blogs : List Blog} {posts posts' : String → List Post}
    (h : ∀ b ∈ blogs, posts b.slug = posts' b.slug) : s.sheets blogs posts = s.sheets blogs posts' := by
  have hshelf : shelfOf posts blogs = shelfOf posts' blogs :=
    congrArg Table.ofPairs (List.map_congr_left fun b hb => by rw [h b hb])
  have hpages : s.blogPages posts blogs = s.blogPages posts' blogs := blogPages_congr h
  rw [sheets,sheets,hshelf]
  exact congrArg (· ++ _) hpages

/-- Once the static files are copied no page is written, and the rest of a build is to write them. -/
theorem written_of_copied (hs : s.paths.IsApart) (hw : w.IsSound)
    (hcopied : (do s.resetOutput; s.copyPublic : Run Unit).go w.opened = (.ok (),u)) :
    s.Written w.opened [] u ∧ s.build.go w = s.writeAll.go u := by
  obtain ⟨_,a,hreset,hcopy⟩ := Run.exists_of_go_bind hcopied
  have hfile := not_file_of_resetOutput hs.output hw hreset
  have hfresh := (meets_resetOutput hs.output hw.opened (not_file_opened hfile)).result _ a hreset
  refine ⟨(hfresh.1.copyPublic hs rfl).result _ u hcopy,?_⟩
  rw [go_build,Run.go_bind,hreset]
  simp only [fill_eq]
  rw [Run.go_bind,hcopy]

/-- What a build that fails leaves of the site of some blogs: the first pages over the static files, and
nothing else in the output directory. -/
structure CleanPrefix (s : Site) (w v : World) (blogs : List Blog) (pages : Pages) : Prop where
  unfinished : v.pages.size < (s.sheets blogs (s.postsIn w)).length
  paths : v.pages.toList = ((s.sheets blogs (s.postsIn w)).take v.pages.size).map Sheet.path
  whole : s.pagesOf? w.opened.disk [] ((s.sheets blogs (s.postsIn w)).take v.pages.size) = some pages
  places : pages.reverse.map Prod.fst = (pagePlaces blogs (s.postsIn w)).take v.pages.size
  files : ∀ r, v.disk.bytesAt? (s.outputPlace ++ r) =
    (pages.lookup r).or (s.publicFiles w.opened.disk r)
  unmarked : ".nojekyll" ∉ v.pages.toList

/-- The marker file is the last one, and no other page has its place. -/
theorem marker_notMem_take {blogs : List Blog} {posts : String → List Post}
    (hnodup : (pagePlaces blogs posts).Nodup) {n : Nat} (hn : n < (pagePlaces blogs posts).length) :
    [".nojekyll"] ∉ (pagePlaces blogs posts).take n := by
  obtain ⟨before,hbefore⟩ : ∃ before, pagePlaces blogs posts = before ++ [[".nojekyll"]] :=
    ⟨_,(List.append_assoc _ [["index.html"],["404.html"]] [[".nojekyll"]]).symm⟩
  rw [hbefore,List.length_append,List.length_singleton] at hn
  rw [hbefore] at hnodup
  rw [hbefore,List.take_append_of_le_length (by omega)]
  intro hmem
  exact (List.nodup_append.mp hnodup).2.2 _ (List.mem_of_mem_take hmem) _ (by simp) rfl

theorem Written.cleanPrefix {blogs : List Blog} {done : List Sheet} (h : s.Written w.opened done v)
    (hblogs : ∀ b ∈ blogs, Path.IsStep b.slug) (hdistinct : (blogs.map Blog.slug).Nodup)
    (hposts : ∀ b ∈ blogs, (∀ p ∈ s.postsIn w b.slug, '/' ∉ p.slug.toList) ∧
      ((s.postsIn w b.slug).map Post.slug).Nodup)
    (hfirst : done <+: s.sheets blogs (s.postsIn w))
    (hshort : done.length < (s.sheets blogs (s.postsIn w)).length) :
    v.pages.size = done.length ∧ ∃ pages, s.CleanPrefix w v blogs pages := by
  obtain ⟨pages,hpages,hstage,hpaths⟩ := h
  have hsize : v.pages.size = done.length := by
    simpa using congrArg List.length hpaths
  have hdone : done = (s.sheets blogs (s.postsIn w)).take v.pages.size := by
    rw [hsize]
    exact List.prefix_iff_eq_take.mp hfirst
  have hnames := map_names_sheets (s := s) hblogs fun b hb => (hposts b hb).1
  have hplaces : done.map (fun p => Path.names p.path) =
      (pagePlaces blogs (s.postsIn w)).take v.pages.size := by
    rw [← hnames,← List.map_take,← hdone]
  refine ⟨hsize,pages,hsize ▸ hshort,hdone ▸ hpaths,hdone ▸ hpages,?_,hstage.files,?_⟩
  · rw [places_pagesOf? hpages]
    simpa using hplaces
  · intro hmem
    rw [hpaths] at hmem
    have hmarker : [".nojekyll"] ∈ done.map fun p => Path.names p.path := by
      obtain ⟨p,hp,hpath⟩ := List.mem_map.mp hmem
      have hname : Path.names ".nojekyll" = [".nojekyll"] := by decide
      exact List.mem_map.mpr ⟨p,hp,hpath ▸ hname⟩
    refine marker_notMem_take (nodup_pagePlaces hdistinct fun b hb => (hposts b hb).2) ?_
      (hplaces ▸ hmarker)
    rwa [← hnames,List.length_map,hsize]

/-- The posts of a blog are told alike before and after the start of a build. -/
theorem load_opened (hs : s.paths.IsApart) (hw : w.IsSound) {b : Blog} (hb : Path.IsStep b.slug) :
    ((s.posts.load b.slug).go w.opened).1 = ((s.posts.load b.slug).go w).1 :=
  (PostFolder.load_eq_of_sameBelow (f := s.posts) hw.opened hw hs.content hb
    (hw.sameBelow_opened _)).symm

theorem slugs_postsIn (hs : s.paths.IsApart) (hw : w.IsSound) {b : Blog} (hb : Path.IsStep b.slug) :
    (∀ p ∈ s.postsIn w b.slug, '/' ∉ p.slug.toList) ∧ ((s.postsIn w b.slug).map Post.slug).Nodup := by
  unfold postsIn
  cases hload : ((s.posts.load b.slug).go w).1 with
  | error e => simp [Except.toOption]
  | ok posts => exact PostFolder.slugs_of_load (f := s.posts) hw hs.content hb hload

/-- A build that fails without short copies, after the static files are copied, leaves a clean prefix of
the site. If there is no list of blogs, no page is written. Otherwise the pages that have been written
are the first ones, blog by blog with its posts newest first and then the home page, the page for
addresses that lead nowhere and the marker file; they lie whole over the static files, and nothing else
is there. No page is written of a blog whose posts cannot be loaded, nor of a blog after it; and if the
failure tells of a post, the pages of all blogs before the one that has it are complete. -/
theorem build_cleanPrefix (hs : s.paths.IsApart) (hw : w.IsSound) (hminify : s.minify = false)
    (hslugs : s.SlugsAreSteps w)
    (hdistinct : ∀ blogs, ((BlogList.load s.paths.blogList).go w).1 = .ok blogs →
      (blogs.map Blog.slug).Nodup)
    (hcopied : (do s.resetOutput; s.copyPublic : Run Unit).go w.opened = (.ok (),u)) {f : Failure}
    (hgo : s.build.go w = (.error f,v)) :
    ((∀ blogs, ((BlogList.load s.paths.blogList).go w).1 ≠ .ok blogs) ∧ v.pages = #[] ∧
      ∀ r, v.disk.bytesAt? (s.outputPlace ++ r) = s.publicFiles w.opened.disk r) ∨
    ∃ blogs pages, ((BlogList.load s.paths.blogList).go w).1 = .ok blogs ∧
      s.CleanPrefix w v blogs pages ∧
      (∀ before b after e, blogs = before ++ b :: after →
        ((s.posts.load b.slug).go w).1 = .error e →
        v.pages.size ≤ (s.blogPages (s.postsIn w) before).length) ∧
      ∀ slug item fault, f = .invalidPost slug item fault → ∃ before b after,
        blogs = before ++ b :: after ∧ b.slug = slug ∧ ((s.posts.load b.slug).go w).1 = .error f ∧
        v.pages.size = (s.blogPages (s.postsIn w) before).length := by
  obtain ⟨hwritten,hrest⟩ := written_of_copied hs hw hcopied
  have hleft := (hwritten.writeAll hs hw.opened (hslugs.opened hs hw)).failure f v (hrest.symm.trans hgo)
  have hsame := hw.sameBelow_opened (Path.place s.paths.contentDir)
  rcases hleft.2 hminify with ⟨hnone,hwritten⟩ | ⟨blogs,done,hlisted,hunfinished,hwritten⟩
  · refine Or.inl ⟨fun blogs hblogs => ?_,?_,?_⟩
    · exact hnone blogs (BlogList.load_eq_ok_of_sameBelow hw hw.opened hs.content hsame.symm hblogs)
    · obtain ⟨-,-,-,hpaths⟩ := hwritten
      exact Array.toList_eq_nil_iff.mp hpaths
    · obtain ⟨pages,hpages,hstage,-⟩ := hwritten
      obtain rfl := Option.some.inj hpages
      exact hstage.files
  have hblogs := BlogList.load_eq_ok_of_sameBelow hw.opened hw hs.content hsame hlisted
  have hsteps := hslugs blogs hblogs
  have hloads : ∀ b ∈ blogs,
      ((s.posts.load b.slug).go w.opened).1 = ((s.posts.load b.slug).go w).1 :=
    fun b hb => load_opened hs hw (hsteps b hb)
  have hposts : ∀ b ∈ blogs, s.postsIn w.opened b.slug = s.postsIn w b.slug := by
    intro b hb
    rw [postsIn,hloads b hb,postsIn]
  have hbefore : ∀ {before b after}, blogs = before ++ b :: after →
      s.blogPages (s.postsIn w.opened) before = s.blogPages (s.postsIn w) before := fun hsplit =>
    blogPages_congr fun b hb => hposts b (by simp [hsplit,hb])
  obtain ⟨hfirst,hshort,hunread,hreason⟩ := hunfinished
  rw [sheets_congr hposts] at hfirst hshort
  obtain ⟨hsize,pages,hclean⟩ := hwritten.cleanPrefix hsteps (hdistinct blogs hblogs)
    (fun b hb => slugs_postsIn hs hw (hsteps b hb)) hfirst hshort
  refine Or.inr ⟨blogs,pages,hblogs,hclean,?_,?_⟩
  · intro before b after e hsplit he
    rw [← hloads b (by simp [hsplit])] at he
    rw [hsize,← hbefore hsplit]
    exact (hunread before b after e hsplit he).length_le
  · rintro slug item fault rfl
    obtain hnone | ⟨before,b,after,hsplit,he,hdone⟩ := hreason
    · exact absurd hnone (by simp [Failure.blog?])
    rw [hloads b (by simp [hsplit])] at he
    refine ⟨before,b,after,hsplit,?_,he,by rw [hsize,← hbefore hsplit,hdone]⟩
    exact (PostFolder.blog?_of_load_error hw.named he slug rfl).symm

/-- A project with a second blog, whose only post is a draft that has no author. -/
def brokenProject : World where
  disk :=
    { entries :=
        [(["content"],.directory),(["content","blogs"],.directory),
          (["content","blogs.json"],.file "[\x7b\"slug\":\"a\"\x7d,\x7b\"slug\":\"b\"\x7d]".toUTF8),
          (["content","blogs","a"],.directory),(["content","blogs","a","posts"],.directory),
          (["content","blogs","a","posts","p.md"],.file (PostFolder.samplePage "2024-03-01" "")),
          (["content","blogs","b"],.directory),(["content","blogs","b","posts"],.directory),
          (["content","blogs","b","posts","q.md"],
            .file "---\ntitle: T\ndate: x\ndraft: true\n---\n".toUTF8),
          (["templates"],.directory),(["templates","word-retro"],.directory),
          (["templates","word-retro","blog-list.html"],.file "Blog".toUTF8),
          (["templates","word-retro","post.html"],.file "Post".toUTF8),
          (["public"],.directory),(["public","style.css"],.file "p".toUTF8)]
      distinct := by decide }

theorem isSound_brokenProject : brokenProject.IsSound where
  tree := Disk.isTree_of_entries (by decide)
  named := by simp [World.LogNamed,brokenProject]
  direct := by simp [brokenProject]
  logged := by simp [World.LogAt,brokenProject]

theorem slugs_brokenProject (blogs : List Blog)
    (h : ((BlogList.load sample.paths.blogList).go brokenProject).1 = .ok blogs) :
    blogs.map Blog.slug = ["a","b"] :=
  Run.eq_of_toOption_map (g := List.map Blog.slug) (by decide +kernel) h

theorem build_cleanPrefix_sample :
    (sample.paths.IsApart ∧ brokenProject.IsSound ∧ sample.minify = false ∧
      sample.SlugsAreSteps brokenProject ∧
      ∀ blogs, ((BlogList.load sample.paths.blogList).go brokenProject).1 = .ok blogs →
        (blogs.map Blog.slug).Nodup) ∧
    ∃ (f : Failure) (u v : World) (blogs : List Blog) (pages : Pages),
      (do sample.resetOutput; sample.copyPublic : Run Unit).go brokenProject.opened = (.ok (),u) ∧
      sample.build.go brokenProject = (.error f,v) ∧
      ((BlogList.load sample.paths.blogList).go brokenProject).1 = .ok blogs ∧
      sample.CleanPrefix brokenProject v blogs pages ∧
      ∃ before b after, blogs = before ++ b :: after ∧ b.slug = "b" ∧
        ((sample.posts.load b.slug).go brokenProject).1 = .error f ∧
        v.pages.size = (sample.blogPages (sample.postsIn brokenProject) before).length := by
  have hdistinct : ∀ blogs, ((BlogList.load sample.paths.blogList).go brokenProject).1 = .ok blogs →
      (blogs.map Blog.slug).Nodup := by
    intro blogs hblogs
    rw [slugs_brokenProject blogs hblogs]
    decide
  have hsteps : sample.SlugsAreSteps brokenProject := by
    intro blogs hblogs b hb
    have hslug : b.slug ∈ ["a","b"] := slugs_brokenProject blogs hblogs ▸ List.mem_map_of_mem hb
    have hall : ∀ slug ∈ ["a","b"], Path.IsStep slug := by decide
    exact hall _ hslug
  have hcopied : ((do sample.resetOutput; sample.copyPublic : Run Unit).go
      brokenProject.opened).1.isOk = true := by decide +kernel
  have hlisted : ((BlogList.load sample.paths.blogList).go brokenProject).1.isOk = true := by
    decide +kernel
  have hfails : (match (sample.build.go brokenProject).1 with
      | .ok _ => none
      | .error f => some f) = some (.invalidPost "b" "q.md" (.missing ["author"])) := by decide +kernel
  refine ⟨⟨isApart_sample,isSound_brokenProject,rfl,hsteps,hdistinct⟩,?_⟩
  cases hcopy : (do sample.resetOutput; sample.copyPublic : Run Unit).go brokenProject.opened with
  | mk r u =>
    cases hgo : sample.build.go brokenProject with
    | mk e v =>
      cases r with
      | error f => simp [hcopy,Except.isOk,Except.toBool] at hcopied
      | ok _ =>
        cases e with
        | ok shelf => simp [hgo] at hfails
        | error f =>
          obtain rfl : f = .invalidPost "b" "q.md" (.missing ["author"]) := by simpa [hgo] using hfails
          rcases build_cleanPrefix isApart_sample isSound_brokenProject rfl hsteps hdistinct hcopy hgo with
            ⟨hnone,-⟩ | ⟨blogs,pages,hblogs,hclean,-,hreason⟩
          · cases hload : ((BlogList.load sample.paths.blogList).go brokenProject).1 with
            | error e => simp [hload,Except.isOk,Except.toBool] at hlisted
            | ok blogs => exact absurd hload (hnone blogs)
          · exact ⟨_,u,v,blogs,pages,rfl,rfl,hblogs,hclean,hreason _ _ _ rfl⟩

end Site

end BlogSite
