import BlogSite.Proofs.EscapedTexts
import BlogSite.Proofs.LinkReading
import BlogSite.Proofs.SiteCounts

/-!
Where the links of a site lead. Links are made from slugs in several places, relative to the directories of
different pages, and the paths of the pages are made from slugs elsewhere. They agree: every link of a
blog page, of a post page and of the home page leads to a page that is written, and the cards and the rows
lead to all pages of their kind in order.
-/

namespace BlogSite

/-! ### Paths that end in a name -/

namespace Path

/-- A path that ends in a name. -/
def EndsInName (p : String) : Prop := ∃ t c, p.toList = t ++ [c] ∧ c ≠ '/'

variable {base p n : String}

theorem IsStep.endsInName (hn : IsStep n) : EndsInName n := by
  rcases List.eq_nil_or_concat n.toList with hnil | ⟨t,c,hlast⟩
  · exact absurd (String.toList_injective hnil) hn.ne_empty
  · rw [List.concat_eq_append] at hlast
    refine ⟨t,c,hlast,?_⟩
    rintro rfl
    exact hn.noSlash (by simp [hlast])

theorem EndsInName.append (hn : EndsInName n) (base : String) : EndsInName (base ++ n) := by
  obtain ⟨t,c,hlast,hc⟩ := hn
  exact ⟨base.toList ++ t,c,by simp [hlast],hc⟩

theorem EndsInName.join (hbase : EndsInName base) (hp : isAbsolute p = false) :
    join base p = base ++ "/" ++ p := by
  obtain ⟨t,c,hlast,hc⟩ := hbase
  have hne : base ≠ "" := by
    rintro rfl
    simp at hlast
  simp [Path.join,hp,hne,hlast,hc]

theorem EndsInName.parent (hbase : EndsInName base) (hn : '/' ∉ n.toList) :
    parent (base ++ "/" ++ n) = base := by
  obtain ⟨t,c,hlast,hc⟩ := hbase
  rw [parent_of_ne_slash (t := t) (c := c) (m := n.toList) (by simp [hlast]) hn hc,← hlast,
    String.ofList_toList]

end Path

/-! ### Targets of links -/

/-- The path that a link on a page leads to. -/
def target (page link : String) : String := Path.join (Path.parent page) link

variable {b : Blog} {p q : Post}

theorem endsInName_blogs (hb : Path.IsStep b.slug) : Path.EndsInName ("blogs" ++ "/" ++ b.slug) :=
  hb.endsInName.append ("blogs" ++ "/")

theorem endsInName_posts (b : Blog) : Path.EndsInName ("blogs" ++ "/" ++ b.slug ++ "/" ++ "posts") :=
  Path.EndsInName.append (Path.IsStep.endsInName (by decide)) _

theorem join_blogs (hb : Path.IsStep b.slug) : Path.join "blogs" b.slug = "blogs" ++ "/" ++ b.slug := by
  have hblogs : Path.IsStep "blogs" := by decide
  have hnames : ∀ n ∈ Path.names b.slug, Path.IsStep n := by
    simpa [Path.names_of_noSlash hb.noSlash] using hb
  exact hblogs.endsInName.join (Path.not_isAbsolute_of_isStep hnames)

theorem BlogPage.path_eq (hb : Path.IsStep b.slug) :
    BlogPage.path b = "blogs" ++ "/" ++ b.slug ++ "/" ++ "index.html" := by
  rw [← (endsInName_blogs hb).join (by decide),← join_blogs hb]
  rfl

theorem isAbsolute_postPage (hp : '/' ∉ p.slug.toList) : Path.isAbsolute (p.slug ++ ".html") = false := by
  have hstep : Path.IsStep (p.slug ++ ".html") := Path.isStep_page hp
  refine Path.not_isAbsolute_of_isStep fun n hn => ?_
  rw [Path.names_of_noSlash hstep.noSlash,List.mem_singleton] at hn
  exact hn ▸ hstep

theorem PostPage.path_eq (hb : Path.IsStep b.slug) (hp : '/' ∉ p.slug.toList) :
    PostPage.path b p = "blogs" ++ "/" ++ b.slug ++ "/" ++ "posts" ++ "/" ++ (p.slug ++ ".html") := by
  rw [← (endsInName_posts b).join (isAbsolute_postPage hp),← (endsInName_blogs hb).join (by decide),
    ← join_blogs hb]
  rfl

/-- The link of a card leads from the page of the blog to the page of the post. -/
theorem target_card (hb : Path.IsStep b.slug) (hp : '/' ∉ p.slug.toList) :
    target (BlogPage.path b) ("posts/" ++ p.slug ++ ".html") = PostPage.path b p := by
  have hrelative : Path.isAbsolute ("posts/" ++ p.slug ++ ".html") = false := by
    rw [String.append_assoc,Path.isAbsolute_append (by decide)]
    decide
  rw [target,BlogPage.path_eq hb,(endsInName_blogs hb).parent (by decide),
    (endsInName_blogs hb).join hrelative,PostPage.path_eq hb hp]
  apply String.toList_injective
  simp

/-- The link of a neighbour leads from the page of one post to that of another one of the blog. -/
theorem target_navCard (hb : Path.IsStep b.slug) (hp : '/' ∉ p.slug.toList) (hq : '/' ∉ q.slug.toList) :
    target (PostPage.path b p) (q.slug ++ ".html") = PostPage.path b q := by
  rw [target,PostPage.path_eq hb hp,(endsInName_posts b).parent (Path.isStep_page hp).noSlash,
    (endsInName_posts b).join (isAbsolute_postPage hq),PostPage.path_eq hb hq]

/-- From the home page a link leads where it says. -/
theorem target_home (link : String) : target HomePage.path link = link := by
  have hparent : Path.parent HomePage.path = "" := by decide
  rw [target,hparent]
  simp [Path.join]

theorem target_row (hb : Path.IsStep b.slug) :
    target HomePage.path ("blogs/" ++ b.slug ++ "/index.html") = BlogPage.path b := by
  rw [target_home,BlogPage.path_eq hb]
  apply String.toList_injective
  simp

theorem target_entry (hb : Path.IsStep b.slug) (hp : '/' ∉ p.slug.toList) :
    target HomePage.path ("blogs/" ++ b.slug ++ "/posts/" ++ p.slug ++ ".html") = PostPage.path b p := by
  rw [target_home,PostPage.path_eq hb hp]
  apply String.toList_injective
  simp

/-! ### The texts of a page -/

/-- The paths that the links in a text of a page lead to. -/
def targets (page : String) (shown : Shown) (token : String) : Option (List String) :=
  (shown.lookup token).map fun text => (links text).map (target page)

namespace PostPage

/-- The neighbours of a post are posts of the same blog. -/
theorem neighbours_mem {newer : Option Post} {posts : List Post} {at_ : Place}
    (h : at_ ∈ placesFrom newer posts) :
    at_.post ∈ posts ∧ (∀ q ∈ at_.older, q ∈ posts) ∧ ∀ q ∈ at_.newer, q ∈ newer.toList ++ posts := by
  induction posts generalizing newer with
  | nil => exact absurd h List.not_mem_nil
  | cons p ps ih =>
    rcases List.mem_cons.mp h with rfl | h
    · exact ⟨by simp,fun q hq => List.mem_cons_of_mem _ (List.mem_of_mem_head? hq),
        fun q hq => List.mem_append_left _ (Option.mem_toList.mpr hq)⟩
    · obtain ⟨hpost,holder,hnewer⟩ := ih h
      refine ⟨List.mem_cons_of_mem _ hpost,fun q hq => List.mem_cons_of_mem _ (holder q hq),
        fun q hq => List.mem_append_right _ ?_⟩
      simpa using hnewer q hq

end PostPage

namespace Row

variable {r : Row}

theorem targets_postList (ht : r.theme.IsPlain) (hb : Path.IsStep r.blog.slug) (hr : r.IsNamed) :
    targets (BlogPage.path r.blog) r.shown "POST_LIST" = some r.postPaths := by
  have hlookup : r.shown.lookup "POST_LIST" = some (r.theme.postList r.posts).render := rfl
  rw [targets,hlookup,Option.map_some,Theme.links_postList ht,List.map_map,postPaths]
  exact congrArg some (List.map_congr_left fun p hp => target_card hb (hr.noSlash p hp))

/-- The cards of the neighbours lead to posts of the blog. -/
theorem targets_neighbours (ht : r.theme.IsPlain) (hb : Path.IsStep r.blog.slug) (hr : r.IsNamed)
    {at_ : PostPage.Place} (hat : at_ ∈ PostPage.places r.posts) {token : String}
    (htoken : token ∈ ["PREV_POST","NEXT_POST"]) :
    ∃ ps, targets (PostPage.path r.blog at_.post) (PostPage.shown r.theme r.blog at_) token = some ps ∧
      ps ⊆ r.postPaths := by
  obtain ⟨hpost,holder,hnewer⟩ := PostPage.neighbours_mem hat
  obtain ⟨neighbour,label,hlookup,hmem⟩ : ∃ (neighbour : Option Post) (label : Value),
      (PostPage.shown r.theme r.blog at_).lookup token = some (r.theme.navCard neighbour label).render ∧
      ∀ q ∈ neighbour, q ∈ r.posts := by
    simp only [List.mem_cons,List.not_mem_nil,or_false] at htoken
    rcases htoken with rfl | rfl
    · exact ⟨at_.older,PostPage.olderLabel,rfl,holder⟩
    · exact ⟨at_.newer,PostPage.newerLabel,rfl,hnewer⟩
  refine ⟨_,by rw [targets,hlookup,Option.map_some,Theme.links_navCard ht,List.map_map],?_⟩
  intro path hpath
  obtain ⟨q,hq,rfl⟩ := List.mem_map.mp hpath
  have hq' : q ∈ r.posts := hmem q (Option.mem_toList.mp hq)
  rw [Function.comp_apply,target_navCard hb (hr.noSlash _ hpost) (hr.noSlash q hq')]
  exact List.mem_map_of_mem hq'

end Row

/-- The links of the pages match the pages. The cards on the page of a blog and the rows on the home page
lead to the pages of the posts and of the blogs one by one; the entries on the home page and the cards of
neighbours lead to pages of posts, those of neighbours within a blog. -/
structure LinksMatch (rows : List Row) (home : Shown) : Prop where
  cards : ∀ r ∈ rows, targets (BlogPage.path r.blog) r.shown "POST_LIST" = some r.postPaths
  once : ∀ r ∈ rows, r.postPaths.Nodup
  table : targets HomePage.path home "BLOG_TABLE_ROWS" = some (rows.map fun r => BlogPage.path r.blog)
  latest : ∃ ps, targets HomePage.path home "LATEST_POSTS" = some ps ∧ ps ⊆ rows.flatMap Row.postPaths
  neighbours : ∀ r ∈ rows, ∀ at_ ∈ PostPage.places r.posts, ∀ token ∈ ["PREV_POST","NEXT_POST"],
    ∃ ps, targets (PostPage.path r.blog at_.post) (PostPage.shown r.theme r.blog at_) token = some ps ∧
      ps ⊆ r.postPaths

namespace HomePage

variable {rows : List Row} {title : Value} {today : Calendar.Date} {recent : List String}

theorem targets_blogRows {shelf : Shelf} (hb : ∀ r ∈ rows, Path.IsStep r.blog.slug) :
    targets path (shown title today (rows.map Row.blog) shelf recent) "BLOG_TABLE_ROWS" =
      some (rows.map fun r => BlogPage.path r.blog) := by
  have hlookup : (shown title today (rows.map Row.blog) shelf recent).lookup "BLOG_TABLE_ROWS" =
      some (Home.blogRows (rows.map Row.blog)
        ((shelf.map fun p => (p.1,(p.2.length : Int))).map fun c => (c.1,.int c.2)) recent).render := by
    rw [List.map_map]
    rfl
  rw [targets,hlookup,Option.map_some,Home.links_blogRows,List.map_map,List.map_map]
  exact congrArg some (List.map_congr_left fun r hr => target_row (hb r hr))

/-- The entries of the home page lead to posts that are written. -/
theorem targets_latestPosts (hb : ∀ r ∈ rows, Path.IsStep r.blog.slug) (hr : ∀ r ∈ rows, r.IsNamed)
    (hdistinct : (rows.map fun r => r.blog.slug).Nodup) :
    ∃ ps, targets path (shown title today (rows.map Row.blog) (Row.shelf rows) recent) "LATEST_POSTS" =
      some ps ∧ ps ⊆ rows.flatMap Row.postPaths := by
  refine ⟨_,by rw [targets,lookup_latestPosts,Option.map_some,Home.links_latestPosts,List.map_map],?_⟩
  intro page hpage
  obtain ⟨⟨b,p⟩,he,rfl⟩ := List.mem_map.mp hpage
  obtain ⟨r,hmem,rfl,hp⟩ := mem_entries_iff.mp (List.mem_of_mem_take he)
  rw [Row.current_eq hdistinct hmem] at hp
  rw [Function.comp_apply,target_entry (hb r hmem) ((hr r hmem).noSlash p hp)]
  exact List.mem_flatMap.mpr ⟨r,hmem,List.mem_map_of_mem hp⟩

end HomePage

namespace Site

variable {s : Site} {rows : List Row} {home : Shown} {shelf : HomePage.Shelf} {w v : World}

theorem IsThemed.isPlain {r : Row} (h : s.IsThemed r) : r.theme.IsPlain := by
  refine Theme.isPlain_of_mem_registry _ ?_
  have hdefault : Theme.default ∈ Theme.registry := List.mem_cons_self
  unfold IsThemed Theme.ofValue? at h
  split at h
  · exact Option.some.inj h ▸ hdefault
  · split at h
    · exact absurd h (by simp)
    · split at h
      · exact Option.some.inj h ▸ Theme.named_mem_registry _
      · exact Option.some.inj h ▸ hdefault

/-- Blogs whose slugs are single names, no two the same, have no place in common. -/
theorem apart_of_isStep (hb : ∀ r ∈ rows, Path.IsStep r.blog.slug)
    (hdistinct : (rows.map fun r => r.blog.slug).Nodup) : Row.Apart rows := by
  have htrail : ∀ r ∈ rows, r.blog.trail = [r.blog.slug] := fun r hr =>
    (Path.staysBelow_of_isStep (hb r hr)).2
  constructor
  · have hnames : rows.map (fun r => r.blog.trail) = (rows.map fun r => r.blog.slug).map fun n => [n] := by
      rw [List.map_map]
      exact List.map_congr_left htrail
    rw [hnames]
    exact hdistinct.map fun _ _ h => List.singleton_inj.mp h
  · rintro r hr r' hr' ⟨hsame,-⟩
    rw [htrail r hr,htrail r' hr'] at hsame
    exact absurd (congrArg List.length hsame) (by simp)

theorem postPaths_nodup {r : Row} (hrows : (rows.flatMap Row.paths).Nodup) (hr : r ∈ rows) :
    r.postPaths.Nodup :=
  (List.nodup_cons.mp ((List.nodup_flatMap.mp hrows).1 r hr)).2

/-- Whenever a build succeeds whose blogs have different single names, its links match its pages: those
that are counted, each of which is a file in the end at a place of its own. -/
theorem build_linksMatch (hs : Path.IsDirect s.paths.outputDir) (hw : w.disk.IsTree)
    (hslugs : ∀ blogs, s.Lists w blogs →
      (∀ b ∈ blogs, Path.IsStep b.slug) ∧ (blogs.map Blog.slug).Nodup)
    (hgo : s.build.go w = (.ok shelf,v)) :
    ∃ rows home, s.Course w rows home shelf v ∧ (∀ r ∈ rows, s.IsThemed r) ∧
      v.pages.toList = rows.flatMap Row.paths ++ [HomePage.path,"404.html",".nojekyll"] ∧
      (v.pages.toList.map s.pagePlace).Nodup ∧
      (∀ p ∈ v.pages.toList, v.disk.HasFile (s.pagePlace p)) ∧
      LinksMatch rows home := by
  obtain ⟨rows,home,hcourse,hthemed⟩ := exists_themed_course hgo
  obtain ⟨hsteps,hdistinct⟩ := hslugs _ hcourse.listed
  obtain ⟨htracks,hnamed⟩ := hcourse.tracks hs hw.named
  rw [List.map_map] at hdistinct
  have hb : ∀ r ∈ rows, Path.IsStep r.blog.slug := fun r hr => hsteps _ (List.mem_map_of_mem hr)
  have hbelow : ∀ r ∈ rows, Path.StaysBelow r.blog.slug := fun r hr => (Path.staysBelow_of_isStep (hb r hr)).1
  have hplaces := (nodup_pagePlaces_iff (s := s) hbelow hnamed).mpr (apart_of_isStep hb hdistinct)
  have hpaths : (rows.flatMap Row.paths).Nodup := (List.nodup_append.mp (List.Nodup.of_map _ hplaces)).1
  rw [← htracks.pages] at hplaces
  refine ⟨rows,home,hcourse,hthemed,htracks.pages,hplaces,htracks.pages ▸ htracks.files,?_⟩
  obtain ⟨recent,-,rfl⟩ := hcourse.shows
  obtain rfl : shelf = Row.shelf rows := hcourse.shelved
  exact {
    cards := fun r hr => Row.targets_postList (hthemed r hr).isPlain (hb r hr) (hnamed r hr)
    once := fun r hr => postPaths_nodup hpaths hr
    table := HomePage.targets_blogRows hb
    latest := HomePage.targets_latestPosts hb hnamed hdistinct
    neighbours := fun r hr at_ hat token htoken =>
      Row.targets_neighbours (hthemed r hr).isPlain (hb r hr) (hnamed r hr) hat htoken }

theorem build_linksMatch_sample :
    (Path.IsDirect sample.paths.outputDir ∧ sampleProject.disk.IsTree ∧
      ∀ blogs, sample.Lists sampleProject blogs →
        (∀ b ∈ blogs, Path.IsStep b.slug) ∧ (blogs.map Blog.slug).Nodup) ∧
    ∃ shelf v, sample.build.go sampleProject = (.ok shelf,v) ∧
      ∃ rows home, sample.Course sampleProject rows home shelf v ∧ (∀ r ∈ rows, sample.IsThemed r) ∧
        v.pages.toList = rows.flatMap Row.paths ++ [HomePage.path,"404.html",".nojekyll"] ∧
        (v.pages.toList.map sample.pagePlace).Nodup ∧
        (∀ p ∈ v.pages.toList, v.disk.HasFile (sample.pagePlace p)) ∧
        LinksMatch rows home := by
  have hslugs : ∀ blogs, sample.Lists sampleProject blogs →
      (∀ b ∈ blogs, Path.IsStep b.slug) ∧ (blogs.map Blog.slug).Nodup := by
    intro blogs hblogs
    have hnames := slugs_sample hblogs
    have hstep : Path.IsStep "a" := by decide
    refine ⟨fun b hb => ?_,hnames ▸ by decide⟩
    have hslug : b.slug ∈ ["a"] := hnames ▸ List.mem_map_of_mem hb
    exact List.mem_singleton.mp hslug ▸ hstep
  obtain ⟨shelf,v,hgo⟩ := exists_go_sample
  exact ⟨⟨isApart_sample.output,isSound_sampleProject.tree,hslugs⟩,shelf,v,hgo,
    build_linksMatch isApart_sample.output isSound_sampleProject.tree hslugs hgo⟩

end Site

end BlogSite
