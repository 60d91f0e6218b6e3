import BlogSite.Proofs.SiteLinks
import BlogSite.Proofs.UrlReading

/-!
Links read as addresses. A link has the slug in it as it is, and as a path it leads to the page. As an address
it does so only where the slug has no query, no fragment and no escape in it; a card of a neighbour, which
begins with the slug, also needs one that does not begin with a scheme.
-/

namespace BlogSite

variable {b : Blog} {p q : Post}

/-! ### One link -/

/-- The link of a card denotes the page of its post just when the slug of the post is plain. -/
theorem denotes_card (hb : Path.IsStep b.slug) (hp : '/' ∉ p.slug.toList) :
    Url.Denotes (BlogPage.path b) ("posts/" ++ p.slug ++ ".html") (PostPage.path b p) ↔
      Url.IsPlain p.slug.toList := by
  have hlink : "posts/" ++ p.slug ++ ".html" = "posts" ++ "/" ++ (p.slug ++ ".html") := by
    apply String.toList_injective
    simp
  have hpage := Path.isStep_page hp
  have hfixed : Path.names "posts" = ["posts"] ∧ Path.IsStep "posts" := by decide
  have hnames : Path.names ("posts" ++ "/" ++ (p.slug ++ ".html")) = ["posts",p.slug ++ ".html"] := by
    rw [Path.names_append_slash,hfixed.1,Path.names_of_noSlash hpage.noSlash]
    rfl
  have hscheme : Url.hasScheme ("posts" ++ "/" ++ (p.slug ++ ".html")).toList = false := by
    rw [String.toList_append,String.toList_append]
    rfl
  have hposts : Url.IsPlain "posts".toList := ⟨by decide,by decide,by decide⟩
  rw [hlink,Url.denotes_iff,hscheme,hnames]
  · simp only [List.forall_mem_cons,List.not_mem_nil,false_imp_iff,implies_true,and_true,true_and,hposts,
      Url.isPlain_page_iff]
  · rw [hnames]
    simpa using ⟨hfixed.2,hpage⟩
  · rw [(PostPage.names_path hb hp).1,(BlogPage.names_path hb).1,hnames]
    rfl
  · rw [(PostPage.names_path hb hp).1,(BlogPage.names_path hb).1]
    simp

/-- The link of a neighbour denotes the page of that post just when its slug is plain and does not begin with a
scheme. -/
theorem denotes_navCard (hb : Path.IsStep b.slug) (hp : '/' ∉ p.slug.toList) (hq : '/' ∉ q.slug.toList)
    (hne : p.slug ≠ q.slug) :
    Url.Denotes (PostPage.path b p) (q.slug ++ ".html") (PostPage.path b q) ↔
      Url.hasScheme q.slug.toList = false ∧ Url.IsPlain q.slug.toList := by
  have hpage := Path.isStep_page hq
  have hnames := Path.names_of_noSlash hpage.noSlash
  rw [Url.denotes_iff,Url.hasScheme_page,hnames]
  · simp only [List.mem_singleton,forall_eq,Url.isPlain_page_iff]
  · simpa [hnames] using hpage
  · rw [(PostPage.names_path hb hq).1,(PostPage.names_path hb hp).1,hnames]
    rfl
  · rw [(PostPage.names_path hb hq).1,(PostPage.names_path hb hp).1]
    simpa using hne

/-- The link of an entry on the home page denotes the page of its post just when the slugs of the blog and of the
post are plain. -/
theorem denotes_entry (hb : Path.IsStep b.slug) (hp : '/' ∉ p.slug.toList) :
    Url.Denotes HomePage.path ("blogs/" ++ b.slug ++ "/posts/" ++ p.slug ++ ".html") (PostPage.path b p) ↔
      Url.IsPlain b.slug.toList ∧ Url.IsPlain p.slug.toList := by
  have hlink : "blogs/" ++ b.slug ++ "/posts/" ++ p.slug ++ ".html" = PostPage.path b p :=
    (target_home _).symm.trans (target_entry hb hp)
  obtain ⟨hnames,hsteps⟩ := PostPage.names_path hb hp
  have hscheme : Url.hasScheme (PostPage.path b p).toList = false := by
    rw [← hlink,String.toList_append,String.toList_append,String.toList_append,String.toList_append]
    rfl
  have hhome : Path.names HomePage.path = ["index.html"] := by decide
  have hfixed : Url.IsPlain "blogs".toList ∧ Url.IsPlain "posts".toList :=
    ⟨⟨by decide,by decide,by decide⟩,⟨by decide,by decide,by decide⟩⟩
  rw [hlink,Url.denotes_iff,hscheme,hnames]
  · simp only [List.forall_mem_cons,List.not_mem_nil,false_imp_iff,implies_true,and_true,true_and,hfixed,
      Url.isPlain_page_iff]
  · rwa [hnames]
  · rw [hhome]
    rfl
  · rw [hhome,hnames]
    simp

/-! ### The links of a site -/

/-- The neighbours of a post have other slugs. -/
theorem PostPage.neighbours_ne {newer : Option Post} {posts : List Post} {at_ : Place}
    (h : at_ ∈ placesFrom newer posts) (hdistinct : ((newer.toList ++ posts).map Post.slug).Nodup) :
    (∀ q ∈ at_.older, at_.post.slug ≠ q.slug) ∧ ∀ q ∈ at_.newer, at_.post.slug ≠ q.slug := by
  induction posts generalizing newer with
  | nil => exact absurd h List.not_mem_nil
  | cons p ps ih =>
    rw [List.map_append,List.nodup_append] at hdistinct
    obtain ⟨-,hposts,hnewer⟩ := hdistinct
    rcases List.mem_cons.mp h with rfl | h
    · refine ⟨fun q hq hsame => ?_,fun q hq hsame => ?_⟩
      · have hmem := List.mem_map_of_mem (f := Post.slug) (List.mem_of_mem_head? hq)
        exact (List.nodup_cons.mp hposts).1 (hsame ▸ hmem)
      · exact hnewer _ (List.mem_map_of_mem (Option.mem_toList.mpr hq)) _ (by simp) hsame.symm
    · exact ih h hposts

/-- The links in a text of a page. -/
def linksIn (shown : Shown) (token : String) : Option (List String) := (shown.lookup token).map links

/-- The links that are made of some things, one of each and in their order. -/
def Linked {α : Type} (links? : Option (List String)) (xs : List α) (R : α → String → Prop) : Prop :=
  ∃ ls, links? = some ls ∧ List.Forall₂ R xs ls

theorem linked_of_map {α : Type} {links? : Option (List String)} {xs : List α} {R : α → String → Prop}
    {link : α → String} (hlinks : links? = some (xs.map link)) (h : ∀ x ∈ xs, R x (link x)) :
    Linked links? xs R :=
  ⟨_,hlinks,List.forall₂_map_right_iff.mpr (List.forall₂_same.mpr h)⟩

/-- What the links of the pages denote. Each leads to a page of a post that is written, and it denotes this page
just when the slugs in it are plain and, where it begins with a slug, that one begins with no scheme. -/
structure LinksDenote (rows : List Row) (home : Shown) (shelf : HomePage.Shelf) : Prop where
  cards : ∀ r ∈ rows, Path.IsStep r.blog.slug →
    Linked (linksIn r.shown "POST_LIST") r.posts fun p link =>
      PostPage.path r.blog p ∈ r.postPaths ∧
      (Url.Denotes (BlogPage.path r.blog) link (PostPage.path r.blog p) ↔ Url.IsPlain p.slug.toList)
  neighbours : ∀ r ∈ rows, Path.IsStep r.blog.slug → ∀ at_ ∈ PostPage.places r.posts,
    ∀ n ∈ [("PREV_POST",at_.older),("NEXT_POST",at_.newer)],
    Linked (linksIn (PostPage.shown r.theme r.blog at_) n.1) n.2.toList fun q link =>
      PostPage.path r.blog q ∈ r.postPaths ∧
      (Url.Denotes (PostPage.path r.blog at_.post) link (PostPage.path r.blog q) ↔
        Url.hasScheme q.slug.toList = false ∧ Url.IsPlain q.slug.toList)
  latest : Linked (linksIn home "LATEST_POSTS") (HomePage.feed (rows.map Row.blog) shelf) fun e link =>
    Path.IsStep e.1.slug → PostPage.path e.1 e.2 ∈ rows.flatMap Row.postPaths ∧
      (Url.Denotes HomePage.path link (PostPage.path e.1 e.2) ↔
        Url.IsPlain e.1.slug.toList ∧ Url.IsPlain e.2.slug.toList)

/-! ### The texts of a page -/

theorem Row.linksIn_postList {r : Row} (ht : r.theme.IsPlain) :
    linksIn r.shown "POST_LIST" = some (r.posts.map fun p => "posts/" ++ p.slug ++ ".html") := by
  have hlookup : r.shown.lookup "POST_LIST" = some (r.theme.postList r.posts).render := rfl
  rw [linksIn,hlookup,Option.map_some,Theme.links_postList ht]

theorem PostPage.linksIn_neighbour {t : Theme} (ht : t.IsPlain) (b : Blog) (at_ : Place)
    {n : String × Option Post} (hn : n ∈ [("PREV_POST",at_.older),("NEXT_POST",at_.newer)]) :
    linksIn (shown t b at_) n.1 = some (n.2.toList.map fun q => q.slug ++ ".html") := by
  obtain ⟨label,hlookup⟩ : ∃ label,
      (shown t b at_).lookup n.1 = some (t.navCard n.2 label).render := by
    simp only [List.mem_cons,List.not_mem_nil,or_false] at hn
    rcases hn with rfl | rfl
    · exact ⟨olderLabel,rfl⟩
    · exact ⟨newerLabel,rfl⟩
  rw [linksIn,hlookup,Option.map_some,Theme.links_navCard ht]

theorem HomePage.linksIn_latestPosts {title : Value} {today : Calendar.Date} {blogs : List Blog}
    {shelf : Shelf} {recent : List String} :
    linksIn (shown title today blogs shelf recent) "LATEST_POSTS" = some ((feed blogs shelf).map
      fun e => "blogs/" ++ e.1.slug ++ "/posts/" ++ e.2.slug ++ ".html") := by
  rw [linksIn,lookup_latestPosts,Option.map_some,Home.links_latestPosts]

/-- The neighbours of a post are other posts of the blog. -/
theorem Row.IsNamed.neighbours {r : Row} (hr : r.IsNamed) {at_ : PostPage.Place}
    (hat : at_ ∈ PostPage.places r.posts) {n : String × Option Post}
    (hn : n ∈ [("PREV_POST",at_.older),("NEXT_POST",at_.newer)]) {q : Post} (hq : q ∈ n.2) :
    at_.post ∈ r.posts ∧ q ∈ r.posts ∧ at_.post.slug ≠ q.slug := by
  obtain ⟨hpost,holder,hnewer⟩ := PostPage.neighbours_mem hat
  obtain ⟨hother,hother'⟩ := PostPage.neighbours_ne hat (by simpa using hr.distinct)
  simp only [List.mem_cons,List.not_mem_nil,or_false] at hn
  rcases hn with rfl | rfl
  · exact ⟨hpost,holder q hq,hother q hq⟩
  · exact ⟨hpost,by simpa using hnewer q hq,hother' q hq⟩

/-- An entry of the home page is a post of a blog that is written, though the slug may be listed twice. -/
theorem HomePage.exists_of_mem_feed {rows : List Row} {e : Blog × Post}
    (he : e ∈ feed (rows.map Row.blog) (Row.shelf rows)) :
    ∃ r ∈ rows, e.2 ∈ r.posts ∧ PostPage.path e.1 e.2 ∈ r.postPaths := by
  obtain ⟨r,hmem,hblog,hp⟩ := mem_entries_iff.mp (List.mem_of_mem_take he)
  have hpath : PostPage.path e.1 e.2 = PostPage.path (Row.current rows r).blog e.2 := by
    rw [PostPage.path,PostPage.path,Row.slug_current hmem,hblog]
  exact ⟨_,Row.current_mem hmem,hp,hpath ▸ List.mem_map_of_mem hp⟩

/-- The links of rows with their home page denote what they should where the slugs are plain. -/
theorem linksDenote_of_isNamed {rows : List Row} (ht : ∀ r ∈ rows, r.theme.IsPlain)
    (hr : ∀ r ∈ rows, r.IsNamed) (title : Value) (today : Calendar.Date) (recent : List String) :
    LinksDenote rows (HomePage.shown title today (rows.map Row.blog) (Row.shelf rows) recent)
      (Row.shelf rows) where
  cards r hmem hb := by
    refine linked_of_map (Row.linksIn_postList (ht r hmem)) fun p hp => ?_
    exact ⟨List.mem_map_of_mem hp,denotes_card hb ((hr r hmem).noSlash p hp)⟩
  neighbours r hmem hb at_ hat n hn := by
    refine linked_of_map (PostPage.linksIn_neighbour (ht r hmem) r.blog at_ hn) fun q hq => ?_
    obtain ⟨hpost,hq,hne⟩ := (hr r hmem).neighbours hat hn (Option.mem_toList.mp hq)
    have hslash := (hr r hmem).noSlash
    exact ⟨List.mem_map_of_mem hq,denotes_navCard hb (hslash _ hpost) (hslash q hq) hne⟩
  latest := by
    refine linked_of_map HomePage.linksIn_latestPosts fun e he hb => ?_
    obtain ⟨r,hmem,hp,hpath⟩ := HomePage.exists_of_mem_feed he
    exact ⟨List.mem_flatMap.mpr ⟨r,hmem,hpath⟩,denotes_entry hb ((hr r hmem).noSlash _ hp)⟩

namespace Site

variable {s : Site} {shelf : HomePage.Shelf} {w v : World}

/-- Whenever a build succeeds, the pages it counts are files in the end, and the links to the posts of a blog whose
slug is a single name denote their pages just when the slugs in them are plain. -/
theorem build_linksDenote (hs : Path.IsDirect s.paths.outputDir) (hw : w.disk.IsTree)
    (hgo : s.build.go w = (.ok shelf,v)) :
    ∃ rows home, s.Course w rows home shelf v ∧ (∀ r ∈ rows, s.IsThemed r) ∧
      v.pages.toList = rows.flatMap Row.paths ++ [HomePage.path,"404.html",".nojekyll"] ∧
      (∀ p ∈ v.pages.toList, v.disk.HasFile (s.pagePlace p)) ∧ LinksDenote rows home shelf := by
  obtain ⟨rows,home,hcourse,hthemed⟩ := exists_themed_course hgo
  obtain ⟨htracks,hnamed⟩ := hcourse.tracks hs hw.named
  refine ⟨rows,home,hcourse,hthemed,htracks.pages,htracks.pages ▸ htracks.files,?_⟩
  obtain ⟨recent,-,rfl⟩ := hcourse.shows
  obtain rfl : shelf = Row.shelf rows := hcourse.shelved
  exact linksDenote_of_isNamed (fun r hr => (hthemed r hr).isPlain) hnamed _ _ _

theorem build_linksDenote_sample :
    (Path.IsDirect sample.paths.outputDir ∧ sampleProject.disk.IsTree) ∧
    ∃ shelf v, sample.build.go sampleProject = (.ok shelf,v) ∧
      ∃ rows home, sample.Course sampleProject rows home shelf v ∧ (∀ r ∈ rows, sample.IsThemed r) ∧
        v.pages.toList = rows.flatMap Row.paths ++ [HomePage.path,"404.html",".nojekyll"] ∧
        (∀ p ∈ v.pages.toList, v.disk.HasFile (sample.pagePlace p)) ∧ LinksDenote rows home shelf := by
  obtain ⟨shelf,v,hgo⟩ := exists_go_sample
  exact ⟨⟨isApart_sample.output,isSound_sampleProject.tree⟩,shelf,v,hgo,
    build_linksDenote isApart_sample.output isSound_sampleProject.tree hgo⟩

/-- The sample project with a number sign in the name of its post. -/
def fragmentProject : World :=
  { sampleProject with
    disk := (sampleProject.disk.prune ["content","blogs","a","posts","p.md"]).put
      ["content","blogs","a","posts","a#b.md"] (.file (PostFolder.samplePage "2024-03-01" "")) }

/-- Its build succeeds and writes the page of the post, and the card of the post denotes another path, at which
there is no page. -/
theorem build_fragmentProject : ∃ shelf v, sample.build.go fragmentProject = (.ok shelf,v) ∧
    ∃ rows home, sample.Course fragmentProject rows home shelf v ∧ ∃ r ∈ rows, ∃ p ∈ r.posts,
      p.slug = "a#b" ∧ PostPage.path r.blog p ∈ v.pages.toList ∧
      linksIn r.shown "POST_LIST" = some ["posts/a#b.html"] ∧
      ¬ Url.Denotes (BlogPage.path r.blog) "posts/a#b.html" (PostPage.path r.blog p) ∧
      Url.Denotes (BlogPage.path r.blog) "posts/a#b.html" "blogs/a/posts/a" ∧
      "blogs/a/posts/a" ∉ v.pages.toList := by
  have hrun : ((sample.build.go fragmentProject).1.isOk,
      (sample.build.go fragmentProject).2.pages.toList) =
        (true,["blogs/a/index.html","blogs/a/posts/a#b.html","index.html","404.html",".nojekyll"]) := by
    decide +kernel
  have hnamed : fragmentProject.disk.Named := (Disk.isTree_of_entries (by decide)).named
  obtain ⟨hok,hpages⟩ := Prod.mk.inj hrun
  obtain ⟨shelf,v,hgo⟩ := Run.exists_go_of_isOk hok
  rw [hgo] at hpages
  obtain ⟨rows,home,hcourse,hthemed⟩ := exists_themed_course hgo
  have htracked := (hcourse.tracks isApart_sample.output hnamed).1.pages
  have hslugs : (rows.map Row.blog).map Blog.slug = ["a"] :=
    Run.eq_of_toOption_map (g := List.map Blog.slug) (by decide +kernel) hcourse.listed
  rw [List.map_map] at hslugs
  obtain ⟨r,rfl,hslug⟩ := List.map_eq_singleton_iff.mp hslugs
  obtain ⟨hblog,hposts⟩ : BlogPage.path r.blog = "blogs/a/index.html" ∧
      r.postPaths = ["blogs/a/posts/a#b.html"] := by
    have hall : ["blogs/a/index.html","blogs/a/posts/a#b.html"] ++ ["index.html","404.html",".nojekyll"] =
        r.paths ++ [HomePage.path,"404.html",".nojekyll"] := by
      simpa using hpages.symm.trans htracked
    exact (List.cons.inj (List.append_cancel_right hall)).imp Eq.symm Eq.symm
  obtain ⟨p,hp,hpath⟩ := List.map_eq_singleton_iff.mp hposts
  have hb : Path.IsStep r.blog.slug := by
    rw [show r.blog.slug = "a" from hslug]
    decide
  have hnoSlash : '/' ∉ p.slug.toList :=
    ((hcourse.tracks isApart_sample.output hnamed).2 r (by simp)).noSlash p (by simp [hp])
  have hpage : p.slug = "a#b" := by
    have hnames := (PostPage.names_path hb hnoSlash).1
    rw [hpath] at hnames
    have hfixed : Path.names "blogs/a/posts/a#b.html" = ["blogs","a","posts","a#b.html"] := by decide
    simp only [hfixed,List.cons.injEq,and_true] at hnames
    have htext : (p.slug ++ ".html").toList = "a#b".toList ++ ".html".toList := by
      rw [← hnames.2.2.2]
      decide
    rw [String.toList_append] at htext
    exact String.toList_injective (List.append_cancel_right htext)
  refine ⟨shelf,v,hgo,_,home,hcourse,r,by simp,p,by simp [hp],hpage,?_⟩
  rw [hpath,hblog,hpages]
  refine ⟨by simp,?_,by decide +kernel,by decide +kernel,by decide⟩
  rw [Row.linksIn_postList (hthemed r (by simp)).isPlain,hp,List.map_singleton,hpage]
  rfl

end Site

end BlogSite
