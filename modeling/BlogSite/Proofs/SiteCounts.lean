import BlogSite.Proofs.OutputContainment
import BlogSite.Proofs.PageAgreement
import BlogSite.Proofs.PageClashes
import Mathlib.Data.List.Dedup
import Mathlib.Data.List.Flatten

/-!
The counts that a build tells. The home page goes through the list of blogs, the result is a table by
their slugs, pages are counted when they are written, and what is there in the end are the files at their
places. All of these agree just when no page of a blog has the place of a page of another one. Slugs are
taken as they are listed, so this is up to whoever lists them.
-/

namespace BlogSite

open BlogSite.Html

theorem nodup_of_length_dedup {α : Type} [DecidableEq α] {xs : List α}
    (h : xs.length = xs.dedup.length) : xs.Nodup :=
  List.dedup_eq_self.mp ((List.dedup_sublist xs).eq_of_length h.symm)

namespace HomePage

/-- The posts that the home page shows, with their blogs. -/
def feed (blogs : List Blog) (shelf : Shelf) : List (Blog × Post) := (entries blogs shelf).take latestCount

variable {title : Value} {today : Calendar.Date} {blogs : List Blog} {shelf : Shelf} {recent : List String}

theorem lookup_totalBlogs : (shown title today blogs shelf recent).lookup "TOTAL_BLOGS" =
    some (toString blogs.length) :=
  rfl

theorem lookup_totalPosts : (shown title today blogs shelf recent).lookup "TOTAL_POSTS" =
    some (toString (entries blogs shelf).length) :=
  rfl

theorem lookup_latestPosts : (shown title today blogs shelf recent).lookup "LATEST_POSTS" =
    some (Home.latestPosts (feed blogs shelf)).render :=
  rfl

end HomePage

namespace Site

/-- The places of the pages of blogs. -/
def blogPlaces (s : Site) (rows : List Row) : List Location :=
  rows.map fun r => s.pagePlace (BlogPage.path r.blog)

/-- The places of the pages of posts. -/
def postPlaces (s : Site) (rows : List Row) : List Location :=
  (rows.flatMap Row.postPaths).map s.pagePlace

/-- The last records of a build that tell its counts. -/
def countRecords (blogs posts files : Nat) : List Log.Record :=
  [⟨.build,.info,"Total blogs generated: " ++ toString blogs⟩,
    ⟨.build,.info,"Total posts generated: " ++ toString posts⟩,
    ⟨.build,.info,"Total files written: " ++ toString files⟩]

/-- All counts of a build are those of the different places that its pages have, and no post is shown
twice among the latest. -/
structure CountsAgree (s : Site) (rows : List Row) (home : Shown) (shelf : HomePage.Shelf) (v : World) :
    Prop where
  pages : v.pages.size = (v.pages.toList.map s.pagePlace).dedup.length
  totalBlogs : home.lookup "TOTAL_BLOGS" = some (toString (s.blogPlaces rows).dedup.length)
  totalPosts : home.lookup "TOTAL_POSTS" = some (toString (s.postPlaces rows).dedup.length)
  returned : (shelf.map fun x => x.2.length).sum = (s.postPlaces rows).dedup.length
  reported : countRecords (s.blogPlaces rows).dedup.length (s.postPlaces rows).dedup.length
    (v.pages.toList.map s.pagePlace).dedup.length <:+ v.log.toList
  latest : home.lookup "LATEST_POSTS" =
      some (Home.latestPosts (HomePage.feed (rows.map Row.blog) shelf)).render ∧
    ((HomePage.feed (rows.map Row.blog) shelf).map fun e => s.pagePlace (PostPage.path e.1 e.2)).Nodup

variable {s : Site} {rows : List Row} {home : Shown} {shelf : HomePage.Shelf} {w v : World}

theorem log_of_summarise {blogs : List Blog} (h : (summarise blogs shelf).go w = (.ok shelf,v)) :
    countRecords blogs.length (shelf.map fun x => x.2.length).sum v.pages.size <:+ v.log.toList := by
  have hlog : v.log = ((w.log.push ⟨.build,.info,"Total blogs generated: " ++ toString blogs.length⟩).push
      ⟨.build,.info,"Total posts generated: " ++
        toString ((shelf.map fun x => x.2.length).foldl (· + ·) 0)⟩).push
      ⟨.build,.info,"Total files written: " ++ toString v.pages.size⟩ := by
    obtain rfl := congrArg Prod.snd h
    rfl
  rw [hlog,← List.sum_eq_foldl]
  exact ⟨w.log.toList,by simp [countRecords]⟩

theorem Course.log (h : s.Course w rows home shelf v) :
    countRecords rows.length (shelf.map fun x => x.2.length).sum v.pages.size <:+ v.log.toList := by
  obtain ⟨_,_,_,_,_,_,_,-,-,-,-,hclose⟩ := h.written
  unfold close at hclose
  obtain ⟨_,_,-,hclose⟩ := Run.exists_of_go_bind hclose
  obtain ⟨_,_,-,hclose⟩ := Run.exists_of_go_bind hclose
  obtain ⟨_,_,-,hend⟩ := Run.exists_of_go_bind hclose
  have hlog := log_of_summarise hend
  rwa [List.length_map] at hlog

/-- Where blogs are apart, the home page goes through the posts that have pages. -/
theorem map_path_entries_perm (h : (rows.map fun r => r.blog.slug).Nodup) :
    ((HomePage.entries (rows.map Row.blog) (Row.shelf rows)).map fun e => PostPage.path e.1 e.2).Perm
      (rows.flatMap Row.postPaths) := by
  refine ((HomePage.entries_perm rows).map _).trans (List.Perm.of_eq ?_)
  rw [List.map_flatMap]
  refine List.flatMap_congr fun r hr => ?_
  rw [Row.current_eq h hr,List.map_map]
  rfl

theorem length_entries (h : (rows.map fun r => r.blog.slug).Nodup) :
    (HomePage.entries (rows.map Row.blog) (Row.shelf rows)).length =
      (rows.flatMap Row.postPaths).length := by
  rw [← (map_path_entries_perm h).length_eq,List.length_map]

theorem sum_shelf (h : (rows.map fun r => r.blog.slug).Nodup) :
    ((Row.shelf rows).map fun x => x.2.length).sum = (rows.flatMap Row.postPaths).length := by
  have hlengths : ∀ r ∈ rows, r.postPaths.length = r.posts.length := fun r _ => List.length_map _
  rw [Row.shelf_eq h,List.map_map,List.length_flatMap,List.map_congr_left hlengths]
  rfl

theorem blogPlaces_sublist (s : Site) (rows : List Row) :
    (s.blogPlaces rows).Sublist ((rows.flatMap Row.paths).map s.pagePlace) := by
  have hblogs : s.blogPlaces rows = (rows.flatMap fun r => [BlogPage.path r.blog]).map s.pagePlace := by
    rw [blogPlaces,← List.map_eq_flatMap,List.map_map,Function.comp_def]
  rw [hblogs]
  exact (List.Sublist.flatMap_right rows fun r _ => (List.nil_sublist _).cons_cons _).map _

theorem postPlaces_sublist (s : Site) (rows : List Row) :
    (s.postPlaces rows).Sublist ((rows.flatMap Row.paths).map s.pagePlace) :=
  (List.Sublist.flatMap_right rows fun _ _ => List.sublist_cons_self _ _).map _

/-- Where the blogs are apart, the counts agree. -/
theorem Course.countsAgree (h : s.Course w rows home shelf v)
    (hpages : v.pages.toList = rows.flatMap Row.paths ++ [HomePage.path,"404.html",".nojekyll"])
    (hplaces : (v.pages.toList.map s.pagePlace).Nodup) (hslugs : (rows.map fun r => r.blog.slug).Nodup) :
    s.CountsAgree rows home shelf v := by
  have hlog := h.log
  obtain ⟨recent,-,hhome⟩ := h.shows
  have hshelf : shelf = Row.shelf rows := h.shelved
  subst hshelf hhome
  have hpaths : ((rows.flatMap Row.paths).map s.pagePlace).Sublist (v.pages.toList.map s.pagePlace) := by
    rw [hpages,List.map_append]
    exact List.sublist_append_left _ _
  have hblogs : (s.blogPlaces rows).Nodup := hplaces.sublist ((blogPlaces_sublist s rows).trans hpaths)
  have hposts : (s.postPlaces rows).Nodup := hplaces.sublist ((postPlaces_sublist s rows).trans hpaths)
  have hsize : v.pages.size = (v.pages.toList.map s.pagePlace).length := by simp
  have hblogCount : (s.blogPlaces rows).length = rows.length := List.length_map _
  have hpostCount : (s.postPlaces rows).length = (rows.flatMap Row.postPaths).length := List.length_map _
  rw [sum_shelf hslugs,hsize] at hlog
  constructor
  · rw [hplaces.dedup,hsize]
  · rw [HomePage.lookup_totalBlogs,hblogs.dedup,hblogCount,List.length_map]
  · rw [HomePage.lookup_totalPosts,hposts.dedup,hpostCount,length_entries hslugs]
  · rw [hposts.dedup,hpostCount,sum_shelf hslugs]
  · rw [hblogs.dedup,hposts.dedup,hplaces.dedup,hblogCount,hpostCount]
    exact hlog
  · have hfeed := (List.take_sublist HomePage.latestCount
      (HomePage.entries (rows.map Row.blog) (Row.shelf rows))).map
        fun e => s.pagePlace (PostPage.path e.1 e.2)
    have hall := ((map_path_entries_perm hslugs).map s.pagePlace).nodup_iff.mpr hposts
    rw [List.map_map,Function.comp_def] at hall
    exact ⟨HomePage.lookup_latestPosts,hall.sublist hfeed⟩

/-- Whenever a build succeeds, the pages it counts are those of its blogs and their posts and three more,
and each is a file in the end. Where no slug leads up or starts from the root, all counts agree just when
no page of a blog has the place of a page of another one. -/
theorem build_countsAgree_iff (hs : Path.IsDirect s.paths.outputDir) (hw : w.disk.IsTree)
    (hgo : s.build.go w = (.ok shelf,v)) :
    ∃ rows home, s.Course w rows home shelf v ∧
      v.pages.toList = rows.flatMap Row.paths ++ [HomePage.path,"404.html",".nojekyll"] ∧
      (∀ p ∈ v.pages.toList, v.disk.HasFile (s.pagePlace p)) ∧
      ((∀ r ∈ rows, Path.StaysBelow r.blog.slug) →
        (s.CountsAgree rows home shelf v ↔ Row.Apart rows)) := by
  obtain ⟨rows,home,hcourse⟩ := exists_course hgo
  obtain ⟨htracks,hnamed⟩ := hcourse.tracks hs hw.named
  refine ⟨rows,home,hcourse,htracks.pages,htracks.pages ▸ htracks.files,fun hbelow => ?_⟩
  have hplaces := nodup_pagePlaces_iff (s := s) hbelow hnamed
  rw [← htracks.pages] at hplaces
  constructor
  · intro h
    refine hplaces.mp (nodup_of_length_dedup ?_)
    rw [← h.pages,List.length_map,Array.length_toList]
  · intro h
    exact hcourse.countsAgree htracks.pages (hplaces.mpr h) h.slugs

theorem build_countsAgree_iff_sample :
    (Path.IsDirect sample.paths.outputDir ∧ sampleProject.disk.IsTree) ∧
    ∃ shelf v, sample.build.go sampleProject = (.ok shelf,v) ∧
      ∃ rows home, sample.Course sampleProject rows home shelf v ∧
        v.pages.toList = rows.flatMap Row.paths ++ [HomePage.path,"404.html",".nojekyll"] ∧
        (∀ p ∈ v.pages.toList, v.disk.HasFile (sample.pagePlace p)) ∧
        (∀ r ∈ rows, Path.StaysBelow r.blog.slug) ∧ Row.Apart rows ∧
        sample.CountsAgree rows home shelf v := by
  obtain ⟨shelf,v,hgo⟩ := exists_go_sample
  obtain ⟨rows,home,hcourse,hpages,hfiles,hcounts⟩ :=
    build_countsAgree_iff isApart_sample.output isSound_sampleProject.tree hgo
  have hslugs := slugs_sample hcourse.listed
  rw [List.map_map] at hslugs
  obtain ⟨r,rfl,hslug⟩ : ∃ r, rows = [r] ∧ r.blog.slug = "a" := by
    obtain ⟨r,rest,rfl,hslug,hrest⟩ := List.map_eq_cons_iff.mp hslugs
    exact ⟨r,by rw [List.map_eq_nil_iff.mp hrest],hslug⟩
  have hbelow : ∀ r' ∈ [r], Path.StaysBelow r'.blog.slug := by
    simpa [hslug] using (by decide : Path.StaysBelow "a")
  have happart : Row.Apart [r] := ⟨by simp,by simpa using r.not_covers_self⟩
  exact ⟨⟨isApart_sample.output,isSound_sampleProject.tree⟩,shelf,v,hgo,[r],home,hcourse,hpages,hfiles,
    hbelow,happart,(hcounts hbelow).mpr happart⟩

/-- The sample project with its blog listed twice. -/
def repeatedProject : World :=
  { sampleProject with
    disk := sampleProject.disk.put ["content","blogs.json"]
      (.file "[\x7b\"slug\":\"a\"\x7d,\x7b\"slug\":\"a\"\x7d]".toUTF8) }

/-- Its build succeeds, writes the page of the blog and that of its post once more over the first ones, and
counts seven pages for five files. -/
theorem build_countsTwice :
    (sample.build.go repeatedProject).1.isOk = true ∧
    (sample.build.go repeatedProject).2.pages.toList =
      ["blogs/a/index.html","blogs/a/posts/p.html","blogs/a/index.html","blogs/a/posts/p.html",
        "index.html","404.html",".nojekyll"] ∧
    ((sample.build.go repeatedProject).2.pages.toList.map sample.pagePlace).dedup.length = 5 := by
  have hrun : ((sample.build.go repeatedProject).1.isOk,
      (sample.build.go repeatedProject).2.pages.toList) =
        (true,["blogs/a/index.html","blogs/a/posts/p.html","blogs/a/index.html","blogs/a/posts/p.html",
          "index.html","404.html",".nojekyll"]) := by decide +kernel
  obtain ⟨hok,hpages⟩ := Prod.mk.inj hrun
  refine ⟨hok,hpages,?_⟩
  rw [hpages]
  decide +kernel

end Site

end BlogSite
