import BlogSite.Proofs.TrackedPages
import Mathlib.Data.List.Pairwise

/-!
Where the pages of different blogs meet. The slug of a blog spells the names of the directories down to
that of the blog. Two slugs can spell the same names, and a slug can spell those of the directory that
holds the posts of another blog, where the page of a post named `index` is that of the blog too. Otherwise
no two pages have one place.
-/

namespace BlogSite

/-- The names that lead down to the directory of a blog. -/
def Blog.trail (b : Blog) : Location := Path.walked false (Path.legs b.slug)

/-- The names that lead to the page of a blog. -/
def BlogPage.trail (b : Blog) : Location := ["blogs"] ++ b.trail ++ ["index.html"]

/-- The names that lead to the page of a post. -/
def PostPage.trail (b : Blog) (p : Post) : Location :=
  ["blogs"] ++ b.trail ++ ["posts"] ++ [p.slug ++ ".html"]

theorem BlogPage.walked_path {b : Blog} (hb : Path.StaysBelow b.slug) :
    Path.StaysBelow (BlogPage.path b) ∧
      Path.walked false (Path.legs (BlogPage.path b)) = BlogPage.trail b := by
  have hstep : Path.IsStep "blogs" ∧ Path.IsStep "index.html" := by decide
  obtain ⟨hfront,hblogs⟩ := Path.staysBelow_of_isStep hstep.1
  obtain ⟨hend,hindex⟩ := Path.staysBelow_of_isStep hstep.2
  have hpath : BlogPage.path b = Path.join (Path.join "blogs" b.slug) "index.html" := rfl
  rw [hpath,hend.walked_join,hb.walked_join,hblogs,hindex]
  exact ⟨(hfront.join hb).join hend,rfl⟩

theorem PostPage.walked_path {b : Blog} (hb : Path.StaysBelow b.slug) {p : Post}
    (hp : '/' ∉ p.slug.toList) :
    Path.StaysBelow (PostPage.path b p) ∧
      Path.walked false (Path.legs (PostPage.path b p)) = PostPage.trail b p := by
  have hstep : Path.IsStep "blogs" ∧ Path.IsStep "posts" := by decide
  obtain ⟨hfront,hblogs⟩ := Path.staysBelow_of_isStep hstep.1
  obtain ⟨hdirectory,hposts⟩ := Path.staysBelow_of_isStep hstep.2
  obtain ⟨hend,hpage⟩ := Path.staysBelow_of_isStep (Path.isStep_page hp)
  have hpath : PostPage.path b p =
      Path.join (Path.join (Path.join "blogs" b.slug) "posts") (p.slug ++ ".html") := rfl
  rw [hpath,hend.walked_join,hdirectory.walked_join,hb.walked_join,hblogs,hposts,hpage]
  exact ⟨((hfront.join hb).join hdirectory).join hend,rfl⟩

/-! ### Pages with one place -/

theorem BlogPage.trail_inj {b c : Blog} : trail b = trail c ↔ b.trail = c.trail := by
  simp [trail]

theorem PostPage.trail_inj {b c : Blog} {p q : Post} :
    trail b p = trail c q ↔ b.trail = c.trail ∧ p.slug = q.slug := by
  constructor
  · intro h
    obtain ⟨hfront,hlast⟩ := List.append_inj' h rfl
    exact ⟨by simpa using hfront,by simpa using hlast⟩
  · rintro ⟨htrail,hslug⟩
    rw [trail,trail,htrail,hslug]

theorem BlogPage.trail_eq_postPage_iff {b c : Blog} {q : Post} :
    trail b = PostPage.trail c q ↔ b.trail = c.trail ++ ["posts"] ∧ q.slug = "index" := by
  have hindex : "index.html" = "index" ++ ".html" := rfl
  constructor
  · intro h
    obtain ⟨hfront,hlast⟩ := List.append_inj' h rfl
    obtain ⟨hname,-⟩ := List.cons.inj hlast
    exact ⟨by simpa using hfront,((String.append_left_inj ".html").mp (hindex ▸ hname)).symm⟩
  · rintro ⟨htrail,hslug⟩
    rw [trail,PostPage.trail,htrail,hslug,hindex]
    simp

namespace Row

/-- The names that lead to the page of a blog and to the pages of its posts. -/
def trails (r : Row) : List Location := BlogPage.trail r.blog :: r.posts.map (PostPage.trail r.blog)

/-- The page of a blog has the place of a page of a post of another blog. -/
def Covers (r r' : Row) : Prop :=
  r.blog.trail = r'.blog.trail ++ ["posts"] ∧ ∃ p ∈ r'.posts, p.slug = "index"

/-- No page of a blog has the place of a page of another one. -/
structure Apart (rows : List Row) : Prop where
  trails : (rows.map fun r => r.blog.trail).Nodup
  covers : ∀ r ∈ rows, ∀ r' ∈ rows, ¬ r.Covers r'

theorem Apart.slugs {rows : List Row} (h : Apart rows) : (rows.map fun r => r.blog.slug).Nodup := by
  refine List.Nodup.of_map (fun slug => Path.walked false (Path.legs slug)) ?_
  rw [List.map_map]
  exact h.trails

variable {r r' : Row}

theorem nodup_trails (h : r.IsNamed) : r.trails.Nodup := by
  refine List.nodup_cons.mpr ⟨fun hmem => ?_,?_⟩
  · obtain ⟨p,-,hp⟩ := List.mem_map.mp hmem
    simpa using congrArg List.length (BlogPage.trail_eq_postPage_iff.mp hp.symm).1
  · refine List.Nodup.map_on (fun p hp q hq heq => ?_) (List.Nodup.of_map Post.slug h.distinct)
    exact List.inj_on_of_nodup_map h.distinct hp hq (PostPage.trail_inj.mp heq).2

theorem mem_trails {l : Location} :
    l ∈ r.trails ↔ BlogPage.trail r.blog = l ∨ ∃ p ∈ r.posts, PostPage.trail r.blog p = l := by
  rw [trails,List.mem_cons,List.mem_map,eq_comm]

theorem disjoint_trails_iff :
    r.trails.Disjoint r'.trails ↔ r.blog.trail ≠ r'.blog.trail ∧ ¬ r.Covers r' ∧ ¬ r'.Covers r := by
  constructor
  · intro h
    refine ⟨fun htrail => ?_,?_,?_⟩
    · exact h (mem_trails.mpr (Or.inl (BlogPage.trail_inj.mpr htrail))) (mem_trails.mpr (Or.inl rfl))
    · rintro ⟨htrail,p,hp,hslug⟩
      have hsame := BlogPage.trail_eq_postPage_iff.mpr ⟨htrail,hslug⟩
      exact h (mem_trails.mpr (Or.inl hsame)) (mem_trails.mpr (Or.inr ⟨p,hp,rfl⟩))
    · rintro ⟨htrail,p,hp,hslug⟩
      have hsame := BlogPage.trail_eq_postPage_iff.mpr ⟨htrail,hslug⟩
      exact h (mem_trails.mpr (Or.inr ⟨p,hp,rfl⟩)) (mem_trails.mpr (Or.inl hsame))
  · rintro ⟨hne,hcovers,hcovers'⟩ l hl hl'
    rcases mem_trails.mp hl with rfl | ⟨p,hp,rfl⟩
    · rcases mem_trails.mp hl' with h | ⟨q,hq,h⟩
      · exact hne (BlogPage.trail_inj.mp h.symm)
      · obtain ⟨htrail,hslug⟩ := BlogPage.trail_eq_postPage_iff.mp h.symm
        exact hcovers ⟨htrail,q,hq,hslug⟩
    · rcases mem_trails.mp hl' with h | ⟨q,hq,h⟩
      · obtain ⟨htrail,hslug⟩ := BlogPage.trail_eq_postPage_iff.mp h
        exact hcovers' ⟨htrail,p,hp,hslug⟩
      · exact hne (PostPage.trail_inj.mp h.symm).1

theorem not_covers_self (r : Row) : ¬ r.Covers r := by
  rintro ⟨h,-⟩
  simpa using congrArg List.length h

theorem nodup_flatMap_trails_iff {rows : List Row} (h : ∀ r ∈ rows, r.IsNamed) :
    (rows.flatMap trails).Nodup ↔ Apart rows := by
  rw [List.nodup_flatMap]
  constructor
  · rintro ⟨-,hpairs⟩
    have happart : rows.Pairwise fun r r' =>
        r.blog.trail ≠ r'.blog.trail ∧ ¬ r.Covers r' ∧ ¬ r'.Covers r := hpairs.imp disjoint_trails_iff.mp
    have hsymm : Std.Symm fun r r' : Row => ¬ r.Covers r' ∧ ¬ r'.Covers r := ⟨fun _ _ h => h.symm⟩
    refine ⟨List.pairwise_map.mpr (happart.imp And.left),fun r hr r' hr' => ?_⟩
    exact ((happart.imp And.right).forall_of_forall
      (fun r _ => ⟨not_covers_self r,not_covers_self r⟩) hr hr').1
  · intro happart
    refine ⟨fun r hr => nodup_trails (h r hr),?_⟩
    exact (List.pairwise_map.mp happart.trails).imp_of_mem fun {r r'} hr hr' hne =>
      disjoint_trails_iff.mpr ⟨hne,happart.covers r hr r' hr',happart.covers r' hr' r hr⟩

end Row

/-! ### Places in the output directory -/

namespace Site

variable {s : Site} {rows : List Row}

theorem pagePlace_eq {relative : String} (h : Path.StaysBelow relative) :
    s.pagePlace relative = s.outputPlace ++ Path.walked false (Path.legs relative) :=
  h.place_join

theorem map_pagePlace_paths {r : Row} (hr : Path.StaysBelow r.blog.slug) (hnamed : r.IsNamed) :
    r.paths.map s.pagePlace = r.trails.map fun l => s.outputPlace ++ l := by
  obtain ⟨hblog,htrail⟩ := BlogPage.walked_path hr
  rw [Row.paths,Row.postPaths,Row.trails,List.map_cons,List.map_cons,List.map_map,List.map_map,
    pagePlace_eq hblog,htrail]
  refine congrArg _ (List.map_congr_left fun p hp => ?_)
  obtain ⟨hpost,htrail⟩ := PostPage.walked_path hr (hnamed.noSlash p hp)
  rw [Function.comp_apply,Function.comp_apply,pagePlace_eq hpost,htrail]

/-- Where slugs lead down, the pages of a site have places of their own if the blogs are apart. -/
theorem nodup_pagePlaces_iff (hbelow : ∀ r ∈ rows, Path.StaysBelow r.blog.slug)
    (hnamed : ∀ r ∈ rows, r.IsNamed) :
    ((rows.flatMap Row.paths ++ [HomePage.path,"404.html",".nojekyll"]).map s.pagePlace).Nodup ↔
      Row.Apart rows := by
  have hfixed : [HomePage.path,"404.html",".nojekyll"].map s.pagePlace =
      [["index.html"],["404.html"],[".nojekyll"]].map fun l => s.outputPlace ++ l := by
    have hsteps : ∀ n ∈ [HomePage.path,"404.html",".nojekyll"], Path.IsStep n := by decide
    have hplace : ∀ n ∈ [HomePage.path,"404.html",".nojekyll"],
        s.pagePlace n = s.outputPlace ++ [n] := by
      intro n hn
      obtain ⟨hbelow,hwalked⟩ := Path.staysBelow_of_isStep (hsteps n hn)
      rw [pagePlace_eq hbelow,hwalked]
    exact List.map_congr_left hplace
  have hblogs : (rows.flatMap Row.paths).map s.pagePlace =
      (rows.flatMap Row.trails).map fun l => s.outputPlace ++ l := by
    rw [List.map_flatMap,List.map_flatMap]
    exact List.flatMap_congr fun r hr => map_pagePlace_paths (hbelow r hr) (hnamed r hr)
  have hinjective : Function.Injective fun l : Location => s.outputPlace ++ l :=
    fun _ _ h => List.append_cancel_left h
  rw [List.map_append,hblogs,hfixed,← List.map_append,List.nodup_map_iff hinjective,
    ← Row.nodup_flatMap_trails_iff hnamed]
  refine ⟨fun h => (List.nodup_append.mp h).1,fun h => ?_⟩
  refine List.nodup_append.mpr ⟨h,by decide,fun l hl k hk heq => ?_⟩
  have hlong : 1 < l.length := by
    obtain ⟨r,-,hl⟩ := List.mem_flatMap.mp hl
    rcases Row.mem_trails.mp hl with rfl | ⟨p,-,rfl⟩
    · simp [BlogPage.trail]
    · simp [PostPage.trail]
  have hshort : k.length = 1 := by
    simp only [List.mem_cons,List.not_mem_nil,or_false] at hk
    rcases hk with rfl | rfl | rfl <;> rfl
  rw [heq,hshort] at hlong
  exact absurd hlong (by decide)

end Site

end BlogSite
