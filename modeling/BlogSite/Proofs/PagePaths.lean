import BlogSite.Proofs.LoadedContent
import BlogSite.Proofs.PathTrails
import BlogSite.Proofs.SiteFilling

/-!
The paths of the pages of a blog, whatever its slug is. The page of a blog and the pages of its posts lie
in one directory, which the slug names; so they all stay below the directory they are written to if the
page of the blog does. The slugs of posts are names of files without their ending: they lead nowhere, and
no two posts of a blog share one.
-/

namespace BlogSite

namespace Path

theorem StaysBelow.join_iff {p n : String} (hn : IsStep n) :
    StaysBelow (join p n) ↔ StaysBelow p := by
  have hsteps : ∀ m ∈ names n, IsStep m := by simpa [names_of_noSlash hn.noSlash] using hn
  have hrelative := not_isAbsolute_of_isStep hsteps
  unfold StaysBelow
  rw [isAbsolute_join_eq,legs_join p hrelative,legs_of_isStep hn,hrelative,Bool.or_false,
    walked_concat false _ ⟨hn.ne_empty,hn.ne_dot,hn.ne_back⟩,List.mem_append]
  simp [Ne.symm hn.ne_back]

theorem staysBelow_of_isStep {n : String} (hn : IsStep n) :
    StaysBelow n ∧ walked false (legs n) = [n] := by
  have hnames : ∀ m ∈ names n, IsStep m := by simpa [names_of_noSlash hn.noSlash] using hn
  have hwalked : walked false (legs n) = [n] := by
    rw [legs_of_isStep hn]
    exact walked_concat false [] ⟨hn.ne_empty,hn.ne_dot,hn.ne_back⟩
  refine ⟨⟨not_isAbsolute_of_isStep hnames,?_⟩,hwalked⟩
  rw [hwalked,List.mem_singleton]
  exact Ne.symm hn.ne_back

theorem StaysBelow.walked_join {p : String} (hp : StaysBelow p) (absolute : Bool) (base : String) :
    walked absolute (legs (join base p)) = walked absolute (legs base) ++ walked false (legs p) := by
  have hdown : ".." ∉ (legs p).foldl (step false) [] := fun h => hp.2 (List.mem_reverse.mpr h)
  rw [legs_join base hp.1,walked,List.foldl_append,foldl_step_append hdown absolute,
    List.reverse_append]
  rfl

/-- What stays below a directory has its place there. -/
theorem StaysBelow.place_join {base p : String} (hp : StaysBelow p) :
    place (join base p) = place base ++ walked false (legs p) := by
  rw [place,place,← walked_legs,← walked_legs,hp.walked_join]

theorem StaysBelow.join {base p : String} (hbase : StaysBelow base) (hp : StaysBelow p) :
    StaysBelow (join base p) := by
  refine ⟨by rw [isAbsolute_join_eq,hbase.1,hp.1]; rfl,?_⟩
  rw [hp.walked_join,List.mem_append]
  exact fun h => h.elim hbase.2 hp.2

end Path

/-- The page of a blog and the pages of its posts stay below where they are written, or none does. -/
theorem PostPage.staysBelow_path_iff (b : Blog) {p : Post} (hp : '/' ∉ p.slug.toList) :
    Path.StaysBelow (PostPage.path b p) ↔ Path.StaysBelow (BlogPage.path b) := by
  have hfixed : Path.IsStep "posts" ∧ Path.IsStep "index.html" := by decide
  have hpost : PostPage.path b p =
      Path.join (Path.join (Path.join "blogs" b.slug) "posts") (p.slug ++ ".html") := rfl
  have hblog : BlogPage.path b = Path.join (Path.join "blogs" b.slug) "index.html" := rfl
  rw [hpost,hblog,Path.StaysBelow.join_iff (Path.isStep_page hp),Path.StaysBelow.join_iff hfixed.1,
    Path.StaysBelow.join_iff hfixed.2]

/-- A slug that is a single name leads nowhere else. -/
theorem BlogPage.staysBelow_path {b : Blog} (hb : Path.IsStep b.slug) :
    Path.StaysBelow (BlogPage.path b) := by
  have hfixed : Path.IsStep "index.html" ∧ Path.StaysBelow "blogs" := by decide
  have hpath : BlogPage.path b = Path.join (Path.join "blogs" b.slug) "index.html" := rfl
  rw [hpath,Path.StaysBelow.join_iff hfixed.1,Path.StaysBelow.join_iff hb]
  exact hfixed.2

/-! ### The slugs of posts -/

namespace PostFolder

variable {f : PostFolder} {blog : String} {w v : World}

theorem slug_of_loadFile {item slug : String} {post : Option Post}
    (h : (f.loadFile blog item slug).go w = (.ok post,v)) : ∀ p ∈ post, p.slug = slug := by
  rw [go_loadFile] at h
  split at h
  · exact absurd (congrArg Prod.fst h) (by simp)
  · obtain rfl := Except.ok.inj (congrArg Prod.fst h)
    simp
  · rename_i found hr
    obtain rfl := Except.ok.inj (congrArg Prod.fst h)
    rintro p ⟨⟩
    exact slug_of_reading hr

/-- The names of the files that posts were loaded from are among those that were gone through. -/
theorem sublist_of_loadFiles {items : List String} {posts : List Post}
    (h : (f.loadFiles blog items).go w = (.ok posts,v)) :
    (posts.map fun p => p.slug ++ ending).Sublist items := by
  induction items generalizing posts w v with
  | nil =>
    obtain rfl := Except.ok.inj (congrArg Prod.fst h)
    exact List.Sublist.slnil
  | cons item items ih =>
    unfold loadFiles at h
    cases hslug : Path.withoutEnding? ending item with
    | none =>
      rw [hslug] at h
      exact (ih h).cons _
    | some slug =>
      rw [hslug] at h
      obtain ⟨post,u,hpost,h⟩ := Run.exists_of_go_bind h
      obtain ⟨rest,u',hrest,h⟩ := Run.exists_of_go_bind h
      obtain rfl := Except.ok.inj (congrArg Prod.fst h)
      have htail := ih hrest
      cases post with
      | none => exact htail.cons _
      | some p =>
        rw [Path.withoutEnding?_eq_some_iff.mp hslug,← slug_of_loadFile hpost p rfl]
        exact htail.cons_cons _

/-- Posts that are loaded come from the files of a directory, if there is one, and are sorted. -/
theorem exists_of_go_load {posts : List Post} (h : (f.load blog).go w = (.ok posts,v)) :
    posts = [] ∨ ∃ items found u u', w.disk.list (f.directory blog) = .ok items ∧
      (f.loadFiles blog (Path.sortedNames items)).go u = (.ok found,u') ∧
      posts = newestFirst Post.date found := by
  unfold load at h
  rw [Run.go_bind,Run.go_ask] at h
  simp only at h
  split at h
  · obtain ⟨items,u,hfetch,h⟩ := Run.exists_of_go_bind h
    obtain ⟨found,u',hfound,h⟩ := Run.exists_of_go_bind h
    obtain rfl := Except.ok.inj (congrArg Prod.fst h)
    exact Or.inr ⟨items,found,u,u',Run.eq_ok_of_go_fetch hfetch,hfound,rfl⟩
  · obtain ⟨_,u,-,h⟩ := Run.exists_of_go_bind h
    exact Or.inl (Except.ok.inj (congrArg Prod.fst h)).symm

/-- No two posts of a blog have one slug, and each has its file. -/
theorem slugs_of_go_load {posts : List Post} (h : (f.load blog).go w = (.ok posts,v)) :
    (posts.map Post.slug).Nodup ∧
      ∀ p ∈ posts, ∃ l e, w.disk.entry? (l ++ [p.slug ++ ending]) = some e := by
  rcases exists_of_go_load h with rfl | ⟨items,found,u,u',hlist,hfound,rfl⟩
  · simp
  · obtain ⟨l,-,-,rfl⟩ := Disk.list_eq_ok_iff.mp hlist
    have hsub := sublist_of_loadFiles hfound
    have hperm := newestFirst_perm Post.date found
    constructor
    · rw [(hperm.map Post.slug).nodup_iff]
      refine List.Nodup.of_map (fun slug => slug ++ ending) ?_
      rw [List.map_map]
      exact ((Path.sortedNames_perm _).nodup_iff.mpr (w.disk.nodup_names l)).sublist hsub
    · intro p hp
      have hitem : p.slug ++ ending ∈ found.map fun p => p.slug ++ ending :=
        List.mem_map_of_mem (hperm.mem_iff.mp hp)
      exact ⟨l,Disk.mem_names_iff.mp ((Path.sortedNames_perm _).mem_iff.mp (hsub.subset hitem))⟩

end PostFolder

end BlogSite
