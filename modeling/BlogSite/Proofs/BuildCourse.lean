import BlogSite.Proofs.BuildInvariants

/-!
The course of a build that succeeds. Each of its blogs is written with the posts that are loaded for it
then; the posts are put on the shelf by the slugs of their blogs; the home page is written with the blogs
and the shelf; and at the end the build reports its totals. The pages that are counted are those of the
blogs and of their posts, one blog after the other, and the three pages of the site.
-/

namespace BlogSite

/-- A blog as it is written: its theme, and the posts that are loaded for it. -/
structure Row where
  theme : Theme
  blog : Blog
  posts : List Post

namespace Row

/-- What the page of the blog shows. -/
def shown (r : Row) : Shown := BlogPage.shown r.theme r.blog r.posts

/-- The paths of the pages of the posts. -/
def postPaths (r : Row) : List String := r.posts.map (PostPage.path r.blog)

/-- The paths of the page of the blog and of the pages of its posts. -/
def paths (r : Row) : List String := BlogPage.path r.blog :: r.postPaths

end Row

namespace Site

/-- A blog is written: its posts are loaded, its page is made of a template, and then the page of each
post. -/
def WritesRow (s : Site) (r : Row) (w v : World) : Prop :=
  ∃ m m' u₁ u₂ u₃ template,
    (s.posts.load r.blog.slug).go (w.report m) = (.ok r.posts,u₁) ∧
    (s.templates.read (String.ofList (s.themeName r.blog).display ++ "/blog-list.html")).go
      (u₁.report m') = (.ok template,u₂) ∧
    (s.writePage (BlogPage.path r.blog) (Template.fillNamed template r.shown)).go u₂ = (.ok (),u₃) ∧
    ((PostPage.places r.posts).forM
      (s.writePost (String.ofList (s.themeName r.blog).display) r.theme r.blog)).go u₃ = (.ok (),v)

/-- Blogs are written one after the other. -/
inductive Writes (s : Site) : World → List Row → World → Prop
  | nil (w : World) : s.Writes w [] w
  | cons {w u v : World} {r : Row} {rows : List Row} (hr : s.WritesRow r w u)
    (hrows : s.Writes u rows v) : s.Writes w (r :: rows) v

/-- What a build does once the home page is written. -/
def close (s : Site) (blogs : List Blog) (shelf : HomePage.Shelf) : Run HomePage.Shelf := do
  s.writeNotFound
  s.writePage ".nojekyll" ""
  s.shorten
  summarise blogs shelf

/-- The course of a build that succeeds: the blogs that are listed are written, the posts of the rows
are put on the shelf, and the home page is made of a template with what it shows. -/
structure Course (s : Site) (w : World) (rows : List Row) (home : Shown) (shelf : HomePage.Shelf)
    (v : World) : Prop where
  listed : s.Lists w (rows.map Row.blog)
  shelved : shelf = Table.ofPairs (rows.map fun r => (r.blog.slug,r.posts))
  shows : ∃ recent, HomePage.recentSlugs? s.today shelf = some recent ∧
    home = HomePage.shown s.title s.today (rows.map Row.blog) shelf recent
  written : ∃ m m' u₁ u₂ u₃ u₄ template, s.prepare.go w = (.ok (rows.map Row.blog),u₁) ∧
    s.Writes (u₁.report m) rows u₂ ∧
    (s.templates.read "home.html").go (u₂.report m') = (.ok template,u₃) ∧
    (s.writePage HomePage.path (Template.fillNamed template home)).go u₃ = (.ok (),u₄) ∧
    (s.close (rows.map Row.blog) shelf).go u₄ = (.ok shelf,v)

variable {s : Site} {w v : World}

/-! ### Steps that succeed -/

/-- The row has the theme that its blog names. -/
def IsThemed (s : Site) (r : Row) : Prop := Theme.ofValue? (s.themeName r.blog) = some r.theme

theorem writesRow_of_go {b : Blog} {posts : List Post} (h : (s.writeBlog b).go w = (.ok posts,v)) :
    ∃ t, s.IsThemed ⟨t,b,posts⟩ ∧ s.WritesRow ⟨t,b,posts⟩ w v := by
  unfold writeBlog at h
  simp only at h
  cases ht : Theme.ofValue? (s.themeName b) with
  | none =>
    rw [ht] at h
    exact absurd (congrArg Prod.fst h) (by simp)
  | some t =>
    rw [ht] at h
    obtain ⟨_,u,hopen,h⟩ := Run.exists_of_go_bind h
    obtain ⟨found,u₁,hload,h⟩ := Run.exists_of_go_bind h
    obtain ⟨_,u',hcount,h⟩ := Run.exists_of_go_bind h
    obtain ⟨template,u₂,hread,h⟩ := Run.exists_of_go_bind h
    obtain ⟨_,u₃,hpage,h⟩ := Run.exists_of_go_bind h
    obtain ⟨_,u₄,hposts,h⟩ := Run.exists_of_go_bind h
    obtain ⟨hfound,rfl⟩ := Prod.mk.inj h
    obtain rfl := Except.ok.inj hfound
    obtain rfl := congrArg Prod.snd hopen
    obtain rfl := congrArg Prod.snd hcount
    exact ⟨t,ht,_,_,u₁,u₂,u₃,template,hload,hread,hpage,hposts⟩

/-- The posts of rows are put on a shelf one after the other. -/
theorem writes_of_go {blogs : List Blog} {shelf result : HomePage.Shelf}
    (h : (s.writeBlogs shelf blogs).go w = (.ok result,v)) :
    ∃ rows, s.Writes w rows v ∧ (∀ r ∈ rows, s.IsThemed r) ∧ rows.map Row.blog = blogs ∧
      result = (rows.map fun r => (r.blog.slug,r.posts)).foldl
        (fun shelf p => Table.put p.1 p.2 shelf) shelf := by
  induction blogs generalizing shelf w with
  | nil =>
    obtain ⟨hresult,rfl⟩ := Prod.mk.inj h
    exact ⟨[],.nil w,by simp,rfl,(Except.ok.inj hresult).symm⟩
  | cons b bs ih =>
    unfold writeBlogs at h
    obtain ⟨posts,u,hb,h⟩ := Run.exists_of_go_bind h
    obtain ⟨t,ht,hrow⟩ := writesRow_of_go hb
    obtain ⟨rows,hrows,hthemed,rfl,rfl⟩ := ih h
    exact ⟨⟨t,b,posts⟩ :: rows,.cons hrow hrows,List.forall_mem_cons.mpr ⟨ht,hthemed⟩,rfl,rfl⟩

/-- Every build that succeeds takes such a course, with the themes that its blogs name. -/
theorem exists_themed_course {shelf : HomePage.Shelf} (h : s.build.go w = (.ok shelf,v)) :
    ∃ rows home, s.Course w rows home shelf v ∧ ∀ r ∈ rows, s.IsThemed r := by
  rw [build_eq_prepare] at h
  obtain ⟨blogs,u₁,hprepare,h⟩ := Run.exists_of_go_bind h
  unfold finish at h
  obtain ⟨_,u,hloaded,h⟩ := Run.exists_of_go_bind h
  obtain ⟨result,u₂,hblogs,h⟩ := Run.exists_of_go_bind h
  obtain ⟨_,u₄,hhome,h⟩ := Run.exists_of_go_bind h
  obtain ⟨rows,hrows,hthemed,rfl,hresult⟩ := writes_of_go hblogs
  have hclose : (s.close (rows.map Row.blog) result).go u₄ = (.ok shelf,v) := by
    unfold close
    exact h
  obtain rfl : result = shelf := by
    obtain ⟨_,_,-,h⟩ := Run.exists_of_go_bind h
    obtain ⟨_,_,-,h⟩ := Run.exists_of_go_bind h
    obtain ⟨_,u,-,h⟩ := Run.exists_of_go_bind h
    have hlast := go_summarise (rows.map Row.blog) result u
    rw [h] at hlast
    exact (Except.ok.inj hlast).symm
  obtain rfl := congrArg Prod.snd hloaded
  unfold writeHome at hhome
  obtain ⟨_,u',hopen,hhome⟩ := Run.exists_of_go_bind hhome
  obtain rfl := congrArg Prod.snd hopen
  cases hrecent : HomePage.recentSlugs? s.today result with
  | none =>
    rw [hrecent] at hhome
    exact absurd (congrArg Prod.fst hhome) (by simp)
  | some recent =>
    rw [hrecent] at hhome
    obtain ⟨template,u₃,hread,hpage⟩ := Run.exists_of_go_bind hhome
    exact ⟨rows,_,⟨congrArg Prod.fst hprepare,hresult,⟨recent,hrecent,rfl⟩,
      _,_,u₁,u₂,u₃,u₄,template,hprepare,hrows,hread,hpage,hclose⟩,hthemed⟩

theorem exists_course {shelf : HomePage.Shelf} (h : s.build.go w = (.ok shelf,v)) :
    ∃ rows home, s.Course w rows home shelf v := by
  obtain ⟨rows,home,hcourse,-⟩ := exists_themed_course h
  exact ⟨rows,home,hcourse⟩

end Site

end BlogSite
