import BlogSite.Proofs.IsolatedBlogs
import BlogSite.Proofs.TwinBuilds

/-!
Builds do not see what loading passes over. Without some drafts, and without some items that are no post
files, a build gives the same result or stops at the same failure, and it leaves the same output
directory; only an item that is or holds a template of a blog is missed.
-/

namespace BlogSite

/-- A world without some items looks like the world with them. -/
theorem World.Removed.alike {f : PostFolder} {items : Items} {w w' : World}
    (h : w.Removed (f.AtItem items) w') (hw : w.IsSound) (pages : Array String) :
    World.Alike (f.AtItem items) Location.Nowhere { w with pages } { w' with pages } where
  disk := ⟨fun l hl => by rw [h.kept l hl],fun l hl _ => (h.kept l hl).symm⟩
  logged := by
    intro g hg
    by_cases hat : f.AtItem items (Path.place g.path)
    · exact Or.inl hat
    · exact Or.inr ⟨PostFolder.avoids_atItem (hw.direct g hg) hat,(h.logFile g).mpr ⟨hg,hat⟩⟩
  logged' := by
    intro g hg
    obtain ⟨hmem,hat⟩ := (h.logFile g).mp hg
    exact Or.inr ⟨PostFolder.avoids_atItem (hw.direct g hmem) hat,hmem⟩
  pages := rfl

namespace Site

variable {s : Site} {items : Items} {w w' v v' : World}

/-! ### Until the blogs are listed -/

theorem steady_prepare (hs : s.paths.IsApart)
    (hstatics : Location.Apart (Path.place s.paths.publicDir) (Path.place s.paths.contentDir)) :
    s.prepare.Steady (World.Alike (s.posts.AtItem items) Location.Nowhere) := by
  have houtput : Path.Avoids s.paths.outputDir (s.posts.AtItem items) :=
    avoids_atItem_output hs hs.output (List.append_nil _).symm
  have hpublic : Path.Avoids s.paths.publicDir (s.posts.AtItem items) :=
    PostFolder.avoids_atItem hs.statics (by simpa using not_atItem_of_apart hstatics [])
  have hlist : Path.Avoids s.paths.blogList (s.posts.AtItem items) := by
    obtain ⟨hdirect,hplace⟩ := SitePaths.isDirect_blogList hs.content
    exact PostFolder.avoids_atItem hdirect (hplace ▸ PostFolder.not_atItem_of_length (by simp))
  have hjson : ".json".toList <:+ s.paths.blogList.toList :=
    List.IsSuffix.trans (by decide) (Path.suffix_join s.paths.contentDir "blogs.json")
  have hstart : start.Steady (World.Alike (s.posts.AtItem items) Location.Nowhere) :=
    (Run.steady_modify fun _ _ h => ⟨h.disk,h.logged,h.logged',rfl⟩).bind fun _ =>
      Run.steady_report _ _ _
  unfold prepare
  refine hstart.bind fun _ => (s.steady_resetOutput houtput).bind fun _ => ?_
  refine (s.steady_copyPublic hpublic houtput (not_atItem_of_apart hstatics) fun _ _ => id).bind ?_
  exact fun _ => BlogList.steady_load (fun _ hx => hx.elim) hlist hjson

/-- What an earlier build has written does not count. -/
theorem go_prepare_withPages (w : World) (pages : Array String) :
    s.prepare.go { w with pages } = s.prepare.go w := rfl

/-- Once the blogs are listed, only the output directory and the log file have changed. -/
theorem kept_of_prepare (hs : s.paths.IsApart) (hw : w.IsSound) {blogs : List Blog}
    (hgo : s.prepare.go w = (.ok blogs,v)) :
    s.Kept w.opened v ∧ ((BlogList.load s.paths.blogList).go w).1 = .ok blogs := by
  unfold prepare at hgo
  obtain ⟨_,u,hstart,hgo⟩ := Run.exists_of_go_bind hgo
  obtain rfl : w.opened = u := congrArg Prod.snd hstart
  obtain ⟨_,u,hreset,hgo⟩ := Run.exists_of_go_bind hgo
  have hfile := not_file_of_resetOutput hs.output hw hreset
  obtain ⟨hfresh,-⟩ := (meets_resetOutput hs.output hw.opened (not_file_opened hfile)).result _ u hreset
  obtain ⟨_,u',hcopy,hgo⟩ := Run.exists_of_go_bind hgo
  have hwritten := (hfresh.copyPublic hs rfl).result _ u' hcopy
  obtain ⟨hkept,hblogs⟩ := (hwritten.loadBlogs hs hw.opened).result blogs v hgo
  refine ⟨hkept.kept,?_⟩
  exact BlogList.load_eq_ok_of_sameBelow hw.opened hw hs.content (hw.sameBelow_opened _) hblogs

/-! ### The whole build -/

/-- No item that is taken away is or holds a template of a blog that is listed. -/
def LendsNone (s : Site) (w : World) (items : Items) : Prop :=
  ∀ blogs, ((BlogList.load s.paths.blogList).go w).1 = .ok blogs → ∀ b ∈ blogs, ∀ file ∈ themeFiles,
    s.posts.AtItem items (s.templatePlace b file) → w.disk.bytesAt? (s.templatePlace b file) = none

/-- The blogs that are listed are written alike without items that loading passes over. -/
theorem steadily_removed (hs : s.paths.IsApart)
    (htemplates : Location.Apart (Path.place s.paths.templatesDir) (Path.place s.paths.contentDir))
    (hw : w.IsSound) (hslugs : s.SlugsAreSteps w)
    (hskips : ∀ blog item, items blog item → s.posts.Skips w.disk blog item)
    (hthemes : s.LendsNone w items) (hremoved : w.Removed (s.posts.AtItem items) w') {blogs : List Blog}
    (hblogs : ((BlogList.load s.paths.blogList).go w).1 = .ok blogs) :
    s.Steadily (s.Twins items w.opened w'.opened) blogs := by
  have hw' := hremoved.isSound (fun _ r hl => hl.append r) hw
  have hsteps := hslugs blogs hblogs
  refine steadily_twins hs hw.opened hw'.opened htemplates hsteps (fun b hb => ?_) ?_
  · rw [load_opened hs hw' (hsteps b hb),load_opened hs hw (hsteps b hb)]
    exact PostFolder.load_eq_of_removed hremoved hw hs.content (hsteps b hb) (hskips b.slug)
  · intro b hb file hfile hat
    have hend := suffix_themeFile hfile (String.ofList (s.themeName b).display)
    have hgone : w'.disk.bytesAt? (s.templatePlace b file) = none := by
      rw [Disk.bytesAt?,hremoved.gone _ hat]
    exact ⟨(bytesAt?_template_opened hw hend).trans (hthemes blogs hblogs b hb file hfile hat),
      (bytesAt?_template_opened hw' hend).trans hgone⟩

/-! ### Items that are taken away -/

theorem places_disjoint_sample :
    Location.Apart (Path.place sample.paths.templatesDir) (Path.place sample.paths.contentDir) ∧
      Location.Apart (Path.place sample.paths.publicDir) (Path.place sample.paths.contentDir) := by
  have hplaces : Path.place sample.paths.contentDir = ["content"] ∧
      Path.place sample.paths.templatesDir = ["templates"] ∧
      Path.place sample.paths.publicDir = ["public"] := by decide
  rw [hplaces.1,hplaces.2.1,hplaces.2.2]
  exact ⟨⟨by decide,by decide⟩,⟨by decide,by decide⟩⟩

/-- Some items of the blog of the sample site. -/
def itemsOf (names : List String) : Items := fun blog item => blog = "a" ∧ item ∈ names

theorem atItem_sample_iff {names : List String} {l : Location} :
    sample.posts.AtItem (itemsOf names) l ↔
      ∃ n ∈ names, ["content","blogs","a","posts",n] <+: l := by
  have hplace : Path.place sample.posts.content = ["content"] := by decide
  unfold PostFolder.AtItem
  rw [hplace]
  constructor
  · rintro ⟨blog,n,⟨rfl,hn⟩,hl⟩
    exact ⟨n,hn,hl⟩
  · rintro ⟨n,hn,hl⟩
    exact ⟨"a",n,⟨rfl,hn⟩,hl⟩

/-- The sample project with a draft and with notes that are no post. -/
def strewnProject : World :=
  { sampleProject with
    disk := (sampleProject.disk.put ["content","blogs","a","posts","d.md"]
      (.file (PostFolder.samplePage "2024-04-01" "draft: true\n"))).put
        ["content","blogs","a","posts","notes.txt"] (.file "".toUTF8) }

/-- The project without them. -/
def sweptProject : World :=
  { strewnProject with
    disk := (strewnProject.disk.prune ["content","blogs","a","posts","d.md"]).prune
      ["content","blogs","a","posts","notes.txt"] }

theorem isSound_strewnProject : strewnProject.IsSound :=
  ⟨Disk.isTree_of_entries (by decide),isSound_sampleProject.named,isSound_sampleProject.direct,
    by simp [World.LogAt,strewnProject,sampleProject]⟩

theorem listed_strewnProject (blogs : List Blog)
    (h : ((BlogList.load sample.paths.blogList).go strewnProject).1 = .ok blogs) :
    blogs = [plainBlog "a" ""] :=
  listed_of_arePlain [("a","")] (by decide +kernel) blogs h

theorem slugsAreSteps_strewn : sample.SlugsAreSteps strewnProject := by
  intro blogs hblogs b hb
  have hstep : Path.IsStep "a" := by decide
  rw [listed_strewnProject blogs hblogs,List.mem_singleton] at hb
  exact hb ▸ hstep

theorem removed_strewn :
    strewnProject.Removed (sample.posts.AtItem (itemsOf ["d.md","notes.txt"])) sweptProject where
  gone := by
    intro l hl
    obtain ⟨n,hn,r,rfl⟩ := atItem_sample_iff.mp hl
    simp only [List.mem_cons,List.not_mem_nil,or_false] at hn
    rcases hn with rfl | rfl <;> simp [sweptProject,Disk.entry?_prune]
  kept := by
    intro l hl
    have hout : ∀ n ∈ ["d.md","notes.txt"], ¬ ["content","blogs","a","posts",n] <+: l :=
      fun n hn hbelow => hl (atItem_sample_iff.mpr ⟨n,hn,hbelow⟩)
    simp [sweptProject,Disk.entry?_prune,hout "d.md" (by simp),hout "notes.txt" (by simp)]
  logFile := by simp [sweptProject,strewnProject,sampleProject]

/-- The draft has all that a post needs, and the notes are no post file. -/
theorem skips_strewn (blog item : String) (h : itemsOf ["d.md","notes.txt"] blog item) :
    sample.posts.Skips strewnProject.disk blog item := by
  obtain ⟨rfl,hitem⟩ := h
  simp only [List.mem_cons,List.not_mem_nil,or_false] at hitem
  rcases hitem with rfl | rfl
  · exact fun _ => PostFolder.isDraft_of_reading "d" (by decide +kernel)
  · exact fun hending => absurd hending (by decide)

theorem lendsNone_strewn : sample.LendsNone strewnProject (itemsOf ["d.md","notes.txt"]) := by
  intro blogs hblogs b hb file hfile hat
  rw [listed_strewnProject blogs hblogs,List.mem_singleton] at hb
  subst hb
  have hplaces : ∀ file ∈ themeFiles,
      (sample.templatePlace (plainBlog "a" "") file).head? = some "templates" := by decide
  obtain ⟨n,-,r,hr⟩ := atItem_sample_iff.mp hat
  have hhead := hplaces file hfile
  rw [← hr] at hhead
  exact absurd hhead (by simp)

/-- Without some drafts that have all that a post needs, and without some items that are no post files, a
build gives the same result or stops at the same failure, and it leaves the same output directory, unless
one of the items is or holds a template of a blog that is listed. -/
theorem build_unseen (hs : s.paths.IsApart)
    (htemplates : Location.Apart (Path.place s.paths.templatesDir) (Path.place s.paths.contentDir))
    (hstatics : Location.Apart (Path.place s.paths.publicDir) (Path.place s.paths.contentDir))
    (hw : w.IsSound) (hslugs : s.SlugsAreSteps w)
    (hskips : ∀ blog item, items blog item → s.posts.Skips w.disk blog item)
    (hremoved : w.Removed (s.posts.AtItem items) w') (hthemes : s.LendsNone w items) :
    (s.build.go w').1 = (s.build.go w).1 ∧
      ∀ r, (s.build.go w').2.disk.entry? (s.outputPlace ++ r) =
        (s.build.go w).2.disk.entry? (s.outputPlace ++ r) := by
  have hw' := hremoved.isSound (fun _ r hl => hl.append r) hw
  have hprepare : s.prepare.Steady (World.Alike (s.posts.AtItem items) Location.Nowhere) :=
    steady_prepare hs hstatics
  have halike := hremoved.alike hw #[]
  have hresult := hprepare.result halike
  have hworld := hprepare.world halike
  rw [go_prepare_withPages w,go_prepare_withPages w'] at hresult hworld
  rw [build_eq_prepare,Run.go_bind,Run.go_bind]
  cases hgo : s.prepare.go w with
  | mk e v =>
    cases hgo' : s.prepare.go w' with
    | mk e' v' =>
      rw [hgo,hgo'] at hresult hworld
      obtain rfl : e = e' := hresult
      cases e with
      | error f => exact ⟨rfl,fun r => (hworld.disk.entry _ (not_atItem_output hs r) id).symm⟩
      | ok blogs =>
        obtain ⟨hkept,hblogs⟩ := kept_of_prepare hs hw hgo
        obtain ⟨hkept',-⟩ := kept_of_prepare hs hw' hgo'
        have hagree : v.Alike (s.posts.AtItem items) (s.Reported w.opened w'.opened) v' :=
          ⟨⟨hworld.disk.kind,fun l hl _ => hworld.disk.entry l hl id⟩,hworld.logged,hworld.logged',
            hworld.pages⟩
        have hfinish := (steadily_removed hs htemplates hw hslugs hskips hthemes hremoved hblogs).finish
        have htwins : s.Twins items w.opened w'.opened v v' := ⟨hagree,hkept,hkept'⟩
        refine ⟨(hfinish.result htwins).symm,fun r => ?_⟩
        refine ((hfinish.world htwins).alike.disk.entry _ (not_atItem_output hs r) ?_).symm
        exact fun hreported => hreported.2 (List.prefix_append _ r)

theorem build_unseen_sample :
    (sample.paths.IsApart ∧
      Location.Apart (Path.place sample.paths.templatesDir) (Path.place sample.paths.contentDir) ∧
      Location.Apart (Path.place sample.paths.publicDir) (Path.place sample.paths.contentDir) ∧
      strewnProject.IsSound ∧ sample.SlugsAreSteps strewnProject ∧
      (∀ blog item, itemsOf ["d.md","notes.txt"] blog item →
        sample.posts.Skips strewnProject.disk blog item) ∧
      strewnProject.Removed (sample.posts.AtItem (itemsOf ["d.md","notes.txt"])) sweptProject ∧
      sample.LendsNone strewnProject (itemsOf ["d.md","notes.txt"])) ∧
    (sample.build.go sweptProject).1.isOk = true ∧
    (sample.build.go sweptProject).1 = (sample.build.go strewnProject).1 ∧
      ∀ r, (sample.build.go sweptProject).2.disk.entry? (sample.outputPlace ++ r) =
        (sample.build.go strewnProject).2.disk.entry? (sample.outputPlace ++ r) :=
  ⟨⟨isApart_sample,places_disjoint_sample.1,places_disjoint_sample.2,isSound_strewnProject,
    slugsAreSteps_strewn,skips_strewn,removed_strewn,lendsNone_strewn⟩,by decide +kernel,
    build_unseen isApart_sample places_disjoint_sample.1 places_disjoint_sample.2 isSound_strewnProject
      slugsAreSteps_strewn skips_strewn removed_strewn lendsNone_strewn⟩

/-- A project whose blog has its template among its posts. -/
def templateProject : World where
  disk :=
    { entries :=
        [(["content"],.directory),(["content","blogs"],.directory),
          (["content","blogs.json"],
            .file "[\x7b\"slug\": \"a\", \"theme\": \"../content/blogs/a/posts\"\x7d]".toUTF8),
          (["content","blogs","a"],.directory),(["content","blogs","a","posts"],.directory),
          (["content","blogs","a","posts","blog-list.html"],.file "blog".toUTF8),
          (["templates"],.directory),(["templates","home.html"],.file "home".toUTF8),
          (["templates","404.html"],.file "lost".toUTF8)]
      distinct := by decide }

/-- The project without the template. -/
def strippedProject : World :=
  { templateProject with
    disk := templateProject.disk.prune ["content","blogs","a","posts","blog-list.html"] }

theorem isSound_templateProject : templateProject.IsSound :=
  ⟨Disk.isTree_of_entries (by decide),by simp [World.LogNamed,templateProject],by simp [templateProject],
    by simp [World.LogAt,templateProject]⟩

theorem listed_templateProject (blogs : List Blog)
    (h : ((BlogList.load sample.paths.blogList).go templateProject).1 = .ok blogs) :
    blogs = [plainBlog "a" "../content/blogs/a/posts"] :=
  listed_of_arePlain [("a","../content/blogs/a/posts")] (by decide +kernel) blogs h

theorem slugsAreSteps_template : sample.SlugsAreSteps templateProject := by
  intro blogs hblogs b hb
  have hstep : Path.IsStep "a" := by decide
  rw [listed_templateProject blogs hblogs,List.mem_singleton] at hb
  exact hb ▸ hstep

theorem removed_template :
    templateProject.Removed (sample.posts.AtItem (itemsOf ["blog-list.html"])) strippedProject where
  gone := by
    intro l hl
    obtain ⟨n,hn,r,rfl⟩ := atItem_sample_iff.mp hl
    obtain rfl := List.mem_singleton.mp hn
    simp [strippedProject,Disk.entry?_prune]
  kept := by
    intro l hl
    have hout : ¬ ["content","blogs","a","posts","blog-list.html"] <+: l :=
      fun hbelow => hl (atItem_sample_iff.mpr ⟨_,by simp,hbelow⟩)
    simp [strippedProject,Disk.entry?_prune,hout]
  logFile := by simp [strippedProject,templateProject]

theorem skips_template (blog item : String) (h : itemsOf ["blog-list.html"] blog item) :
    sample.posts.Skips templateProject.disk blog item := by
  obtain ⟨rfl,hitem⟩ := h
  obtain rfl := List.mem_singleton.mp hitem
  exact fun hending => absurd hending (by decide)

/-- Without an item that is a template of a blog, a build that succeeded fails. -/
theorem build_misses_template :
    (sample.paths.IsApart ∧
      Location.Apart (Path.place sample.paths.templatesDir) (Path.place sample.paths.contentDir) ∧
      Location.Apart (Path.place sample.paths.publicDir) (Path.place sample.paths.contentDir) ∧
      templateProject.IsSound ∧ sample.SlugsAreSteps templateProject ∧
      (∀ blog item, itemsOf ["blog-list.html"] blog item →
        sample.posts.Skips templateProject.disk blog item) ∧
      templateProject.Removed (sample.posts.AtItem (itemsOf ["blog-list.html"])) strippedProject) ∧
    (sample.build.go templateProject).1.isOk = true ∧
      (sample.build.go strippedProject).1.isOk = false :=
  ⟨⟨isApart_sample,places_disjoint_sample.1,places_disjoint_sample.2,isSound_templateProject,
    slugsAreSteps_template,skips_template,removed_template⟩,by decide +kernel,by decide +kernel⟩

end Site

end BlogSite
