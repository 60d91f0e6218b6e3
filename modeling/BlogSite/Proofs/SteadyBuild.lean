import BlogSite.Proofs.BuildInvariants
import BlogSite.Proofs.PageMatching
import BlogSite.Proofs.SteadyRuns

/-!
A build from two worlds that look alike. What a build reads has none of the endings of log files, and
directories are gone through in the order of their names; so every step whose paths avoid what is hidden
gives the same in both worlds and leaves them looking alike. A build is steady for every relation between
worlds for which its steps are.
-/

namespace BlogSite

variable {Y X : Location → Prop}

section Alike

variable (hX : ∀ l, X l → Disk.IsLogAt l)
include hX

/-! ### Reading -/

theorem Run.steady_readText_of_ending {p : String} (hp : Path.Avoids p Y) {e : List Char}
    (he : e <:+ p.toList) (hslash : '/' ∉ e) (hlen : 2 < e.length) (hlast : e.getLast? ≠ some 'g') :
    (Run.readText p).Steady (World.Alike Y X) :=
  Run.steady_readText hp fun _ _ hl hx => Disk.not_isLogAt_of_ending he hslash hlen hlast hl (hX _ hx)

theorem BlogList.steady_load {p : String} (hp : Path.Avoids p Y) (hjson : ".json".toList <:+ p.toList) :
    (BlogList.load p).Steady (World.Alike Y X) := by
  unfold BlogList.load
  refine (Run.steady_ask fun _ _ h => h.disk.isThere_eq hp).bind fun isThere => ?_
  split
  · refine (Run.steady_readText_of_ending hX hp hjson (by decide) (by decide) (by decide)).bind ?_
    exact fun _ => Run.steady_settle _
  · exact Run.steady_throw _

theorem PostFolder.steady_loadFile (f : PostFolder) (blog : String) {item slug : String}
    (hitem : item = slug ++ ending) :
    (f.loadFile blog item slug).Steady (World.Alike Location.Nowhere X) := by
  have hending : ending.toList <:+ (Path.join (f.directory blog) item).toList := by
    refine List.IsSuffix.trans ?_ (Path.suffix_join _ _)
    simp [hitem]
  unfold loadFile
  refine (Run.steady_readText_of_ending hX (Path.avoids_nowhere _) hending (by decide) (by decide)
    (by decide)).bind fun text => (Run.steady_settle _).bind fun r => ?_
  cases r with
  | draft => exact (Run.steady_report _ _ _).bind fun _ => Run.steady_pure _
  | published post => exact Run.steady_pure _

theorem PostFolder.steady_loadFiles (f : PostFolder) (blog : String) (items : List String) :
    (f.loadFiles blog items).Steady (World.Alike Location.Nowhere X) := by
  induction items with
  | nil => exact Run.steady_pure _
  | cons item items ih =>
    unfold loadFiles
    cases hslug : Path.withoutEnding? ending item with
    | none => exact ih
    | some slug =>
      have hitem := Path.withoutEnding?_eq_some_iff.mp hslug
      refine (f.steady_loadFile hX blog hitem).bind fun post => ?_
      exact ih.bind fun posts => Run.steady_pure _

/-- The posts of a blog do not depend on the order in which their directory lists them. -/
theorem PostFolder.steady_load (f : PostFolder) (blog : String) :
    (f.load blog).Steady (World.Alike Location.Nowhere X) := by
  have hdirectory := Path.avoids_nowhere (f.directory blog)
  unfold load
  refine (Run.steady_ask fun _ _ h => h.disk.isDirectory_eq hdirectory).bind fun isDirectory => ?_
  split
  · refine Run.steady_fetch_bind (g := Path.sortedNames)
      (k := fun ns => f.loadFiles blog ns >>= fun posts => pure (newestFirst Post.date posts))
      (fun _ _ h => h.disk.list_eq hdirectory fun _ => id) fun ns _ _ _ _ => ?_
    exact (f.steady_loadFiles hX blog _).bind fun posts => Run.steady_pure _
  · exact (Run.steady_report _ _ _).bind fun _ => Run.steady_pure _

theorem Template.Folder.steady_read (f : Template.Folder) {relative : String}
    (hp : Path.Avoids (f.pathOf relative) Y) (hrelative : ".html".toList <:+ relative.toList) :
    (f.read relative).Steady (World.Alike Y X) := by
  have hending : ".html".toList <:+ (f.pathOf relative).toList :=
    Path.suffix_normalise (hrelative.trans (Path.suffix_join _ _)) (by decide) (by decide)
  unfold read
  refine (Run.steady_ask fun _ _ h => h.disk.isFile_eq hp).bind fun isFile => ?_
  split
  · refine (Run.steady_readText_of_ending hX hp hending (by decide) (by decide) (by decide)).bind ?_
    exact fun text => (Run.steady_report _ _ _).bind fun _ => Run.steady_pure _
  · exact Run.steady_throw _

/-- The kinds of assets have endings that log files do not have. -/
theorem Minify.steady_file {k : Minify.Kind} (hk : k.folder = "css" ∨ k.folder = "js")
    {directory name : String} (hname : Path.Avoids (Path.join directory name) Y)
    (hshort : ∀ short, k.shortName? name = some short → Path.Avoids (Path.join directory short) Y) :
    (Minify.file k directory name).Steady (World.Alike Y X) := by
  unfold Minify.file
  cases h : k.shortName? name with
  | none => exact Run.steady_pure _
  | some short =>
    obtain ⟨stem,hstem,-⟩ := Kind.shortName?_eq_some h
    have hending : k.ending.toList <:+ name.toList := by simp [hstem]
    have hread : (Run.readText (Path.join directory name)).Steady (World.Alike Y X) := by
      have hpath := hending.trans (Path.suffix_join directory name)
      unfold Kind.ending at hpath
      rcases hk with hk | hk <;> rw [hk] at hpath <;>
        exact Run.steady_readText_of_ending hX hname hpath (by decide) (by decide) (by decide)
    refine hread.bind fun source => (Run.steady_writeText (hshort short h) _).bind fun _ => ?_
    exact Run.steady_report _ _ _

end Alike

/-! ### Writing -/

theorem Site.steady_writePage (s : Site) {relative : String}
    (hp : Path.Avoids (Path.join s.paths.outputDir relative) Y)
    (hup : Path.Avoids (Path.parent (Path.join s.paths.outputDir relative)) Y) (text : String) :
    (s.writePage relative text).Steady (World.Alike Y X) := by
  unfold writePage
  refine (Run.steady_makeDirectories hup).bind fun _ => (Run.steady_writeText hp _).bind fun _ => ?_
  refine (Run.steady_modify fun w w' h => ?_).bind fun _ => Run.steady_report _ _ _
  exact ⟨h.disk,h.logged,h.logged',congrArg (·.push relative) h.pages⟩

/-- Static files are copied alike if nothing among them is hidden, and if the copies of files that may
differ may differ. -/
theorem Site.steady_copyPublic (s : Site) (hpublic : Path.Avoids s.paths.publicDir Y)
    (houtput : Path.Avoids s.paths.outputDir Y)
    (hhidden : ∀ r, ¬ Y (Path.place s.paths.publicDir ++ r))
    (hcopied : ∀ r, r ≠ [] → X (Path.place s.paths.publicDir ++ r) → X (s.outputPlace ++ r)) :
    s.copyPublic.Steady (World.Alike Y X) := by
  unfold copyPublic
  refine (Run.steady_ask fun _ _ h => h.disk.isDirectory_eq hpublic).bind fun isDirectory => ?_
  split
  · refine (Run.steady_alter fun d d' h => ?_).bind fun _ => Run.steady_report _ _ _
    exact h.copyTree hpublic houtput hhidden hcopied
  · exact Run.steady_report _ _ _

theorem Site.steady_resetOutput (s : Site) (houtput : Path.Avoids s.paths.outputDir Y) :
    s.resetOutput.Steady (World.Alike Y X) := by
  unfold resetOutput
  refine (Run.steady_ask fun _ _ h => h.disk.isThere_eq houtput).bind fun isThere => ?_
  split
  · exact (Run.steady_removeTree houtput).bind fun _ => Run.steady_makeDirectories houtput
  · exact Run.steady_makeDirectories houtput

/-! ### The build once the blogs are listed -/

/-- The short copies of a kind are made alike if those of the files that are listed are. -/
theorem Minify.steady_kind {R : World → World → Prop} {output : String} {k : Minify.Kind}
    (hthere : ∀ w w', R w w' → w.disk.isThere (Path.joinAll output ["assets",k.folder]) =
      w'.disk.isThere (Path.joinAll output ["assets",k.folder]))
    (hlist : ∀ w w', R w w' →
      (w.disk.list (Path.joinAll output ["assets",k.folder])).map Path.sortedNames =
        (w'.disk.list (Path.joinAll output ["assets",k.folder])).map Path.sortedNames)
    (hfile : ∀ w w' names, R w w' → w.disk.list (Path.joinAll output ["assets",k.folder]) = .ok names →
      ∀ name ∈ names, (Minify.file k (Path.joinAll output ["assets",k.folder]) name).Steady R) :
    (Minify.kind output k).Steady R := by
  unfold Minify.kind
  refine (Run.steady_ask hthere).bind fun isThere => ?_
  split
  · refine Run.steady_fetch_bind (g := Path.sortedNames)
      (k := fun ns => ns.forM (Minify.file k (Path.joinAll output ["assets",k.folder]))) hlist ?_
    intro names w w' hw hnames
    refine Run.steady_forM fun name hname => hfile w w' names hw hnames name ?_
    exact (Path.sortedNames_perm names).mem_iff.mp hname
  · exact Run.steady_pure _

namespace Site

/-- The steps of a build with some blogs are steady: reports, reading the templates and the posts, writing
the pages, and making the short copies. -/
structure Steadily (s : Site) (R : World → World → Prop) (blogs : List Blog) : Prop where
  pages : ∀ w w', R w w' → w.pages = w'.pages
  report : ∀ source level message, (Run.report source level message).Steady R
  template : ∀ name ∈ ["home.html","404.html"], (s.templates.read name).Steady R
  themed : ∀ b ∈ blogs, ∀ file ∈ themeFiles,
    (s.templates.read (String.ofList (s.themeName b).display ++ file)).Steady R
  load : ∀ b ∈ blogs, (s.posts.load b.slug).Steady R
  page : ∀ relative ∈ [HomePage.path,"404.html",".nojekyll"], ∀ text, (s.writePage relative text).Steady R
  blog : ∀ b ∈ blogs, ∀ text, (s.writePage (BlogPage.path b) text).Steady R
  post : ∀ b ∈ blogs, ∀ w w' posts, R w w' → ((s.posts.load b.slug).go w).1 = .ok posts →
    ∀ p ∈ posts, ∀ text, (s.writePage (PostPage.path b p) text).Steady R
  shorten : s.shorten.Steady R

namespace Steadily

variable {s : Site} {R : World → World → Prop} {blogs : List Blog}

theorem writeBlog (h : s.Steadily R blogs) {b : Blog} (hb : b ∈ blogs) : (s.writeBlog b).Steady R := by
  unfold Site.writeBlog
  simp only
  cases Theme.ofValue? (s.themeName b) with
  | none => exact Run.steady_throw _
  | some theme =>
    refine (h.report _ _ _).bind fun _ => (h.load b hb).bind_of fun posts w w' hw hposts => ?_
    refine (h.report _ _ _).bind fun _ => ?_
    refine (h.themed b hb "/blog-list.html" (by decide)).bind fun template => ?_
    refine (h.blog b hb _).bind fun _ => ?_
    refine Run.Steady.bind (Run.steady_forM fun at_ hat => ?_) fun _ => Run.steady_pure _
    have hpost : at_.post ∈ posts := PostPage.map_post_places posts ▸ List.mem_map_of_mem hat
    refine (h.themed b hb "/post.html" (by decide)).bind fun template => ?_
    exact h.post b hb w w' posts hw hposts at_.post hpost _

theorem writeBlogs (h : s.Steadily R blogs) {bs : List Blog} (hbs : ∀ b ∈ bs, b ∈ blogs)
    (shelf : HomePage.Shelf) : (s.writeBlogs shelf bs).Steady R := by
  induction bs generalizing shelf with
  | nil => exact Run.steady_pure _
  | cons b bs ih =>
    obtain ⟨hb,hrest⟩ := List.forall_mem_cons.mp hbs
    exact (h.writeBlog hb).bind fun posts => ih hrest _

theorem writeHome (h : s.Steadily R blogs) (listed : List Blog) (shelf : HomePage.Shelf) :
    (s.writeHome listed shelf).Steady R := by
  unfold Site.writeHome
  refine (h.report _ _ _).bind fun _ => ?_
  split
  · exact Run.steady_throw _
  · exact (h.template "home.html" (by simp)).bind fun template => h.page _ (by simp) _

theorem writeNotFound (h : s.Steadily R blogs) : s.writeNotFound.Steady R := by
  unfold Site.writeNotFound
  refine (h.report _ _ _).bind fun _ => ?_
  exact (h.template "404.html" (by simp)).bind fun text => h.page _ (by simp) _

theorem summarise (h : s.Steadily R blogs) (listed : List Blog) (shelf : HomePage.Shelf) :
    (Site.summarise listed shelf).Steady R := by
  unfold Site.summarise
  refine (h.report _ _ _).bind fun _ => (h.report _ _ _).bind fun _ => ?_
  refine Run.steady_get_bind (g := World.pages) (k := fun pages => do
    info ("Total files written: " ++ toString pages.size)
    return shelf) h.pages fun _ => ?_
  exact (h.report _ _ _).bind fun _ => Run.steady_pure _

/-- What a build does with the blogs that are listed is steady if its steps are. -/
theorem finish (h : s.Steadily R blogs) : (s.finish blogs).Steady R := by
  unfold Site.finish
  refine (h.report _ _ _).bind fun _ => (h.writeBlogs (fun _ hb => hb) []).bind fun shelf => ?_
  refine (h.writeHome blogs shelf).bind fun _ => h.writeNotFound.bind fun _ => ?_
  exact (h.page _ (by simp) _).bind fun _ => h.shorten.bind fun _ => h.summarise blogs shelf

end Steadily

/-! ### Builds from which nothing is hidden -/

variable (hX : ∀ l, X l → Disk.IsLogAt l) (s : Site)
include hX

theorem steadily_alike (blogs : List Blog) : s.Steadily (World.Alike Location.Nowhere X) blogs where
  pages := fun _ _ h => h.pages
  report := Run.steady_report
  template := fun name hname => by
    have hends : ∀ name ∈ ["home.html","404.html"], ".html".toList <:+ name.toList := by decide
    exact s.templates.steady_read hX (Path.avoids_nowhere _) (hends name hname)
  themed := fun b _ file hfile =>
    s.templates.steady_read hX (Path.avoids_nowhere _) (suffix_themeFile hfile _)
  load := fun b _ => s.posts.steady_load hX b.slug
  page := fun _ _ => s.steady_writePage (Path.avoids_nowhere _) (Path.avoids_nowhere _)
  blog := fun _ _ => s.steady_writePage (Path.avoids_nowhere _) (Path.avoids_nowhere _)
  post := fun _ _ _ _ _ _ _ _ _ => s.steady_writePage (Path.avoids_nowhere _) (Path.avoids_nowhere _)
  shorten := by
    unfold shorten
    split
    · refine Run.steady_forM fun k hk => Minify.steady_kind ?_ ?_ ?_
      · exact fun _ _ h => h.disk.isThere_eq (Path.avoids_nowhere _)
      · exact fun _ _ h => h.disk.list_eq (Path.avoids_nowhere _) fun _ => id
      · exact fun _ _ _ _ _ name _ => Minify.steady_file hX (Minify.folder_of_mem_kinds hk)
          (Path.avoids_nowhere _) fun _ _ => Path.avoids_nowhere _
    · exact Run.steady_pure _

/-- Filling the output directory is steady where nothing is hidden. -/
theorem steady_fill (hcopied : ∀ r, r ≠ [] → X (Path.place s.paths.publicDir ++ r) →
    X (s.outputPlace ++ r)) : s.fill.Steady (World.Alike Location.Nowhere X) := by
  have hlist : ".json".toList <:+ s.paths.blogList.toList :=
    List.IsSuffix.trans (by decide) (Path.suffix_join s.paths.contentDir "blogs.json")
  have hfill : s.fill = s.copyPublic >>= fun _ => BlogList.load s.paths.blogList >>= s.finish := rfl
  rw [hfill]
  refine (s.steady_copyPublic (Path.avoids_nowhere _) (Path.avoids_nowhere _) (fun _ => id)
    hcopied).bind fun _ => ?_
  refine (BlogList.steady_load hX (Path.avoids_nowhere _) hlist).bind fun blogs => ?_
  exact (s.steadily_alike hX blogs).finish

end Site

end BlogSite
