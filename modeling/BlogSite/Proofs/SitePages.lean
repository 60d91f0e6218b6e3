import BlogSite.Proofs.LoadedContent
import BlogSite.Proofs.OutputStages

/-!
The pages of a site. A page is told by its path, its template and what is made of the text of the
template; a build writes the pages of its blogs and posts one after the other, each over the files that
were written before it.
-/

namespace BlogSite

/-- A page to write: its path in the output directory, the path of its template, if it has one, and
what is made of the text of the template. -/
structure Sheet where
  path : String
  template : Option String
  text : String → String

/-- The bytes of a page, given the bytes of files at their locations. -/
def Sheet.bytes? (p : Sheet) (look : Location → Option ByteArray) : Option ByteArray := do
  let template ← match p.template with
    | none => some ""
    | some path => (look (Path.place path)).bind Text.ofBytes?
  return (p.text template).toUTF8

/-- Pages by their ways from the output directory, the newest first. -/
abbrev Pages := List (Location × ByteArray)

namespace Site

section

variable (s : Site)

/-- The static files of a tree. -/
def publicFiles (found : Disk) : Files := fun r =>
  if r = [] then none else found.bytesAt? (Path.place s.paths.publicDir ++ r)

/-- Pages over the static files. -/
def filesWith (found : Disk) (pages : Pages) : Files := fun r =>
  (pages.lookup r).or (s.publicFiles found r)

/-- The bytes at a location: those of a page or a static file in the output directory, those that were
found elsewhere. -/
def lookIn (found : Disk) (pages : Pages) : Location → Option ByteArray := fun l =>
  if s.outputPlace <+: l then s.filesWith found pages (l.drop s.outputPlace.length)
  else found.bytesAt? l

/-- The pages that are made one after the other. Templates are looked up as they are then. -/
def pagesOf? (found : Disk) (pages : Pages) : List Sheet → Option Pages
  | [] => some pages
  | p :: ps => do
    let bytes ← p.bytes? (s.lookIn found pages)
    pagesOf? found ((Path.names p.path,bytes) :: pages) ps

/-! ### The pages of a site -/

def postSheet (t : Theme) (b : Blog) (at_ : PostPage.Place) : Sheet where
  path := PostPage.path b at_.post
  template := some (s.templates.pathOf (String.ofList (s.themeName b).display ++ "/post.html"))
  text template := Template.fillNamed template (PostPage.shown t b at_)

def blogSheet (t : Theme) (b : Blog) (posts : List Post) : Sheet where
  path := BlogPage.path b
  template := some (s.templates.pathOf (String.ofList (s.themeName b).display ++ "/blog-list.html"))
  text template := Template.fillNamed template (BlogPage.shown t b posts)

/-- The page of a blog and those of its posts. -/
def blogSheets (b : Blog) (posts : List Post) : List Sheet :=
  let t := (Theme.ofValue? (s.themeName b)).getD .default
  s.blogSheet t b posts :: (PostPage.places posts).map (s.postSheet t b)

def homeSheet (blogs : List Blog) (shelf : HomePage.Shelf) : Sheet where
  path := HomePage.path
  template := some (s.templates.pathOf "home.html")
  text template := Template.fillNamed template (HomePage.shown s.title s.today blogs shelf
    ((HomePage.recentSlugs? s.today shelf).getD []))

/-- The template of this page is the page. -/
def notFoundSheet : Sheet := ⟨"404.html",some (s.templates.pathOf "404.html"),id⟩

/-- An empty file that has the site served as it is. -/
def markerSheet : Sheet := ⟨".nojekyll",none,fun _ => ""⟩

/-- The posts of blogs on their shelf. -/
def shelfOf (posts : String → List Post) (blogs : List Blog) : HomePage.Shelf :=
  Table.ofPairs (blogs.map fun b => (b.slug,posts b.slug))

/-- The pages of some blogs, one blog after the other. -/
def blogPages (posts : String → List Post) (blogs : List Blog) : List Sheet :=
  blogs.flatMap fun b => s.blogSheets b (posts b.slug)

/-- All pages of a site, in the order in which they are written. -/
def sheets (blogs : List Blog) (posts : String → List Post) : List Sheet :=
  blogs.flatMap (fun b => s.blogSheets b (posts b.slug)) ++
    [s.homeSheet blogs (shelfOf posts blogs),s.notFoundSheet,markerSheet]

/-- The posts that a blog has in a world. -/
def postsIn (w : World) (slug : String) : List Post :=
  (((s.posts.load slug).go w).1.toOption).getD []

/-- The pages of some sheets have been written, in their order. -/
def Written (base : World) (ps : List Sheet) (w : World) : Prop :=
  ∃ pages, s.pagesOf? base.disk [] ps = some pages ∧
    s.Stage base (s.filesWith base.disk pages) w ∧ w.pages.toList = ps.map Sheet.path

/-- The pages of some sheets have been written when a step fails that reads no posts. -/
def Stuck (base : World) (ps : List Sheet) (f : Failure) (w : World) : Prop :=
  s.Written base ps w ∧ f.blog? = none

/-- A page has the text that its template gives after some sheets. -/
def Fits (base : World) (ps : List Sheet) (p : Sheet) (t : String) : Prop :=
  ∀ pages, s.pagesOf? base.disk [] ps = some pages →
    p.bytes? (s.lookIn base.disk pages) = some (p.text t).toUTF8

end

variable {s : Site} {base w : World}

theorem pagesOf?_append (found : Disk) (pages : Pages) (ps qs : List Sheet) :
    s.pagesOf? found pages (ps ++ qs) =
      (s.pagesOf? found pages ps).bind fun pages => s.pagesOf? found pages qs := by
  induction ps generalizing pages with
  | nil => rfl
  | cons p ps ih =>
    rw [List.cons_append,pagesOf?,pagesOf?]
    cases p.bytes? (s.lookIn found pages) with
    | none => rfl
    | some bytes => exact ih _

theorem filesWith_cons (found : Disk) (pages : Pages) (r : Location) (bytes : ByteArray) :
    s.filesWith found ((r,bytes) :: pages) =
      Function.update (s.filesWith found pages) r (some bytes) := by
  funext k
  unfold filesWith
  by_cases hk : k = r
  · subst hk
    simp
  · have hne : (k == r) = false := by simpa using hk
    rw [List.lookup_cons,hne,Function.update_of_ne hk]

theorem Written.kept {ps : List Sheet} (h : s.Written base ps w) : s.Kept base w := by
  obtain ⟨pages,-,hstage,-⟩ := h
  exact hstage.kept

theorem Written.report {ps : List Sheet} (h : s.Written base ps w) (r : Log.Record) :
    s.Written base ps (w.report r) := by
  obtain ⟨pages,hpages,hstage,hpaths⟩ := h
  exact ⟨pages,hpages,hstage.report r,hpaths⟩

/-! ### Reading templates -/

/-- What a template path leads to is what is told of its location. -/
theorem Stage.lookIn_eq {pages : Pages} (h : s.Stage base (s.filesWith base.disk pages) w)
    (hbase : base.IsSound) {p : String} (hp : Path.IsDirect p) (hend : ".html".toList <:+ p.toList)
    {bytes : ByteArray} (hbytes : w.disk.bytesAt? (Path.place p) = some bytes) :
    s.lookIn base.disk pages (Path.place p) = some bytes := by
  have hentry := Disk.bytesAt?_eq_some_iff.mp hbytes
  unfold lookIn
  split
  · rename_i hbelow
    obtain ⟨r,hr⟩ := hbelow
    rw [← hr,List.drop_left,← h.files r,hr]
    exact hbytes
  · rename_i hother
    have hup : ¬ Path.place p <+: s.outputPlace := by
      rintro ⟨r,hr⟩
      have hdir := h.output
      rw [← hr] at hdir
      cases r with
      | nil => simp [hentry] at hdir
      | cons n r => simp [h.sound.tree.directory_of_append (by simp) hdir] at hentry
    have hlocate : w.disk.locate p = .ok (Path.place p) := by
      rw [Disk.locate_eq_reach _ hp,h.sound.tree.reach_eq hentry]
    have hlog : ¬ base.LogAt (Path.place p) := fun hlog =>
      Disk.not_isLogAt_of_ending hend (by decide) (by decide) (by decide) hlocate (hbase.named.isLogAt hlog)
    rw [← hbytes]
    exact Disk.bytesAt?_congr (h.entry _ ⟨hup,hother⟩ hlog).symm

end Site

theorem Run.meets_readText {w : World} {p : String} {ok : String → World → Prop}
    {bad : Failure → World → Prop} (h : ∀ t, w.disk.textAt p = .ok t → ok t w)
    (hbad : ∀ f, f.blog? = none → bad f w) : (Run.readText p).Meets w ok bad := by
  have hgo := Run.go_readText p w
  cases ht : w.disk.textAt p with
  | ok t =>
    rw [ht] at hgo
    exact (Run.meets_of_go_ok hgo).mpr (h t ht)
  | error f =>
    rw [ht] at hgo
    exact (Run.meets_of_go_error hgo).mpr (hbad f (Disk.blog?_of_textAt_error ht))

theorem Template.Folder.isDirect_pathOf {f : Template.Folder} (hf : Path.IsDirect f.path)
    (relative : String) : Path.IsDirect (f.pathOf relative) :=
  (Path.isDirect_normalise (Path.isAbsolute_join hf.absolute relative)).1

namespace Site

variable {s : Site} {base w : World}

/-- A template that is read is the one that the next page is made of. -/
theorem Written.read {ps : List Sheet} (h : s.Written base ps w) (hs : s.paths.IsApart)
    (hbase : base.IsSound) {relative : String} (hend : ".html".toList <:+ relative.toList) {p : Sheet}
    (hp : p.template = some (s.templates.pathOf relative)) :
    (s.templates.read relative).Meets w (fun t v => s.Written base ps v ∧ s.Fits base ps p t)
      (s.Stuck base ps) := by
  obtain ⟨pages,hpages,hstage,-⟩ := id h
  have hpath := Template.Folder.isDirect_pathOf (f := s.templates) hs.templates relative
  have hending : ".html".toList <:+ (s.templates.pathOf relative).toList :=
    Path.suffix_normalise (hend.trans (Path.suffix_join _ _)) (by decide) (by decide)
  unfold Template.Folder.read
  rw [Run.meets_bind,Run.meets_ask]
  split
  · rw [Run.meets_bind]
    refine Run.meets_readText (fun t ht => ?_) fun f hf => ⟨h,hf⟩
    rw [Run.meets_bind,Run.meets_report,Run.meets_pure]
    refine ⟨h.report _,fun pages' hpages' => ?_⟩
    obtain rfl := Option.some.inj (hpages.symm.trans hpages')
    obtain ⟨bytes,hbytes,htext⟩ := (hstage.sound.tree.textAt_eq_ok_iff hpath).mp ht
    simp [Sheet.bytes?,hp,hstage.lookIn_eq hbase hpath hending hbytes,htext]
  · exact (Run.meets_throw _).mpr ⟨h,rfl⟩

/-! ### Writing pages -/

theorem Stage.writePage {files : Files} (h : s.Stage base files w) (hs : s.paths.IsApart)
    {relative : String} (hsteps : ∀ n ∈ Path.names relative, Path.IsStep n) (text : String) :
    (s.writePage relative text).Meets w
      (fun _ v => s.Stage base (Function.update files (Path.names relative) (some text.toUTF8)) v ∧
        v.pages = w.pages.push relative)
      fun f v => s.Stage base files v ∧ v.pages = w.pages ∧ f.blog? = none := by
  obtain ⟨hpath,hplace⟩ := hs.output.join hsteps
  have hne := Path.names_ne_nil relative
  obtain ⟨l,n,hlast⟩ : ∃ l n, Path.names relative = l ++ [n] := by
    rcases List.eq_nil_or_concat (Path.names relative) with hnil | ⟨l,n,hl⟩
    · exact absurd hnil hne
    · exact ⟨l,n,by simpa using hl⟩
  have hsplit := hplace
  rw [hlast,← List.append_assoc] at hsplit
  obtain ⟨hparent,hup⟩ := hpath.parent hsplit
  unfold Site.writePage
  rw [Run.meets_bind]
  apply Run.meets_makeDirectories h.sound.tree hparent
  case hbad =>
    intro f d hmade
    rw [hup] at hmade
    exact ⟨h.grow hmade.tree hmade.grown,rfl,rfl⟩
  intro d hmade
  rw [hup] at hmade
  have hgrown := h.grow hmade.tree hmade.grown
  rw [Run.meets_bind]
  apply Run.meets_alter
  case hbad => exact fun _ _ => ⟨hgrown,rfl,rfl⟩
  intro d' hd'
  have hwritten := hgrown.write hpath hne hplace hd'
  rw [Run.meets_bind,Run.meets_modify]
  refine (Run.meets_report _ _ _).mpr ⟨?_,rfl⟩
  exact (hwritten.pages _).report _

theorem Written.writePage {ps : List Sheet} (h : s.Written base ps w) (hs : s.paths.IsApart) {p : Sheet}
    {t : String} (hfits : s.Fits base ps p t) (hsteps : ∀ n ∈ Path.names p.path, Path.IsStep n) :
    (s.writePage p.path (p.text t)).Meets w (fun _ => s.Written base (ps ++ [p]))
      (s.Stuck base ps) := by
  obtain ⟨pages,hpages,hstage,hpaths⟩ := h
  refine (hstage.writePage hs hsteps (p.text t)).imp ?_ ?_
  · rintro - v ⟨hv,hpush⟩
    refine ⟨(Path.names p.path,(p.text t).toUTF8) :: pages,?_,?_,?_⟩
    · rw [pagesOf?_append,hpages]
      simp [pagesOf?,hfits pages hpages]
    · rwa [filesWith_cons]
    · simp [hpush,hpaths]
  · rintro f v ⟨hv,hsame,hf⟩
    exact ⟨⟨pages,hpages,hv,by rw [hsame,hpaths]⟩,hf⟩

end Site

end BlogSite
