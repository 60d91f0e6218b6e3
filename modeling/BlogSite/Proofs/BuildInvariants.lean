import BlogSite.Proofs.ConfinedChanges
import BlogSite.Proofs.PagePaths
import BlogSite.Proofs.SiteOutcomes

/-!
What builds keep. Once the blogs are listed, a build writes pages and short copies, and reports. So what is
kept by a report, by one page of the site and by one short copy is kept until the build ends, however it
ends.
-/

namespace BlogSite

/-! ### Runs that keep what holds -/

namespace Run

variable {α β : Type} {I : World → Prop}

/-- However it ends, a run keeps what holds before it. -/
def Keeps (r : Run α) (I : World → Prop) : Prop := ∀ w, I w → r.Meets w (fun _ => I) fun _ => I

theorem Quiet.keeps {r : Run α} (h : r.Quiet) (hI : ∀ w m, I w → I (w.report m)) : r.Keeps I :=
  h I hI

theorem keeps_pure (a : α) : (pure a : Run α).Keeps I := fun _ hw => (meets_pure a).mpr hw

theorem keeps_throw (f : Failure) : (throw f : Run α).Keeps I := fun _ hw => (meets_throw f).mpr hw

theorem Keeps.bind {x : Run α} {k : α → Run β} (hx : x.Keeps I) (hk : ∀ a, (k a).Keeps I) :
    (x >>= k).Keeps I :=
  fun w hw => (hx w hw).bind fun a v hv => hk a v hv

theorem keeps_forM {γ : Type} {xs : List γ} {step : γ → Run Unit}
    (h : ∀ x ∈ xs, (step x).Keeps I) : (xs.forM step).Keeps I :=
  fun _ hw => meets_forM h hw

theorem meets_of_world {r : Run α} {w : World} (h : I (r.go w).2) :
    r.Meets w (fun _ => I) fun _ => I := by
  refine ⟨fun a v hgo => ?_,fun f v hgo => ?_⟩ <;>
  · rw [hgo] at h
    exact h

/-- What is told of a run may use that the run ended so. -/
theorem Meets.of_go {r : Run α} {w : World} {ok : α → World → Prop} {bad : Failure → World → Prop}
    (h : r.Meets w ok bad) : r.Meets w (fun a v => r.go w = (.ok a,v) ∧ ok a v) bad :=
  ⟨fun a v hgo => ⟨hgo,h.result a v hgo⟩,h.failure⟩

end Run

theorem Template.Folder.quiet_read (f : Template.Folder) (relative : String) :
    (f.read relative).Quiet := by
  unfold Template.Folder.read
  refine (Run.quiet_ask _).bind fun isFile => ?_
  split
  · refine (Run.quiet_readText _).bind fun text => ?_
    exact (Run.quiet_report _ _ _).bind fun _ => Run.quiet_pure _
  · exact Run.quiet_throw _

/-- The slugs of the posts that are loaded have no slash in them. -/
theorem PostFolder.noSlash_of_go_load {f : PostFolder} {blog : String} {w v : World}
    (hw : w.disk.Named) {posts : List Post} (h : (f.load blog).go w = (.ok posts,v)) :
    ∀ p ∈ posts, '/' ∉ p.slug.toList := by
  intro p hp hslash
  obtain ⟨l,e,he⟩ := (slugs_of_go_load h).2 p hp
  exact (hw _ e he (p.slug ++ ending) (by simp)).noSlash (by simp [hslash])

/-- Something that reports keep, in worlds whose entries are named. -/
structure World.Lasting (I : World → Prop) : Prop where
  named : ∀ w, I w → w.disk.Named
  report : ∀ w m, I w → I (w.report m)

namespace Site

/-- The paths of the pages of a site. The slug of a post is a name; that of a blog can be anything. -/
inductive IsPage (blogs : List Blog) : String → Prop
  | home : IsPage blogs HomePage.path
  | notFound : IsPage blogs "404.html"
  | marker : IsPage blogs ".nojekyll"
  | blog {b : Blog} (hb : b ∈ blogs) : IsPage blogs (BlogPage.path b)
  | post {b : Blog} {p : Post} (hb : b ∈ blogs) (hp : '/' ∉ p.slug.toList) :
    IsPage blogs (PostPage.path b p)

/-- What a build does before it writes pages: the blogs are those that the list has once the output
directory is made anew and the static files are copied. -/
def prepare (s : Site) : Run (List Blog) := do
  start
  s.resetOutput
  s.copyPublic
  BlogList.load s.paths.blogList

/-- What a build does with the blogs that are listed. -/
def finish (s : Site) (blogs : List Blog) : Run HomePage.Shelf := do
  info ("Loaded " ++ toString blogs.length ++ " blogs from " ++ s.paths.blogList)
  let shelf ← s.writeBlogs [] blogs
  s.writeHome blogs shelf
  s.writeNotFound
  s.writePage ".nojekyll" ""
  s.shorten
  summarise blogs shelf

/-- The blogs that a build finds listed. -/
def Lists (s : Site) (w : World) (blogs : List Blog) : Prop := (s.prepare.go w).1 = .ok blogs

theorem build_eq_prepare (s : Site) : s.build = s.prepare >>= s.finish := by
  simp only [build_eq,fill,prepare,bind_assoc]
  rfl

section

variable {s : Site} {I : World → Prop} (hI : World.Lasting I)

include hI

theorem keeps_report (level : Log.Level) (message : String) :
    (Run.report .build level message).Keeps I :=
  (Run.quiet_report _ _ _).keeps hI.report

theorem keeps_readTemplate (relative : String) : (s.templates.read relative).Keeps I :=
  (s.templates.quiet_read relative).keeps hI.report

section

variable {blogs : List Blog}
  (hpages : ∀ relative, IsPage blogs relative → ∀ text, (s.writePage relative text).Keeps I)

include hpages

theorem keeps_writeBlog {b : Blog} (hb : b ∈ blogs) : (s.writeBlog b).Keeps I := by
  unfold writeBlog
  simp only
  cases Theme.ofValue? (s.themeName b) with
  | none => exact Run.keeps_throw _
  | some t =>
    refine (keeps_report hI _ _).bind fun _ w hw => ?_
    refine Run.Meets.bind ((s.posts.quiet_load b.slug).keeps hI.report w hw).of_go ?_
    rintro posts v ⟨hgo,hv⟩
    have hslugs := PostFolder.noSlash_of_go_load (hI.named w hw) hgo
    have hplaces : ∀ at_ ∈ PostPage.places posts,
        (s.writePost (String.ofList (s.themeName b).display) t b at_).Keeps I := by
      intro at_ hat
      have hmem : at_.post ∈ posts := PostPage.map_post_places posts ▸ List.mem_map_of_mem hat
      exact (keeps_readTemplate hI _).bind fun template => hpages _ (.post hb (hslugs _ hmem)) _
    refine (keeps_report hI _ _).bind (fun _ => ?_) v hv
    refine (keeps_readTemplate hI _).bind fun template => (hpages _ (.blog hb) _).bind fun _ => ?_
    exact (Run.keeps_forM hplaces).bind fun _ => Run.keeps_pure _

theorem keeps_writeBlogs {bs : List Blog} (hbs : ∀ b ∈ bs, b ∈ blogs) (shelf : HomePage.Shelf) :
    (s.writeBlogs shelf bs).Keeps I := by
  induction bs generalizing shelf with
  | nil => exact Run.keeps_pure _
  | cons b bs ih =>
    unfold writeBlogs
    exact (keeps_writeBlog hI hpages (hbs b (by simp))).bind fun posts =>
      ih (fun c hc => hbs c (by simp [hc])) _

theorem keeps_writeHome (shelf : HomePage.Shelf) : (s.writeHome blogs shelf).Keeps I := by
  unfold writeHome
  refine (keeps_report hI _ _).bind fun _ => ?_
  cases HomePage.recentSlugs? s.today shelf with
  | none => exact Run.keeps_throw _
  | some recent => exact (keeps_readTemplate hI _).bind fun template => hpages _ .home _

theorem keeps_writeNotFound : s.writeNotFound.Keeps I := by
  unfold writeNotFound
  refine (keeps_report hI _ _).bind fun _ => ?_
  exact (keeps_readTemplate hI _).bind fun template => hpages _ .notFound _

end

/-! ### Short copies -/

section

variable (hs : Path.IsDirect s.paths.outputDir)
  (hcopy : ∀ p text, s.outputPlace <+: Path.place p → (Run.writeText p text).Keeps I)

include hs hcopy

/-- A short copy lies beside the asset that it is made of. -/
theorem keeps_minifyFile {k : Minify.Kind} (hk : Path.IsStep k.folder) {name : String}
    (hname : Path.IsStep name) :
    (Minify.file k (Path.joinAll s.paths.outputDir ["assets",k.folder]) name).Keeps I := by
  unfold Minify.file
  cases hshort : k.shortName? name with
  | none => exact Run.keeps_pure _
  | some short =>
    have hstep := Minify.Kind.isStep_of_shortName? hk hname hshort
    obtain ⟨-,hat⟩ := place_asset hs hk hstep
    refine ((Run.quiet_readText _).keeps hI.report).bind fun source => ?_
    exact (hcopy _ _ (hat ▸ List.prefix_append _ _)).bind fun _ => keeps_report hI _ _

theorem keeps_minifyKind {k : Minify.Kind} (hk : Path.IsStep k.folder) :
    (Minify.kind s.paths.outputDir k).Keeps I := by
  unfold Minify.kind
  refine ((Run.quiet_ask _).keeps hI.report).bind fun isThere => ?_
  split
  · intro w hw
    refine Run.Meets.bind ((Run.quiet_fetch _).keeps hI.report w hw).of_go ?_
    rintro names v ⟨hgo,hv⟩
    refine Run.keeps_forM (fun name hname => keeps_minifyFile hI hs hcopy hk ?_) v hv
    obtain ⟨l,-,-,rfl⟩ := Disk.list_eq_ok_iff.mp (Run.eq_ok_of_go_fetch hgo)
    obtain ⟨e,he⟩ := Disk.mem_names_iff.mp ((Path.sortedNames_perm _).mem_iff.mp hname)
    exact (hI.named w hw _ e he name (by simp)).toIsStep
  · exact Run.keeps_pure _

theorem keeps_shorten : s.shorten.Keeps I := by
  unfold shorten
  split
  · exact Run.keeps_forM fun k hk => keeps_minifyKind hI hs hcopy (Minify.isStep_folder hk)
  · exact Run.keeps_pure _

/-- Once the blogs are listed, a build keeps what its pages and short copies keep. -/
theorem keeps_finish {blogs : List Blog}
    (hpages : ∀ relative, IsPage blogs relative → ∀ text, (s.writePage relative text).Keeps I) :
    (s.finish blogs).Keeps I := by
  unfold finish
  refine (keeps_report hI _ _).bind fun _ => ?_
  refine (keeps_writeBlogs hI hpages (fun _ hb => hb) []).bind fun shelf => ?_
  refine (keeps_writeHome hI hpages shelf).bind fun _ => (keeps_writeNotFound hI hpages).bind fun _ => ?_
  refine (hpages _ .marker _).bind fun _ => (keeps_shorten hI hs hcopy).bind fun _ => ?_
  exact (quiet_summarise blogs shelf).keeps hI.report

end

end

end Site

end BlogSite
