import BlogSite.Proofs.FinishedBuilds
import BlogSite.Proofs.SkippedItems
import BlogSite.Proofs.SteadyBuild

/-!
Two builds side by side, of which one lacks some items in directories with posts. The worlds that the
builds are in look alike but for the items and the log file: a build enters the directories with posts
only to load, so once the posts that it loads are the same, every step does the same in both.
-/

namespace BlogSite

theorem Location.Apart.symm {l k : Location} (h : Location.Apart l k) : Location.Apart k l := ⟨h.2,h.1⟩

namespace Template.Folder

/-- A template that is no file is missing. -/
theorem go_read_of_not_file {f : Template.Folder} {relative : String} {w : World}
    (h : w.disk.isFile (f.pathOf relative) = false) :
    ((f.read relative).go w).1 = .error (.missingTemplate (f.pathOf relative)) := by
  unfold Template.Folder.read
  rw [Run.go_bind,Run.go_ask]
  simp [h]

end Template.Folder

namespace Site

variable {s : Site} {items : Items} {base base' w w' : World}

/-! ### Places without items -/

/-- No item is in a directory that is apart from the content directory. -/
theorem not_atItem_of_apart {l : Location} (h : Location.Apart l (Path.place s.paths.contentDir))
    (r : Location) : ¬ s.posts.AtItem items (l ++ r) := fun hat =>
  h.not_prefix (List.prefix_append l r) hat.content

theorem not_atItem_output (hs : s.paths.IsApart) (r : Location) :
    ¬ s.posts.AtItem items (s.outputPlace ++ r) :=
  not_atItem_of_apart hs.content_apart.symm r

/-- A path that leads straight into the output directory meets no items. -/
theorem avoids_atItem_output (hs : s.paths.IsApart) {p : String} (hp : Path.IsDirect p) {r : Location}
    (hplace : Path.place p = s.outputPlace ++ r) : Path.Avoids p (s.posts.AtItem items) :=
  PostFolder.avoids_atItem hp (hplace ▸ not_atItem_output hs r)

/-! ### Two worlds in the middle of a build -/

/-- The places that reports of two builds are written to. -/
def Reported (s : Site) (base base' : World) (l : Location) : Prop :=
  (base.LogAt l ∨ base'.LogAt l) ∧ ¬ s.outputPlace <+: l

/-- Worlds that two builds have led to. They look alike but for some items and the log file. -/
structure Twins (s : Site) (items : Items) (base base' w w' : World) : Prop where
  alike : w.Alike (s.posts.AtItem items) (s.Reported base base') w'
  kept : s.Kept base w
  kept' : s.Kept base' w'

/-- The log file that a build writes to was there before, and is not in the output directory. -/
theorem Kept.logFile {f : LogFile} (h : s.Kept base w) (hf : f ∈ w.logFile) :
    base.LogAt (Path.place f.path) ∧ ¬ s.outputPlace <+: Path.place f.path := by
  obtain ⟨files,hstage⟩ := h
  obtain ⟨hmem,hout⟩ := (hstage.logFile f).mp hf
  exact ⟨⟨f,hmem,rfl⟩,hout⟩

theorem Kept.isSound (h : s.Kept base w) : w.IsSound := by
  obtain ⟨files,hstage⟩ := h
  exact hstage.sound

theorem Kept.sameBelow (h : s.Kept base w) (hs : s.paths.IsApart) (hbase : base.IsSound) :
    Disk.SameBelow (Path.place s.paths.contentDir) w.disk base.disk := by
  obtain ⟨files,hstage⟩ := h
  exact hstage.sameBelow hs hbase

namespace Twins

theorem report_left (h : s.Twins items base base' w w') (r : Log.Record) :
    s.Twins items base base' (w.report r) w' := by
  refine ⟨h.alike.report_left (fun f hf => Or.inr ?_) r,h.kept.report r,h.kept'⟩
  exact (h.kept.logFile hf).imp_left Or.inl

theorem report_right (h : s.Twins items base base' w w') (r : Log.Record) :
    s.Twins items base base' w (w'.report r) := by
  refine ⟨(h.alike.symm.report_left (fun f hf => Or.inr ?_) r).symm,h.kept,h.kept'.report r⟩
  exact (h.kept'.logFile hf).imp_left Or.inr

/-- What only reports may report otherwise in the two worlds, as long as its results are the same. -/
theorem steady_of_quiet {α : Type} {r : Run α} (hquiet : r.Quiet)
    (h : ∀ w w', s.Twins items base base' w w' → (r.go w).1 = (r.go w').1) :
    r.Steady (s.Twins items base base') := by
  apply Run.steady_of_go
  intro w w' hw
  have hleft : s.Twins items base base' (r.go w).2 w' :=
    (hquiet (fun v => s.Twins items base base' v w') (fun _ m hv => hv.report_left m) w hw).world
  exact ⟨h w w' hw,
    (hquiet (s.Twins items base base' (r.go w).2) (fun _ m hv => hv.report_right m) w' hleft).world⟩

/-- What is steady for worlds that look alike and keeps the world apart from the output directory. -/
theorem steady_of_keeps {α : Type} {r : Run α}
    (h : r.Steady (World.Alike (s.posts.AtItem items) (s.Reported base base')))
    (hkeeps : ∀ base, r.Keeps (s.Kept base)) : r.Steady (s.Twins items base base') :=
  ⟨fun hw => h.result hw.alike,fun hw => ⟨h.world hw.alike,(hkeeps base _ hw.kept).world,
    (hkeeps base' _ hw.kept').world⟩⟩

end Twins

theorem isLogAt_of_reported (hbase : base.IsSound) (hbase' : base'.IsSound) {l : Location}
    (h : s.Reported base base' l) : Disk.IsLogAt l :=
  h.1.elim hbase.named.isLogAt hbase'.named.isLogAt

/-! ### The steps of a build -/

theorem keeps_kept_writePage (hs : s.paths.IsApart) {relative : String}
    (hsteps : ∀ n ∈ Path.names relative, Path.IsStep n) (text : String) (base : World) :
    (s.writePage relative text).Keeps (s.Kept base) := by
  rintro w ⟨files,hstage⟩
  exact (hstage.writePage hs hsteps text).imp (fun _ _ hv => hv.1.kept) fun _ _ hv => hv.1.kept

theorem keeps_kept_minifyFile (hs : s.paths.IsApart) {k : Minify.Kind} (hk : Path.IsStep k.folder)
    {name : String} (hname : Path.IsStep name) (base : World) :
    (Minify.file k (Path.joinAll s.paths.outputDir ["assets",k.folder]) name).Keeps (s.Kept base) := by
  rintro w ⟨files,hstage⟩
  rw [← k.copiedOf_nil files] at hstage
  exact (hstage.minifyFile hs hk hname).imp (fun _ _ hv => hv.1.kept) fun _ _ hv => hv

section Steps

variable (hs : s.paths.IsApart) (hbase : base.IsSound) (hbase' : base'.IsSound)
include hs

theorem steady_writePage_twins {relative : String} (hsteps : ∀ n ∈ Path.names relative, Path.IsStep n)
    (text : String) : (s.writePage relative text).Steady (s.Twins items base base') := by
  obtain ⟨hdirect,hplace⟩ := hs.output.join hsteps
  have havoids : Path.Avoids (Path.join s.paths.outputDir relative) (s.posts.AtItem items) :=
    avoids_atItem_output hs hdirect hplace
  exact Twins.steady_of_keeps (s.steady_writePage havoids (havoids.parent hdirect.absolute) text)
    (keeps_kept_writePage hs hsteps text)

include hbase in
/-- Where a template would be an item that is no file, it is missing. -/
theorem missing_of_atItem (h : s.Kept base w) {relative : String}
    (hend : ".html".toList <:+ relative.toList)
    (hat : s.posts.AtItem items (Path.place (s.templates.pathOf relative)))
    (hnone : base.disk.bytesAt? (Path.place (s.templates.pathOf relative)) = none) :
    ((s.templates.read relative).go w).1 = .error (.missingTemplate (s.templates.pathOf relative)) := by
  have hdirect := Template.Folder.isDirect_pathOf (f := s.templates) hs.templates relative
  obtain ⟨files,hstage⟩ := h
  apply Template.Folder.go_read_of_not_file
  rw [← Bool.not_eq_true,hstage.sound.tree.isFile_iff hdirect]
  rintro ⟨bytes,he⟩
  have hapart : Location.Apart (Path.place (s.templates.pathOf relative)) s.outputPlace := by
    obtain ⟨r,hr⟩ := hat.content
    exact hr ▸ hs.content_apart.append r
  have hentry := hstage.entry _ hapart (not_logAt_template hbase hend)
  rw [Disk.bytesAt?_eq_some_iff.mpr (hentry.symm.trans he)] at hnone
  exact Option.some_ne_none _ hnone

include hbase hbase'

theorem steady_read_twins {relative : String} (hend : ".html".toList <:+ relative.toList)
    (h : s.posts.AtItem items (Path.place (s.templates.pathOf relative)) →
      base.disk.bytesAt? (Path.place (s.templates.pathOf relative)) = none ∧
        base'.disk.bytesAt? (Path.place (s.templates.pathOf relative)) = none) :
    (s.templates.read relative).Steady (s.Twins items base base') := by
  refine Twins.steady_of_quiet (s.templates.quiet_read relative) fun w w' hw => ?_
  by_cases hat : s.posts.AtItem items (Path.place (s.templates.pathOf relative))
  · obtain ⟨hnone,hnone'⟩ := h hat
    rw [missing_of_atItem hs hbase hw.kept hend hat hnone,
      missing_of_atItem hs hbase' hw.kept' hend hat hnone']
  · have havoids := PostFolder.avoids_atItem
      (Template.Folder.isDirect_pathOf (f := s.templates) hs.templates relative) hat
    have hlog : ∀ l, s.Reported base base' l → Disk.IsLogAt l := fun _ => isLogAt_of_reported hbase hbase'
    exact (s.templates.steady_read hlog havoids hend).result hw.alike

theorem steady_load_twins {b : Blog} (hb : Path.IsStep b.slug)
    (h : ((s.posts.load b.slug).go base').1 = ((s.posts.load b.slug).go base).1) :
    (s.posts.load b.slug).Steady (s.Twins items base base') := by
  refine Twins.steady_of_quiet (s.posts.quiet_load b.slug) fun w w' hw => ?_
  have hleft := PostFolder.load_eq_of_sameBelow (f := s.posts) hw.kept.isSound hbase hs.content hb
    (hw.kept.sameBelow hs hbase)
  have hright := PostFolder.load_eq_of_sameBelow (f := s.posts) hw.kept'.isSound hbase' hs.content hb
    (hw.kept'.sameBelow hs hbase')
  rw [← hleft,← h,hright]

theorem steady_shorten_twins : s.shorten.Steady (s.Twins items base base') := by
  unfold shorten
  split
  · refine Run.steady_forM fun k hk => ?_
    have hstep := Minify.isStep_folder hk
    obtain ⟨hdirect,hplace⟩ := place_assets hs.output hstep
    have hfiles : ∀ n, Path.IsStep n → Path.Avoids
        (Path.join (Path.joinAll s.paths.outputDir ["assets",k.folder]) n) (s.posts.AtItem items) := by
      intro n hn
      obtain ⟨hpath,hat⟩ := place_asset hs.output hstep hn
      exact avoids_atItem_output hs hpath hat
    have havoids : Path.Avoids (Path.joinAll s.paths.outputDir ["assets",k.folder])
        (s.posts.AtItem items) := avoids_atItem_output hs hdirect hplace
    refine Minify.steady_kind (fun _ _ hw => hw.alike.disk.isThere_eq havoids)
      (fun _ _ hw => hw.alike.disk.list_eq havoids fun n => ?_) ?_
    · rw [hplace,List.append_assoc]
      exact not_atItem_output hs _
    · intro w w' names hw hlist name hname
      obtain ⟨-,rfl⟩ := (hw.kept.isSound.tree.list_eq_ok_iff hdirect).mp hlist
      obtain ⟨e,he⟩ := Disk.mem_names_iff.mp hname
      have hn : Path.IsStep name := (hw.kept.isSound.tree.named _ _ he name (by simp)).toIsStep
      refine Twins.steady_of_keeps ?_ (keeps_kept_minifyFile hs hstep hn)
      exact Minify.steady_file (fun _ => isLogAt_of_reported hbase hbase') (Minify.folder_of_mem_kinds hk)
        (hfiles name hn) fun short hshort =>
          hfiles short (Minify.Kind.isStep_of_shortName? hstep hn hshort)
  · exact Run.steady_pure _

/-- The steps of two builds do the same if the builds load the same posts, and if none of the items is a
template. -/
theorem steadily_twins (htemplates : Location.Apart (Path.place s.paths.templatesDir)
      (Path.place s.paths.contentDir)) {blogs : List Blog} (hblogs : ∀ b ∈ blogs, Path.IsStep b.slug)
    (hload : ∀ b ∈ blogs,
      ((s.posts.load b.slug).go base').1 = ((s.posts.load b.slug).go base).1)
    (hthemes : ∀ b ∈ blogs, ∀ file ∈ themeFiles, s.posts.AtItem items (s.templatePlace b file) →
      base.disk.bytesAt? (s.templatePlace b file) = none ∧
        base'.disk.bytesAt? (s.templatePlace b file) = none) :
    s.Steadily (s.Twins items base base') blogs where
  pages := fun _ _ hw => hw.alike.pages
  report := fun source level message =>
    Twins.steady_of_quiet (Run.quiet_report source level message) fun _ _ _ => rfl
  template := by
    have hnames : ∀ name ∈ ["home.html","404.html"],
        Path.IsStep name ∧ ".html".toList <:+ name.toList := by decide
    intro name hname
    obtain ⟨hstep,hend⟩ := hnames name hname
    refine steady_read_twins hs hbase hbase' hend fun hat => absurd hat ?_
    rw [place_template hs hstep]
    exact not_atItem_of_apart htemplates [name]
  themed := fun b hb file hfile =>
    steady_read_twins hs hbase hbase' (suffix_themeFile hfile _) (hthemes b hb file hfile)
  load := fun b hb => steady_load_twins hs hbase hbase' (hblogs b hb) (hload b hb)
  page := by
    have hnames : ∀ name ∈ [HomePage.path,"404.html",".nojekyll"],
        ∀ n ∈ Path.names name, Path.IsStep n := by decide
    exact fun name hname => steady_writePage_twins hs (hnames name hname)
  blog := by
    intro b hb
    obtain ⟨hnames,hsteps⟩ := BlogPage.names_path (hblogs b hb)
    exact steady_writePage_twins hs (hnames ▸ hsteps)
  post := by
    intro b hb w w' posts hw hposts p hp
    obtain ⟨hslugs,-⟩ := PostFolder.slugs_of_load (f := s.posts) hw.kept.isSound hs.content (hblogs b hb)
      hposts
    obtain ⟨hnames,hsteps⟩ := PostPage.names_path (hblogs b hb) (hslugs p hp)
    exact steady_writePage_twins hs (hnames ▸ hsteps)
  shorten := steady_shorten_twins hs hbase hbase'

end Steps

end Site

end BlogSite
