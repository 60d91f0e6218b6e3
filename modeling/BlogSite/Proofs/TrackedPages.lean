import BlogSite.Proofs.BuildCourse
import BlogSite.Proofs.ConfinedBuilds

/-!
The pages that a build has written. A page is counted under its path when it is written, and from then on
there is a file at its place; so at the end of a build there is one for every page that is counted.
-/

namespace BlogSite

/-! ### Files that stay -/

namespace Disk

/-- There is a file at a location. -/
def HasFile (d : Disk) (l : Location) : Prop := ∃ bytes, d.entry? l = some (.file bytes)

variable {d d' : Disk} {l : Location}

theorem HasFile.put (h : d.HasFile l) {k : Location} (hk : k ≠ []) (bytes : ByteArray) :
    (d.put k (.file bytes)).HasFile l := by
  unfold HasFile
  rw [entry?_put hk]
  split
  · exact ⟨bytes,rfl⟩
  · exact h

theorem hasFile_of_write {p : String} {bytes : ByteArray} (h : d.write p bytes = .ok d') :
    d'.HasFile (Path.place p) := by
  obtain ⟨l,hl,hne,rfl⟩ := write_eq_ok h
  obtain ⟨rfl,-⟩ := eq_place_of_locate hl
  exact ⟨bytes,by rw [entry?_put (ne_nil_of_entry_ne rfl hne),if_pos rfl]⟩

theorem HasFile.write (h : d.HasFile l) {p : String} {bytes : ByteArray}
    (hd : d.write p bytes = .ok d') : d'.HasFile l := by
  obtain ⟨k,-,hne,rfl⟩ := write_eq_ok hd
  exact h.put (ne_nil_of_entry_ne rfl hne) bytes

/-- Directories are made where nothing is. -/
theorem HasFile.makeDirectories (hd : d.Named) (h : d.HasFile l) (p : String) :
    (d.makeDirectories p).2.HasFile l := by
  have hwithin : Within (fun _ => False) (fun _ => True) d (d.makeDirectories p).2 :=
    (Within.refl hd).makeDirectories fun _ _ => Or.inr trivial
  obtain ⟨bytes,hfile⟩ := h
  rcases hwithin.entry l with hsame | hno | ⟨-,hnone,-⟩
  · exact ⟨bytes,hsame.trans hfile⟩
  · exact hno.elim
  · exact absurd (hnone.symm.trans hfile) (by simp)

end Disk

/-! ### Runs that write no page -/

namespace Run

variable {α : Type} {ps : Array String}

/-- The pages that are counted. -/
def Counts (ps : Array String) (w : World) : Prop := w.pages = ps

theorem Quiet.keeps_counts {r : Run α} (h : r.Quiet) : r.Keeps (Counts ps) :=
  h.keeps fun _ _ hw => hw

theorem keeps_counts_alter (c : Disk → Except DiskFault Disk) : (alter c).Keeps (Counts ps) :=
  fun _ hw => meets_alter (fun _ _ => hw) fun _ _ => hw

theorem keeps_counts_makeDirectories (p : String) : (makeDirectories p).Keeps (Counts ps) := by
  intro w hw
  refine meets_of_world ?_
  rw [go_makeDirectories]
  exact hw

end Run

namespace Site

variable {s : Site} {done : List String} {w v : World}

theorem counts_of_prepare {blogs : List Blog} (h : s.prepare.go w = (.ok blogs,v)) : v.pages = #[] := by
  have hmake : (Run.makeDirectories s.paths.outputDir).Keeps (Run.Counts #[]) :=
    Run.keeps_counts_makeDirectories _
  have hreset : s.resetOutput.Keeps (Run.Counts #[]) := by
    unfold resetOutput
    refine (Run.quiet_ask _).keeps_counts.bind fun isThere => ?_
    split
    · refine Run.Keeps.bind ?_ fun _ => hmake
      exact (Run.keeps_counts_alter _).bind fun _ _ hw => (Run.meets_modify _).mpr hw
    · exact hmake
  have hcopy : s.copyPublic.Keeps (Run.Counts #[]) := by
    unfold copyPublic
    refine (Run.quiet_ask _).keeps_counts.bind fun isDirectory => ?_
    split
    · exact (Run.keeps_counts_alter _).bind fun _ => (Run.quiet_report _ _ _).keeps_counts
    · exact (Run.quiet_report _ _ _).keeps_counts
  unfold prepare at h
  obtain ⟨_,u,hstart,h⟩ := Run.exists_of_go_bind h
  have hu : u.pages = #[] := by
    obtain rfl := congrArg Prod.snd hstart
    rfl
  have hall := hreset.bind fun _ => hcopy.bind fun _ =>
    (BlogList.quiet_load s.paths.blogList).keeps_counts
  exact (hall u hu).result blogs v h

/-! ### Pages that are written -/

/-- The place of a page. -/
def pagePlace (s : Site) (relative : String) : Location :=
  Path.place (Path.join s.paths.outputDir relative)

/-- The pages that are counted so far, each with a file at its place. -/
structure Tracks (s : Site) (done : List String) (w : World) : Prop where
  named : w.disk.Named
  pages : w.pages.toList = done
  files : ∀ p ∈ done, w.disk.HasFile (s.pagePlace p)

theorem Tracks.report (h : s.Tracks done w) (m : Log.Record) : s.Tracks done (w.report m) := by
  rcases w.disk_report m with hd | ⟨f,-,l,old,new,hl,he,hd⟩
  · exact ⟨hd ▸ h.named,h.pages,hd ▸ h.files⟩
  · obtain ⟨rfl,hnames⟩ := Disk.eq_place_of_locate hl
    have hne := Disk.ne_nil_of_entry_ne he (by simp)
    exact ⟨hd ▸ h.named.put hne hnames _,h.pages,fun p hp => hd ▸ (h.files p hp).put hne _⟩

theorem lasting_tracks : World.Lasting (s.Tracks done) :=
  ⟨fun _ hw => hw.named,fun _ m hw => hw.report m⟩

theorem keeps_tracks_makeDirectories (p : String) : (Run.makeDirectories p).Keeps (s.Tracks done) := by
  intro w hw
  refine Run.meets_of_world ?_
  rw [Run.go_makeDirectories]
  have hwithin : Disk.Within (fun _ => True) (fun _ => True) w.disk (w.disk.makeDirectories p).2 :=
    (Disk.Within.refl hw.named).makeDirectories fun _ _ => Or.inl trivial
  exact ⟨hwithin.named,hw.pages,fun q hq => (hw.files q hq).makeDirectories hw.named p⟩

theorem Tracks.withWritten (h : s.Tracks done w) {p : String} {bytes : ByteArray} {d : Disk}
    (hd : w.disk.write p bytes = .ok d) : s.Tracks done { w with disk := d } := by
  have hwithin : Disk.Within (fun _ => True) (fun _ => True) w.disk d :=
    (Disk.Within.refl h.named).write trivial hd
  exact ⟨hwithin.named,h.pages,fun q hq => (h.files q hq).write hd⟩

theorem keeps_tracks_writeText (p text : String) : (Run.writeText p text).Keeps (s.Tracks done) :=
  fun _ hw => Run.meets_alter (fun _ hd => hw.withWritten hd) fun _ _ => hw

/-- A page is counted once it is written. -/
theorem Tracks.writePage (h : s.Tracks done w) (relative text : String) :
    (s.writePage relative text).Meets w (fun _ => s.Tracks (done ++ [relative])) fun _ => s.Tracks done := by
  unfold Site.writePage
  refine (keeps_tracks_makeDirectories _ w h).bind fun _ u hu => ?_
  have hwritten : (Run.writeText (Path.join s.paths.outputDir relative) text).Meets u
      (fun _ v => s.Tracks done v ∧ v.disk.HasFile (s.pagePlace relative)) fun _ => s.Tracks done :=
    Run.meets_alter (fun d hd => ⟨hu.withWritten hd,Disk.hasFile_of_write hd⟩) fun _ _ => hu
  refine hwritten.bind fun _ v ⟨hv,hfile⟩ => ?_
  refine Run.Meets.bind ((Run.meets_modify _).mpr ?_) fun _ v hv =>
    (Run.meets_report _ _ _).mpr (Tracks.report hv _)
  refine ⟨hv.named,by simp [hv.pages],fun p hp => ?_⟩
  rcases List.mem_append.mp hp with hp | hp
  · exact hv.files p hp
  · exact List.mem_singleton.mp hp ▸ hfile

theorem Tracks.of_quiet {α : Type} {r : Run α} (h : s.Tracks done w) (hr : r.Quiet) {a : α}
    (hgo : r.go w = (.ok a,v)) : s.Tracks done v :=
  (hr.keeps lasting_tracks.report w h).result a v hgo

theorem Tracks.writePost (h : s.Tracks done w) (folder : String) (t : Theme) (b : Blog)
    (at_ : PostPage.Place) : (s.writePost folder t b at_).Meets w
      (fun _ => s.Tracks (done ++ [PostPage.path b at_.post])) fun _ => s.Tracks done := by
  unfold Site.writePost
  refine ((s.templates.quiet_read _).keeps lasting_tracks.report w h).bind fun template v hv => ?_
  exact hv.writePage _ _

/-- The pages of posts are written one after the other. -/
theorem Tracks.writePosts (h : s.Tracks done w) {folder : String} {t : Theme} {b : Blog}
    {ats : List PostPage.Place} (hgo : (ats.forM (s.writePost folder t b)).go w = (.ok (),v)) :
    s.Tracks (done ++ ats.map fun at_ => PostPage.path b at_.post) v := by
  induction ats generalizing done w with
  | nil =>
    obtain rfl := congrArg Prod.snd hgo
    simpa using h
  | cons at_ ats ih =>
    obtain ⟨_,u,hfirst,hrest⟩ := Run.exists_of_go_bind hgo
    have hu := (h.writePost folder t b at_).result () u hfirst
    simpa using ih hu hrest

end Site

/-! ### The pages of a course -/

/-- The posts are named by their files: no two by one name, and each by one that leads nowhere. -/
structure Row.IsNamed (r : Row) : Prop where
  distinct : (r.posts.map Post.slug).Nodup
  noSlash : ∀ p ∈ r.posts, '/' ∉ p.slug.toList

namespace Site

variable {s : Site} {done : List String} {w v : World}

theorem Tracks.writesRow (h : s.Tracks done w) {r : Row} (hr : s.WritesRow r w v) :
    s.Tracks (done ++ r.paths) v ∧ r.IsNamed := by
  obtain ⟨m,m',u₁,u₂,u₃,template,hload,hread,hpage,hposts⟩ := hr
  have hloading := h.report m
  have hloaded := hloading.of_quiet (s.posts.quiet_load _) hload
  have hopened := (hloaded.report m').of_quiet (s.templates.quiet_read _) hread
  have hwritten := (hopened.writePage _ _).result () u₃ hpage
  have hall := hwritten.writePosts hposts
  have hpaths : (PostPage.places r.posts).map (fun at_ => PostPage.path r.blog at_.post) =
      r.postPaths := by
    conv_rhs => rw [Row.postPaths,← PostPage.map_post_places r.posts,List.map_map]
    rfl
  rw [hpaths,List.append_assoc] at hall
  exact ⟨hall,(PostFolder.slugs_of_go_load hload).1,PostFolder.noSlash_of_go_load hloading.named hload⟩

theorem Tracks.writes (h : s.Tracks done w) {rows : List Row} (hrows : s.Writes w rows v) :
    s.Tracks (done ++ rows.flatMap Row.paths) v ∧ ∀ r ∈ rows, r.IsNamed := by
  induction hrows generalizing done with
  | nil => simpa using h
  | cons hr _ ih =>
    obtain ⟨hfirst,hnamed⟩ := h.writesRow hr
    obtain ⟨hrest,hothers⟩ := ih hfirst
    rw [List.append_assoc,← List.flatMap_cons] at hrest
    exact ⟨hrest,List.forall_mem_cons.mpr ⟨hnamed,hothers⟩⟩

/-- At the end of a build the pages of the blogs and the three pages of the site are counted. -/
theorem Course.tracks {rows : List Row} {home : Shown} {shelf : HomePage.Shelf}
    (h : s.Course w rows home shelf v) (hs : Path.IsDirect s.paths.outputDir) (hw : w.disk.Named) :
    s.Tracks (rows.flatMap Row.paths ++ [HomePage.path,"404.html",".nojekyll"]) v ∧
      ∀ r ∈ rows, r.IsNamed := by
  obtain ⟨m,m',u₁,u₂,u₃,u₄,template,hprepare,hrows,hread,hhome,hclose⟩ := h.written
  have hbegun : s.Tracks [] u₁ := by
    have hconfined : s.Confined (fun _ => True) w u₁ :=
      (keeps_confined_prepare hs w (confined_base hw)).result _ _ hprepare
    exact ⟨hconfined.disk.named,by simp [counts_of_prepare hprepare],by simp⟩
  obtain ⟨hblogs,hnamed⟩ := (hbegun.report m).writes hrows
  have hopened := (hblogs.report m').of_quiet (s.templates.quiet_read _) hread
  have hfront := (hopened.writePage _ _).result () u₄ hhome
  refine ⟨?_,hnamed⟩
  unfold close at hclose
  obtain ⟨_,u₅,hmissing,hclose⟩ := Run.exists_of_go_bind hclose
  obtain ⟨_,u₆,hmarker,hclose⟩ := Run.exists_of_go_bind hclose
  obtain ⟨_,u₇,hshort,hend⟩ := Run.exists_of_go_bind hclose
  unfold writeNotFound at hmissing
  obtain ⟨_,u,hinfo,hmissing⟩ := Run.exists_of_go_bind hmissing
  obtain ⟨text,u',hlost,hmissing⟩ := Run.exists_of_go_bind hmissing
  have htold := hfront.of_quiet (Run.quiet_report _ _ _) hinfo
  have hfound := htold.of_quiet (s.templates.quiet_read _) hlost
  have hsecond := (hfound.writePage _ _).result () u₅ hmissing
  have hthird := (hsecond.writePage _ _).result () u₆ hmarker
  have hcopies := (keeps_shorten lasting_tracks hs (fun p text _ => keeps_tracks_writeText p text) u₆
    hthird).result () u₇ hshort
  have hlast := hcopies.of_quiet (quiet_summarise _ _) hend
  simpa using hlast

end Site

end BlogSite
