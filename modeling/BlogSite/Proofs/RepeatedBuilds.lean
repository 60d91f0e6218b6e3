import BlogSite.Proofs.BuiltSite
import BlogSite.Proofs.SteadyBuild

/-!
Builds do not see what earlier builds have left. From worlds that differ only in the output directory a
build ends in one result and leaves one tree, whether it succeeds or fails, and building once more leaves
the output directory as it is.
-/

namespace BlogSite

namespace World

variable {w w' : World}

/-- The line of a report at the end of the log file. -/
theorem IsSound.disk_report (h : w.IsSound) {f : LogFile} (hf : w.logFile = some f) {old : ByteArray}
    (he : w.disk.entry? (Path.place f.path) = some (.file old)) (r : Log.Record) :
    (w.report r).disk = w.disk.put (Path.place f.path)
      (.file (old ++ (f.stamp ++ " - " ++ r.line ++ "\n").toUTF8)) := by
  have hlocate : w.disk.locate f.path = .ok (Path.place f.path) := by
    rw [Disk.locate_eq_reach _ (h.direct f hf),h.tree.reach_eq he]
  simp only [World.report,hf,appendLine,Disk.read,Disk.write,hlocate,he,bind,Except.bind]
  rfl

/-- Reports keep the difference between two worlds where it is. -/
theorem IsSound.entry?_report_eq (h : w.IsSound) (h' : w'.IsSound) (hlog : w.logFile = w'.logFile)
    (r : Log.Record) {l : Location} (hl : w.disk.entry? l = w'.disk.entry? l) :
    (w.report r).disk.entry? l = (w'.report r).disk.entry? l := by
  by_cases hat : w.LogAt l
  · obtain ⟨old,he⟩ := h.logged l hat
    obtain ⟨f,hf,rfl⟩ := hat
    have hne : Path.place f.path ≠ [] := Disk.ne_nil_of_entry_ne he (by simp)
    rw [h.disk_report hf he,h'.disk_report (hlog ▸ hf) (hl ▸ he),Disk.entry?_put hne,
      Disk.entry?_put hne,if_pos rfl,if_pos rfl]
  · have hat' : ¬ w'.LogAt l := by
      rintro ⟨f,hf,hplace⟩
      exact hat ⟨f,hlog ▸ hf,hplace⟩
    rw [w.entry?_report r hat,w'.entry?_report r hat',hl]

end World

namespace Site

variable {s : Site} {w w' : World}

/-! ### Two worlds -/

/-- Without the output directory, worlds that differ only in it look alike. -/
theorem alike_cleared {l : Location} (hw : w.IsSound) (hw' : w'.IsSound)
    (hlog : w.logFile = w'.logFile) (hpages : w.pages = w'.pages)
    (hsame : ∀ k, ¬ l <+: k → w.disk.entry? k = w'.disk.entry? k) :
    (w.cleared l).Alike Location.Nowhere Location.Nowhere (w'.cleared l) := by
  refine World.alike_of_logFile_eq (.of_eq fun k => ?_) ?_ ?_
  · rw [hw.entry?_cleared,hw'.entry?_cleared]
    split
    · rfl
    · rename_i hkept
      by_cases hk : k = []
      · subst hk
        rfl
      · exact hsame k fun hbelow => hkept ⟨hk,hbelow⟩
  · apply Option.ext
    intro f
    exact (hw.mem_logFile_cleared_iff l).trans (hlog ▸ (hw'.mem_logFile_cleared_iff l).symm)
  · rw [World.pages_cleared,World.pages_cleared,hpages]

theorem go_build_cleared (hs : s.paths.IsApart) (hw : w.IsSound)
    (hfile : ∀ bytes, w.disk.entry? s.outputPlace ≠ some (.file bytes)) :
    s.build.go w = (Run.makeDirectories s.paths.outputDir >>= fun _ => s.fill).go
      (w.opened.cleared s.outputPlace) := by
  rw [go_build,Run.go_bind,Run.go_bind,go_resetOutput hs.output hw.opened (not_file_opened hfile)]

/-- Worlds that differ only in the output directory give the same result and the same tree. -/
theorem build_agree (hs : s.paths.IsApart) (hw : w.IsSound) (hw' : w'.IsSound)
    (hfile : ∀ bytes, w.disk.entry? s.outputPlace ≠ some (.file bytes))
    (hfile' : ∀ bytes, w'.disk.entry? s.outputPlace ≠ some (.file bytes))
    (hlog : w.logFile = w'.logFile)
    (hsame : ∀ l, ¬ s.outputPlace <+: l → w.disk.entry? l = w'.disk.entry? l) :
    (s.build.go w).1 = (s.build.go w').1 ∧
      ∀ l, (s.build.go w).2.disk.entry? l = (s.build.go w').2.disk.entry? l := by
  have hopened : ∀ l, ¬ s.outputPlace <+: l →
      w.opened.disk.entry? l = w'.opened.disk.entry? l := fun l hl =>
    (hw.withPages #[]).entry?_report_eq (hw'.withPages #[]) hlog _ (hsame l hl)
  have halike := alike_cleared hw.opened hw'.opened hlog rfl hopened
  have hsteady : (Run.makeDirectories s.paths.outputDir >>= fun _ => s.fill).Steady
      (World.Alike Location.Nowhere Location.Nowhere) :=
    (Run.steady_makeDirectories (Path.avoids_nowhere _)).bind fun _ =>
      s.steady_fill (fun _ hx => hx.elim) fun _ _ hx => hx.elim
  rw [go_build_cleared hs hw hfile,go_build_cleared hs hw' hfile']
  exact ⟨hsteady.result halike,fun l => (hsteady.world halike).disk.entry l id id⟩

/-! ### Two builds in a row -/

/-- Where two builds in a row may leave different bytes: in the log file, and in a copy of it among the
static files. -/
def LogTouched (s : Site) (w : World) (l : Location) : Prop :=
  (w.LogAt l ∧ ¬ s.outputPlace <+: l) ∨
    ∃ r, r ≠ [] ∧ l = s.outputPlace ++ r ∧ w.LogAt (Path.place s.paths.publicDir ++ r)

theorem isLogAt_of_logTouched (hw : w.IsSound) {l : Location} (hl : s.LogTouched w l) :
    Disk.IsLogAt l := by
  rcases hl with ⟨hlog,-⟩ | ⟨r,hr,rfl,hlog⟩
  · exact hw.named.isLogAt hlog
  · obtain ⟨k,n,hk,hn⟩ := hw.named.isLogAt hlog
    obtain ⟨r,m,rfl⟩ : ∃ r' m, r = r' ++ [m] := by
      rcases List.eq_nil_or_concat r with hnil | ⟨r',m,h⟩
      · exact absurd hnil hr
      · exact ⟨r',m,by simpa using h⟩
    rw [← List.append_assoc] at hk
    obtain ⟨-,hlast⟩ := List.append_inj' hk rfl
    obtain rfl : m = n := by simpa using hlast
    exact ⟨s.outputPlace ++ r,m,by simp,hn⟩

/-- Static files are copied to where the copies are. -/
theorem LogTouched.copied (hs : s.paths.IsApart) {r : Location} (hr : r ≠ [])
    (hl : s.LogTouched w (Path.place s.paths.publicDir ++ r)) : s.LogTouched w (s.outputPlace ++ r) := by
  rcases hl with ⟨hlog,-⟩ | ⟨k,-,hk,-⟩
  · exact Or.inr ⟨r,hr,rfl,hlog⟩
  · have hbelow : s.outputPlace <+: Path.place s.paths.publicDir ++ r := hk ▸ List.prefix_append _ k
    exact absurd hbelow (hs.statics_apart.not_prefix (List.prefix_append _ r))

/-- The output directory made anew looks alike before and after a build. -/
theorem Fresh.alike {base b base' b' : World} {files : Files} (h : s.Fresh base b)
    (h' : s.Fresh base' b') (hstage : s.Stage base files base') (hpages : base.pages = base'.pages) :
    b.Alike Location.Nowhere (s.LogTouched base) b' := by
  have hentry : ∀ l, (Location.Apart l s.outputPlace ∧ b.disk.entry? l = base.disk.entry? l ∧
      b'.disk.entry? l = base'.disk.entry? l) ∨ b.disk.entry? l = b'.disk.entry? l := by
    intro l
    by_cases hbelow : s.outputPlace <+: l
    · obtain ⟨r,rfl⟩ := hbelow
      cases r with
      | nil => exact Or.inr (by rw [List.append_nil,h.output,h'.output])
      | cons n r => exact Or.inr (by rw [h.empty _ (by simp),h'.empty _ (by simp)])
    · by_cases hup : l <+: s.outputPlace
      · obtain ⟨r,hr⟩ := hup
        have hdir := h.output
        have hdir' := h'.output
        have hne : r ≠ [] := by
          rintro rfl
          exact hbelow (by simp [← hr])
        rw [← hr] at hdir hdir'
        exact Or.inr (by rw [h.sound.tree.directory_of_append hne hdir,
          h'.sound.tree.directory_of_append hne hdir'])
      · exact Or.inl ⟨⟨hup,hbelow⟩,h.entry l ⟨hup,hbelow⟩,h'.entry l ⟨hup,hbelow⟩⟩
  refine World.alike_of_logFile_eq ⟨fun l _ => ?_,fun l _ hl => ?_⟩ ?_ ?_
  · rcases hentry l with ⟨hapart,he,he'⟩ | he
    · rw [he,he']
      exact (hstage.kind l hapart).symm
    · rw [he]
  · rcases hentry l with ⟨hapart,he,he'⟩ | he
    · rw [he,he']
      exact (hstage.entry l hapart fun hlog => hl (Or.inl ⟨hlog,hapart.2⟩)).symm
    · exact he
  · apply Option.ext
    intro f
    rw [← Option.mem_def,← Option.mem_def,h.logFile,h'.logFile,hstage.logFile]
    tauto
  · rw [h.pages,h'.pages,hpages]

/-- Where the output directory cannot be made, a build leaves nothing. -/
theorem Shut.build (h : s.Shut w) (hs : s.paths.IsApart) (r : Location) :
    (s.build.go w).2.disk.entry? (s.outputPlace ++ r) = none := by
  have hfile : ∀ bytes, w.disk.entry? s.outputPlace ≠ some (.file bytes) := by
    have hnone := h.empty []
    rw [List.append_nil] at hnone
    simp [hnone]
  have hmeets := meets_resetOutput hs.output h.sound.opened (not_file_opened hfile)
  rw [go_build,Run.go_bind]
  cases hreset : s.resetOutput.go w.opened with
  | mk e v =>
    cases e with
    | error f => exact (hmeets.failure f v hreset).1.empty r
    | ok a =>
      exact absurd (h.blocked.of_sameShape w.sameShape_opened) (hmeets.result a v hreset).2

/-- A build leaves a stage that the next build starts from. -/
theorem Fresh.stage_opened {b : World} (h : s.Fresh w.opened b) (hs : s.paths.IsApart)
    (hw : w.IsSound) (hslugs : s.SlugsAreSteps w) :
    ∃ files, s.Stage w.opened files (s.fill.go b).2.opened := by
  have hkept : s.Kept w.opened (s.fill.go b).2 :=
    ((h.fill hs hw.opened rfl (hslugs.opened hs hw)).imp (fun _ _ hv => hv.1) fun _ _ hv => hv).world
  obtain ⟨files,hstage⟩ := hkept
  exact ⟨files,(hstage.pages #[]).report _⟩

/-- Where the output directory was made and filled, the next build makes and fills it so again. -/
theorem Fresh.build_again {b : World} (h : s.Fresh w.opened b) (hs : s.paths.IsApart)
    (hw : w.IsSound) (hslugs : s.SlugsAreSteps w) {r : Location}
    (hr : ¬ w.LogAt (Path.place s.paths.publicDir ++ r)) :
    (s.build.go (s.fill.go b).2).2.disk.entry? (s.outputPlace ++ r) =
      (s.fill.go b).2.disk.entry? (s.outputPlace ++ r) := by
  obtain ⟨files,hstage⟩ := h.stage_opened hs hw hslugs
  have hmeets := meets_resetOutput hs.output hstage.sound (by simp [hstage.output])
  rw [go_build,Run.go_bind]
  cases hreset : s.resetOutput.go (s.fill.go b).2.opened with
  | mk e b' =>
    cases e with
    | error f =>
      exact absurd (hmeets.failure f b' hreset).2 (hstage.sound.tree.not_blocked hstage.output)
    | ok a =>
      obtain ⟨hfresh,-⟩ := hmeets.result a b' hreset
      have hsteady := s.steady_fill (fun _ hl => isLogAt_of_logTouched hw.opened hl)
        fun _ hne hl => hl.copied hs hne
      have halike := hsteady.world (h.alike hfresh hstage rfl)
      refine (halike.disk.entry _ id ?_).symm
      rintro (⟨-,hbelow⟩ | ⟨k,-,hk,hlog⟩)
      · exact hbelow (List.prefix_append _ r)
      · rw [List.append_cancel_left hk] at hr
        exact hr hlog

/-- Building once more leaves the output directory as it is, but for a copy of the log file. -/
theorem build_twice (hs : s.paths.IsApart) (hw : w.IsSound)
    (hfile : ∀ bytes, w.disk.entry? s.outputPlace ≠ some (.file bytes)) (hslugs : s.SlugsAreSteps w)
    {r : Location} (hr : ¬ w.LogAt (Path.place s.paths.publicDir ++ r)) :
    (s.build.go (s.build.go w).2).2.disk.entry? (s.outputPlace ++ r) =
      (s.build.go w).2.disk.entry? (s.outputPlace ++ r) := by
  have hmeets := meets_resetOutput hs.output hw.opened (not_file_opened hfile)
  have hgo := go_build (s := s) w
  rw [Run.go_bind] at hgo
  cases hreset : s.resetOutput.go w.opened with
  | mk e b =>
    rw [hreset] at hgo
    cases e with
    | error f =>
      obtain ⟨hshut,-⟩ := hmeets.failure f b hreset
      rw [hgo,hshut.build hs r,hshut.empty r]
    | ok a =>
      rw [hgo]
      exact (hmeets.result a b hreset).1.build_again hs hw hslugs hr

/-- The project as it is before its first build. -/
def bareProject : World := { sampleProject with disk := sampleProject.disk.prune ["out"] }

theorem isSound_bareProject : bareProject.IsSound :=
  ⟨isSound_sampleProject.tree.prune _,isSound_sampleProject.named,isSound_sampleProject.direct,
    by simp [World.LogAt,bareProject,sampleProject]⟩

theorem outputPlace_sample : sample.outputPlace = ["out"] :=
  (Path.isDirect_of_names (k := 1) (by decide) (by decide) (by decide)).2

/-- From two worlds that differ only in the output directory, which is absent or a directory with
anything in it, a build gives the same result or stops at the same failure, and leaves the same tree.
Building once more from there leaves the output directory as it is. Only the log file is no part of
this: if it is among the static files, the second build copies it with the lines of the first. -/
theorem build_anew (hs : s.paths.IsApart) (hw : w.IsSound) (hw' : w'.IsSound)
    (hfile : ∀ bytes, w.disk.entry? s.outputPlace ≠ some (.file bytes))
    (hfile' : ∀ bytes, w'.disk.entry? s.outputPlace ≠ some (.file bytes))
    (hlog : w.logFile = w'.logFile)
    (hsame : ∀ l, ¬ s.outputPlace <+: l → w.disk.entry? l = w'.disk.entry? l)
    (hslugs : s.SlugsAreSteps w) :
    (s.build.go w).1 = (s.build.go w').1 ∧
    (∀ l, (s.build.go w).2.disk.entry? l = (s.build.go w').2.disk.entry? l) ∧
    ∀ r, ¬ w.LogAt (Path.place s.paths.publicDir ++ r) →
      (s.build.go (s.build.go w).2).2.disk.entry? (s.outputPlace ++ r) =
        (s.build.go w).2.disk.entry? (s.outputPlace ++ r) := by
  obtain ⟨hresult,htree⟩ := build_agree hs hw hw' hfile hfile' hlog hsame
  exact ⟨hresult,htree,fun r hr => build_twice hs hw hfile hslugs hr⟩

theorem build_anew_sample :
    (sample.paths.IsApart ∧ sampleProject.IsSound ∧ bareProject.IsSound ∧
      (∀ bytes, sampleProject.disk.entry? sample.outputPlace ≠ some (.file bytes)) ∧
      (∀ bytes, bareProject.disk.entry? sample.outputPlace ≠ some (.file bytes)) ∧
      sampleProject.logFile = bareProject.logFile ∧
      (∀ l, ¬ sample.outputPlace <+: l →
        sampleProject.disk.entry? l = bareProject.disk.entry? l) ∧
      sample.SlugsAreSteps sampleProject) ∧
    (sample.build.go sampleProject).1 = (sample.build.go bareProject).1 ∧
    (∀ l, (sample.build.go sampleProject).2.disk.entry? l =
      (sample.build.go bareProject).2.disk.entry? l) ∧
    ∀ r, ¬ sampleProject.LogAt (Path.place sample.paths.publicDir ++ r) →
      (sample.build.go (sample.build.go sampleProject).2).2.disk.entry? (sample.outputPlace ++ r) =
        (sample.build.go sampleProject).2.disk.entry? (sample.outputPlace ++ r) := by
  have hdir : sampleProject.disk.entry? sample.outputPlace = some .directory := by
    rw [outputPlace_sample]
    decide
  have hfile : ∀ bytes, sampleProject.disk.entry? sample.outputPlace ≠ some (.file bytes) := by
    simp [hdir]
  have hgone : bareProject.disk.entry? sample.outputPlace = none := by
    rw [outputPlace_sample]
    exact (Disk.entry?_prune _ _ _).trans (if_pos (by simp))
  have hfile' : ∀ bytes, bareProject.disk.entry? sample.outputPlace ≠ some (.file bytes) := by
    simp [hgone]
  have hsame : ∀ l, ¬ sample.outputPlace <+: l →
      sampleProject.disk.entry? l = bareProject.disk.entry? l := by
    intro l hl
    rw [outputPlace_sample] at hl
    exact ((Disk.entry?_prune _ _ _).trans (if_neg fun hbelow => hl hbelow.2)).symm
  exact ⟨⟨isApart_sample,isSound_sampleProject,isSound_bareProject,hfile,hfile',rfl,hsame,
    slugsAreSteps_sample⟩,build_anew isApart_sample isSound_sampleProject isSound_bareProject hfile
      hfile' rfl hsame slugsAreSteps_sample⟩

/-- A project without blogs that keeps its log file among its static files. -/
def loggedProject : World where
  disk :=
    { entries :=
        [(["content"],.directory),(["content","blogs.json"],.file "[]".toUTF8),
          (["templates"],.directory),(["templates","home.html"],.file "Home".toUTF8),
          (["templates","404.html"],.file "Lost".toUTF8),(["public"],.directory),
          (["public","build.log"],.file "".toUTF8)]
      distinct := by decide }
  logFile := some { path := "/public/build.log",stamp := "2024-03-05 06:07:08,000" }

theorem isSound_loggedProject : loggedProject.IsSound := by
  have hlog : Path.IsDirect "/public/build.log" ∧
      Path.place "/public/build.log" = ["public","build.log"] :=
    Path.isDirect_of_names (k := 1) (by decide) (by decide) (by decide)
  refine ⟨Disk.isTree_of_entries (by decide),?_,?_,?_⟩
  · rintro f ⟨⟩
    decide
  · rintro f ⟨⟩
    exact hlog.1
  · rintro l ⟨f,⟨⟩,rfl⟩
    rw [hlog.2]
    exact ⟨_,rfl⟩

theorem slugsAreSteps_logged : sample.SlugsAreSteps loggedProject := by
  intro blogs hblogs b hb
  have hslugs : blogs.map Blog.slug = [] :=
    Run.eq_of_toOption_map (g := List.map Blog.slug) (by decide +kernel) hblogs
  obtain rfl := List.map_eq_nil_iff.mp hslugs
  exact absurd hb List.not_mem_nil

/-- A log file among the static files takes the lines of the first build into the second one's tree. -/
theorem build_twice_logged :
    (sample.paths.IsApart ∧ loggedProject.IsSound ∧
      loggedProject.disk.entry? sample.outputPlace = none ∧ sample.SlugsAreSteps loggedProject) ∧
    (sample.build.go loggedProject).1.isOk = true ∧
    (sample.build.go (sample.build.go loggedProject).2).2.disk.entry?
        (sample.outputPlace ++ ["build.log"]) ≠
      (sample.build.go loggedProject).2.disk.entry? (sample.outputPlace ++ ["build.log"]) := by
  rw [outputPlace_sample]
  refine ⟨⟨isApart_sample,isSound_loggedProject,by decide,slugsAreSteps_logged⟩,?_,?_⟩
  · decide +kernel
  · decide +kernel

end Site

end BlogSite
