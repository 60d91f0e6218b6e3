import BlogSite.Build
import BlogSite.Proofs.DiskChanges
import BlogSite.Proofs.RunOutcomes
import BlogSite.Proofs.SoundWorlds

/-!
A build starts, makes the output directory anew and fills it. What is at and below the place of the
directory goes, with a log file that is there; then the directory is made with those above it, unless
something stands in the way.
-/

namespace BlogSite

namespace Disk

variable {d : Disk}

/-- A directory is removed with all that is in it. -/
theorem IsTree.removeTree_eq (h : d.IsTree) {p : String} (hp : Path.IsDirect p)
    (hdir : d.entry? (Path.place p) = some .directory) :
    d.removeTree p = .ok (d.prune (Path.place p)) := by
  have hl : d.locate p = .ok (Path.place p) := by rw [locate_eq_reach d hp,h.reach_eq hdir]
  simp [removeTree,hl,bind,Except.bind,hdir]

/-- What stands in the way of a directory does so in every tree of the shape. -/
theorem Blocked.of_sameShape {d' : Disk} {ns : Location} (h : d.Blocked ns) (hs : d'.SameShape d) :
    d'.Blocked ns := by
  rcases h with hname | ⟨l,bytes,hl,he⟩
  · exact Or.inl hname
  · obtain ⟨new,hnew⟩ := (Entry.SameKind.file_iff (hs l)).mpr ⟨bytes,he⟩
    exact Or.inr ⟨l,new,hl,hnew⟩

/-- Below a location that cannot be made there is nothing. -/
theorem IsTree.entry?_of_blocked (h : d.IsTree) {ns : Location} (hblocked : d.Blocked ns)
    (hfile : ∀ bytes, d.entry? ns ≠ some (.file bytes)) (r : Location) :
    d.entry? (ns ++ r) = none := by
  rw [Option.eq_none_iff_forall_ne_some]
  intro e he
  refine h.not_blocked ?_ hblocked
  cases r with
  | nil =>
    rw [List.append_nil] at he
    cases e with
    | file bytes => exact absurd he (hfile bytes)
    | directory => exact he
  | cons n r => exact h.directory_of_append (by simp) he

end Disk

/-- Neither of two locations lies at or below the other. -/
def Location.Apart (l k : Location) : Prop := ¬ l <+: k ∧ ¬ k <+: l

/-- Paths that lead straight down, and an output directory that overlaps none of the others. -/
structure SitePaths.IsApart (p : SitePaths) : Prop where
  content : Path.IsDirect p.contentDir
  templates : Path.IsDirect p.templatesDir
  statics : Path.IsDirect p.publicDir
  output : Path.IsDirect p.outputDir
  content_apart : Location.Apart (Path.place p.contentDir) (Path.place p.outputDir)
  templates_apart : Location.Apart (Path.place p.templatesDir) (Path.place p.outputDir)
  statics_apart : Location.Apart (Path.place p.publicDir) (Path.place p.outputDir)

namespace SitePaths

variable {homes : Path.Homes} {root : String} {settings : Entries}

theorem isDirect_of_placeOf (hroot : Path.isAbsolute root = true) {key p : String}
    (h : placeOf homes root settings key = .ok p) : Path.IsDirect p := by
  unfold placeOf at h
  split at h
  · exact absurd h (by simp)
  · rename_i path _
    obtain rfl := Except.ok.inj h
    exact (Path.isDirect_normalise (Path.isAbsolute_join hroot _)).1
  · exact absurd h (by simp)

/-- The paths that settings name lead straight down. -/
theorem isDirect_of_ofSettings (hroot : Path.isAbsolute root = true) {p : SitePaths}
    (h : ofSettings homes root settings = .ok p) : Path.IsDirect p.contentDir ∧
      Path.IsDirect p.templatesDir ∧ Path.IsDirect p.publicDir ∧ Path.IsDirect p.outputDir := by
  unfold ofSettings at h
  obtain ⟨content,hcontent,h⟩ := exists_of_bind_eq_ok h
  obtain ⟨templates,htemplates,h⟩ := exists_of_bind_eq_ok h
  obtain ⟨statics,hstatics,h⟩ := exists_of_bind_eq_ok h
  obtain ⟨output,houtput,h⟩ := exists_of_bind_eq_ok h
  obtain rfl := Except.ok.inj h
  exact ⟨isDirect_of_placeOf hroot hcontent,isDirect_of_placeOf hroot htemplates,
    isDirect_of_placeOf hroot hstatics,isDirect_of_placeOf hroot houtput⟩

end SitePaths

namespace World

/-- The world once a build has reported its start. -/
def opened (w : World) : World :=
  ({ w with pages := #[] }).report ⟨.build,.info,"Starting site build..."⟩

/-- The world without what is at and below a location. -/
def cleared (w : World) (at_ : Location) : World :=
  if (w.disk.entry? at_).isSome then
    { w with
      disk := w.disk.prune at_
      logFile := w.logFile.filter fun f => (w.disk.prune at_).isFile f.path }
  else w

theorem sameShape_opened (w : World) : w.opened.disk.SameShape w.disk :=
  sameShape_report { w with pages := #[] } _

theorem IsSound.opened {w : World} (h : w.IsSound) : w.opened.IsSound :=
  (h.withPages #[]).report _

@[simp] theorem pages_cleared (w : World) (at_ : Location) : (w.cleared at_).pages = w.pages := by
  unfold cleared
  split <;> rfl

namespace IsSound

variable {w : World} {at_ : Location}

theorem entry?_cleared (h : w.IsSound) (at_ l : Location) :
    (w.cleared at_).disk.entry? l = if l ≠ [] ∧ at_ <+: l then none else w.disk.entry? l := by
  unfold World.cleared
  split
  · exact Disk.entry?_prune w.disk at_ l
  · rename_i hmissing
    split
    · rename_i hbelow
      obtain ⟨-,r,rfl⟩ := hbelow
      have hnone : w.disk.entry? at_ = none := by simpa using hmissing
      rw [Option.eq_none_iff_forall_ne_some]
      intro e he
      cases r with
      | nil => simp [hnone] at he
      | cons n r => simp [h.tree.directory_of_append (by simp) he] at hnone
    · rfl

theorem isTree_cleared (h : w.IsSound) (at_ : Location) : (w.cleared at_).disk.IsTree := by
  unfold World.cleared
  split
  · exact h.tree.prune at_
  · exact h.tree

/-- A log file at or below the location is no longer written to. -/
theorem mem_logFile_cleared_iff (h : w.IsSound) (at_ : Location) {f : LogFile} :
    f ∈ (w.cleared at_).logFile ↔ f ∈ w.logFile ∧ ¬ at_ <+: Path.place f.path := by
  have hkept : f ∈ w.logFile → ((w.disk.prune at_).isFile f.path = true ↔
      ¬ at_ <+: Path.place f.path) := by
    intro hf
    obtain ⟨bytes,he⟩ := h.logged _ ⟨f,hf,rfl⟩
    have hne : Path.place f.path ≠ [] := Disk.ne_nil_of_entry_ne he (by simp)
    rw [(h.tree.prune at_).isFile_iff (h.direct f hf)]
    simp [Disk.entry?_prune,hne,he]
  unfold World.cleared
  split
  · simp only [Option.mem_def,Option.filter_eq_some_iff]
    exact and_congr_right hkept
  · rename_i hmissing
    refine ⟨fun hf => ⟨hf,?_⟩,fun hf => hf.1⟩
    rintro ⟨r,hr⟩
    obtain ⟨bytes,he⟩ := h.logged _ ⟨f,hf,hr.symm⟩
    cases r with
    | nil => simp [List.append_nil _ ▸ he] at hmissing
    | cons n r => simp [h.tree.directory_of_append (by simp) he] at hmissing

/-- Another tree, in which the log file is still there. -/
theorem withDisk (h : w.IsSound) {d : Disk} (htree : d.IsTree)
    (hlog : ∀ l, w.LogAt l → ∃ bytes, d.entry? l = some (.file bytes)) :
    IsSound { w with disk := d } :=
  ⟨htree,h.named,h.direct,hlog⟩

theorem cleared (h : w.IsSound) (at_ : Location) : (w.cleared at_).IsSound where
  tree := h.isTree_cleared at_
  named := fun f hf => h.named f ((h.mem_logFile_cleared_iff at_).mp hf).1
  direct := fun f hf => h.direct f ((h.mem_logFile_cleared_iff at_).mp hf).1
  logged := by
    rintro l ⟨f,hf,rfl⟩
    obtain ⟨hmem,hapart⟩ := (h.mem_logFile_cleared_iff at_).mp hf
    rw [h.entry?_cleared,if_neg fun hbelow => hapart hbelow.2]
    exact h.logged _ ⟨f,hmem,rfl⟩

/-- What stands in the way of a directory is not below it. -/
theorem blocked_cleared_iff (h : w.IsSound)
    (hfile : ∀ bytes, w.disk.entry? at_ ≠ some (.file bytes)) :
    (w.cleared at_).disk.Blocked at_ ↔ w.disk.Blocked at_ := by
  have hsame : ∀ l bytes, l <+: at_ →
      ((w.cleared at_).disk.entry? l = some (.file bytes) ↔ w.disk.entry? l = some (.file bytes)) := by
    intro l bytes hl
    rw [h.entry?_cleared]
    split
    · rename_i hbelow
      obtain rfl := hl.eq_of_length_le hbelow.2.length_le
      simpa using hfile bytes
    · rfl
  unfold Disk.Blocked
  refine or_congr_right (exists_congr fun l => exists_congr fun bytes => and_congr_right ?_)
  exact hsame l bytes

end IsSound

end World

namespace Site

/-! ### The parts of a build -/

/-- Writes the short copies that the settings ask for. -/
def shorten (s : Site) : Run Unit :=
  if s.minify then Minify.assets s.compressors s.paths.outputDir else pure ()

/-- Reports what has been built. -/
def summarise (blogs : List Blog) (shelf : HomePage.Shelf) : Run HomePage.Shelf := do
  info ("Total blogs generated: " ++ toString blogs.length)
  info ("Total posts generated: " ++ toString ((shelf.map fun e => e.2.length).foldl (· + ·) 0))
  info ("Total files written: " ++ toString (← get).pages.size)
  return shelf

/-- What a build does once the output directory is there and empty. -/
def fill (s : Site) : Run HomePage.Shelf := do
  s.copyPublic
  let blogs ← BlogList.load s.paths.blogList
  info ("Loaded " ++ toString blogs.length ++ " blogs from " ++ s.paths.blogList)
  let shelf ← s.writeBlogs [] blogs
  s.writeHome blogs shelf
  s.writeNotFound
  s.writePage ".nojekyll" ""
  s.shorten
  summarise blogs shelf

/-- Starts a build: what an earlier one has written does not count. -/
def start : Run Unit := do
  modify fun w => { w with pages := #[] }
  info "Starting site build..."

/-- A build starts, makes the output directory anew and fills it. -/
theorem build_eq (s : Site) : s.build = (do start; s.resetOutput; s.fill) := by
  simp only [build,start,fill,shorten,summarise,bind_assoc]
  cases s.minify <;> simp only [if_true,if_false,pure_bind,Bool.false_eq_true]

/-! ### The output directory -/

/-- The place of the output directory. -/
def outputPlace (s : Site) : Location := Path.place s.paths.outputDir

/-- The output directory is there and empty; nothing apart from it has changed. -/
structure Fresh (s : Site) (base w : World) : Prop where
  sound : w.IsSound
  output : w.disk.entry? s.outputPlace = some .directory
  empty : ∀ r, r ≠ [] → w.disk.entry? (s.outputPlace ++ r) = none
  entry : ∀ l, Location.Apart l s.outputPlace → w.disk.entry? l = base.disk.entry? l
  logFile : ∀ f, f ∈ w.logFile ↔ f ∈ base.logFile ∧ ¬ s.outputPlace <+: Path.place f.path
  pages : w.pages = base.pages

/-- Something stands in the way of the output directory, and nothing is there. -/
structure Shut (s : Site) (w : World) : Prop where
  sound : w.IsSound
  blocked : w.disk.Blocked s.outputPlace
  empty : ∀ r, w.disk.entry? (s.outputPlace ++ r) = none

variable {s : Site} {w : World}

theorem go_resetOutput (hs : Path.IsDirect s.paths.outputDir) (hw : w.IsSound)
    (hfile : ∀ bytes, w.disk.entry? s.outputPlace ≠ some (.file bytes)) :
    s.resetOutput.go w = (Run.makeDirectories s.paths.outputDir).go (w.cleared s.outputPlace) := by
  have hthere := hw.tree.isThere_eq hs
  unfold resetOutput World.cleared
  rw [Run.go_bind,Run.go_ask]
  simp only [hthere]
  change (if (w.disk.entry? s.outputPlace).isSome = true then _ else _ : Run Unit).go w = _
  split
  · rename_i hsome
    obtain ⟨e,he⟩ := Option.isSome_iff_exists.mp hsome
    have hdir : w.disk.entry? s.outputPlace = some .directory := by
      cases e with
      | file bytes => exact absurd he (hfile bytes)
      | directory => exact he
    have hremove := hw.tree.removeTree_eq hs hdir
    rw [Run.go_bind,Run.removeTree,Run.go_bind,Run.go_alter,hremove]
    rfl
  · rfl

/-- The output directory is made anew just when nothing stands in its way. -/
theorem meets_resetOutput (hs : Path.IsDirect s.paths.outputDir) (hw : w.IsSound)
    (hfile : ∀ bytes, w.disk.entry? s.outputPlace ≠ some (.file bytes)) :
    s.resetOutput.Meets w (fun _ v => s.Fresh w v ∧ ¬ w.disk.Blocked s.outputPlace)
      (fun _ v => s.Shut v ∧ w.disk.Blocked s.outputPlace) := by
  have hgo := go_resetOutput hs hw hfile
  have hcleared := hw.cleared s.outputPlace
  have hlogged : ∀ d, (w.cleared s.outputPlace).disk.GrownTo s.outputPlace d → ∀ l,
      (w.cleared s.outputPlace).LogAt l → ∃ bytes, d.entry? l = some (.file bytes) := by
    intro d hgrown l hl
    obtain ⟨bytes,he⟩ := hcleared.logged l hl
    exact ⟨bytes,hgrown.file_iff.mpr he⟩
  suffices hmade : (Run.makeDirectories s.paths.outputDir).Meets (w.cleared s.outputPlace)
      (fun _ v => s.Fresh w v ∧ ¬ w.disk.Blocked s.outputPlace)
      (fun _ v => s.Shut v ∧ w.disk.Blocked s.outputPlace) from
    ⟨fun a v h => hmade.result a v (hgo.symm.trans h),fun f v h => hmade.failure f v (hgo.symm.trans h)⟩
  apply Run.meets_makeDirectories hcleared.tree hs
  case h =>
    intro d hmade
    refine ⟨⟨hcleared.withDisk hmade.tree (hlogged d hmade.grown),hmade.made rfl,?_,?_,?_,?_⟩,?_⟩
    · intro r hr
      rcases hmade.grown (s.outputPlace ++ r) with he | ⟨-,-,hup⟩
      · exact he.trans ((hw.entry?_cleared _ _).trans (if_pos ⟨by simp [hr],List.prefix_append _ r⟩))
      · exact absurd (hup.length_le) (by simpa [outputPlace,List.length_pos_iff] using hr)
    · intro l hl
      rcases hmade.grown l with he | ⟨-,-,hup⟩
      · exact he.trans ((hw.entry?_cleared _ _).trans (if_neg fun hbelow => hl.2 hbelow.2))
      · exact absurd hup hl.1
    · exact fun f => hw.mem_logFile_cleared_iff s.outputPlace
    · exact w.pages_cleared s.outputPlace
    · rw [← hw.blocked_cleared_iff hfile]
      exact hmade.not_blocked rfl
  case hbad =>
    intro f d hmade
    have hblocked := hmade.failed f rfl
    refine ⟨⟨hcleared.withDisk hmade.tree (hlogged d hmade.grown),hmade.grown.blocked_iff.mpr hblocked,?_⟩,
      (hw.blocked_cleared_iff hfile).mp hblocked⟩
    refine hmade.tree.entry?_of_blocked (hmade.grown.blocked_iff.mpr hblocked) fun bytes he => ?_
    have hcleared := (hw.entry?_cleared s.outputPlace s.outputPlace).symm.trans (hmade.grown.file_iff.mp he)
    split at hcleared
    · exact absurd hcleared (by simp)
    · exact hfile bytes hcleared

/-! ### From the start of a build -/

theorem go_build (w : World) :
    s.build.go w = (s.resetOutput >>= fun _ => s.fill).go w.opened := by
  rw [build_eq,Run.go_bind]
  rfl

theorem not_file_opened {l : Location} (hfile : ∀ bytes, w.disk.entry? l ≠ some (.file bytes))
    (bytes : ByteArray) : w.opened.disk.entry? l ≠ some (.file bytes) := by
  intro he
  obtain ⟨old,hold⟩ := (Entry.SameKind.file_iff (w.sameShape_opened l)).mp ⟨bytes,he⟩
  exact hfile old hold

/-- A file in the place of the output directory is not removed. -/
theorem go_resetOutput_of_file (hs : Path.IsDirect s.paths.outputDir) (hw : w.IsSound)
    {bytes : ByteArray} (hfile : w.disk.entry? s.outputPlace = some (.file bytes)) :
    s.resetOutput.go w = (.error (.disk .notDirectory),w) := by
  have hthere := hw.tree.isThere_eq hs
  have hlocate : w.disk.locate s.paths.outputDir = .ok s.outputPlace := by
    rw [Disk.locate_eq_reach _ hs]
    exact hw.tree.reach_eq hfile
  have hremove : w.disk.removeTree s.paths.outputDir = .error .notDirectory := by
    simp [Disk.removeTree,hlocate,hfile,bind,Except.bind]
  have hsome : w.disk.isThere s.paths.outputDir = true := by
    change w.disk.isThere s.paths.outputDir = (w.disk.entry? s.outputPlace).isSome at hthere
    simp [hthere,hfile]
  unfold resetOutput
  rw [Run.go_bind,Run.go_ask]
  simp only [hsome,if_true]
  rw [Run.go_bind,Run.removeTree,Run.go_bind,Run.go_alter,hremove]

/-- There was no file in the place of an output directory that has been made. -/
theorem not_file_of_resetOutput (hs : Path.IsDirect s.paths.outputDir) (hw : w.IsSound) {v : World}
    (hgo : s.resetOutput.go w.opened = (.ok (),v)) (bytes : ByteArray) :
    w.disk.entry? s.outputPlace ≠ some (.file bytes) := by
  intro hfile
  obtain ⟨old,hold⟩ := (Entry.SameKind.file_iff (w.sameShape_opened _)).mpr ⟨bytes,hfile⟩
  rw [go_resetOutput_of_file hs hw.opened hold] at hgo
  exact absurd (congrArg Prod.fst hgo) (by simp)

/-- A build that succeeds has found no file in the place of the output directory. -/
theorem not_file_of_build (hs : Path.IsDirect s.paths.outputDir) (hw : w.IsSound)
    {shelf : HomePage.Shelf} {v : World} (hgo : s.build.go w = (.ok shelf,v)) (bytes : ByteArray) :
    w.disk.entry? s.outputPlace ≠ some (.file bytes) := by
  rw [go_build] at hgo
  obtain ⟨_,u,hreset,-⟩ := Run.exists_of_go_bind hgo
  exact not_file_of_resetOutput hs hw hreset bytes

end Site

end BlogSite
