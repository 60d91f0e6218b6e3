import BlogSite.Proofs.SiteFilling

/-!
Short copies of assets. Beside each style sheet and each script that has a text, a copy is put that is
made from this text; a copy is no asset that has a copy itself, so the order in which the files are gone
through makes no difference. All other files stay as they are.
-/

namespace BlogSite

namespace Minify.Kind

variable (k : Kind)

/-- Where an asset lies in the output directory. -/
def asset (name : String) : Location := ["assets",k.folder,name]

/-- The file whose short copy has a name, if there can be one. -/
def longName? (short : String) : Option String :=
  ((Path.withoutEnding? k.shortEnding short).map (· ++ k.ending)).filter fun name =>
    k.shortName? name = some short

/-- The file whose short copy is at a location. -/
def source? (r : Location) : Option String :=
  (r.getLast?.bind k.longName?).filter fun name => (k.shortName? name).map k.asset = some r

/-- What a short copy made from a file holds. -/
def copy? (files : Files) (name : String) : Option ByteArray :=
  ((files (k.asset name)).bind Text.ofBytes?).map fun text => (k.compress text).toUTF8

/-- Files with the short copies of those that have one of some names. -/
def copiedOf (names : List String) (files : Files) : Files := fun r =>
  (((k.source? r).filter (· ∈ names)).bind (k.copy? files)).or (files r)

/-- Files with all short copies. -/
def copied (files : Files) : Files := fun r => ((k.source? r).bind (k.copy? files)).or (files r)

variable {k}

theorem longName?_eq_some_iff {name short : String} :
    k.longName? short = some name ↔ k.shortName? name = some short := by
  unfold longName?
  rw [Option.filter_eq_some_iff,Option.map_eq_some_iff,decide_eq_true_eq]
  constructor
  · exact And.right
  · intro h
    obtain ⟨stem,hname,hshort⟩ := shortName?_eq_some h
    exact ⟨⟨stem,Path.withoutEnding?_eq_some_iff.mpr hshort,hname.symm⟩,h⟩

theorem source?_eq_some_iff {name : String} {r : Location} :
    k.source? r = some name ↔ ∃ short, k.shortName? name = some short ∧ r = k.asset short := by
  unfold source?
  rw [Option.filter_eq_some_iff,Option.bind_eq_some_iff,decide_eq_true_eq,Option.map_eq_some_iff]
  constructor
  · rintro ⟨-,short,hshort,hr⟩
    exact ⟨short,hshort,hr.symm⟩
  · rintro ⟨short,hshort,rfl⟩
    exact ⟨⟨short,rfl,longName?_eq_some_iff.mpr hshort⟩,short,hshort,rfl⟩

/-- Short copies have no short copies. -/
theorem shortName?_of_shortName? {name short : String} (h : k.shortName? name = some short) :
    k.shortName? short = none := by
  obtain ⟨stem,-,rfl⟩ := shortName?_eq_some h
  have hshort : Path.withoutEnding? k.shortEnding (stem ++ k.shortEnding) = some stem :=
    Path.withoutEnding?_eq_some_iff.mpr rfl
  unfold shortName?
  split
  · rfl
  · simp [hshort]

/-- A file that has a short copy is none. -/
theorem source?_asset {name short : String} (h : k.shortName? name = some short) :
    k.source? (k.asset name) = none := by
  rw [Option.eq_none_iff_forall_ne_some]
  intro long hlong
  obtain ⟨short',hshort',heq⟩ := source?_eq_some_iff.mp hlong
  obtain rfl : name = short' := by simpa [asset] using heq
  exact absurd (h.symm.trans (shortName?_of_shortName? hshort')) (by simp)

theorem copiedOf_nil (files : Files) : k.copiedOf [] files = files := by
  funext r
  simp [copiedOf]

/-- Files that hold all there is have all copies. -/
theorem copiedOf_eq_copied {names : List String} {files : Files}
    (h : ∀ name, files (k.asset name) ≠ none → name ∈ names) : k.copiedOf names files = k.copied files := by
  funext r
  unfold copiedOf copied
  cases k.source? r with
  | none => rfl
  | some name =>
    by_cases hname : name ∈ names
    · simp [Option.filter_some,hname]
    · have hnone : files (k.asset name) = none := by_contra fun hne => hname (h name hne)
      simp [Option.filter_some,hname,copy?,hnone]

theorem copiedOf_concat_of_none {name : String} (h : k.shortName? name = none) (names : List String)
    (files : Files) : k.copiedOf (names ++ [name]) files = k.copiedOf names files := by
  funext r
  unfold copiedOf
  cases hr : k.source? r with
  | none => rfl
  | some long =>
    obtain ⟨short,hshort,-⟩ := source?_eq_some_iff.mp hr
    have hne : long ≠ name := by
      rintro rfl
      exact absurd (h.symm.trans hshort) (by simp)
    simp [Option.filter_some,hne]

/-- One more file is copied. -/
theorem copiedOf_concat {name short : String} (h : k.shortName? name = some short) {files : Files}
    {bytes : ByteArray} (hcopy : k.copy? files name = some bytes) (names : List String) :
    k.copiedOf (names ++ [name]) files =
      Function.update (k.copiedOf names files) (k.asset short) (some bytes) := by
  funext r
  by_cases hr : r = k.asset short
  · subst hr
    have hsource : k.source? (k.asset short) = some name := source?_eq_some_iff.mpr ⟨short,h,rfl⟩
    simp [copiedOf,Option.filter_some,hsource,hcopy]
  · rw [Function.update_of_ne hr]
    unfold copiedOf
    cases hsource : k.source? r with
    | none => rfl
    | some long =>
      have hne : long ≠ name := by
        rintro rfl
        obtain ⟨short',hshort',rfl⟩ := source?_eq_some_iff.mp hsource
        exact hr (congrArg k.asset (Option.some.inj (hshort'.symm.trans h)))
      simp [Option.filter_some,hne]

/-- What is copied is there as it was found. -/
theorem copiedOf_asset {name short : String} (h : k.shortName? name = some short) (names : List String)
    (files : Files) : k.copiedOf names files (k.asset name) = files (k.asset name) := by
  simp [copiedOf,source?_asset h]

end Minify.Kind

namespace Site

/-- The files of a site with the short copies that are asked for. -/
def finished (s : Site) (files : Files) : Files :=
  if s.minify then (Minify.kinds s.compressors).foldl (fun files k => k.copied files) files else files

variable {s : Site} {base w : World} {files : Files} {k : Minify.Kind}

/-- Only assets have short copies. -/
theorem finished_of_not_asset {r : Location} (h : r.head? ≠ some "assets") :
    s.finished files r = files r := by
  have hcopied : ∀ (k : Minify.Kind) files, k.copied files r = files r := by
    intro k files
    have hsource : k.source? r = none := by
      rw [Option.eq_none_iff_forall_ne_some]
      rintro name hname
      obtain ⟨short,-,rfl⟩ := Minify.Kind.source?_eq_some_iff.mp hname
      exact h rfl
    simp [Minify.Kind.copied,hsource]
  unfold finished
  split
  · simp only [Minify.kinds,List.foldl_cons,List.foldl_nil,hcopied]
  · rfl

theorem place_assets (hs : Path.IsDirect s.paths.outputDir) (hk : Path.IsStep k.folder) :
    Path.IsDirect (Path.joinAll s.paths.outputDir ["assets",k.folder]) ∧
      Path.place (Path.joinAll s.paths.outputDir ["assets",k.folder]) =
        s.outputPlace ++ ["assets",k.folder] := by
  have hassets : Path.IsStep "assets" := by decide
  exact hs.joinAll (by simpa using ⟨hassets,hk⟩)

theorem place_asset (hs : Path.IsDirect s.paths.outputDir) (hk : Path.IsStep k.folder) {name : String}
    (hname : Path.IsStep name) :
    Path.IsDirect (Path.join (Path.joinAll s.paths.outputDir ["assets",k.folder]) name) ∧
      Path.place (Path.join (Path.joinAll s.paths.outputDir ["assets",k.folder]) name) =
        s.outputPlace ++ k.asset name := by
  obtain ⟨hdirect,hplace⟩ := place_assets hs hk
  obtain ⟨hpath,hat⟩ := hdirect.join_step hname
  rw [hplace,List.append_assoc] at hat
  exact ⟨hpath,hat⟩

/-! ### What a pass does to a tree -/

/-- The names that are gone through are those of the entries in the directory. -/
theorem mem_assetNames_iff {d : Disk} {name : String} :
    name ∈ Path.sortedNames (d.names (s.outputPlace ++ ["assets",k.folder])) ↔
      d.entry? (s.outputPlace ++ k.asset name) ≠ none := by
  rw [(Path.sortedNames_perm _).mem_iff,Disk.mem_names_iff,Option.ne_none_iff_exists',List.append_assoc]
  rfl

theorem isStep_of_mem_assetNames {d : Disk} (h : d.IsTree) {name : String}
    (hname : name ∈ Path.sortedNames (d.names (s.outputPlace ++ ["assets",k.folder]))) :
    Path.IsStep name := by
  obtain ⟨e,he⟩ := Disk.mem_names_iff.mp ((Path.sortedNames_perm _).mem_iff.mp hname)
  exact (h.named _ e he name (by simp)).toIsStep

/-- Where there is no directory of assets, there are none. -/
theorem entry?_asset_of_folder {d : Disk} (h : d.IsTree)
    (hnone : d.entry? (s.outputPlace ++ ["assets",k.folder]) = none) (name : String) :
    d.entry? (s.outputPlace ++ k.asset name) = none := by
  rw [Option.eq_none_iff_forall_ne_some]
  intro e he
  have hdir := h.directory_of_append (l := s.outputPlace ++ ["assets",k.folder]) (m := [name]) (by simp)
    (e := e) (by rw [← he,List.append_assoc]; rfl)
  exact absurd (hnone.symm.trans hdir) (by simp)

section

variable (hs : Path.IsDirect s.paths.outputDir) (hk : Path.IsStep k.folder) (hw : w.disk.IsTree)
include hs hk hw

/-- An asset has its copy written and reported, if it is a text and the copy can be written. -/
theorem meets_minifyFile {name short : String} (hname : Path.IsStep name)
    (hshort : k.shortName? name = some short) {ok : Unit → World → Prop} {bad : Failure → World → Prop}
    (h : ∀ bytes text d, w.disk.entry? (s.outputPlace ++ k.asset name) = some (.file bytes) →
      Text.ofBytes? bytes = some text →
      w.disk.write (Path.join (Path.joinAll s.paths.outputDir ["assets",k.folder]) short)
        (k.compress text).toUTF8 = .ok d →
      ok () (World.report { w with disk := d } ⟨.build,.detail,"Minified " ++ k.label ++ ": " ++ name⟩))
    (hbad : (∀ bytes text d, w.disk.entry? (s.outputPlace ++ k.asset name) = some (.file bytes) →
      Text.ofBytes? bytes = some text →
      w.disk.write (Path.join (Path.joinAll s.paths.outputDir ["assets",k.folder]) short)
        (k.compress text).toUTF8 ≠ .ok d) → ∀ f, bad f w) :
    (Minify.file k (Path.joinAll s.paths.outputDir ["assets",k.folder]) name).Meets w ok bad := by
  obtain ⟨hsource,hat⟩ := place_asset hs hk hname
  have hread : ∀ text, w.disk.textAt (Path.join (Path.joinAll s.paths.outputDir ["assets",k.folder]) name) =
      .ok text ↔ ∃ bytes, w.disk.entry? (s.outputPlace ++ k.asset name) = some (.file bytes) ∧
        Text.ofBytes? bytes = some text := by
    intro text
    simp only [hw.textAt_eq_ok_iff hsource,hat,Disk.bytesAt?_eq_some_iff]
  have hgo := Run.go_readText (Path.join (Path.joinAll s.paths.outputDir ["assets",k.folder]) name) w
  unfold Minify.file
  rw [hshort,Run.meets_bind]
  cases htext : w.disk.textAt (Path.join (Path.joinAll s.paths.outputDir ["assets",k.folder]) name) with
  | error f =>
    rw [htext] at hgo
    refine (Run.meets_of_go_error hgo).mpr (hbad (fun bytes text d hfile hbytes _ => ?_) f)
    exact absurd (htext.symm.trans ((hread text).mpr ⟨bytes,hfile,hbytes⟩)) (by simp)
  | ok text =>
    rw [htext] at hgo
    obtain ⟨bytes,hfile,hbytes⟩ := (hread text).mp htext
    rw [Run.meets_of_go_ok hgo,Run.meets_bind]
    refine Run.meets_alter (fun d hd => (Run.meets_report _ _ _).mpr (h bytes text d hfile hbytes hd)) ?_
    refine fun f hf => hbad (fun bytes' text' d hfile' hbytes' hd => ?_) _
    have htext' := (hread text').mpr ⟨bytes',hfile',hbytes'⟩
    obtain rfl := Except.ok.inj (htext.symm.trans htext')
    exact absurd (hf.symm.trans hd) (by simp)

/-- The files of a kind are gone through in the order of their names. Without their directory there are
none, and a file in its place cannot be listed. -/
theorem meets_minifyKind {ok : Unit → World → Prop} {bad : Failure → World → Prop}
    (hdir : w.disk.entry? (s.outputPlace ++ ["assets",k.folder]) = some .directory →
      ((Path.sortedNames (w.disk.names (s.outputPlace ++ ["assets",k.folder]))).forM
        (Minify.file k (Path.joinAll s.paths.outputDir ["assets",k.folder]))).Meets w ok bad)
    (hnone : w.disk.entry? (s.outputPlace ++ ["assets",k.folder]) = none → ok () w)
    (hfile : ∀ bytes, w.disk.entry? (s.outputPlace ++ ["assets",k.folder]) = some (.file bytes) →
      ∀ f, bad f w) :
    (Minify.kind s.paths.outputDir k).Meets w ok bad := by
  obtain ⟨hdirect,hplace⟩ := place_assets hs hk
  have hthere := hw.isThere_eq hdirect
  have hgo := Run.go_fetch (·.list (Path.joinAll s.paths.outputDir ["assets",k.folder])) w
  rw [hplace] at hthere
  unfold Minify.kind
  rw [Run.meets_bind,Run.meets_ask,hthere]
  cases he : w.disk.entry? (s.outputPlace ++ ["assets",k.folder]) with
  | none => exact (Run.meets_pure _).mpr (hnone he)
  | some e =>
    rw [Option.isSome_some,if_pos rfl,Run.meets_bind]
    cases e with
    | directory =>
      have hlist := (hw.list_eq_ok_iff hdirect).mpr ⟨hplace ▸ he,rfl⟩
      rw [hlist,hplace] at hgo
      exact (Run.meets_of_go_ok hgo).mpr (hdir he)
    | file bytes =>
      cases hlist : w.disk.list (Path.joinAll s.paths.outputDir ["assets",k.folder]) with
      | error f =>
        rw [hlist] at hgo
        exact (Run.meets_of_go_error hgo).mpr (hfile bytes he _)
      | ok names =>
        obtain ⟨hdir,-⟩ := (hw.list_eq_ok_iff hdirect).mp hlist
        rw [hplace,he] at hdir
        exact absurd hdir (by simp)

end

/-! ### Finished sites -/

/-- A short copy is put beside the file it is made of. -/
theorem Stage.minifyFile {done : List String} (h : s.Stage base (k.copiedOf done files) w)
    (hs : s.paths.IsApart) (hk : Path.IsStep k.folder) {name : String} (hname : Path.IsStep name) :
    (Minify.file k (Path.joinAll s.paths.outputDir ["assets",k.folder]) name).Meets w
      (fun _ v => s.Stage base (k.copiedOf (done ++ [name]) files) v ∧ v.pages = w.pages)
      fun _ => s.Kept base := by
  cases hshort : k.shortName? name with
  | none =>
    unfold Minify.file
    rw [Minify.Kind.copiedOf_concat_of_none hshort,hshort]
    exact (Run.meets_pure _).mpr ⟨h,rfl⟩
  | some short =>
    obtain ⟨hpath,hgoal⟩ := place_asset hs.output hk (Minify.Kind.isStep_of_shortName? hk hname hshort)
    refine meets_minifyFile hs.output hk h.sound.tree hname hshort ?_ fun _ _ => h.kept
    intro bytes text d hfile htext hd
    refine ⟨?_,rfl⟩
    have hbytes := Disk.bytesAt?_eq_some_iff.mpr hfile
    rw [h.files,Minify.Kind.copiedOf_asset hshort] at hbytes
    have hcopy : k.copy? files name = some (k.compress text).toUTF8 := by
      simp [Minify.Kind.copy?,hbytes,htext]
    rw [Minify.Kind.copiedOf_concat hshort hcopy]
    exact (h.write hpath (by simp [Minify.Kind.asset]) hgoal hd).report _

/-- All files of a kind get their short copies. -/
theorem Stage.minifyKind (h : s.Stage base files w) (hs : s.paths.IsApart)
    (hk : Path.IsStep k.folder) :
    (Minify.kind s.paths.outputDir k).Meets w
      (fun _ v => s.Stage base (k.copied files) v ∧ v.pages = w.pages) fun _ => s.Kept base := by
  -- Whatever has a text in the directory is listed there.
  have hthere : ∀ name, files (k.asset name) ≠ none → w.disk.entry? (s.outputPlace ++ k.asset name) ≠ none := by
    intro name hname
    rw [← h.files] at hname
    obtain ⟨bytes,hbytes⟩ := Option.ne_none_iff_exists'.mp hname
    rw [Disk.bytesAt?_eq_some_iff.mp hbytes]
    simp
  refine meets_minifyKind hs.output hk h.sound.tree (fun _ => ?_) (fun hnone => ?_) fun _ _ _ => h.kept
  · rw [← Minify.Kind.copiedOf_eq_copied fun name hname => mem_assetNames_iff.mpr (hthere name hname)]
    refine Run.meets_forM_append (I := fun done v => s.Stage base (k.copiedOf done files) v ∧
      v.pages = w.pages) (fun done name rest hall v hv => ?_) ⟨?_,rfl⟩
    · have hstep : Path.IsStep name := isStep_of_mem_assetNames h.sound.tree (by rw [hall]; simp)
      exact (hv.1.minifyFile hs hk hstep).imp (fun _ u hu => ⟨hu.1,hu.2.trans hv.2⟩) fun _ _ => id
    · rwa [Minify.Kind.copiedOf_nil]
  · have hempty : ∀ name, files (k.asset name) ≠ none → name ∈ ([] : List String) := fun name hname =>
      absurd (entry?_asset_of_folder h.sound.tree hnone name) (hthere name hname)
    rw [← Minify.Kind.copiedOf_eq_copied hempty,Minify.Kind.copiedOf_nil]
    exact ⟨h,rfl⟩

/-- A site is finished with its short copies. -/
theorem Stage.shorten (h : s.Stage base files w) (hs : s.paths.IsApart) :
    s.shorten.Meets w (fun _ v => s.Stage base (s.finished files) v ∧ v.pages = w.pages)
      fun _ => s.Kept base := by
  unfold Site.shorten finished
  split
  · have hfolders : Path.IsStep "css" ∧ Path.IsStep "js" := by decide
    refine Run.Meets.bind (h.minifyKind hs hfolders.1) fun _ u hu => ?_
    refine Run.Meets.bind (hu.1.minifyKind hs hfolders.2) fun _ v hv => ?_
    exact (Run.meets_pure _).mpr ⟨hv.1,hv.2.trans hu.2⟩
  · exact (Run.meets_pure _).mpr ⟨h,rfl⟩

end Site

end BlogSite
