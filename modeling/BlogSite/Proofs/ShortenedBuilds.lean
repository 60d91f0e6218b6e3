import BlogSite.Proofs.AssetShortening
import BlogSite.Proofs.RepeatedBuilds

/-!
Builds with short copies and builds without them. A build makes short copies last, when all pages are
written, and what it does before does not depend on whether it will make any. So the two builds come to one
world, and from there they differ by the short copies alone.
-/

namespace BlogSite

/-- What a tree with short copies has can be told of trees that are the same but for a log. -/
theorem Minify.Shortens.congr {c : Compressors} {out : Location} {log log' : Location → Prop}
    {d d' e e' : Disk} (h : Shortens c out log d d') (hlog : ∀ l, log l → log' l)
    (hassets : ∀ k ∈ kinds c, ∀ name, k.ending.toList <:+ name.toList → ¬ log (out ++ k.asset name))
    (hd : ∀ l, ¬ log l → e.entry? l = d.entry? l) (hd' : ∀ l, ¬ log l → e'.entry? l = d'.entry? l) :
    Shortens c out log' e e' := by
  have hnames : ∀ k ∈ kinds c, ∀ name short, k.IsCopy name short →
      ¬ log (out ++ k.asset name) ∧ ¬ log (out ++ k.asset short) := by
    intro k hk name short hcopy
    obtain ⟨hname,hshort⟩ := Kind.suffix_of_shortName? (Kind.shortName?_eq_some_iff.mpr hcopy)
    exact ⟨hassets k hk name hname,hassets k hk short hshort⟩
  refine ⟨fun k hk name short hcopy hthere => ?_,fun l hl hother => ?_,fun k hk name short hcopy => ?_,
    h.apart⟩
  · obtain ⟨hname,hshort⟩ := hnames k hk name short hcopy
    rw [hd _ hname] at hthere ⊢
    rw [hd' _ hshort]
    exact h.copied k hk name short hcopy hthere
  · have hl' : ¬ log l := mt (hlog l) hl
    rw [hd' l hl',hd l hl']
    refine h.kept l hl' fun k hk name short hcopy heq => ?_
    rw [← hd _ (hnames k hk name short hcopy).1]
    exact hother k hk name short hcopy heq
  · obtain ⟨hname,-⟩ := hnames k hk name short hcopy
    rw [hd' _ hname,hd _ hname]
    exact h.originals k hk name short hcopy

namespace Site

variable {s : Site} {base w u v : World}

/-! ### Before short copies are made -/

/-- Writes the pages of a site. -/
def writePages (s : Site) (blogs : List Blog) : Run HomePage.Shelf := do
  info ("Loaded " ++ toString blogs.length ++ " blogs from " ++ s.paths.blogList)
  let shelf ← s.writeBlogs [] blogs
  s.writeHome blogs shelf
  s.writeNotFound
  s.writePage ".nojekyll" ""
  return shelf

/-- What a build does before it makes short copies. -/
def furnish (s : Site) : Run (List Blog × HomePage.Shelf) := do
  let blogs ← s.prepare
  let shelf ← s.writePages blogs
  return (blogs,shelf)

theorem build_eq_furnish (s : Site) :
    s.build = s.furnish >>= fun found => s.shorten >>= fun _ => summarise found.1 found.2 := by
  rw [build_eq_prepare]
  simp only [furnish,writePages,bind_assoc,pure_bind]
  rfl

theorem writeBlogs_minify (b : Bool) (shelf : HomePage.Shelf) (blogs : List Blog) :
    writeBlogs { s with minify := b } shelf blogs = s.writeBlogs shelf blogs := by
  induction blogs generalizing shelf with
  | nil => rfl
  | cons blog blogs ih =>
    have hblog : writeBlog { s with minify := b } blog = s.writeBlog blog := rfl
    simp only [writeBlogs,hblog,ih]

theorem furnish_minify (b : Bool) : furnish { s with minify := b } = s.furnish := by
  simp only [furnish,writePages,writeBlogs_minify]
  rfl

/-- A world in which short copies can be made: its entries are a tree, and its log file is one of the
start that is not in the output directory. -/
structure Furnished (s : Site) (base w : World) : Prop where
  tree : w.disk.IsTree
  logFile : ∀ f ∈ w.logFile, f ∈ base.logFile ∧ ¬ s.outputPlace <+: Path.place f.path

namespace Furnished

theorem lasting : World.Lasting (s.Furnished base) :=
  ⟨fun _ h => h.tree.named,fun _ m h => ⟨World.isTree_report h.tree m,h.logFile⟩⟩

theorem withDisk (h : s.Furnished base w) {d : Disk} (hd : d.IsTree) :
    s.Furnished base { w with disk := d } :=
  ⟨hd,h.logFile⟩

theorem logAt (h : s.Furnished base w) {l : Location} (hl : w.LogAt l) :
    base.LogAt l ∧ ¬ s.outputPlace <+: l := by
  obtain ⟨f,hf,rfl⟩ := hl
  exact ⟨⟨f,(h.logFile f hf).1,rfl⟩,(h.logFile f hf).2⟩

theorem logNamed (h : s.Furnished base w) (hbase : base.LogNamed) : w.LogNamed :=
  fun f hf => hbase f (h.logFile f hf).1

theorem keeps_writePage (relative text : String) :
    (s.writePage relative text).Keeps (s.Furnished base) := by
  have hmake : ∀ p, (Run.makeDirectories p).Keeps (s.Furnished base) := by
    intro p w hw
    refine Run.meets_of_world ?_
    rw [Run.go_makeDirectories]
    exact hw.withDisk (hw.tree.of_makeDirectories p)
  have hwrite : ∀ p, (Run.writeText p text).Keeps (s.Furnished base) := fun p w hw =>
    Run.meets_alter (fun _ hd => hw.withDisk (hw.tree.of_write hd)) fun _ _ => hw
  unfold writePage
  refine (hmake _).bind fun _ => (hwrite _).bind fun _ => ?_
  exact Run.Keeps.bind (fun w hw => (Run.meets_modify _).mpr ⟨hw.tree,hw.logFile⟩) fun _ =>
    keeps_report lasting _ _

theorem keeps_writePages (blogs : List Blog) : (s.writePages blogs).Keeps (s.Furnished base) := by
  have hwrite : ∀ relative, IsPage blogs relative → ∀ text,
      (s.writePage relative text).Keeps (s.Furnished base) := fun relative _ text =>
    keeps_writePage relative text
  unfold writePages
  refine (keeps_report lasting _ _).bind fun _ => ?_
  refine (keeps_writeBlogs lasting hwrite (fun _ hb => hb) []).bind fun shelf => ?_
  refine (keeps_writeHome lasting hwrite shelf).bind fun _ => ?_
  refine (keeps_writeNotFound lasting hwrite).bind fun _ => ?_
  exact (keeps_writePage _ _).bind fun _ => Run.keeps_pure _

/-- Static files are copied into a directory that is empty. -/
theorem of_copyPublic (hfresh : s.Fresh base w) :
    s.copyPublic.Meets w (fun _ => s.Furnished base) fun _ => s.Furnished base := by
  have hw : s.Furnished base w := ⟨hfresh.sound.tree,fun f hf => (hfresh.logFile f).mp hf⟩
  unfold copyPublic
  simp only
  rw [Run.meets_bind,Run.meets_ask]
  split
  · rename_i hdir
    rw [Run.meets_bind]
    refine Run.meets_alter (fun d hd => ?_) fun _ _ => hw
    obtain ⟨origin,goal,horigin,hgoal,rfl⟩ := Disk.copyTree_eq_ok hd
    obtain ⟨rfl,-⟩ := Disk.eq_place_of_locate hgoal
    have hsource : w.disk.entry? origin = some .directory := by
      simpa [Disk.isDirectory,Disk.lookup?,horigin] using hdir
    have hcopy := hfresh.sound.tree.copy hsource hfresh.output hfresh.empty
    exact (Run.meets_report _ _ _).mpr (lasting.report _ _ (hw.withDisk hcopy))
  · exact (Run.meets_report _ _ _).mpr (lasting.report _ _ hw)

/-- A build that gets as far as to make short copies makes them in a tree. -/
theorem of_furnish (hs : Path.IsDirect s.paths.outputDir) (hw : w.IsSound)
    {found : List Blog × HomePage.Shelf} (hgo : s.furnish.go w = (.ok found,u)) :
    s.Furnished w.opened u := by
  obtain ⟨blogs,w₁,hprepare,hpages⟩ := Run.exists_of_go_bind hgo
  obtain ⟨_,w₂,hstart,hreset⟩ := Run.exists_of_go_bind hprepare
  obtain rfl : w.opened = w₂ := congrArg Prod.snd hstart
  obtain ⟨_,w₃,hreset,hcopy⟩ := Run.exists_of_go_bind hreset
  obtain ⟨_,w₄,hcopy,hload⟩ := Run.exists_of_go_bind hcopy
  have hfile := not_file_opened (not_file_of_resetOutput hs hw hreset)
  obtain ⟨hfresh,-⟩ := (meets_resetOutput hs hw.opened hfile).result () w₃ hreset
  have hcopied := (of_copyPublic hfresh).result () w₄ hcopy
  have hlisted := ((BlogList.quiet_load _).keeps lasting.report w₄ hcopied).result blogs w₁ hload
  obtain ⟨shelf,w₅,hwrite,hfound⟩ := Run.exists_of_go_bind hpages
  have hwritten := (keeps_writePages blogs w₁ hlisted).result shelf w₅ hwrite
  obtain rfl : w₅ = u := congrArg Prod.snd hfound
  exact hwritten

end Furnished

/-! ### From there on -/

/-- The last reports tell the result and leave all but the log file as it is. -/
theorem exists_summarise (hu : u.disk.IsTree) (blogs : List Blog) (shelf : HomePage.Shelf) :
    ∃ v, (summarise blogs shelf).go u = (.ok shelf,v) ∧
      ∀ l, ¬ u.LogAt l → v.disk.entry? l = u.disk.entry? l := by
  have hlast := (quiet_summarise blogs shelf).keeps (I := Unchanged u) (fun _ m hw => hw.report m) u
    ⟨hu,rfl,fun _ _ => rfl⟩
  have hgo : (summarise blogs shelf).go u =
      (.ok shelf,((summarise blogs shelf).go u).2) := Prod.ext (go_summarise blogs shelf u) rfl
  exact ⟨_,hgo,(hlast.result shelf _ hgo).entry⟩

/-- A build with short copies that succeeds has the result of one without them, and leaves the same tree
but for the short copies. -/
theorem shortens_of_build (hs : Path.IsDirect s.paths.outputDir) (hw : w.IsSound)
    {shelf : HomePage.Shelf} (hgo : (build { s with minify := true }).go w = (.ok shelf,v)) :
    ∃ v', (build { s with minify := false }).go w = (.ok shelf,v') ∧
      Minify.Shortens s.compressors s.outputPlace (fun l => w.LogAt l ∧ ¬ s.outputPlace <+: l)
        v'.disk v.disk := by
  rw [build_eq_furnish,furnish_minify] at hgo
  obtain ⟨⟨blogs,shelf'⟩,u,hfurnish,hlast⟩ := Run.exists_of_go_bind hgo
  obtain ⟨_,u',hshorten,hsummary⟩ := Run.exists_of_go_bind hlast
  have hpass : shorten { s with minify := true } = Minify.assets s.compressors s.paths.outputDir := rfl
  have hnone : shorten { s with minify := false } = pure () := rfl
  rw [hpass] at hshorten
  have hu := Furnished.of_furnish hs hw hfurnish
  have hlog := hu.logNamed hw.opened.named
  obtain ⟨htree,hsame,hshort,-⟩ := shortens_of_go_assets hs hu.tree hlog hshorten
  -- Both builds are in the world `u`; the one without short copies goes on to its summary.
  obtain ⟨v',hplain,hplain'⟩ := exists_summarise hu.tree blogs shelf'
  obtain ⟨v'',hfull,hfull'⟩ := exists_summarise htree blogs shelf'
  obtain ⟨hshelf,rfl⟩ : shelf' = shelf ∧ v'' = v := by simpa using hfull.symm.trans hsummary
  refine ⟨v',?_,hshort.congr (fun l => hu.logAt) ?_ hplain' fun l hl => ?_⟩
  · rw [build_eq_furnish,furnish_minify,Run.go_bind,hfurnish,← hshelf]
    simp only [hnone,pure_bind]
    exact hplain
  · exact fun k hk name hname => hlog.not_logAt_asset hk hname s.outputPlace
  · exact hfull' l (mt (World.logAt_congr hsame).mp hl)

/-- Whenever short copies are made to the end, each asset has beside it its compressed text, and all else is
as it was, assets included; no copy is an asset with a copy of its own. The order in which a tree holds its
entries makes no difference, and copies made once more change nothing. So a build with short copies that
succeeds leaves what one without them does, but for the short copies. Only a log file gets the lines of
what is reported. -/
theorem minify_shortens (hs : Path.IsDirect s.paths.outputDir) (hw : w.IsSound) :
    (∀ v, (Minify.assets s.compressors s.paths.outputDir).go w = (.ok (),v) →
      Minify.Shortens s.compressors s.outputPlace w.LogAt w.disk v.disk ∧
      (∀ d : Disk, (∀ l, d.entry? l = w.disk.entry? l) →
        ∃ v', (Minify.assets s.compressors s.paths.outputDir).go { w with disk := d } = (.ok (),v') ∧
          ∀ l, v'.disk.entry? l = v.disk.entry? l) ∧
      ∃ v', (Minify.assets s.compressors s.paths.outputDir).go v = (.ok (),v') ∧
        ∀ l, ¬ w.LogAt l → v'.disk.entry? l = v.disk.entry? l) ∧
    ∀ shelf v, (build { s with minify := true }).go w = (.ok shelf,v) →
      ∃ v', (build { s with minify := false }).go w = (.ok shelf,v') ∧
        Minify.Shortens s.compressors s.outputPlace (fun l => w.LogAt l ∧ ¬ s.outputPlace <+: l)
          v'.disk v.disk := by
  refine ⟨fun v hgo => ?_,fun shelf v hgo => shortens_of_build hs hw hgo⟩
  obtain ⟨-,-,hshort,hagain⟩ := shortens_of_go_assets hs hw.tree hw.named hgo
  refine ⟨hshort,fun d hd => ?_,hagain⟩
  obtain ⟨hresult,hentries⟩ := s.go_assets_of_entry_eq hd
  cases hother : (Minify.assets s.compressors s.paths.outputDir).go { w with disk := d } with
  | mk result v' =>
    rw [hother,hgo] at hresult hentries
    obtain rfl : result = .ok () := hresult
    exact ⟨v',rfl,hentries⟩

/-- The sample site with a compressor that leaves a mark. -/
def markingSample : Site := { sample with compressors := ⟨fun text => text ++ "!",id⟩ }

/-- The sample project with a style sheet and a script that is short already, among the static files and in
the output directory. -/
def styledProject : World where
  disk :=
    { entries := sampleProject.disk.entries ++
        ["public","out"].flatMap fun top =>
          [([top,"assets"],.directory),([top,"assets","css"],.directory),
            ([top,"assets","css","a.css"],.file "p".toUTF8),([top,"assets","js"],.directory),
            ([top,"assets","js","b.min.js"],.file "q".toUTF8)]
      distinct := by decide }

theorem isSound_styledProject : styledProject.IsSound where
  tree := Disk.isTree_of_entries (by decide)
  named := by simp [World.LogNamed,styledProject]
  direct := by simp [styledProject]
  logged := by simp [World.LogAt,styledProject]

theorem minify_shortens_sample :
    (Path.IsDirect markingSample.paths.outputDir ∧ styledProject.IsSound) ∧
    (∃ v, (Minify.assets markingSample.compressors markingSample.paths.outputDir).go styledProject =
        (.ok (),v) ∧
      Minify.Shortens markingSample.compressors markingSample.outputPlace styledProject.LogAt
        styledProject.disk v.disk ∧
      v.disk.entry? ["out","assets","css","a.min.css"] = some (.file "p!".toUTF8)) ∧
    ∃ shelf v v', (build { markingSample with minify := true }).go styledProject = (.ok shelf,v) ∧
      (build { markingSample with minify := false }).go styledProject = (.ok shelf,v') ∧
      Minify.Shortens markingSample.compressors markingSample.outputPlace
        (fun l => styledProject.LogAt l ∧ ¬ markingSample.outputPlace <+: l) v'.disk v.disk := by
  obtain ⟨hpass,hbuild⟩ := minify_shortens (s := markingSample) isApart_sample.output isSound_styledProject
  obtain ⟨_,u,hgo⟩ : ∃ a u, (Minify.assets markingSample.compressors markingSample.paths.outputDir).go
      styledProject = (.ok a,u) := Run.exists_go_of_isOk (by decide +kernel)
  obtain ⟨shelf,v,hbuilt⟩ : ∃ shelf v, (build { markingSample with minify := true }).go styledProject =
      (.ok shelf,v) := Run.exists_go_of_isOk (by decide +kernel)
  obtain ⟨v',hplain,hshort⟩ := hbuild shelf v hbuilt
  refine ⟨⟨isApart_sample.output,isSound_styledProject⟩,⟨u,hgo,(hpass u hgo).1,?_⟩,shelf,v,v',hbuilt,hplain,
    hshort⟩
  have hfile : styledProject.disk.entry? ["out","assets","css","a.css"] = some (.file "p".toUTF8) := by
    decide
  have hcopy : Minify.Kind.IsCopy ⟨"css","CSS",markingSample.compressors.style⟩ "a.css" "a.min.css" :=
    ⟨"a",rfl,rfl,by decide⟩
  have hplace : markingSample.outputPlace = ["out"] := outputPlace_sample
  obtain ⟨bytes,text,hbytes,htext,hout⟩ := (hpass u hgo).1.copied _ (by simp [Minify.kinds]) _ _ hcopy
    (by rw [hplace]; exact hfile ▸ by simp)
  rw [hplace] at hbytes hout
  obtain rfl : "p".toUTF8 = bytes := by simpa using hfile.symm.trans hbytes
  have hread : Text.ofBytes? "p".toUTF8 = some "p" := by decide +kernel
  obtain rfl : "p" = text := Option.some.inj (hread.symm.trans htext)
  exact hout

end Site

end BlogSite
