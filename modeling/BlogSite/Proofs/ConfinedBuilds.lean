import BlogSite.Proofs.BuildInvariants

/-!
How far a build reaches. Each of its steps changes the tree in the output directory alone, but for the
log file and for the pages of blogs whose slugs lead out of it; on the way down to the output directory
it adds directories that are missing.
-/

namespace BlogSite

namespace Run

variable {free upper : Location → Prop} {base : World}

theorem keeps_within_writeText {p : String} (hp : free (Path.place p)) (text : String) :
    (writeText p text).Keeps (World.Within free upper base) :=
  fun _ hw => meets_alter (fun _ hd => hw.withDisk (hw.disk.write hp hd)) fun _ _ => hw

theorem keeps_within_makeDirectories {p : String}
    (hp : ∀ l, Path.Passes p l → free l ∨ upper l) :
    (makeDirectories p).Keeps (World.Within free upper base) := by
  intro w hw
  refine meets_of_world ?_
  rw [go_makeDirectories]
  exact hw.withDisk (hw.disk.makeDirectories hp)

theorem keeps_within_removeTree {p : String} (hp : ∀ l, Path.place p <+: l → free l) :
    (removeTree p).Keeps (World.Within free upper base) := by
  have hremove : (alter (·.removeTree p)).Keeps (World.Within free upper base) := fun _ hw =>
    meets_alter (fun _ hd => hw.withDisk (hw.disk.removeTree hp hd)) fun _ _ => hw
  refine hremove.bind fun _ v hv => (meets_modify _).mpr ⟨hv.disk,?_⟩
  rintro l ⟨f,hf,hl⟩
  exact hv.log l ⟨f,(Option.filter_eq_some_iff.mp hf).1,hl⟩

theorem keeps_within_copyTree {source target : String}
    (htarget : ∀ l, Path.place target <+: l → free l) :
    (alter (·.copyTree source target)).Keeps (World.Within free upper base) :=
  fun _ hw => meets_alter (fun _ hd => hw.withDisk (hw.disk.copyTree htarget hd)) fun _ _ => hw

end Run

namespace Site

/-! ### The regions of a build -/

/-- The places that a page goes through from the root on. -/
def PagePasses (s : Site) (relative : String) (l : Location) : Prop :=
  Path.Passes (Path.join s.paths.outputDir relative) l

/-- The places that the page of a blog and the pages of its posts go through. -/
def BlogPasses (s : Site) (b : Blog) (l : Location) : Prop :=
  s.PagePasses (BlogPage.path b) l ∨
    ∃ p : Post, '/' ∉ p.slug.toList ∧ s.PagePasses (PostPage.path b p) l

/-- A world that a build from another leads to: what it changes is in the output directory, the log
file or among some stray places, and it adds directories above the output directory. -/
def Confined (s : Site) (stray : Location → Prop) (base : World) : World → Prop :=
  World.Within (fun l => s.outputPlace <+: l ∨ base.LogAt l ∨ stray l) (· <+: s.outputPlace) base

variable {s : Site} {stray : Location → Prop} {base : World}

theorem lasting_confined : World.Lasting (s.Confined stray base) :=
  ⟨fun _ hw => hw.disk.named,fun _ m hw => hw.report m⟩

theorem confined_base (h : base.disk.Named) : s.Confined stray base base :=
  ⟨.refl h,fun _ hl => Or.inr (Or.inl hl)⟩

/-! ### The steps of a build -/

theorem keeps_confined_start : start.Keeps (s.Confined stray base) := by
  refine Run.Keeps.bind (fun w hw => ?_) fun _ => keeps_report lasting_confined _ _
  exact (Run.meets_modify _).mpr (World.Within.withPages hw _)

theorem keeps_confined_resetOutput (hs : Path.IsDirect s.paths.outputDir) :
    s.resetOutput.Keeps (s.Confined stray base) := by
  have hmake : (Run.makeDirectories s.paths.outputDir).Keeps (s.Confined stray base) :=
    Run.keeps_within_makeDirectories fun l hl => Or.inr (hs.passes_iff.mp hl)
  unfold resetOutput
  refine ((Run.quiet_ask _).keeps lasting_confined.report).bind fun isThere => ?_
  split
  · exact (Run.keeps_within_removeTree fun l hl => Or.inl hl).bind fun _ => hmake
  · exact hmake

theorem keeps_confined_copyPublic : s.copyPublic.Keeps (s.Confined stray base) := by
  unfold copyPublic
  refine ((Run.quiet_ask _).keeps lasting_confined.report).bind fun isDirectory => ?_
  split
  · exact (Run.keeps_within_copyTree fun l hl => Or.inl hl).bind fun _ =>
      keeps_report lasting_confined _ _
  · exact keeps_report lasting_confined _ _

theorem keeps_confined_prepare (hs : Path.IsDirect s.paths.outputDir) :
    s.prepare.Keeps (s.Confined stray base) :=
  keeps_confined_start.bind fun _ => (keeps_confined_resetOutput hs).bind fun _ =>
    keeps_confined_copyPublic.bind fun _ =>
      (BlogList.quiet_load _).keeps lasting_confined.report

/-- A page is written in the output directory unless its path leads to stray places. -/
theorem keeps_confined_writePage (hs : Path.IsDirect s.paths.outputDir) {relative : String}
    (hpath : Path.StaysBelow relative ∨ ∀ l, s.PagePasses relative l → stray l) (text : String) :
    (s.writePage relative text).Keeps (s.Confined stray base) := by
  have habsolute := Path.isAbsolute_join hs.absolute relative
  have hway : ∀ l, Path.Passes (Path.parent (Path.join s.paths.outputDir relative)) l →
      (s.outputPlace <+: l ∨ base.LogAt l ∨ stray l) ∨ l <+: s.outputPlace := by
    intro l hl
    have hpasses := hl.of_parent habsolute
    rcases hpath with hbelow | hstray
    · exact (hbelow.passes hs hpasses).symm.imp_left Or.inl
    · exact Or.inl (Or.inr (Or.inr (hstray l hpasses)))
  have hplace : s.outputPlace <+: Path.place (Path.join s.paths.outputDir relative) ∨
      base.LogAt (Path.place (Path.join s.paths.outputDir relative)) ∨
      stray (Path.place (Path.join s.paths.outputDir relative)) := by
    rcases hpath with hbelow | hstray
    · exact Or.inl (hbelow.place_join ▸ List.prefix_append _ _)
    · exact Or.inr (Or.inr (hstray _ (Path.passes_place _)))
  unfold writePage
  refine (Run.keeps_within_makeDirectories hway).bind fun _ => ?_
  refine (Run.keeps_within_writeText hplace text).bind fun _ => ?_
  refine Run.Keeps.bind (fun w hw => ?_) fun _ => keeps_report lasting_confined _ _
  exact (Run.meets_modify _).mpr (World.Within.withPages hw _)

/-- The pages of a site are written in the output directory, but for those of blogs that stray. -/
theorem keeps_confined_page (hs : Path.IsDirect s.paths.outputDir) {blogs : List Blog}
    (hblogs : ∀ b ∈ blogs, Path.StaysBelow (BlogPage.path b) ∨ ∀ l, s.BlogPasses b l → stray l)
    {relative : String} (hpage : IsPage blogs relative) (text : String) :
    (s.writePage relative text).Keeps (s.Confined stray base) := by
  apply keeps_confined_writePage hs
  cases hpage with
  | home => exact Or.inl (by decide)
  | notFound => exact Or.inl (by decide)
  | marker => exact Or.inl (by decide)
  | blog hb => exact (hblogs _ hb).imp_right fun hstray l hl => hstray l (Or.inl hl)
  | post hb hp =>
    exact (hblogs _ hb).imp (PostPage.staysBelow_path_iff _ hp).mpr fun hstray l hl =>
      hstray l (Or.inr ⟨_,hp,hl⟩)

/-! ### The whole build -/

theorem keeps_confined_finish (hs : Path.IsDirect s.paths.outputDir) {blogs : List Blog}
    (hblogs : ∀ b ∈ blogs, Path.StaysBelow (BlogPage.path b) ∨ ∀ l, s.BlogPasses b l → stray l) :
    (s.finish blogs).Keeps (s.Confined stray base) :=
  keeps_finish lasting_confined hs
    (fun _ text hp => Run.keeps_within_writeText (Or.inl hp) text)
    fun _ hpage text => keeps_confined_page hs hblogs hpage text

/-- However it ends, a build leads to a world that is confined, with the blogs that lead out of the
output directory straying where their pages go. -/
theorem confined_build (hs : Path.IsDirect s.paths.outputDir) (hbase : base.disk.Named)
    (hstray : ∀ blogs, s.Lists base blogs → ∀ b ∈ blogs,
      Path.StaysBelow (BlogPage.path b) ∨ ∀ l, s.BlogPasses b l → stray l) :
    s.Confined stray base (s.build.go base).2 := by
  rw [build_eq_prepare]
  refine Run.Meets.world ((keeps_confined_prepare hs base (confined_base hbase)).of_go.bind ?_)
  rintro blogs v ⟨hgo,hv⟩
  exact keeps_confined_finish hs (hstray blogs (congrArg Prod.fst hgo)) v hv

end Site

end BlogSite
