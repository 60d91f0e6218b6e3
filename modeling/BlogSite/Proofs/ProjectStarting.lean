import BlogSite.Proofs.DayTexts
import BlogSite.Proofs.OptionWords
import BlogSite.Proofs.StarterPlacing

/-!
The command that starts a new project, on any file tree. The files that are there keep their bytes,
however far the command gets; but a settings file of the format that is asked for is written anew.
-/

namespace BlogSite

namespace Disk

/-- Every file of a tree is in the other: with new bytes at one location, with its own elsewhere. -/
def KeepsBut (d : Disk) (at_ : Location) (new : ByteArray) (d' : Disk) : Prop :=
  ∀ l bytes, d.entry? l = some (.file bytes) →
    d'.entry? l = some (.file (if l = at_ then new else bytes))

theorem KeepsBut.trans {d d' d'' : Disk} {at_ : Location} {new : ByteArray}
    (h : d.KeepsBut at_ new d') (h' : d'.Keeps d'') : d.KeepsBut at_ new d'' :=
  fun l bytes hl => h' l _ (h l bytes hl)

/-- A file that is there can be written. -/
theorem IsTree.exists_write {d : Disk} (h : d.IsTree) {p : String} (hp : Path.IsDirect p)
    {old : ByteArray} (hold : d.entry? (Path.place p) = some (.file old)) (bytes : ByteArray) :
    ∃ d', d.write p bytes = .ok d' := by
  have hlocate : d.locate p = .ok (Path.place p) := by rw [locate_eq_reach d hp,h.reach_eq hold]
  refine ⟨d.put (Path.place p) (.file bytes),?_⟩
  simp only [Disk.write,hlocate,bind,Except.bind,hold]

end Disk

namespace Settings

/-- The path of the settings file that a new project gets. -/
def samplePath (directory format : String) : String := Path.join directory ("starblog." ++ format)

theorem sample?_isSome_iff {format : String} :
    (sample? format).isSome ↔ format ∈ ["yml","yaml","json"] := by
  unfold sample?
  by_cases hyaml : format = "yml" ∨ format = "yaml"
  · rcases hyaml with rfl | rfl <;> decide
  · by_cases hjson : format = "json"
    · subst hjson
      decide
    · simp_all

theorem isDirect_samplePath {directory format : String} (hd : Path.IsDirect directory)
    (hformat : format ∈ ["yml","yaml","json"]) : Path.IsDirect (samplePath directory format) ∧
      Path.place (samplePath directory format) = Path.place directory ++ ["starblog." ++ format] := by
  have hname : ∀ f ∈ ["yml","yaml","json"], Path.names ("starblog." ++ f) = ["starblog." ++ f] ∧
      ∀ n ∈ Path.names ("starblog." ++ f), Path.IsStep n := by decide
  obtain ⟨hnames,hstep⟩ := hname format hformat
  have hjoin := hd.join hstep
  rwa [hnames] at hjoin

/-- Writing a settings file anew gives it the text of its format and keeps all other files; where
there is a settings file, this cannot fail. -/
theorem writeSample_keepsBut {directory format text : String} (htext : sample? format = some text)
    (hpath : Path.IsDirect (samplePath directory format)) {w : World} (hw : w.disk.IsTree) :
    (writeSample directory format).Meets w
      (fun _ v => v.disk.IsTree ∧
        w.disk.KeepsBut (Path.place (samplePath directory format)) text.toUTF8 v.disk)
      (fun _ v => v.disk.IsTree ∧
        w.disk.KeepsBut (Path.place (samplePath directory format)) text.toUTF8 v.disk) := by
  unfold writeSample
  change (Run.writeText (samplePath directory format) "" >>= _).Meets w _ _
  rw [Run.meets_bind]
  apply Run.meets_alter
  case hbad =>
    -- Then no file is there that would have to change.
    intro f hf
    refine ⟨hw,fun l bytes hl => ?_⟩
    split
    · rename_i hplace
      obtain ⟨d',hd'⟩ := hw.exists_write hpath (hplace ▸ hl) "".toUTF8
      rw [hf] at hd'
      exact absurd hd' (by simp)
    · exact hl
  intro d hd
  obtain ⟨htree,hentry⟩ := hw.write hpath hd
  simp only [htext]
  rw [Run.meets_bind]
  apply Run.meets_alter
  case hbad =>
    intro f hf
    obtain ⟨d',hd'⟩ := htree.exists_write hpath ((hentry _).trans (if_pos rfl)) text.toUTF8
    exact absurd (hf.symm.trans hd') (by simp)
  intro d' hd'
  obtain ⟨htree',hentry'⟩ := htree.write hpath hd'
  refine (Run.meets_pure _).mpr ⟨htree',fun l bytes hl => ?_⟩
  refine (hentry' l).trans ?_
  split
  · rfl
  · rename_i hplace
    exact ((hentry l).trans (if_neg hplace)).trans hl

end Settings

namespace Session

variable (s : Session)

/-- However far the start of a project gets, the files that were there keep their bytes, but for the
settings file. -/
theorem start_keepsBut {format text : String} (htext : Settings.sample? format = some text)
    (hs : Path.IsDirect s.directory) {w : World} (hw : w.disk.IsTree) :
    (s.start format).Meets w
      (fun _ v => w.disk.KeepsBut (Path.place s.directory ++ ["starblog." ++ format])
        text.toUTF8 v.disk)
      (fun _ v => w.disk.KeepsBut (Path.place s.directory ++ ["starblog." ++ format])
        text.toUTF8 v.disk) := by
  have hformat := Settings.sample?_isSome_iff.mp (Option.isSome_iff_exists.mpr ⟨text,htext⟩)
  obtain ⟨hpath,hplace⟩ := Settings.isDirect_samplePath hs hformat
  rw [← hplace]
  unfold start
  rw [Run.meets_bind]
  refine (Settings.writeSample_keepsBut htext hpath hw).imp ?_ fun _ _ hbad => hbad.2
  rintro path v ⟨htree,hkeeps⟩
  rw [Run.meets_bind,Run.meets_print,Run.meets_bind,Run.meets_print]
  have hcreate : v.disk.Retains v.disk := ⟨htree,fun _ _ hl => hl⟩
  refine (Starter.create_keeps (d := v.disk) (w := (v.print _).print _) hs hcreate).imp ?_ ?_
  · exact fun _ u hu => hkeeps.trans hu.files
  · exact fun _ u hu => hkeeps.trans hu.files

theorem run_run (elapsed : Nat) (words : List String) (w : World) :
    (s.run elapsed words).run w =
      (conclude elapsed ((s.perform words).run w).1).run ((s.perform words).run w).2 := rfl

theorem conclude_started_world (elapsed : Nat) (r : Except Failure Unit) (w : World) :
    ((conclude elapsed (.started r)).run w).2 = w := by
  cases r <;> rfl

/-- The command touches no more of the world than the start of a project does, and nothing at all
when it refuses the format. -/
theorem run_init_world (elapsed : Nat) (format : String) (w : World) :
    ((s.run elapsed ["--init",format]).run w).2 =
      if format ∈ ["yml","yaml","json"] then ((s.start format).go w).2 else w := by
  have hfield : Entries.field [(.str "init",.str format)] "init" = .str format := rfl
  rcases CommandLine.interpret_init format with ⟨hformat,hwords⟩ | ⟨hformat,message,hwords⟩
  · have hperform : (s.perform ["--init",format]).run w =
        (.started ((s.start format).go w).1,((s.start format).go w).2) := by
      simp only [perform,hwords,hfield]
      generalize s.start format = start
      rfl
    rw [if_pos hformat,run_run,hperform,conclude_started_world]
  · have hperform : (s.perform ["--init",format]).run w = (.refused message,w) := by
      simp only [perform,hwords]
      rfl
    rw [if_neg hformat,run_run,hperform]
    rfl

/-- However far the command gets, the files that were there keep their bytes, but for the settings
file. -/
theorem keepsBut_run_init (elapsed : Nat) {format text : String}
    (htext : Settings.sample? format = some text) (hs : Path.IsDirect s.directory) {w : World}
    (hw : w.disk.IsTree) :
    w.disk.KeepsBut (Path.place s.directory ++ ["starblog." ++ format]) text.toUTF8
      ((s.run elapsed ["--init",format]).run w).2.disk := by
  have hformat := Settings.sample?_isSome_iff.mp (Option.isSome_iff_exists.mpr ⟨text,htext⟩)
  have hstart := s.start_keepsBut htext hs hw
  rw [run_init_world,if_pos hformat]
  exact hstart.world

/-- On every file tree and for every format, a file that is there before the command starts a project
is there afterwards with the same bytes, unless it is the settings file of that format, which then
has the text of a new one. -/
theorem run_init_keepsBut (elapsed : Nat) (format : String) (hs : Path.IsDirect s.directory)
    {w : World} (hw : w.disk.IsTree) {l : Location} {bytes : ByteArray}
    (hl : w.disk.entry? l = some (.file bytes)) :
    ((s.run elapsed ["--init",format]).run w).2.disk.entry? l =
      some (.file (if l = Path.place s.directory ++ ["starblog." ++ format] then
        ((Settings.sample? format).map String.toUTF8).getD bytes else bytes)) := by
  cases htext : Settings.sample? format with
  | none =>
    have hformat : format ∉ ["yml","yaml","json"] := by
      rw [← Settings.sample?_isSome_iff,htext]
      simp
    rw [run_init_world,if_neg hformat]
    simpa using hl
  | some text => exact s.keepsBut_run_init elapsed htext hs hw l bytes hl

/-- A project with settings of its own and one template. -/
def sampleProject : World where
  disk :=
    { entries := [(["starblog.yml"],.file "site_title: Mine\n".toUTF8),(["templates"],.directory),
        (["templates","home.html"],.file "Home".toUTF8)]
      distinct := by decide }

def sampleSession : Session where
  directory := "/"
  home := "/"
  now := { date := .sample, hour := 6, minute := 7, second := 8 }
  today := .sample
  yaml := none
  compressors := ⟨id,id⟩

theorem isDirect_root : Path.IsDirect "/" ∧ Path.place "/" = [] :=
  Path.isDirect_of_names (k := 2) (by decide) (by decide) (by simp)

theorem isTree_sampleProject : sampleProject.disk.IsTree :=
  Disk.isTree_of_entries (by decide)

theorem run_init_keepsBut_sample :
    (Path.IsDirect sampleSession.directory ∧ sampleProject.disk.IsTree ∧
      sampleProject.disk.entry? ["templates","home.html"] = some (.file "Home".toUTF8)) ∧
    ((sampleSession.run 0 ["--init","yml"]).run sampleProject).2.disk.entry?
      ["templates","home.html"] = some (.file "Home".toUTF8) := by
  have hfile : sampleProject.disk.entry? ["templates","home.html"] = some (.file "Home".toUTF8) := by
    decide
  have hkept := run_init_keepsBut sampleSession 0 "yml" isDirect_root.1 isTree_sampleProject hfile
  refine ⟨⟨isDirect_root.1,isTree_sampleProject,hfile⟩,hkept.trans ?_⟩
  rw [if_neg (by simp [sampleSession,isDirect_root.2])]

/-- The settings file that was there is lost. -/
theorem run_init_settings_lost :
    sampleProject.disk.entry? ["starblog.yml"] = some (.file "site_title: Mine\n".toUTF8) ∧
    ((sampleSession.run 0 ["--init","yml"]).run sampleProject).2.disk.entry? ["starblog.yml"] ≠
      some (.file "site_title: Mine\n".toUTF8) := by
  have hfile : sampleProject.disk.entry? ["starblog.yml"] =
      some (.file "site_title: Mine\n".toUTF8) := by decide
  have hsample : Settings.sample? "yml" = some Settings.sampleYaml := by
    simp [Settings.sample?]
  have hanew :=
    keepsBut_run_init sampleSession 0 hsample isDirect_root.1 isTree_sampleProject _ _ hfile
  refine ⟨hfile,?_⟩
  rw [hanew,if_pos (by simp [sampleSession,isDirect_root.2])]
  decide +kernel

end Session

end BlogSite
