import BlogSite.Command
import BlogSite.Proofs.AcceptedOptions
import BlogSite.Proofs.ProjectStarting
import BlogSite.Proofs.SettingsFiles
import BlogSite.Yaml.Document

/-!
Where the settings of a build come from. An option on the command line comes before the settings file, and the
file before the default; a file that cannot be used counts as no file, whatever other file there is.
-/

namespace BlogSite

namespace Settings

/-- What holds for a setting: what the last option for it gives, or else what the settings file has under it,
be it nothing, or else its default. -/
def preferred (uses : List (String × Value)) (file : Option Entries) (key : String) (default : Value) : Value :=
  match uses.reverse.lookup key with
  | some v => v
  | none => (file.bind (Entries.last? key)).getD default

/-- Only what is given for a setting that there is counts. -/
def isGiven (e : Value × Value) : Bool :=
  match e.2 with
  | .null => false
  | _ => (Entries.find? e.1 defaults).isSome

/-- What is given is written over the settings. -/
theorem overlay_eq_update (settings given : Entries) :
    overlay settings given = settings.update (given.filter isGiven) := by
  induction given generalizing settings with
  | nil => rfl
  | cons e given ih =>
    obtain ⟨k,v⟩ := e
    have hstep : overlay settings ((k,v) :: given) =
        overlay (if isGiven (k,v) then settings.put k v else settings) given := by
      cases v <;> rfl
    rw [hstep,ih,List.filter_cons]
    split <;> rfl

/-- A setting has a default, and there is one of each. -/
theorem find?_defaults {key : String} {default : Value} (h : (Value.str key,default) ∈ defaults) :
    defaults.find? (.str key) = some default := by
  simp only [defaults,List.mem_cons,Prod.mk.injEq,Value.str.injEq,List.not_mem_nil,or_false] at h
  rcases h with ⟨rfl,rfl⟩ | ⟨rfl,rfl⟩ | ⟨rfl,rfl⟩ | ⟨rfl,rfl⟩ | ⟨rfl,rfl⟩ | ⟨rfl,rfl⟩ | ⟨rfl,rfl⟩ | ⟨rfl,rfl⟩ <;>
    rfl

variable {uses : List (String × Value)} {key : String} {default : Value}

/-- Options come before the file, and the file before the defaults. -/
theorem find?_overlay (huses : ∀ u ∈ uses, (∃ s, u.2 = .str s) ∨ u.2 = .bool true) (file : Option Entries)
    (hkey : (Value.str key,default) ∈ defaults) :
    (overlay (defaults.update (file.getD [])) (Entries.ofList (Json.named uses))).find? (.str key) =
      some (preferred uses file key default) := by
  have hdefault := find?_defaults hkey
  have hgiven : ∀ e ∈ Entries.ofList (Json.named uses), e.1 = .str key → isGiven e = true := by
    intro e he hkey
    rw [Json.ofList_named] at he
    obtain ⟨⟨k,v⟩,hrow,rfl⟩ := List.mem_map.mp he
    rw [Table.mem_iff_lookup (Table.nodup_ofPairs uses),Table.lookup_ofPairs] at hrow
    obtain ⟨before,after,hsplit,-⟩ := List.lookup_eq_some_iff.mp hrow
    have hmem : (k,v) ∈ uses := List.mem_reverse.mp (by simp [hsplit])
    obtain rfl : k = key := Value.str.inj hkey
    have hsome : (Entries.find? (.str k) defaults).isSome = true := by rw [hdefault]; rfl
    rcases huses _ hmem with ⟨t,rfl⟩ | rfl <;> exact hsome
  rw [overlay_eq_update,Entries.find?_update_str,Entries.last?_filter hgiven,CommandLine.last?_ofList_named,
    Entries.find?_update_str,hdefault,preferred]
  cases uses.reverse.lookup key with
  | some v => rfl
  | none =>
    cases file with
    | none => rfl
    | some es =>
      change ((Entries.last? key es).or (some default)) = some ((Entries.last? key es).getD default)
      cases Entries.last? key es <;> rfl

end Settings

namespace Session

variable {s : Session} {w : World} {words : List String} {given : Entries}

/-- What a build does once its settings are known. -/
def buildWith (s : Session) (settings : Entries) : Run Unit := do
  s.startLog (settings.field "logs")
  let site ← Run.settle (s.site settings)
  let _ ← site.build

/-- The settings are those of a new project, with the files that are there looked at. -/
theorem go_settings (s : Session) (given : Entries) (w : World) :
    ((s.settings given).go w).1 = (Settings.outcome s.yaml w.disk s.directory).map fun _ =>
      Settings.overlay
        (Settings.defaults.update ((Settings.mappingIn? s.yaml w.disk s.directory).getD [])) given := by
  have hloaded := (Settings.load_eq { directory := s.directory } s.yaml s.directory w).1
  obtain ⟨⟨known,v⟩,hload⟩ : ∃ p, Settings.load { directory := s.directory } s.yaml s.directory w = p :=
    ⟨_,rfl⟩
  obtain rfl : known = _ := (congrArg Prod.fst hload).symm.trans hloaded
  unfold settings
  rw [Run.go_bind,Run.go_get]
  simp only [hload]
  cases Settings.outcome s.yaml w.disk s.directory <;> rfl

/-- Without an option that starts a new project, a build is done. -/
theorem perform_of_proceed (hwords : CommandLine.interpret words = .proceed given)
    (hinit : given.find? (.str "init") = none) :
    (s.perform words).run w = (.built ((s.build given).go w).1,((s.build given).go w).2) := by
  have hfield : given.field "init" = .null := by
    rw [Entries.field,hinit]
    rfl
  simp only [perform,hwords,hfield]
  rfl

/-- Whatever the project holds and whatever options are accepted, a build has for every setting the value of the
last option for it, or else what the first settings file that is there has under it, or else its default; and
if that file cannot be used, the settings are those of a project that has no such file. -/
theorem perform_settings (s : Session) {read : YamlReader} (hyaml : s.yaml = some read)
    (hread : Settings.IsSteady read w.disk s.directory)
    (hwords : CommandLine.interpret words = .proceed given) (hinit : given.find? (.str "init") = none) :
    ∃ uses settings v, CommandLine.Spells words uses ∧ (s.settings given).go w = (.ok settings,v) ∧
      (s.perform words).run w =
        (.built ((s.buildWith settings).go v).1,((s.buildWith settings).go v).2) ∧
      (∀ key default, (Value.str key,default) ∈ Settings.defaults → settings.find? (.str key) =
        some (Settings.preferred uses (Settings.mappingIn? (some read) w.disk s.directory) key default)) ∧
      ∀ path, Settings.find? w.disk s.directory = some path →
        Settings.mappingAt? (some read) w.disk path = none →
        ∀ w' : World, Settings.find? w'.disk s.directory = none →
          ((s.settings given).go w').1 = .ok settings := by
  obtain ⟨uses,hspells,hgiven⟩ := CommandLine.interpret_eq_proceed_iff.mp hwords
  obtain ⟨ws,-,huses⟩ := id hspells
  have hsettings : ((s.settings given).go w).1 = .ok (Settings.overlay
      (Settings.defaults.update ((Settings.mappingIn? (some read) w.disk s.directory).getD [])) given) := by
    rw [go_settings,hyaml,Settings.outcome_eq_ok hread]
    rfl
  obtain ⟨⟨result,v⟩,hgo⟩ : ∃ p, (s.settings given).go w = p := ⟨_,rfl⟩
  obtain rfl : result = _ := (congrArg Prod.fst hgo).symm.trans hsettings
  refine ⟨uses,_,v,hspells,hgo,?_,?_,?_⟩
  · have hbuild : s.build given = s.settings given >>= s.buildWith := rfl
    rw [perform_of_proceed hwords hinit,hbuild,Run.go_bind,hgo]
  · intro key default hkey
    rw [hgiven]
    exact Settings.find?_overlay huses.values _ hkey
  · intro path hpath hunusable w' hnone
    have hfile : Settings.mappingIn? (some read) w.disk s.directory = none := by
      rw [Settings.mappingIn?,hpath,Option.bind_some,hunusable]
    have hempty : Settings.mappingIn? (some read) w'.disk s.directory = none := by
      rw [Settings.mappingIn?,hnone]
      rfl
    rw [go_settings,hyaml,Settings.outcome,hnone,hfile,hempty]
    rfl

/-- A project with two settings files. The first one turns the log off. -/
def layeredProject : World where
  disk :=
    { entries := [(["starblog.yml"],.file "output: site\nlogs:\n".toUTF8),
        (["starblog.json"],.file "\x7b\"content\":\"texts\"\x7d".toUTF8)]
      distinct := by decide }

/-- Where there is a reader of YAML. -/
def layeredSession : Session := { sampleSession with yaml := some Yaml.read }

def layeredOptions : Entries := [(.str "site_title",.str ""),(.str "minify",.bool true)]

theorem isSteady_layered : Settings.IsSteady Yaml.read layeredProject.disk layeredSession.directory := by
  have hreads : ∀ n ∈ Settings.fileNames,
      (layeredProject.disk.textAt (Path.join layeredSession.directory n)).toOption.all
        (fun text => (Yaml.read text).toOption.isSome) = true := by decide +kernel
  intro n hn text htext f hf
  have hread := hreads n hn
  rw [htext] at hread
  simp [Except.toOption,hf] at hread

theorem perform_settings_sample :
    (layeredSession.yaml = some Yaml.read ∧
      Settings.IsSteady Yaml.read layeredProject.disk layeredSession.directory ∧
      CommandLine.interpret ["--site-title","","--minify"] = .proceed layeredOptions ∧
      layeredOptions.find? (.str "init") = none) ∧
    ∃ settings v, (layeredSession.settings layeredOptions).go layeredProject = (.ok settings,v) ∧
      (layeredSession.perform ["--site-title","","--minify"]).run layeredProject =
        (.built ((layeredSession.buildWith settings).go v).1,((layeredSession.buildWith settings).go v).2) ∧
      settings.find? (.str "site_title") = some (.str "") ∧
      settings.find? (.str "logs") = some .null ∧
      settings.find? (.str "content") = some (.str "content") := by
  have hinterpret : CommandLine.interpret ["--site-title","","--minify"] = .proceed layeredOptions := rfl
  obtain ⟨uses,settings,v,hspells,hgo,hperform,hvalues,-⟩ :=
    layeredSession.perform_settings rfl isSteady_layered hinterpret rfl
  refine ⟨⟨rfl,isSteady_layered,hinterpret,rfl⟩,settings,v,hgo,hperform,?_⟩
  have huses : ∀ key, uses.reverse.lookup key = layeredOptions.last? key := by
    intro key
    have hgiven := hinterpret.symm.trans (CommandLine.interpret_eq_proceed_iff.mpr ⟨uses,hspells,rfl⟩)
    rw [CommandLine.Request.proceed.inj hgiven,CommandLine.last?_ofList_named]
  set file := Settings.mappingIn? (some Yaml.read) layeredProject.disk layeredSession.directory
  have hfile : ((file.bind (Entries.last? "logs")).any (· matches .null),
      (file.bind (Entries.last? "content")).isNone) = (true,true) := by decide +kernel
  obtain ⟨hnull,hnone⟩ := Prod.mk.inj hfile
  have hlogs : file.bind (Entries.last? "logs") = some .null := by
    obtain ⟨value,hvalue,hmatches⟩ := (Option.any_eq_true _ _).mp hnull
    rw [hvalue]
    cases value <;> first | rfl | cases hmatches
  have hcontent : file.bind (Entries.last? "content") = none := Option.isNone_iff_eq_none.mp hnone
  refine ⟨?_,?_,?_⟩
  · rw [hvalues "site_title" (.str "スプリング☆ユニバース") (by simp [Settings.defaults]),Settings.preferred,
      huses]
    rfl
  · rw [hvalues "logs" (.str "logs") (by simp [Settings.defaults]),Settings.preferred,huses,hlogs]
    rfl
  · rw [hvalues "content" (.str "content") (by simp [Settings.defaults]),Settings.preferred,huses,hcontent]
    rfl

end Session

end BlogSite
