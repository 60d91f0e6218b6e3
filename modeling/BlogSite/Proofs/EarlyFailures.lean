import BlogSite.Proofs.ConfinedBuilds
import BlogSite.Proofs.SettingsPrecedence

/-!
Builds that fail before the site is touched. Five stages of the command can fail: the settings, the log,
the reader of YAML, the places that the settings name, and the build itself. Whichever it is, the command
ends with status 1 and never with a failure that it does not report; and before the last stage it has
changed no file but its own log file.
-/

namespace BlogSite

/-! ### The log file -/

/-- A name below any path leads one step down from its place. -/
theorem Path.place_join_step (base : String) {n : String} (hn : IsStep n) :
    place (join base n) = place base ++ [n] := by
  have hrelative : isAbsolute n = false :=
    not_isAbsolute_of_isStep (by simpa [names_of_noSlash hn.noSlash] using hn)
  have hwalked : place (join base n) = walked true (legs base ++ [n]) := by
    rw [place,← walked_legs,legs_join base hrelative,legs_of_isStep hn]
  rw [hwalked,walked_concat _ _ ⟨hn.ne_empty,hn.ne_dot,hn.ne_back⟩,walked_legs]
  rfl

theorem slash_notMem_toDigits (n : Nat) : '/' ∉ Nat.toDigits 10 n := fun h =>
  absurd (Nat.isDigit_of_mem_toDigits (b := 10) (by decide) (by decide) h) (by decide)

theorem Text.slash_notMem_padded (width n : Nat) : '/' ∉ padded width n := by
  simp [padded,slash_notMem_toDigits]

namespace Session

theorem noSlash_logName (m : Calendar.Moment) : '/' ∉ (logName m).toList := by
  have hyear := slash_notMem_toDigits m.date.year
  have hpadded := Text.slash_notMem_padded 2
  unfold logName
  simp only [String.toList_ofList]
  generalize Nat.toDigits 10 m.date.year = year at hyear
  simp only [List.mem_append,List.mem_cons,hpadded,hyear]
  decide

theorem isStep_logName (m : Calendar.Moment) : Path.IsStep (logName m) := by
  have hlong : 2 < (logName m).toList.length :=
    lt_of_lt_of_le (by decide) (suffix_logName m).length_le
  have hother : ∀ k : String, k.toList.length ≤ 2 → logName m ≠ k := by
    intro k hk heq
    rw [heq] at hlong
    omega
  exact ⟨hother "" (by decide),hother "." (by decide),hother ".." (by decide),noSlash_logName m⟩

/-- The directory that the log file of a build with these settings is in, if there is to be one. -/
def logPlace? (s : Session) (settings : Entries) : Option Location :=
  match settings.field "logs" with
  | .str directory =>
    if directory = "" then none else some (Path.place (Path.join s.directory directory))
  | _ => none

end Session

/-! ### Before anything is reported -/

/-- The lines that the console shows. -/
def World.consoleLines (w : World) : List String :=
  (w.log.toList.filter Log.Record.onConsole).map Log.Record.message

/-- A world that another leads to without a report: files differ in a region alone. -/
structure World.Silent (free : Location → Prop) (base w : World) : Prop where
  within : World.Within free (fun _ => True) base w
  log : w.log = base.log

section

variable {free : Location → Prop} {base : World}

theorem World.silent_base (h : base.disk.Named) (hlog : base.logFile = none) :
    World.Silent free base base :=
  ⟨⟨.refl h,by simp [World.LogAt,hlog]⟩,rfl⟩

namespace Run

theorem keeps_silent_makeDirectories (p : String) :
    (makeDirectories p).Keeps (World.Silent free base) := by
  intro w hw
  refine meets_of_world ?_
  rw [go_makeDirectories]
  exact ⟨hw.within.withDisk (hw.within.disk.makeDirectories fun _ _ => Or.inr trivial),hw.log⟩

theorem keeps_silent_writeText {p : String} (hp : free (Path.place p)) (text : String) :
    (writeText p text).Keeps (World.Silent free base) :=
  fun _ hw => meets_alter
    (fun _ hd => ⟨hw.within.withDisk (hw.within.disk.write hp hd),hw.log⟩) fun _ _ => hw

end Run

namespace Session

variable {s : Session}

/-- Opening the log changes no file but the log file. -/
theorem keeps_silent_openLog (hs : Path.isAbsolute s.directory = true) {directory : String}
    (hfree : free (Path.place (Path.join s.directory directory) ++ [logName s.now])) :
    (s.openLog directory).Keeps (World.Silent free base) := by
  have hplace : Path.place (Path.normalise
      (Path.join (Path.join s.directory directory) (logName s.now))) =
      Path.place (Path.join s.directory directory) ++ [logName s.now] := by
    rw [(Path.isDirect_normalise (Path.isAbsolute_join (Path.isAbsolute_join hs _) _)).2,
      Path.place_join_step _ (isStep_logName s.now)]
  rw [← hplace] at hfree
  simp only [openLog]
  generalize Path.normalise _ = path at hfree
  generalize logStamp s.now = stamp
  have hopened : (modify fun w : World => { w with logFile := some ⟨path,stamp⟩ } : Run Unit).Keeps
      (World.Silent free base) := by
    refine fun w hw => (Run.meets_modify _).mpr ⟨⟨hw.within.disk,?_⟩,hw.log⟩
    rintro l ⟨f,hf,rfl⟩
    obtain rfl := Option.some.inj hf
    exact hfree
  refine (Run.keeps_silent_makeDirectories _).bind fun _ => ?_
  refine Run.Keeps.bind (fun w hw => (Run.meets_ask _).mpr hw) fun isThere => ?_
  split
  · exact (Run.keeps_silent_writeText hfree "").bind fun _ => hopened
  · exact hopened

theorem keeps_silent_startLog (hs : Path.isAbsolute s.directory = true) {settings : Entries}
    (hfree : ∀ logs ∈ s.logPlace? settings, free (logs ++ [logName s.now])) :
    (s.startLog (settings.field "logs")).Keeps (World.Silent free base) := by
  unfold startLog
  unfold logPlace? at hfree
  split
  · exact Run.keeps_pure _
  · rename_i htruthy
    split
    · rename_i directory hlogs
      have hne : directory ≠ "" := by
        rintro rfl
        simp [hlogs,Value.truthy] at htruthy
      rw [hlogs] at hfree
      exact keeps_silent_openLog hs (hfree _ (by simp [hne]))
    · exact Run.keeps_throw _

end Session

end

/-- Loading settings prints one line at most, and changes nothing else. -/
theorem Settings.load_world (s : Settings) (yaml : Option YamlReader) (here : String) (w : World) :
    ((s.load yaml here).run w).2 = w ∨ ∃ line, ((s.load yaml here).run w).2 = w.print line := by
  cases hfind : find? w.disk s.directory with
  | none =>
    refine Or.inl ?_
    simp only [load,StateT.run_bind,StateT.run_get,pure_bind,hfind]
    rfl
  | some path =>
    simp only [load,StateT.run_bind,StateT.run_get,pure_bind,hfind,go_ofFile]
    cases reading yaml w.disk path with
    | error f =>
      simp only
      split
      · exact Or.inr ⟨_,rfl⟩
      · exact Or.inl rfl
    | ok es =>
      cases es with
      | nil => exact Or.inl rfl
      | cons e es => exact Or.inr ⟨_,rfl⟩

namespace Session

variable {s : Session} {given : Entries} {w : World}

theorem go_settings_world (s : Session) (given : Entries) (w : World) :
    ((s.settings given).go w).2 = w ∨ ∃ line, ((s.settings given).go w).2 = w.print line := by
  have hworld := Settings.load_world { directory := s.directory } s.yaml s.directory w
  obtain ⟨⟨⟨known,r⟩,v⟩,hload⟩ :
      ∃ p, Settings.load { directory := s.directory } s.yaml s.directory w = p := ⟨_,rfl⟩
  have hend : ((s.settings given).go w).2 = v := by
    unfold settings
    rw [Run.go_bind,Run.go_get]
    simp only [hload]
    cases r <;> rfl
  rw [hend]
  have hloaded : ((Settings.load { directory := s.directory } s.yaml s.directory).run w).2 = v :=
    congrArg Prod.snd hload
  rwa [hloaded] at hworld

/-! ### The stages of a build -/

/-- What a build is about when it fails. -/
inductive Stage where
  | settings
  | log
  | reader
  | places
  | site
deriving DecidableEq

/-- A build gets to a stage and fails there, which leaves a world. -/
inductive FailsAt (s : Session) (given : Entries) (w : World) : Stage → Failure → World → Prop
  | settings {f : Failure} {v : World} (h : (s.settings given).go w = (.error f,v)) :
    FailsAt s given w .settings f v
  | log {known : Entries} {u v : World} {f : Failure} (hknown : (s.settings given).go w = (.ok known,u))
      (h : (s.startLog (known.field "logs")).go u = (.error f,v)) : FailsAt s given w .log f v
  | reader {known : Entries} {u v : World} (hknown : (s.settings given).go w = (.ok known,u))
      (hlog : (s.startLog (known.field "logs")).go u = (.ok (),v)) (h : s.yaml = none) :
    FailsAt s given w .reader Settings.noYaml v
  | places {known : Entries} {u v : World} {read : YamlReader} {f : Failure}
      (hknown : (s.settings given).go w = (.ok known,u))
      (hlog : (s.startLog (known.field "logs")).go u = (.ok (),v)) (hread : s.yaml = some read)
      (h : SitePaths.ofSettings s.home s.directory known = .error f) : FailsAt s given w .places f v
  | site {known : Entries} {u u' v : World} {site : Site} {f : Failure}
      (hknown : (s.settings given).go w = (.ok known,u))
      (hlog : (s.startLog (known.field "logs")).go u = (.ok (),u')) (hsite : s.site known = .ok site)
      (h : site.build.go u' = (.error f,v)) : FailsAt s given w .site f v

theorem site_eq_error_iff {known : Entries} {f : Failure} : s.site known = .error f ↔
    s.yaml = none ∧ f = Settings.noYaml ∨
      (∃ read, s.yaml = some read) ∧ SitePaths.ofSettings s.home s.directory known = .error f := by
  unfold site
  cases hyaml : s.yaml with
  | none => simp [Settings.requireYaml,bind,Except.bind,eq_comm]
  | some read =>
    cases SitePaths.ofSettings s.home s.directory known <;>
      simp [Settings.requireYaml,bind,Except.bind,pure,Except.pure]

/-- A stage that fails is where the build stops. -/
theorem FailsAt.go_build {stage : Stage} {f : Failure} {v : World} (h : s.FailsAt given w stage f v) :
    (s.build given).go w = (.error f,v) := by
  have hbuild : s.build given = s.settings given >>= s.buildWith := rfl
  rw [hbuild,Run.go_bind]
  cases h with
  | settings h => rw [h]
  | log hknown h =>
    rw [hknown]
    simp only [buildWith,Run.go_bind,h]
  | @reader known _ _ hknown hlog h =>
    have hsite : s.site known = .error Settings.noYaml := site_eq_error_iff.mpr (Or.inl ⟨h,rfl⟩)
    rw [hknown]
    simp only [buildWith,Run.go_bind,hlog,Run.go_settle,hsite]
  | places hknown hlog hread h =>
    have hsite := site_eq_error_iff.mpr (Or.inr ⟨⟨_,hread⟩,h⟩)
    rw [hknown]
    simp only [buildWith,Run.go_bind,hlog,Run.go_settle,hsite]
  | site hknown hlog hsite h =>
    rw [hknown]
    simp only [buildWith,Run.go_bind,hlog,Run.go_settle,hsite,h]

/-- A build that fails does so at one of its stages. -/
theorem exists_failsAt {f : Failure} {v : World} (h : (s.build given).go w = (.error f,v)) :
    ∃ stage, s.FailsAt given w stage f v := by
  have hbuild : s.build given = s.settings given >>= s.buildWith := rfl
  rw [hbuild] at h
  rcases Run.cases_of_go_bind_error h with hsettings | ⟨known,u,hknown,h⟩
  · exact ⟨.settings,.settings hsettings⟩
  rcases Run.cases_of_go_bind_error h with hlog | ⟨⟨⟩,u',hlog,h⟩
  · exact ⟨.log,.log hknown hlog⟩
  rcases Run.cases_of_go_bind_error h with hsite | ⟨site,u'',hsite,h⟩
  · obtain ⟨hfailed,rfl⟩ := Prod.mk.inj hsite
    rcases site_eq_error_iff.mp hfailed with ⟨hnone,rfl⟩ | ⟨⟨read,hread⟩,hplaces⟩
    · exact ⟨.reader,.reader hknown hlog hnone⟩
    · exact ⟨.places,.places hknown hlog hread hplaces⟩
  · obtain ⟨hmade,rfl⟩ := Prod.mk.inj hsite
    rcases Run.cases_of_go_bind_error h with hgo | ⟨shelf,v',-,h⟩
    · exact ⟨.site,.site hknown hlog hmade hgo⟩
    · exact absurd (congrArg Prod.fst h) (by simp)

/-- A build fails just when one of its stages does. -/
theorem go_build_eq_error_iff {f : Failure} {v : World} :
    (s.build given).go w = (.error f,v) ↔ ∃ stage, s.FailsAt given w stage f v :=
  ⟨exists_failsAt,fun ⟨_,h⟩ => h.go_build⟩

/-! ### What is there after an early failure -/

/-- The settings of a build, if they can be had. -/
def known? (s : Session) (given : Entries) (d : Disk) : Option Entries :=
  ((s.settings given).go { disk := d }).1.toOption

/-- The directory that the build of a project has its log file in, if there is one. -/
def logsOf? (s : Session) (given : Entries) (d : Disk) : Option Location :=
  (s.known? given d).bind s.logPlace?

/-- The output directory of a project, if its settings name one. -/
def outputOf? (s : Session) (given : Entries) (d : Disk) : Option Location :=
  (s.known? given d).bind fun known =>
    (SitePaths.placeOf s.home s.directory known "output").toOption.map Path.place

/-- Where the log file of a build is. -/
def LogsAt (s : Session) (given : Entries) (d : Disk) (l : Location) : Prop :=
  ∃ logs ∈ s.logsOf? given d, l = logs ++ [logName s.now]

variable {d : Disk}

theorem known?_eq {known : Entries} {u : World}
    (h : (s.settings given).go { disk := d } = (.ok known,u)) : s.known? given d = some known := by
  rw [known?,h]
  rfl

/-- Whatever comes of the settings, nothing is reported while they are loaded. -/
theorem silent_settings (hd : d.Named) (free : Location → Prop) :
    World.Silent free { disk := d } ((s.settings given).go { disk := d }).2 := by
  have hbase : World.Silent free { disk := d } { disk := d } := World.silent_base hd rfl
  rcases s.go_settings_world given { disk := d } with h | ⟨line,h⟩
  · rw [h]
    exact hbase
  · rw [h]
    exact ⟨⟨hbase.within.disk,hbase.within.log⟩,rfl⟩

/-- Before the last stage a build reports nothing and changes no file but its log file. -/
theorem FailsAt.silent (hs : Path.isAbsolute s.directory = true) (hd : d.Named) {stage : Stage}
    {f : Failure} {v : World} (h : s.FailsAt given { disk := d } stage f v) (hearly : stage ≠ .site) :
    World.Silent (s.LogsAt given d) { disk := d } v := by
  have hsettings : World.Silent (s.LogsAt given d) { disk := d } ((s.settings given).go { disk := d }).2 :=
    s.silent_settings hd _
  have hlogged : ∀ known u, (s.settings given).go { disk := d } = (.ok known,u) →
      (s.startLog (known.field "logs")).Meets u (fun _ => World.Silent (s.LogsAt given d) { disk := d })
        fun _ => World.Silent (s.LogsAt given d) { disk := d } := by
    intro known u hknown
    rw [hknown] at hsettings
    refine keeps_silent_startLog hs (fun logs hlogs => ⟨logs,?_,rfl⟩) u hsettings
    rw [logsOf?,known?_eq hknown]
    exact hlogs
  cases h with
  | settings h =>
    rw [h] at hsettings
    exact hsettings
  | log hknown h => exact (hlogged _ _ hknown).failure _ _ h
  | reader hknown hlog h => exact (hlogged _ _ hknown).result _ _ hlog
  | places hknown hlog hread h => exact (hlogged _ _ hknown).result _ _ hlog
  | site => exact absurd rfl hearly

/-! ### How the command ends -/

/-- What changes between two trees is spared by a build that fails early: every file that is not in the
directory of its log, and every file of the output directory if the log is not in there. -/
structure SparesSite (s : Session) (given : Entries) (d d' : Disk) : Prop where
  outside : ∀ l, (∀ logs ∈ s.logsOf? given d, ¬ logs <+: l) → d'.bytesAt? l = d.bytesAt? l
  output : ∀ out ∈ s.outputOf? given d, (∀ logs ∈ s.logsOf? given d, ¬ out <+: logs) →
    ∀ r, r ≠ [] → d'.bytesAt? (out ++ r) = d.bytesAt? (out ++ r)

theorem sparesSite_of_within {upper : Location → Prop} {d' : Disk}
    (h : Disk.Within (s.LogsAt given d) upper d d') : s.SparesSite given d d' := by
  constructor
  · intro l hl
    refine h.bytesAt?_eq ?_
    rintro ⟨logs,hlogs,rfl⟩
    exact hl logs hlogs (List.prefix_append _ _)
  · intro out _ hout r hr
    refine h.bytesAt?_eq ?_
    rintro ⟨logs,hlogs,heq⟩
    -- The log file would be in the output directory, and so would the directory that it is in.
    refine hout logs hlogs (List.prefix_of_prefix_length_le (List.prefix_append out r)
      (heq ▸ List.prefix_append logs _) ?_)
    have hlen := congrArg List.length heq
    have hpos := List.length_pos_of_ne_nil hr
    simp at hlen
    omega

theorem run_of_proceed {words : List String} (elapsed : Nat)
    (hwords : CommandLine.interpret words = .proceed given)
    (hinit : given.find? (.str "init") = none) (w : World) :
    (s.run elapsed words).run w =
      (conclude elapsed (.built ((s.build given).go w).1)).run ((s.build given).go w).2 := by
  rw [run_run,perform_of_proceed hwords hinit]

/-- How a command ends that starts no project. -/
theorem ending_run_eq {words : List String} (elapsed : Nat) (w : World)
    (hinit : ∀ given, CommandLine.interpret words = .proceed given → given.find? (.str "init") = none) :
    ((s.run elapsed words).run w).1 = match CommandLine.interpret words with
      | .refused message => .refused message
      | .version | .help => .finished
      | .proceed given => match ((s.build given).go w).1 with
        | .ok _ => .finished
        | .error f => .failed f := by
  cases hwords : CommandLine.interpret words with
  | proceed given =>
    rw [run_of_proceed elapsed hwords (hinit given hwords)]
    simp only
    cases ((s.build given).go w).1 <;> rfl
  | _ =>
    rw [run_run]
    simp only [perform,hwords]
    rfl

theorem status_run_iff {words : List String} (elapsed : Nat) (w : World)
    (hinit : ∀ given, CommandLine.interpret words = .proceed given → given.find? (.str "init") = none) :
    ((s.run elapsed words).run w).1.status = 1 ↔ ∃ given stage f v,
      CommandLine.interpret words = .proceed given ∧ s.FailsAt given w stage f v := by
  rw [ending_run_eq elapsed w hinit]
  constructor
  · intro hstatus
    split at hstatus
    · exact absurd hstatus (by simp [Ending.status])
    · exact absurd hstatus (by simp [Ending.status])
    · exact absurd hstatus (by simp [Ending.status])
    · rename_i given hwords
      split at hstatus
      · exact absurd hstatus (by simp [Ending.status])
      · rename_i f hf
        obtain ⟨stage,hstage⟩ := exists_failsAt (v := ((s.build given).go w).2) (Prod.ext hf rfl)
        exact ⟨given,stage,f,_,hwords,hstage⟩
  · rintro ⟨given,stage,f,v,hwords,hstage⟩
    rw [hwords]
    simp only [hstage.go_build]
    rfl

/-- A build that fails before its last stage is reported once. -/
theorem run_of_failsAt {words : List String} (elapsed : Nat) (hs : Path.isAbsolute s.directory = true)
    (hd : d.Named) (hwords : CommandLine.interpret words = .proceed given)
    (hinit : given.find? (.str "init") = none) {stage : Stage} {f : Failure} {v : World}
    (h : s.FailsAt given { disk := d } stage f v) (hearly : stage ≠ .site) :
    ((s.run elapsed words).run { disk := d }).1 = .failed f ∧
      ((s.run elapsed words).run { disk := d }).2.consoleLines = ["Build failed: " ++ f.message] ∧
      s.SparesSite given d ((s.run elapsed words).run { disk := d }).2.disk := by
  have hsilent := h.silent hs hd hearly
  rw [run_of_proceed elapsed hwords hinit,h.go_build]
  refine ⟨rfl,?_,?_⟩
  · change World.consoleLines ((v.report _).report _) = _
    simp only [World.consoleLines,World.report,hsilent.log]
    rfl
  · exact sparesSite_of_within ((hsilent.within.report _).report _).disk

/-- A command that starts no project never ends with a failure that is not reported, and its status is 1
just when a stage of a build fails. If this is not the last stage, where the site is built, the failure
is all that the console shows, and every file outside of the directory of the log is as before, those of
the output directory included. -/
theorem run_sparesSite (s : Session) (hs : Path.isAbsolute s.directory = true) (elapsed : Nat)
    {words : List String}
    (hinit : ∀ given, CommandLine.interpret words = .proceed given → given.find? (.str "init") = none)
    {d : Disk} (hd : d.Named) : ∃ ending v, (s.run elapsed words).run { disk := d } = (ending,v) ∧
      ((∀ f, ending ≠ .broken f) ∧ (ending.status = 1 ↔ ∃ given stage f u,
        CommandLine.interpret words = .proceed given ∧ s.FailsAt given { disk := d } stage f u)) ∧
      ∀ given stage f u, CommandLine.interpret words = .proceed given →
        s.FailsAt given { disk := d } stage f u → stage ≠ .site →
        ending = .failed f ∧ ending.status = 1 ∧ v.consoleLines = ["Build failed: " ++ f.message] ∧
          s.SparesSite given d v.disk := by
  refine ⟨((s.run elapsed words).run { disk := d }).1,((s.run elapsed words).run { disk := d }).2,rfl,
    ⟨fun f => ?_,status_run_iff elapsed _ hinit⟩,?_⟩
  · rw [ending_run_eq elapsed _ hinit]
    split
    · exact nofun
    · exact nofun
    · exact nofun
    · split <;> exact nofun
  · intro given stage f u hwords hstage hearly
    obtain ⟨hending,hlines,hspared⟩ :=
      run_of_failsAt elapsed hs hd hwords (hinit given hwords) hstage hearly
    refine ⟨hending,?_,hlines,hspared⟩
    rw [hending]
    rfl

/-- A project that has been built, where there is no reader of YAML. -/
def builtProject : Disk where
  entries := [(["docs"],.directory),(["docs","index.html"],.file "Old".toUTF8)]
  distinct := by decide

theorem named_builtProject : builtProject.Named :=
  (Disk.isTree_of_entries (by decide)).named

/-- The log is open when the build finds that it has no reader. -/
theorem failsAt_builtProject : ∃ v,
    sampleSession.FailsAt [] { disk := builtProject } .reader Settings.noYaml v := by
  have hopened : ((sampleSession.settings [] >>= fun known =>
      sampleSession.startLog (known.field "logs")).go { disk := builtProject }).1.isOk = true := by
    decide +kernel
  obtain ⟨⟨⟩,v,hgo⟩ := Run.exists_go_of_isOk hopened
  obtain ⟨known,u,hknown,hlog⟩ := Run.exists_of_go_bind hgo
  exact ⟨v,.reader hknown hlog rfl⟩

theorem run_sparesSite_sample :
    (Path.isAbsolute sampleSession.directory = true ∧
      (∀ given, CommandLine.interpret [] = .proceed given → given.find? (.str "init") = none) ∧
      builtProject.Named ∧ sampleSession.logsOf? [] builtProject = some ["logs"] ∧
      sampleSession.outputOf? [] builtProject = some ["docs"]) ∧
    ∃ v, (sampleSession.run 0 []).run { disk := builtProject } = (.failed Settings.noYaml,v) ∧
      v.consoleLines = ["Build failed: " ++ Settings.noYaml.message] ∧
      v.disk.bytesAt? ["docs","index.html"] = some "Old".toUTF8 := by
  have hwords : CommandLine.interpret [] = .proceed [] := rfl
  have hinit : ∀ given, CommandLine.interpret [] = .proceed given → given.find? (.str "init") = none := by
    intro given hgiven
    obtain rfl := CommandLine.Request.proceed.inj (hwords.symm.trans hgiven)
    rfl
  have hlogs : sampleSession.logsOf? [] builtProject = some ["logs"] := by decide +kernel
  have hout : sampleSession.outputOf? [] builtProject = some ["docs"] := by decide +kernel
  obtain ⟨u,hstage⟩ := failsAt_builtProject
  obtain ⟨ending,v,hrun,-,hearly⟩ :=
    run_sparesSite sampleSession (by decide) 0 hinit named_builtProject
  obtain ⟨rfl,-,hlines,hspared⟩ := hearly [] .reader _ u hwords hstage (by decide)
  refine ⟨⟨by decide,hinit,named_builtProject,hlogs,hout⟩,v,hrun,hlines,?_⟩
  have hkept := hspared.output ["docs"] hout (fun logs hmem => ?_) ["index.html"] (by simp)
  · exact hkept.trans rfl
  · obtain rfl := Option.some.inj (hlogs.symm.trans hmem)
    decide

end Session

end BlogSite
