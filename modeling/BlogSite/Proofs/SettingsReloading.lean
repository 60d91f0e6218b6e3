import BlogSite.Proofs.ProjectStarting
import BlogSite.Proofs.SettingsFiles
import BlogSite.Yaml.Document

/-!
Settings that are kept while the files of the project change. Loading them again writes what the settings file
holds now over what earlier loads left, so that a setting whose entry is gone stays as it was, and so does the
name of a file that is gone.
-/

namespace BlogSite

namespace Settings

/-- What can happen while settings are kept: the files become other ones, or the settings are loaded. -/
inductive Event
  | change (d : Disk)
  | load

/-- What an event makes of settings and of the world they are loaded in. -/
def step (yaml : Option YamlReader) (here : String) (p : Settings × World) : Event → Settings × World
  | .change d => (p.1,{ p.2 with disk := d })
  | .load => (((p.1.load yaml here).run p.2).1.1,((p.1.load yaml here).run p.2).2)

/-- What a history of events makes of them. -/
def follow (yaml : Option YamlReader) (here : String) (p : Settings × World) (history : List Event) :
    Settings × World :=
  history.foldl (step yaml here) p

/-- The trees in which a history loads the settings, from the tree that is there at first on. -/
def looks : Disk → List Event → List Disk
  | _,[] => []
  | _,.change d :: history => looks d history
  | d,.load :: history => d :: looks d history

/-- The entries that settings files hold in several trees, one tree after the other. -/
def gathered (yaml : Option YamlReader) (directory : String) (ds : List Disk) : Entries :=
  ds.flatMap fun d => (mappingIn? yaml d directory).getD []

/-- Loading settings that are kept does what loading new ones does: it gives the same value for every setting,
as a text names it, remembers the same file and ends alike. -/
structure IsFresh (again anew : Settings × Except Failure Unit) : Prop where
  outcome : again.2 = anew.2
  values : ∀ key, again.1.values.find? (.str key) = anew.1.values.find? (.str key)
  file : again.1.file = anew.1.file

/-- Kept settings are those at first with all the entries that were found since; the file is the last one
that was found. -/
structure Holds (yaml : Option YamlReader) (s : Settings) (ds : List Disk) (t : Settings) : Prop where
  directory : t.directory = s.directory
  values : t.values = s.values.update (gathered yaml s.directory ds)
  file : t.file = (ds.reverse.findSome? (find? · s.directory)).or s.file

variable {yaml : Option YamlReader} {here : String}

theorem Holds.refl (yaml : Option YamlReader) (s : Settings) : Holds yaml s [] s := ⟨rfl,rfl,rfl⟩

theorem gathered_append (directory : String) (ds es : List Disk) :
    gathered yaml directory (ds ++ es) = gathered yaml directory ds ++ gathered yaml directory es :=
  List.flatMap_append

/-- A load adds what it finds. -/
theorem Holds.visited {s t : Settings} {ds : List Disk} (h : Holds yaml s ds t) (d : Disk) :
    Holds yaml s (ds ++ [d]) (t.visited yaml d) where
  directory := h.directory
  values := by
    rw [gathered_append,Entries.update_append,← h.values,← h.directory,gathered,List.flatMap_singleton]
    rfl
  file := by
    rw [Settings.visited,h.file,h.directory,List.reverse_append]
    cases hfind : find? d s.directory <;> simp [hfind]

theorem holds_follow {s : Settings} {ds : List Disk} {p : Settings × World} (h : Holds yaml s ds p.1)
    (history : List Event) :
    Holds yaml s (ds ++ looks p.2.disk history) (follow yaml here p history).1 := by
  induction history generalizing ds p with
  | nil =>
    rw [looks,List.append_nil]
    exact h
  | cons e history ih =>
    cases e with
    | change d => exact ih (p := step yaml here p (.change d)) h
    | load =>
      obtain ⟨hload,hdisk⟩ := p.1.load_eq yaml here p.2
      have hstep : Holds yaml s (ds ++ [p.2.disk]) (step yaml here p .load).1 := by
        rw [step,hload]
        exact h.visited p.2.disk
      have hrest := ih hstep
      -- A load changes no file, so the history goes on from the same tree.
      rw [List.append_assoc,show (step yaml here p .load).2.disk = p.2.disk from hdisk] at hrest
      exact hrest

/-- After any history, loading the settings again gives the defaults, with what the settings files held at the
earlier loads written over them and what is there now written over that. It does what loading new settings does
just when no earlier load found another value than the default for a setting that the file does not have now,
and when there is a file now if any earlier load found one. -/
theorem load_isFresh_iff (yaml : Option YamlReader) (directory here : String) (w : World)
    (history : List Event) :
    let kept := follow yaml here ({ directory := directory },w) history
    let again := ((kept.1.load yaml here).run kept.2).1
    let anew := ((load { directory := directory } yaml here).run kept.2).1
    let earlier := gathered yaml directory (looks w.disk history)
    let now := gathered yaml directory [kept.2.disk]
    again.1.values = (defaults.update earlier).update now ∧ anew.1.values = defaults.update now ∧
      (IsFresh again anew ↔
        (∀ key value, earlier.last? key = some value → now.last? key = none →
          defaults.find? (.str key) = some value) ∧
        ((find? kept.2.disk directory).isSome ∨
          ∀ d ∈ looks w.disk history, find? d directory = none)) := by
  intro kept again anew earlier now
  have hkept : Holds yaml { directory := directory } (looks w.disk history) kept.1 :=
    holds_follow (p := ({ directory := directory },w)) (.refl yaml _) history
  obtain ⟨hload,hload'⟩ : again = (kept.1.visited yaml kept.2.disk,_) ∧
      anew = (visited { directory := directory } yaml kept.2.disk,_) :=
    ⟨(kept.1.load_eq yaml here kept.2).1,(load_eq _ yaml here kept.2).1⟩
  have hagain : Holds yaml { directory := directory } (looks w.disk history ++ [kept.2.disk]) again.1 := by
    rw [hload]
    exact hkept.visited kept.2.disk
  have hanew : Holds yaml { directory := directory } [kept.2.disk] anew.1 := by
    rw [hload']
    exact (Holds.refl yaml _).visited kept.2.disk
  have houtcome : again.2 = anew.2 := by
    rw [hload,hload',hkept.directory]
  have hvalues : again.1.values = (defaults.update earlier).update now := by
    rw [hagain.values,gathered_append,Entries.update_append]
  have hfile : again.1.file = anew.1.file ↔ (find? kept.2.disk directory).isSome ∨
      ∀ d ∈ looks w.disk history, find? d directory = none := by
    rw [hagain.file,hanew.file,List.reverse_append]
    cases hfind : find? kept.2.disk directory <;> simp [hfind]
  refine ⟨hvalues,hanew.values,?_⟩
  rw [← Entries.find?_update_update_iff,← hvalues,← hanew.values,← hfile]
  exact ⟨fun h => ⟨h.values,h.file⟩,fun ⟨h,h'⟩ => ⟨houtcome,h,h'⟩⟩

/-- A settings file that is loaded and then removed still counts when the settings are loaded again. -/
theorem load_removedFile :
    let kept := follow (some Yaml.read) "/" ({ directory := "/" },Session.sampleProject)
      [.load,.change (Session.sampleProject.disk.prune ["starblog.yml"])]
    let again := ((kept.1.load (some Yaml.read) "/").run kept.2).1
    let anew := ((load { directory := "/" } (some Yaml.read) "/").run kept.2).1
    again.1.values.find? (.str "site_title") = some (.str "Mine") ∧
      anew.1.values.find? (.str "site_title") = some (.str "スプリング☆ユニバース") ∧
      again.1.file = some "/starblog.yml" ∧ anew.1.file = none ∧ ¬ IsFresh again anew := by
  intro kept again anew
  have hagain : (again.1.values.find? (.str "site_title")).any (·.same (.str "Mine")) = true := by
    decide +kernel
  have hfile : again.1.file = some "/starblog.yml" := by decide +kernel
  have hfile' : anew.1.file = none := by decide +kernel
  obtain ⟨title,htitle,hmine⟩ := (Option.any_eq_true _ _).mp hagain
  rw [Value.same_str_iff] at hmine
  refine ⟨htitle.trans (congrArg some hmine),rfl,hfile,hfile',fun h => ?_⟩
  exact absurd (h.file.symm.trans hfile) (by simp [hfile'])

end Settings

end BlogSite
