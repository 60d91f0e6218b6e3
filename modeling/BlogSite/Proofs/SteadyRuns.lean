import BlogSite.Build
import BlogSite.Proofs.DiskAgreement
import BlogSite.Proofs.RunOutcomes

/-!
Runs from two worlds that are related. A steady run gives the same result or the same failure in both
and leaves worlds that are related; what is done step by step in steady steps is steady. The relation
that the steps of a build keep is that two worlds look alike: their file trees agree but for the bytes of
some files, and but for what is hidden from the build.
-/

namespace BlogSite

/-- Worlds with the same pages, whose file trees agree off a hidden region `Y` and but for the bytes of
some files `X`. They write to one log file, unless it is hidden. -/
structure World.Alike (Y X : Location → Prop) (w w' : World) : Prop where
  disk : w.disk.Agree Y X w'.disk
  logged : ∀ f ∈ w.logFile, Y (Path.place f.path) ∨ Path.Avoids f.path Y ∧ f ∈ w'.logFile
  logged' : ∀ f ∈ w'.logFile, Y (Path.place f.path) ∨ Path.Avoids f.path Y ∧ f ∈ w.logFile
  pages : w.pages = w'.pages

namespace World

variable {Y X : Location → Prop} {w w' : World}

/-- Where nothing is hidden, worlds that look alike have one log file. -/
theorem alike_of_logFile_eq (hdisk : w.disk.Agree Location.Nowhere X w'.disk)
    (hlog : w.logFile = w'.logFile) (hpages : w.pages = w'.pages) :
    w.Alike Location.Nowhere X w' :=
  ⟨hdisk,fun _ hf => Or.inr ⟨Path.avoids_nowhere _,hlog ▸ hf⟩,
    fun _ hf => Or.inr ⟨Path.avoids_nowhere _,hlog ▸ hf⟩,hpages⟩

theorem Alike.symm (h : w.Alike Y X w') : w'.Alike Y X w := ⟨h.disk.symm,h.logged',h.logged,h.pages.symm⟩

theorem Alike.withDisk (h : w.Alike Y X w') {d d' : Disk} (hd : d.Agree Y X d') :
    World.Alike Y X { w with disk := d } { w' with disk := d' } :=
  ⟨hd,h.logged,h.logged',h.pages⟩

end World

namespace Disk

variable {Y X : Location → Prop} {d d' : Disk}

/-- A line in the log file of both trees. -/
theorem Agree.appendLine (h : d.Agree Y X d') {f : LogFile} (hf : Path.Avoids f.path Y) (line : String) :
    (World.appendLine d f line).Agree Y X (World.appendLine d' f line) := by
  unfold World.appendLine Disk.read Disk.write
  rw [← h.locate_eq hf]
  cases hl : d.locate f.path with
  | error e => exact h
  | ok l =>
    have hY := not_of_locate hf hl
    simp only [bind,Except.bind]
    rcases h.entry_cases hY with ⟨he,he'⟩ | ⟨he,he'⟩ | ⟨b,b',he,he'⟩
    · simpa only [he,he'] using h
    · simpa only [he,he'] using h
    · simp only [he,he',Except.toOption,Option.getD]
      refine h.put_of_kind (Disk.ne_nil_of_entry_ne he (by simp)) rfl fun hx => ?_
      have hsame := h.entry l hY hx
      rw [he,he'] at hsame
      rw [Entry.file.inj (Option.some.inj hsame)]

/-- A line in a log file of one tree that is hidden, or whose bytes do not count. -/
theorem Agree.appendLine_left (h : d.Agree Y X d') {f : LogFile}
    (hf : Y (Path.place f.path) ∨ X (Path.place f.path)) (line : String) :
    (World.appendLine d f line).Agree Y X d' := by
  unfold World.appendLine Disk.read Disk.write
  cases hl : d.locate f.path with
  | error e => exact h
  | ok l =>
    obtain ⟨rfl,-⟩ := Disk.eq_place_of_locate hl
    simp only [bind,Except.bind]
    cases he : d.entry? (Path.place f.path) with
    | none => simpa only using h
    | some e =>
      cases e with
      | directory => simpa only using h
      | file old => exact h.put_left he hf _

end Disk

namespace World

variable {Y X : Location → Prop} {w w' : World}

/-- A report to one world alone, whose log file is hidden or does not count. -/
theorem Alike.report_left (h : w.Alike Y X w')
    (hlog : ∀ f ∈ w.logFile, Y (Path.place f.path) ∨ X (Path.place f.path)) (r : Log.Record) :
    (w.report r).Alike Y X w' := by
  refine ⟨?_,h.logged,h.logged',h.pages⟩
  unfold World.report
  cases hf : w.logFile with
  | none => exact h.disk
  | some f => exact h.disk.appendLine_left (hlog f hf) _

/-- The same report to both worlds. -/
theorem Alike.report (h : w.Alike Y X w') (r : Log.Record) : (w.report r).Alike Y X (w'.report r) := by
  -- A hidden log file is told apart first: the other world may write to none or to another one.
  have hhidden : ∀ {v v' : World}, v.Alike Y X v' → (∀ f ∈ v.logFile, Y (Path.place f.path)) →
      (v.report r).Alike Y X v' := fun hv hY => hv.report_left (fun f hf => Or.inl (hY f hf)) r
  by_cases hboth : ∃ f ∈ w.logFile, Path.Avoids f.path Y ∧ f ∈ w'.logFile
  · obtain ⟨f,hf,havoids,hf'⟩ := hboth
    refine ⟨?_,h.logged,h.logged',h.pages⟩
    simp only [World.report,Option.mem_def.mp hf,Option.mem_def.mp hf']
    exact h.disk.appendLine havoids _
  · have hleft : ∀ f ∈ w.logFile, Y (Path.place f.path) := fun f hf =>
      (h.logged f hf).resolve_right fun hx => hboth ⟨f,hf,hx⟩
    have hright : ∀ f ∈ w'.logFile, Y (Path.place f.path) := fun f hf =>
      (h.logged' f hf).resolve_right fun hx => hboth ⟨f,hx.2,hx.1,hf⟩
    exact (hhidden (hhidden h hleft).symm hright).symm

end World

namespace Run

/-- A run that ends in the same way from worlds that are related, and leaves them related. -/
structure Steady {α : Type} (r : Run α) (R : World → World → Prop) : Prop where
  result : ∀ {w w' : World}, R w w' → (r.go w).1 = (r.go w').1
  world : ∀ {w w' : World}, R w w' → R (r.go w).2 (r.go w').2

variable {R : World → World → Prop} {Y X : Location → Prop} {α β : Type}

/-! ### Related worlds -/

theorem steady_of_go {r : Run α} (h : ∀ w w' : World, R w w' →
    (r.go w).1 = (r.go w').1 ∧ R (r.go w).2 (r.go w').2) : r.Steady R :=
  ⟨fun hw => (h _ _ hw).1,fun hw => (h _ _ hw).2⟩

theorem steady_pure (a : α) : (pure a : Run α).Steady R := ⟨fun _ => rfl,fun h => h⟩

theorem steady_throw (f : Failure) : (throw f : Run α).Steady R := ⟨fun _ => rfl,fun h => h⟩

theorem steady_settle (r : Except Failure α) : (settle r).Steady R := ⟨fun _ => rfl,fun h => h⟩

/-- What follows a step has to be steady only after the results that the step can give. -/
theorem Steady.bind_of {x : Run α} {k : α → Run β} (hx : x.Steady R)
    (hk : ∀ a w w', R w w' → (x.go w).1 = .ok a → (k a).Steady R) : (x >>= k).Steady R := by
  apply steady_of_go
  intro w w' h
  have hnext := fun a => hk a w w' h
  have hresult := hx.result h
  have hworld := hx.world h
  rw [go_bind,go_bind]
  generalize x.go w = p at hnext hresult hworld
  generalize x.go w' = p' at hresult hworld
  obtain ⟨r,v⟩ := p
  obtain ⟨r',v'⟩ := p'
  obtain rfl : r = r' := hresult
  cases r with
  | error f => exact ⟨rfl,hworld⟩
  | ok a => exact ⟨(hnext a rfl).result hworld,(hnext a rfl).world hworld⟩

theorem Steady.bind {x : Run α} {k : α → Run β} (hx : x.Steady R) (hk : ∀ a, (k a).Steady R) :
    (x >>= k).Steady R :=
  hx.bind_of fun a _ _ _ _ => hk a

theorem steady_modify {c : World → World} (h : ∀ w w' : World, R w w' → R (c w) (c w')) :
    (modify c : Run Unit).Steady R :=
  ⟨fun _ => rfl,fun hw => h _ _ hw⟩

theorem steady_ask {q : Disk → α} (h : ∀ w w' : World, R w w' → q w.disk = q w'.disk) :
    (ask q).Steady R := by
  apply steady_of_go
  intro w w' hw
  rw [go_ask,go_ask,h _ _ hw]
  exact ⟨rfl,hw⟩

theorem steady_fetch {q : Disk → Except DiskFault α}
    (h : ∀ w w' : World, R w w' → q w.disk = q w'.disk) : (fetch q).Steady R := by
  apply steady_of_go
  intro w w' hw
  rw [go_fetch,go_fetch,h _ _ hw]
  cases q w'.disk <;> exact ⟨rfl,hw⟩

/-- Only what is made of the answer has to be the same. -/
theorem steady_fetch_bind {γ : Type} {q : Disk → Except DiskFault α} {g : α → γ} {k : γ → Run β}
    (h : ∀ w w' : World, R w w' → (q w.disk).map g = (q w'.disk).map g)
    (hk : ∀ a w w', R w w' → q w.disk = .ok a → (k (g a)).Steady R) :
    (fetch q >>= fun a => k (g a)).Steady R := by
  have heq : (fetch q >>= fun a => k (g a)) = fetch (fun d => (q d).map g) >>= k := by
    funext w
    change (fetch q >>= fun a => k (g a)).go w = (fetch (fun d => (q d).map g) >>= k).go w
    rw [go_bind,go_bind,go_fetch,go_fetch]
    cases q w.disk <;> rfl
  rw [heq]
  refine (steady_fetch h).bind_of fun c w w' hw hc => ?_
  rw [go_fetch] at hc
  cases ha : q w.disk with
  | error f => simp [ha,Except.map] at hc
  | ok a =>
    obtain rfl : g a = c := by simpa [ha,Except.map] using hc
    exact hk a w w' hw ha

theorem steady_get_bind {γ : Type} {g : World → γ} {k : γ → Run β}
    (h : ∀ w w' : World, R w w' → g w = g w') (hk : ∀ c, (k c).Steady R) :
    (get >>= fun w => k (g w)).Steady R := by
  apply steady_of_go
  intro w w' hw
  rw [go_bind,go_bind,go_get,go_get]
  simp only
  rw [h w w' hw]
  exact ⟨(hk _).result hw,(hk _).world hw⟩

theorem steady_forM {γ : Type} {xs : List γ} {step : γ → Run Unit}
    (h : ∀ x ∈ xs, (step x).Steady R) : (xs.forM step).Steady R := by
  induction xs with
  | nil => exact steady_pure ()
  | cons x xs ih => exact (h x (by simp)).bind fun _ => ih fun y hy => h y (by simp [hy])

/-! ### Worlds that look alike -/

theorem steady_alter {c : Disk → Except DiskFault Disk}
    (h : ∀ d d' : Disk, d.Agree Y X d' → Disk.Alike Y X (c d) (c d')) :
    (alter c).Steady (World.Alike Y X) := by
  apply steady_of_go
  intro w w' hw
  have hc := h _ _ hw.disk
  rw [go_alter,go_alter]
  generalize c w.disk = e at hc
  generalize c w'.disk = e' at hc
  cases hc with
  | error f => exact ⟨rfl,hw⟩
  | ok hd => exact ⟨rfl,hw.withDisk hd⟩

theorem steady_report (source : Log.Source) (level : Log.Level) (message : String) :
    (report source level message).Steady (World.Alike Y X) :=
  steady_modify fun _ _ hw => hw.report _

theorem steady_makeDirectories {p : String} (hp : Path.Avoids p Y) :
    (makeDirectories p).Steady (World.Alike Y X) := by
  apply steady_of_go
  intro w w' hw
  obtain ⟨hresult,hagree⟩ := hw.disk.makeDirectories hp
  rw [go_makeDirectories,go_makeDirectories,hresult]
  exact ⟨rfl,hw.withDisk hagree⟩

/-- A log file that goes with a directory goes in both worlds, unless it is hidden. -/
theorem steady_removeTree {p : String} (hp : Path.Avoids p Y) :
    (removeTree p).Steady (World.Alike Y X) := by
  refine (steady_alter fun _ _ h => h.removeTree hp).bind fun _ => steady_modify fun w w' hw => ?_
  have hkept : ∀ {v v' : World}, v.disk.Agree Y X v'.disk →
      (∀ f ∈ v.logFile, Y (Path.place f.path) ∨ Path.Avoids f.path Y ∧ f ∈ v'.logFile) →
      ∀ f ∈ v.logFile.filter (fun f => v.disk.isFile f.path),
        Y (Path.place f.path) ∨ Path.Avoids f.path Y ∧ f ∈ v'.logFile.filter fun f => v'.disk.isFile f.path := by
    intro v v' hdisk hlogged f hf
    obtain ⟨hmem,hfile⟩ := Option.filter_eq_some_iff.mp hf
    refine (hlogged f hmem).imp_right fun ⟨havoids,hmem'⟩ => ⟨havoids,?_⟩
    exact Option.filter_eq_some_iff.mpr ⟨hmem',hdisk.isFile_eq havoids ▸ hfile⟩
  exact ⟨hw.disk,hkept hw.disk hw.logged,hkept hw.disk.symm hw.logged',hw.pages⟩

theorem steady_writeText {p : String} (hp : Path.Avoids p Y) (text : String) :
    (writeText p text).Steady (World.Alike Y X) :=
  steady_alter fun _ _ h => h.write hp text.toUTF8

theorem steady_readText {p : String} (hp : Path.Avoids p Y)
    (hx : ∀ d : Disk, ∀ l, d.locate p = .ok l → ¬ X l) : (readText p).Steady (World.Alike Y X) := by
  apply steady_of_go
  intro w w' hw
  have htext : w.disk.textAt p = w'.disk.textAt p :=
    Disk.textAt_eq_of_read_eq (hw.disk.read_eq hp (hx w.disk))
  rw [go_readText,go_readText,htext]
  exact ⟨rfl,hw⟩

end Run

end BlogSite
