import BlogSite.Proofs.OutputReset
import Mathlib.Logic.Function.Basic

/-!
Stages of a build. Between its steps the output directory holds exactly the files written so far, and
apart from it nothing but the log file has changed since the build started.
-/

namespace BlogSite

/-- The files below a location, by their ways from there. -/
abbrev Files := Location → Option ByteArray

theorem Location.Apart.not_prefix {l k m : Location} (h : Location.Apart l k) (hl : l <+: m) :
    ¬ k <+: m := by
  intro hk
  rcases List.prefix_or_prefix_of_prefix hl hk with hlk | hkl
  · exact h.1 hlk
  · exact h.2 hkl

theorem Location.Apart.append {l k : Location} (h : Location.Apart l k) (r : Location) :
    Location.Apart (l ++ r) k :=
  ⟨fun hup => h.1 ((List.prefix_append l r).trans hup),h.not_prefix (List.prefix_append l r)⟩

namespace Site

/-- The output directory holds the given files. Apart from it the world is the given one, but for
lines in the log file. -/
structure Stage (s : Site) (base : World) (files : Files) (w : World) : Prop where
  sound : w.IsSound
  output : w.disk.entry? s.outputPlace = some .directory
  files : ∀ r, w.disk.bytesAt? (s.outputPlace ++ r) = files r
  kind : ∀ l, Location.Apart l s.outputPlace →
    Entry.SameKind (w.disk.entry? l) (base.disk.entry? l)
  entry : ∀ l, Location.Apart l s.outputPlace → ¬ base.LogAt l →
    w.disk.entry? l = base.disk.entry? l
  logFile : ∀ f, f ∈ w.logFile ↔ f ∈ base.logFile ∧ ¬ s.outputPlace <+: Path.place f.path

/-- The output directory holds some files, and apart from it the world is the given one. -/
def Kept (s : Site) (base w : World) : Prop := ∃ files, s.Stage base files w

variable {s : Site} {base w : World} {files : Files}

theorem Fresh.stage (h : s.Fresh base w) : s.Stage base (fun _ => none) w where
  sound := h.sound
  output := h.output
  files := by
    intro r
    cases r with
    | nil => exact Disk.bytesAt?_of_directory (by simpa using h.output)
    | cons n r =>
      rw [Disk.bytesAt?,h.empty (n :: r) (by simp)]
  kind := fun l hl => by rw [h.entry l hl]; rfl
  entry := fun l hl _ => h.entry l hl
  logFile := h.logFile

namespace Stage

theorem kept (h : s.Stage base files w) : s.Kept base w := ⟨files,h⟩

theorem not_logAt_output (h : s.Stage base files w) (r : Location) : ¬ w.LogAt (s.outputPlace ++ r) := by
  rintro ⟨f,hf,hplace⟩
  exact ((h.logFile f).mp hf).2 (hplace ▸ List.prefix_append _ r)

theorem logAt_base (h : s.Stage base files w) {l : Location} (hl : w.LogAt l) : base.LogAt l := by
  obtain ⟨f,hf,hplace⟩ := hl
  exact ⟨f,((h.logFile f).mp hf).1,hplace⟩

/-! ### Steps -/

theorem report (h : s.Stage base files w) (r : Log.Record) : s.Stage base files (w.report r) where
  sound := h.sound.report r
  output := by
    have hlog := h.not_logAt_output []
    rw [List.append_nil] at hlog
    rw [w.entry?_report r hlog]
    exact h.output
  files := by
    intro k
    rw [← h.files k]
    exact Disk.bytesAt?_congr (w.entry?_report r (h.not_logAt_output k))
  kind := fun l hl => (w.sameShape_report r l).trans (h.kind l hl)
  entry := by
    intro l hl hlog
    rw [w.entry?_report r fun hw => hlog (h.logAt_base hw)]
    exact h.entry l hl hlog
  logFile := h.logFile

theorem pages (h : s.Stage base files w) (pages : Array String) :
    s.Stage base files { w with pages } :=
  ⟨h.sound.withPages pages,h.output,h.files,h.kind,h.entry,h.logFile⟩

/-- Directories are made below the output directory. -/
theorem grow (h : s.Stage base files w) {r : Location} {d : Disk} (htree : d.IsTree)
    (hgrown : w.disk.GrownTo (s.outputPlace ++ r) d) :
    s.Stage base files { w with disk := d } := by
  have hsame : ∀ l, Location.Apart l s.outputPlace → d.entry? l = w.disk.entry? l := by
    intro l hl
    rcases hgrown l with he | ⟨-,-,hup⟩
    · exact he
    · exact absurd (List.prefix_append _ r) (hl.not_prefix hup)
  refine ⟨h.sound.withDisk htree ?_,?_,?_,?_,?_,h.logFile⟩
  · intro l hl
    obtain ⟨bytes,he⟩ := h.sound.logged l hl
    exact ⟨bytes,hgrown.file_iff.mpr he⟩
  · rcases hgrown s.outputPlace with he | ⟨-,hdir,-⟩
    · exact he.trans h.output
    · exact hdir
  · intro k
    rw [← h.files k]
    apply Option.ext
    intro bytes
    rw [Disk.bytesAt?_eq_some_iff,Disk.bytesAt?_eq_some_iff]
    exact hgrown.file_iff
  · intro l hl
    rw [hsame l hl]
    exact h.kind l hl
  · intro l hl hlog
    rw [hsame l hl]
    exact h.entry l hl hlog

/-- A file is written below the output directory. -/
theorem write (h : s.Stage base files w) {p : String} (hp : Path.IsDirect p) {r : Location}
    (hr : r ≠ []) (hplace : Path.place p = s.outputPlace ++ r) {bytes : ByteArray} {d : Disk}
    (hd : w.disk.write p bytes = .ok d) :
    s.Stage base (Function.update files r (some bytes)) { w with disk := d } := by
  obtain ⟨htree,hentry⟩ := h.sound.tree.write hp hd
  rw [hplace] at hentry
  have hsame : ∀ l, Location.Apart l s.outputPlace → d.entry? l = w.disk.entry? l := by
    intro l hl
    refine (hentry l).trans (if_neg ?_)
    rintro rfl
    exact hl.2 (List.prefix_append _ r)
  refine ⟨h.sound.withDisk htree ?_,?_,?_,?_,?_,h.logFile⟩
  · intro l hl
    obtain ⟨old,he⟩ := h.sound.logged l hl
    refine ⟨old,(hentry l).trans ((if_neg ?_).trans he)⟩
    rintro rfl
    exact h.not_logAt_output r hl
  · exact (hentry _).trans ((if_neg (by simpa using hr)).trans h.output)
  · intro k
    by_cases hk : k = r
    · subst hk
      rw [Function.update_self,Disk.bytesAt?_eq_some_iff]
      exact (hentry _).trans (if_pos rfl)
    · rw [Function.update_of_ne hk,← h.files k]
      exact Disk.bytesAt?_congr ((hentry _).trans (if_neg (by simpa using hk)))
  · intro l hl
    rw [hsame l hl]
    exact h.kind l hl
  · intro l hl hlog
    rw [hsame l hl]
    exact h.entry l hl hlog

end Stage

theorem Kept.report (h : s.Kept base w) (r : Log.Record) : s.Kept base (w.report r) :=
  h.imp fun _ hstage => hstage.report r

end Site

end BlogSite
