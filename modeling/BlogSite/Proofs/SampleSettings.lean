import BlogSite.Proofs.FileWriting
import BlogSite.Proofs.ProjectStarting

/-!
Writing the settings file of a new project, for any format that is asked for and on any file tree.
The file is opened, which empties it, before the format is looked at: with a format that is known the
step is all or nothing; with any other it fails and leaves an empty file behind.
-/

namespace BlogSite.Settings

variable {directory format : String} {w : World}

theorem writeSample_eq (directory format : String) : writeSample directory format =
    Run.writeText (samplePath directory format) "" >>= fun _ =>
      match sample? format with
      | none => throw (.invalidSettings (.unsupportedFormat format))
      | some text => Run.writeText (samplePath directory format) text >>= fun _ =>
        pure (samplePath directory format) := rfl

/-- A path that cannot be written fails before anything is changed. -/
theorem go_writeSample_of_not_writesAt
    (hnone : ∀ l, ¬ w.disk.WritesAt (samplePath directory format) l) :
    ∃ f, (writeSample directory format).go w = (.error (.disk f),w) := by
  rcases Run.go_writeText_cases w (samplePath directory format) "" with ⟨l,hl,-⟩ | ⟨-,f,hf⟩
  · exact absurd hl (hnone l)
  · exact ⟨f,by rw [writeSample_eq,Run.go_bind,hf]⟩

/-- With a known format the file is written a second time, with its text. -/
theorem go_writeSample_of_sample {text : String} {l : Location} (htext : sample? format = some text)
    (hl : w.disk.WritesAt (samplePath directory format) l) :
    (writeSample directory format).go w = (.ok (samplePath directory format),
      { w with disk := (w.disk.put l (.file "".toUTF8)).put l (.file text.toUTF8) }) := by
  have hagain := hl.put_file hl.2 "".toUTF8
  rw [writeSample_eq,Run.go_bind,Run.go_writeText hl]
  simp only [htext]
  rw [Run.go_bind,Run.go_writeText hagain]
  rfl

/-- With an unknown format the file has been emptied when the step fails. -/
theorem go_writeSample_of_none {l : Location} (hnone : sample? format = none)
    (hl : w.disk.WritesAt (samplePath directory format) l) :
    (writeSample directory format).go w = (.error (.invalidSettings (.unsupportedFormat format)),
      { w with disk := w.disk.put l (.file "".toUTF8) }) := by
  rw [writeSample_eq,Run.go_bind,Run.go_writeText hl]
  simp only [hnone,Run.go_throw]

/-- The step is all or nothing: it returns the path of the settings file, and the one change is the
file there with the whole text of its format; or it fails and nothing is changed. -/
def WritesAllOrNothing (directory format : String) (w : World) : Prop :=
  (writeSample directory format).Meets w
    (fun path v => path = samplePath directory format ∧ ∃ l text, w.disk.locate path = .ok l ∧
      sample? format = some text ∧
      ∀ k, v.disk.entry? k = if k = l then some (.file text.toUTF8) else w.disk.entry? k)
    fun _ v => ∀ k, v.disk.entry? k = w.disk.entry? k

theorem writesAllOrNothing_of_not_writesAt
    (hnone : ∀ l, ¬ w.disk.WritesAt (samplePath directory format) l) :
    WritesAllOrNothing directory format w := by
  obtain ⟨f,hf⟩ := go_writeSample_of_not_writesAt hnone
  exact (Run.meets_of_go_error hf).mpr fun _ => rfl

theorem writesAllOrNothing_of_sample {text : String} (htext : sample? format = some text) :
    WritesAllOrNothing directory format w := by
  by_cases hnone : ∀ l, ¬ w.disk.WritesAt (samplePath directory format) l
  · exact writesAllOrNothing_of_not_writesAt hnone
  · obtain ⟨l,hl⟩ : ∃ l, w.disk.WritesAt (samplePath directory format) l := by simpa using hnone
    have hagain := hl.put_file hl.2 "".toUTF8
    refine (Run.meets_of_go_ok (go_writeSample_of_sample htext hl)).mpr
      ⟨rfl,l,text,hl.1,htext,fun k => ?_⟩
    rw [hagain.entry?_put,hl.entry?_put]
    split <;> rfl

theorem writesAllOrNothing_iff_of_none {l : Location} (hnone : sample? format = none)
    (hl : w.disk.WritesAt (samplePath directory format) l) :
    WritesAllOrNothing directory format w ↔ w.disk.entry? l = some (.file "".toUTF8) := by
  refine (Run.meets_of_go_error (go_writeSample_of_none hnone hl)).trans ?_
  constructor
  · intro hkept
    rw [← hkept l]
    exact (hl.entry?_put _ l).trans (if_pos rfl)
  · intro hempty k
    refine (hl.entry?_put _ k).trans ?_
    split
    · rename_i hk
      rw [hk,hempty]
    · rfl

/-- On any file tree the step is all or nothing for the formats that are known; for any other format
it is so only where no file can be written, or an empty one is there already. Elsewhere the step
fails because of the format, after it has put an empty file in place of what was there. -/
theorem writeSample_writesAllOrNothing_iff (directory format : String) (w : World) :
    (WritesAllOrNothing directory format w ↔ format ∈ ["yml","yaml","json"] ∨
      ∀ l, w.disk.WritesAt (samplePath directory format) l →
        w.disk.entry? l = some (.file "".toUTF8)) ∧
    (∀ l, format ∉ ["yml","yaml","json"] →
      w.disk.WritesAt (samplePath directory format) l →
      ((writeSample directory format).go w).1 = .error (.invalidSettings (.unsupportedFormat format)) ∧
      ∀ k, ((writeSample directory format).go w).2.disk.entry? k =
        if k = l then some (.file "".toUTF8) else w.disk.entry? k) := by
  rw [← sample?_isSome_iff]
  constructor
  · cases htext : sample? format with
    | some text => simpa using writesAllOrNothing_of_sample htext
    | none =>
      simp only [Option.isSome_none,Bool.false_eq_true,false_or]
      constructor
      · intro hall l hl
        exact (writesAllOrNothing_iff_of_none htext hl).mp hall
      · intro hempty
        by_cases hwrite : ∃ l, w.disk.WritesAt (samplePath directory format) l
        · obtain ⟨l,hl⟩ := hwrite
          exact (writesAllOrNothing_iff_of_none htext hl).mpr (hempty l hl)
        · exact writesAllOrNothing_of_not_writesAt fun l hl => hwrite ⟨l,hl⟩
  · intro l hformat hl
    have hnone : sample? format = none := by simpa using hformat
    rw [go_writeSample_of_none hnone hl]
    exact ⟨rfl,hl.entry?_put _⟩

/-- A project with a file under the name of a settings file in a format that is not known. -/
def otherFormatProject : World where
  disk := ⟨[(["starblog.toml"],.file "mine".toUTF8)],by decide⟩

/-- The file is lost though the step fails. -/
theorem not_writesAllOrNothing_toml : ¬ WritesAllOrNothing "/" "toml" otherFormatProject := by
  have hwrites : otherFormatProject.disk.WritesAt (samplePath "/" "toml") ["starblog.toml"] := by
    refine ⟨?_,by decide⟩
    decide +kernel
  have hnone : sample? "toml" = none := by decide
  rw [writesAllOrNothing_iff_of_none hnone hwrites]
  decide

end BlogSite.Settings
