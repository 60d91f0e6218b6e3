import BlogSite.Proofs.PathTrails
import BlogSite.Proofs.RunOutcomes

/-!
Writing files and making directories, under any path. Where a path leads depends on directories alone,
and a file never takes the place of one: so a path that leads somewhere still leads there after a file is
written, and what could be written once can be written again. What is above the location of a path is a
directory, so that these operations keep trees.
-/

namespace BlogSite

namespace Disk

variable {d d' : Disk} {p : String} {l at_ : Location}

/-- The location of a file that can be written under a path. -/
def WritesAt (d : Disk) (p : String) (l : Location) : Prop :=
  d.locate p = .ok l ∧ d.entry? l ≠ some .directory

/-- A walk goes on in a tree with more directories. -/
theorem walk_of_directories
    (h : ∀ k, d.entry? k = some .directory → d'.entry? k = some .directory) {here : Location}
    {ns : List String} (hwalk : d.walk here ns = .ok l) : d'.walk here ns = .ok l := by
  induction ns generalizing here with
  | nil => exact hwalk
  | cons n ns ih =>
    rw [walk_cons_eq_ok_iff] at hwalk ⊢
    obtain ⟨hhere,hshort,hnext⟩ := hwalk
    exact ⟨h here hhere,hshort,hnext.imp (.imp_right ih) (.imp (.imp_right ih) (.imp_right ih))⟩

theorem locate_of_directories
    (h : ∀ k, d.entry? k = some .directory → d'.entry? k = some .directory)
    (hlocate : d.locate p = .ok l) : d'.locate p = .ok l := by
  unfold locate at hlocate ⊢
  split_ifs at hlocate ⊢
  exact walk_of_directories h hlocate

theorem ne_nil_of_not_directory (hat : d.entry? at_ ≠ some .directory) : at_ ≠ [] :=
  ne_nil_of_entry_ne rfl hat

/-- A new file hides no directory. -/
theorem directory_put_file (hat : d.entry? at_ ≠ some .directory) (bytes : ByteArray)
    {k : Location} (hk : d.entry? k = some .directory) :
    Disk.entry? (d.put at_ (.file bytes)) k = some .directory := by
  rw [entry?_put (ne_nil_of_not_directory hat),if_neg]
  · exact hk
  · rintro rfl
    exact hat hk

theorem locate_put_file (hat : d.entry? at_ ≠ some .directory) (bytes : ByteArray)
    (hlocate : d.locate p = .ok l) : Disk.locate (d.put at_ (.file bytes)) p = .ok l :=
  locate_of_directories (fun _ => directory_put_file hat bytes) hlocate

theorem write_eq_ok_iff {bytes : ByteArray} :
    d.write p bytes = .ok d' ↔ ∃ l, d.WritesAt p l ∧ d' = d.put l (.file bytes) := by
  constructor
  · intro h
    obtain ⟨l,hlocate,hne,hd'⟩ := write_eq_ok h
    exact ⟨l,⟨hlocate,hne⟩,hd'⟩
  · rintro ⟨l,⟨hlocate,hne⟩,rfl⟩
    simp only [write,hlocate,bind,Except.bind]

theorem WritesAt.write (h : d.WritesAt p l) (bytes : ByteArray) :
    d.write p bytes = .ok (d.put l (.file bytes)) :=
  write_eq_ok_iff.mpr ⟨l,h,rfl⟩

/-- A file that is written leaves every other file as it was. -/
theorem WritesAt.entry?_put (h : d.WritesAt p l) (bytes : ByteArray) (k : Location) :
    Disk.entry? (d.put l (.file bytes)) k = if k = l then some (.file bytes) else d.entry? k :=
  Disk.entry?_put (ne_nil_of_not_directory h.2) _ k

/-- What can be written can be written after any file is written. -/
theorem WritesAt.put_file (h : d.WritesAt p l) (hat : d.entry? at_ ≠ some .directory)
    (bytes : ByteArray) : Disk.WritesAt (d.put at_ (.file bytes)) p l := by
  refine ⟨locate_put_file hat bytes h.1,?_⟩
  rw [Disk.entry?_put (ne_nil_of_not_directory hat)]
  split
  · simp
  · exact h.2

/-! ### Trees -/

/-- All that is above the end of a walk are directories, if this is so at its start. -/
theorem above_of_walk {here : Location} {ns : List String}
    (hhere : ∀ a b, b ≠ [] → here = a ++ b → d.entry? a = some .directory)
    (h : d.walk here ns = .ok l) {a b : Location} (hb : b ≠ []) (hl : l = a ++ b) :
    d.entry? a = some .directory := by
  induction ns generalizing here with
  | nil => exact hhere a b hb ((Except.ok.inj h).trans hl)
  | cons n ns ih =>
    obtain ⟨hentry,-,⟨-,h⟩ | ⟨-,h⟩ | ⟨-,h⟩⟩ := walk_cons_eq_ok_iff.mp h
    · exact ih hhere h
    · refine ih (fun a' b' hb' hup => ?_) h
      -- A step back leads to where something is above as well.
      rcases List.eq_nil_or_concat here with rfl | ⟨up,last,rfl⟩
      · exact absurd (List.append_eq_nil_iff.mp hup.symm).2 hb'
      · refine hhere a' (b' ++ [last]) (by simp) ?_
        rw [List.concat_eq_append] at hup ⊢
        rw [← List.append_assoc,← hup,List.dropLast_concat]
    · refine ih (fun a' b' hb' hdown => ?_) h
      rcases List.eq_nil_or_concat b' with rfl | ⟨rest,last,rfl⟩
      · exact absurd rfl hb'
      · rw [List.concat_eq_append,← List.append_assoc] at hdown
        obtain ⟨rfl,-⟩ := List.append_inj' hdown rfl
        by_cases hrest : rest = []
        · simpa [hrest] using hentry
        · exact hhere a' rest hrest rfl

/-- The last name of a location that a path leads to is in a directory. -/
theorem directory_of_locate (h : d.locate p = .ok l) {k : Location} {n : String}
    (hl : l = k ++ [n]) : d.entry? k = some .directory := by
  unfold locate at h
  split_ifs at h
  refine above_of_walk (fun a b hb hnil => ?_) h (by simp) hl
  exact absurd (List.append_eq_nil_iff.mp hnil.symm).2 hb

theorem IsTree.put_located (h : d.IsTree) (hl : d.locate p = .ok l) (hne : l ≠ []) {e : Entry}
    (hkeep : e = .directory ∨ d.entry? l ≠ some .directory) : (d.put l e).IsTree := by
  obtain ⟨-,hnames⟩ := eq_place_of_locate hl
  rcases List.eq_nil_or_concat l with rfl | ⟨k,n,rfl⟩
  · exact absurd rfl hne
  · rw [List.concat_eq_append] at *
    exact h.put (directory_of_locate hl rfl) (hnames n (by simp)) hkeep

/-- Writing a file under any path keeps a tree. -/
theorem IsTree.of_write (h : d.IsTree) {bytes : ByteArray} (hw : d.write p bytes = .ok d') :
    d'.IsTree := by
  obtain ⟨l,⟨hl,hne⟩,rfl⟩ := write_eq_ok_iff.mp hw
  exact h.put_located hl (ne_nil_of_not_directory hne) (Or.inr hne)

theorem IsTree.of_makeDirectory (h : d.IsTree) (hm : d.makeDirectory p = .ok d') : d'.IsTree := by
  obtain ⟨l,hl,hnone,rfl⟩ := makeDirectory_eq_ok hm
  exact h.put_located hl (ne_nil_of_entry_ne hnone (by simp)) (Or.inl rfl)

theorem IsTree.of_makeDirectoriesFrom (h : d.IsTree) (ns : List String) :
    (d.makeDirectoriesFrom ns).2.IsTree := by
  induction ns with
  | nil => exact h
  | cons n up ih =>
    obtain ⟨⟨r,d'⟩,hr,hd'⟩ : ∃ x : Except DiskFault Unit × Disk,
        (if d.isThere ("/" ++ Path.ofNames up.reverse) then (Except.ok (),d)
          else d.makeDirectoriesFrom up) = x ∧ x.2.IsTree := by
      split
      · exact ⟨_,rfl,h⟩
      · exact ⟨_,rfl,ih⟩
    simp only [makeDirectoriesFrom,hr]
    cases r with
    | error f => exact hd'
    | ok _ =>
      simp only
      split
      · exact hd'
      · cases hmade : d'.makeDirectory ("/" ++ Path.ofNames (n :: up).reverse) with
        | ok d'' => exact hd'.of_makeDirectory hmade
        | error f =>
          simp only
          split <;> exact hd'

theorem IsTree.of_makeDirectories (h : d.IsTree) (p : String) : (d.makeDirectories p).2.IsTree :=
  h.of_makeDirectoriesFrom _

end Disk

namespace Run

variable {w : World} {p : String} {l : Location}

theorem go_writeText (h : w.disk.WritesAt p l) (text : String) :
    (writeText p text).go w = (.ok (),{ w with disk := w.disk.put l (.file text.toUTF8) }) := by
  rw [writeText,go_alter,h.write]

/-- A text is written, or nothing changes. -/
theorem go_writeText_cases (w : World) (p text : String) :
    (∃ l, w.disk.WritesAt p l ∧ (writeText p text).go w =
      (.ok (),{ w with disk := w.disk.put l (.file text.toUTF8) })) ∨
    (∀ l, ¬ w.disk.WritesAt p l) ∧ ∃ f, (writeText p text).go w = (.error (.disk f),w) := by
  cases hwrite : w.disk.write p text.toUTF8 with
  | ok d =>
    obtain ⟨l,hl,rfl⟩ := Disk.write_eq_ok_iff.mp hwrite
    exact Or.inl ⟨l,hl,go_writeText hl text⟩
  | error f =>
    refine Or.inr ⟨fun l hl => ?_,f,by rw [writeText,go_alter,hwrite]⟩
    rw [hl.write] at hwrite
    exact absurd hwrite (by simp)

end Run

end BlogSite
