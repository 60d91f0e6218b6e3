import BlogSite.Command
import BlogSite.Proofs.DirectoryMaking
import BlogSite.Proofs.RunOutcomes

/-!
Starting a new project. The files that a project starts with are placed where nothing is, so whatever
file is there keeps its bytes; only the settings file is written anew each time.
-/

namespace BlogSite

namespace Disk

/-- Every file of a tree is in the other with the same bytes. -/
def Keeps (d d' : Disk) : Prop :=
  ∀ l bytes, d.entry? l = some (.file bytes) → d'.entry? l = some (.file bytes)

theorem Keeps.trans {d d' d'' : Disk} (h : d.Keeps d') (h' : d'.Keeps d'') : d.Keeps d'' :=
  fun l bytes hl => h' l bytes (h l bytes hl)

theorem GrownTo.keeps {d d' : Disk} {ns : Location} (h : d.GrownTo ns d') : d.Keeps d' :=
  fun _ _ hl => h.file_iff.mpr hl

end Disk

/-- A file tree with all the files of another. -/
structure Disk.Retains (d d' : Disk) : Prop where
  tree : d'.IsTree
  files : d.Keeps d'

namespace Starter

/-- The paths of the starter files lead down from the root of the project. -/
theorem isStep_of_mem_files : ∀ f ∈ files, ∀ n ∈ Path.names f.path, Path.IsStep n := by
  decide

theorem exists_concat_names (root : List String) (f : File) :
    ∃ l n, root ++ Path.names f.path = l ++ [n] := by
  rcases List.eq_nil_or_concat (Path.names f.path) with h | ⟨l,n,h⟩
  · exact absurd h (Path.names_ne_nil _)
  · exact ⟨root ++ l,n,by simp [h]⟩

theorem place_keeps {d : Disk} {root : String} (hroot : Path.IsDirect root) {f : File}
    (hf : f ∈ files) {w : World} (hw : d.Retains w.disk) :
    (place root f).Meets w (fun _ v => d.Retains v.disk) fun _ v => d.Retains v.disk := by
  obtain ⟨hpath,hplace⟩ := hroot.join (isStep_of_mem_files f hf)
  obtain ⟨l,n,hlast⟩ := exists_concat_names (Path.place root) f
  obtain ⟨hparent,-⟩ := hpath.parent (hplace.trans hlast)
  unfold place
  rw [Run.meets_bind,Run.meets_ask]
  split
  · exact (Run.meets_print _).mpr hw
  · rename_i hmissing
    have hnone : w.disk.entry? (Path.place (Path.join root f.path)) = none := by
      simpa [hw.tree.isThere_eq hpath] using hmissing
    have hgrown : ∀ r d', w.disk.MadeTo (Path.place (Path.parent (Path.join root f.path))) (r,d') →
        d.Retains d' := by
      intro r d' hmade
      exact ⟨hmade.tree,hw.files.trans hmade.grown.keeps⟩
    rw [Run.meets_bind]
    apply Run.meets_makeDirectories hw.tree hparent
    case hbad =>
      intro f d' hmade
      exact hgrown _ d' hmade
    intro d' hmade
    rw [Run.meets_bind]
    apply Run.meets_alter
    case hbad =>
      intro f _
      exact hgrown _ d' hmade
    intro d'' hwrite
    obtain ⟨htree,hentry⟩ := hmade.tree.write hpath hwrite
    refine (Run.meets_print _).mpr ⟨htree,?_⟩
    intro k bytes hk
    have hkept := (hgrown _ d' hmade).files k bytes hk
    have hne : k ≠ Path.place (Path.join root f.path) := by
      rintro rfl
      have hfile := hmade.grown.file_iff.mp hkept
      simp [hnone] at hfile
    exact (hentry k).trans ((if_neg hne).trans hkept)

theorem create_keeps {d : Disk} {root : String} (hroot : Path.IsDirect root) {w : World}
    (hw : d.Retains w.disk) :
    (create root).Meets w (fun _ v => d.Retains v.disk) fun _ v => d.Retains v.disk := by
  unfold create
  refine Run.Meets.bind (Run.meets_forM (fun f hf w hw => place_keeps hroot hf hw) hw) ?_
  exact fun _ v hv => Run.meets_forM (fun line _ w hw => (Run.meets_print line).mpr hw) hv

end Starter

end BlogSite
