import BlogSite.Proofs.DiskChanges
import BlogSite.Proofs.PathTrails
import BlogSite.Proofs.SoundWorlds

/-!
Changes that stay within a region. From one tree to another anything may happen in the region, and
outside of it directories are added where another region lets them; all other entries are the same. Each
operation on a tree stays within a region that holds the places its paths lead to.
-/

namespace BlogSite

namespace Disk

/-- Every entry has names that a directory can hold. -/
def Named (d : Disk) : Prop := ∀ l e, d.entry? l = some e → ∀ n ∈ l, Path.IsName n

/-- A tree that differs from another in a free region, and by directories added in an upper one. -/
structure Within (free upper : Location → Prop) (base d : Disk) : Prop where
  named : d.Named
  entry : ∀ l, d.entry? l = base.entry? l ∨ free l ∨
    upper l ∧ base.entry? l = none ∧ d.entry? l = some .directory

variable {d : Disk}

theorem Named.put (h : d.Named) {l : Location} (hne : l ≠ []) (hl : ∀ n ∈ l, Path.IsName n)
    (e : Entry) : (d.put l e).Named := by
  intro k x hx
  rw [entry?_put hne] at hx
  split at hx
  · rename_i hk
    exact hk ▸ hl
  · exact h k x hx

theorem Named.prune (h : d.Named) (at_ : Location) : (d.prune at_).Named := by
  intro l e he
  rw [entry?_prune] at he
  split at he
  · exact absurd he (by simp)
  · exact h l e he

theorem Named.copy (h : d.Named) (origin : Location) {goal : Location}
    (hgoal : ∀ n ∈ goal, Path.IsName n) : (d.overlay goal (d.below origin)).Named := by
  intro l e he
  by_cases hl : goal <+: l
  · obtain ⟨r,rfl⟩ := hl
    by_cases hr : r = []
    · rw [entry?_copy_of_not_below d origin goal (Or.inl (by simp [hr]))] at he
      exact h _ e he
    · rw [entry?_copy d origin goal hr,Option.or_eq_some_iff] at he
      rcases he with he | ⟨-,he⟩
      · intro n hn
        rcases List.mem_append.mp hn with hn | hn
        · exact hgoal n hn
        · exact h _ e he n (by simp [hn])
      · exact h _ e he
  · rw [entry?_copy_of_not_below d origin goal (Or.inr hl)] at he
    exact h l e he

/-! ### One operation -/

namespace Within

variable {free upper : Location → Prop} {base d' : Disk}

theorem refl (h : base.Named) : Within free upper base base := ⟨h,fun _ => Or.inl rfl⟩

theorem put (h : Within free upper base d) {l : Location} (hne : l ≠ [])
    (hnames : ∀ n ∈ l, Path.IsName n) (hl : free l) (e : Entry) :
    Within free upper base (d.put l e) := by
  refine ⟨h.named.put hne hnames e,fun k => ?_⟩
  rw [entry?_put hne]
  split
  · rename_i hk
    exact Or.inr (Or.inl (hk ▸ hl))
  · exact h.entry k

theorem write (h : Within free upper base d) {p : String} (hp : free (Path.place p))
    {bytes : ByteArray} (hd : d.write p bytes = .ok d') : Within free upper base d' := by
  obtain ⟨l,hl,hne,rfl⟩ := write_eq_ok hd
  obtain ⟨rfl,hnames⟩ := eq_place_of_locate hl
  exact h.put (ne_nil_of_entry_ne rfl hne) hnames hp _

theorem makeDirectory (h : Within free upper base d) {p : String}
    (hp : free (Path.place p) ∨ upper (Path.place p)) (hd : d.makeDirectory p = .ok d') :
    Within free upper base d' := by
  obtain ⟨l,hl,hnone,rfl⟩ := makeDirectory_eq_ok hd
  obtain ⟨rfl,hnames⟩ := eq_place_of_locate hl
  have hne : Path.place p ≠ [] := ne_nil_of_entry_ne hnone (by simp)
  refine ⟨h.named.put hne hnames _,fun k => ?_⟩
  rw [entry?_put hne]
  split
  · rename_i hk
    subst hk
    rcases hp with hfree | hupper
    · exact Or.inr (Or.inl hfree)
    · rcases h.entry (Path.place p) with hsame | hfree | ⟨-,-,hdir⟩
      · exact Or.inr (Or.inr ⟨hupper,hsame.symm.trans hnone,rfl⟩)
      · exact Or.inr (Or.inl hfree)
      · exact absurd (hdir.symm.trans hnone) (by simp)
  · exact h.entry k

/-- Directories are made one after the other on the way that the names go. -/
theorem makeDirectoriesFrom (h : Within free upper base d) {ns : List String}
    (hns : ∀ n ∈ ns, '/' ∉ n.toList)
    (hway : ∀ ks, ks <+: ns → free (Path.walked true ks) ∨ upper (Path.walked true ks)) :
    Within free upper base (d.makeDirectoriesFrom ns.reverse).2 := by
  induction ns using List.reverseRecOn with
  | nil => exact h
  | append_singleton ns n ih =>
    have hprefix : ns <+: ns ++ [n] := List.prefix_append ns [n]
    have habove := ih (fun m hm => hns m (by simp [hm])) fun ks hks => hway ks (hks.trans hprefix)
    have hplace : Path.place ("/" ++ Path.ofNames (ns ++ [n])) = Path.walked true (ns ++ [n]) := by
      rw [Path.place,show "/" ++ Path.ofNames (ns ++ [n]) = "" ++ "/" ++ Path.ofNames (ns ++ [n]) from rfl,
        Path.names_append_slash,Path.names_ofNames (by simp) hns]
      rfl
    rw [List.reverse_append,List.reverse_singleton,List.singleton_append,Disk.makeDirectoriesFrom]
    simp only [List.reverse_cons,List.reverse_reverse]
    obtain ⟨⟨r,d'⟩,hr,hd'⟩ : ∃ x : Except DiskFault Unit × Disk,
        (if d.isThere ("/" ++ Path.ofNames ns) then (Except.ok (),d)
          else d.makeDirectoriesFrom ns.reverse) = x ∧ Within free upper base x.2 := by
      split
      · exact ⟨_,rfl,h⟩
      · exact ⟨_,rfl,habove⟩
    simp only [hr]
    cases r with
    | error f => exact hd'
    | ok _ =>
      simp only
      split
      · exact hd'
      cases hmade : d'.makeDirectory ("/" ++ Path.ofNames (ns ++ [n])) with
      | ok d'' => exact hd'.makeDirectory (hplace ▸ hway _ List.prefix_rfl) hmade
      | error f =>
        simp only
        split
        · exact hd'
        · exact hd'

theorem makeDirectories (h : Within free upper base d) {p : String}
    (hp : ∀ l, Path.Passes p l → free l ∨ upper l) :
    Within free upper base (d.makeDirectories p).2 :=
  h.makeDirectoriesFrom (fun _ hn => Path.noSlash_of_mem_legs hn) fun ks hks => hp _ ⟨ks,hks,rfl⟩

theorem removeTree (h : Within free upper base d) {p : String}
    (hp : ∀ l, Path.place p <+: l → free l) (hd : d.removeTree p = .ok d') :
    Within free upper base d' := by
  unfold Disk.removeTree at hd
  obtain ⟨l,hl,hd⟩ := exists_of_bind_eq_ok hd
  obtain ⟨rfl,-⟩ := eq_place_of_locate hl
  split at hd
  · exact absurd hd (by simp)
  · exact absurd hd (by simp)
  · obtain rfl := Except.ok.inj hd
    refine ⟨h.named.prune _,fun k => ?_⟩
    rw [entry?_prune]
    split
    · rename_i hbelow
      exact Or.inr (Or.inl (hp k hbelow.2))
    · exact h.entry k

theorem copyTree (h : Within free upper base d) {source target : String}
    (htarget : ∀ l, Path.place target <+: l → free l) (hd : d.copyTree source target = .ok d') :
    Within free upper base d' := by
  obtain ⟨origin,goal,-,hgoal,rfl⟩ := copyTree_eq_ok hd
  obtain ⟨rfl,hnames⟩ := eq_place_of_locate hgoal
  refine ⟨h.named.copy origin hnames,fun k => ?_⟩
  by_cases hk : Path.place target <+: k
  · exact Or.inr (Or.inl (htarget k hk))
  · rw [entry?_copy_of_not_below d origin _ (Or.inr hk)]
    exact h.entry k

/-- Outside of the free region the files are the same. -/
theorem bytesAt?_eq (h : Within free upper base d) {l : Location} (hl : ¬ free l) :
    d.bytesAt? l = base.bytesAt? l := by
  rcases h.entry l with hsame | hfree | ⟨-,hnone,hdir⟩
  · exact bytesAt?_congr hsame
  · exact absurd hfree hl
  · rw [bytesAt?_of_directory hdir,bytesAt?,hnone]

end Within

end Disk

/-! ### Worlds -/

/-- A world that differs from another within regions, and whose log file lies in the free one. -/
structure World.Within (free upper : Location → Prop) (base w : World) : Prop where
  disk : Disk.Within free upper base.disk w.disk
  log : ∀ l, w.LogAt l → free l

namespace World

variable {free upper : Location → Prop} {base w : World}

namespace Within

theorem withDisk (h : World.Within free upper base w) {d : Disk}
    (hd : Disk.Within free upper base.disk d) : World.Within free upper base { w with disk := d } :=
  ⟨hd,h.log⟩

theorem withPages (h : World.Within free upper base w) (pages : Array String) :
    World.Within free upper base { w with pages } :=
  ⟨h.disk,h.log⟩

theorem report (h : World.Within free upper base w) (r : Log.Record) :
    World.Within free upper base (w.report r) := by
  refine ⟨?_,h.log⟩
  rcases w.disk_report r with hd | ⟨f,hf,l,old,new,hl,he,hd⟩
  · rw [hd]
    exact h.disk
  · obtain ⟨rfl,hnames⟩ := Disk.eq_place_of_locate hl
    rw [hd]
    exact h.disk.put (Disk.ne_nil_of_entry_ne he (by simp)) hnames (h.log _ ⟨f,hf,rfl⟩) _

end Within

end World

end BlogSite
