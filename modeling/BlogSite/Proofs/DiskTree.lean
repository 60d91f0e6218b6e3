import BlogSite.Proofs.DiskLookup
import BlogSite.Proofs.PathPlaces
import Mathlib.Data.List.Induction

/-!
File trees whose entries all lie in directories. In such a tree a direct path names what is at its
place, and what the operations do to the tree is said by the entries at each location.
-/

namespace BlogSite

/-- A name that an entry of a directory can have. -/
structure Path.IsName (n : String) : Prop extends Path.IsStep n where
  noNul : '\x00' ∉ n.toList
  short : n.utf8ByteSize ≤ Disk.nameLimit

instance (n : String) : Decidable (Path.IsName n) :=
  decidable_of_iff (Path.IsStep n ∧ '\x00' ∉ n.toList ∧ n.utf8ByteSize ≤ Disk.nameLimit)
    ⟨fun h => ⟨h.1,h.2.1,h.2.2⟩,fun h => ⟨h.toIsStep,h.noNul,h.short⟩⟩

namespace Disk

/-- Every entry has names that a directory can hold, and lies in a directory. -/
structure IsTree (d : Disk) : Prop where
  named : ∀ l e, d.entry? l = some e → ∀ n ∈ l, Path.IsName n
  closed : ∀ l n e, d.entry? (l ++ [n]) = some e → d.entry? l = some .directory

/-- Whether the entries of a list make a tree can be looked up. -/
theorem isTree_of_entries {d : Disk} (h : ∀ x ∈ d.entries, (∀ n ∈ x.1, Path.IsName n) ∧
    d.entry? x.1.dropLast = some .directory) : d.IsTree := by
  constructor
  · intro l e he n hn
    have hne : l ≠ [] := List.ne_nil_of_mem hn
    exact (h _ ((entry?_eq_some_iff hne).mp he)).1 n hn
  · intro l n e he
    have hmem := (entry?_eq_some_iff (by simp)).mp he
    simpa using (h _ hmem).2

/-- Looks up a location from the root, as the names of a path. -/
def reach (d : Disk) (l : Location) : Except DiskFault Location :=
  if l.any (·.toList.contains '\x00') then .error .badName else d.walk [] l

variable {d : Disk}

/-! ### Looking up direct paths -/

theorem walk_replicate (d : Disk) (k : Nat) (ns : List String) :
    d.walk [] (List.replicate k "" ++ ns) = d.walk [] ns := by
  induction k with
  | zero => rfl
  | succ k ih => simpa [List.replicate_succ,walk] using ih

/-- A direct path is looked up at its place. -/
theorem locate_eq_reach (d : Disk) {p : String} (hp : Path.IsDirect p) :
    d.locate p = d.reach (Path.place p) := by
  obtain ⟨k,hk⟩ := hp.straight
  have hnul : p.toList.contains '\x00' = (Path.place p).any (·.toList.contains '\x00') := by
    rw [Bool.eq_iff_iff]
    simp only [List.contains_iff_mem,List.any_eq_true]
    rw [Path.mem_toList_iff_exists_names (by decide),hk]
    constructor
    · rintro ⟨n,hn,hc⟩
      rcases List.mem_append.mp hn with hn | hn
      · simp [List.eq_of_mem_replicate hn] at hc
      · exact ⟨n,hn,hc⟩
    · rintro ⟨n,hn,hc⟩
      exact ⟨n,List.mem_append_right _ hn,hc⟩
  unfold locate reach
  rw [hnul,hk,walk_replicate]

/-- A walk down that ends somewhere ends below its start, and went through directories. -/
theorem walk_eq_ok {here k : Location} {ns : List String} (hns : ∀ n ∈ ns, Path.IsStep n)
    (h : d.walk here ns = .ok k) : k = here ++ ns ∧ (∀ n ∈ ns, n.utf8ByteSize ≤ nameLimit) ∧
      ∀ a n b, ns = a ++ n :: b → d.entry? (here ++ a) = some .directory := by
  induction ns generalizing here with
  | nil => simpa [walk,eq_comm] using h
  | cons m ns ih =>
    have hm := hns m (by simp)
    obtain ⟨hdir,hshort,⟨hstay,-⟩ | ⟨hback,-⟩ | ⟨-,hdown⟩⟩ := walk_cons_eq_ok_iff.mp h
    · exact absurd hstay (not_or.mpr ⟨hm.ne_empty,hm.ne_dot⟩)
    · exact absurd hback hm.ne_back
    obtain ⟨rfl,hsizes,hdirs⟩ := ih (fun n hn => hns n (by simp [hn])) hdown
    refine ⟨by simp,List.forall_mem_cons.mpr ⟨hshort,hsizes⟩,?_⟩
    intro a n b hsplit
    cases a with
    | nil => simpa using hdir
    | cons x a =>
      obtain ⟨rfl,hrest⟩ := List.cons.inj hsplit
      simpa using hdirs a n b hrest

theorem reach_eq_ok {l k : Location} (hl : ∀ n ∈ l, Path.IsStep n) (h : d.reach l = .ok k) :
    k = l ∧ (∀ n ∈ l, Path.IsName n) ∧ ∀ a n b, l = a ++ n :: b → d.entry? a = some .directory := by
  unfold reach at h
  split at h
  · exact absurd h (by simp)
  · rename_i hnul
    obtain ⟨rfl,hsizes,hdirs⟩ := walk_eq_ok hl h
    refine ⟨rfl,?_,by simpa using hdirs⟩
    intro n hn
    refine ⟨hl n hn,?_,hsizes n hn⟩
    intro hc
    exact hnul (List.any_eq_true.mpr ⟨n,hn,by simpa using hc⟩)

namespace IsTree

theorem directory_of_append (h : d.IsTree) {l m : Location} {e : Entry} (hm : m ≠ [])
    (he : d.entry? (l ++ m) = some e) : d.entry? l = some .directory := by
  induction m using List.reverseRecOn generalizing e with
  | nil => exact absurd rfl hm
  | append_singleton m n ih =>
    rw [← List.append_assoc] at he
    have hup := h.closed _ _ _ he
    cases m with
    | nil => simpa using hup
    | cons x m => exact ih (by simp) hup

theorem walk_eq (h : d.IsTree) {l m : Location} {e : Entry} (he : d.entry? (l ++ m) = some e) :
    d.walk l m = .ok (l ++ m) := by
  induction m generalizing l with
  | nil => simp [walk]
  | cons n m ih =>
    have hn := h.named _ _ he n (by simp)
    have hdir := h.directory_of_append (by simp) he
    have hrest := ih (l := l ++ [n]) (by simpa using he)
    rw [List.append_assoc] at hrest
    exact walk_cons_eq_ok_iff.mpr ⟨hdir,hn.short,.inr (.inr ⟨⟨hn.ne_empty,hn.ne_dot,hn.ne_back⟩,hrest⟩)⟩

/-- What is in a tree is found. -/
theorem reach_eq (h : d.IsTree) {l : Location} {e : Entry} (he : d.entry? l = some e) :
    d.reach l = .ok l := by
  have hnul : l.any (·.toList.contains '\x00') = false := by
    rw [Bool.eq_false_iff]
    intro hany
    obtain ⟨n,hn,hc⟩ := List.any_eq_true.mp hany
    exact (h.named _ _ he n hn).noNul (by simpa using hc)
  unfold reach
  rw [hnul]
  exact h.walk_eq (l := []) he

/-- A direct path names what is at its place. -/
theorem lookup?_eq (h : d.IsTree) {p : String} (hp : Path.IsDirect p) :
    d.lookup? p = d.entry? (Path.place p) := by
  unfold lookup?
  rw [locate_eq_reach d hp]
  cases he : d.entry? (Path.place p) with
  | some e =>
    rw [h.reach_eq he]
    exact he
  | none =>
    cases hr : d.reach (Path.place p) with
    | error f => rfl
    | ok l =>
      obtain ⟨rfl,-⟩ := reach_eq_ok (fun n hn => Path.isStep_of_mem_place hn) hr
      exact he

theorem isThere_eq (h : d.IsTree) {p : String} (hp : Path.IsDirect p) :
    d.isThere p = (d.entry? (Path.place p)).isSome := by
  rw [isThere,h.lookup?_eq hp]

theorem isDirectory_iff (h : d.IsTree) {p : String} (hp : Path.IsDirect p) :
    d.isDirectory p = true ↔ d.entry? (Path.place p) = some .directory := by
  rw [isDirectory,h.lookup?_eq hp]
  simp

theorem isFile_iff (h : d.IsTree) {p : String} (hp : Path.IsDirect p) :
    d.isFile p = true ↔ ∃ bytes, d.entry? (Path.place p) = some (.file bytes) := by
  rw [isFile,h.lookup?_eq hp]
  split
  · rename_i bytes he
    simp [he]
  · rename_i hnone
    simp only [Bool.false_eq_true,false_iff]
    rintro ⟨bytes,he⟩
    exact hnone bytes he

end IsTree

/-! ### Putting entries -/

/-- A tree stays one when an entry is put into one of its directories, unless a file takes the place
of a directory. -/
theorem IsTree.put (h : d.IsTree) {l : Location} {n : String} {e : Entry}
    (hdir : d.entry? l = some .directory) (hn : Path.IsName n)
    (hkeep : e = .directory ∨ d.entry? (l ++ [n]) ≠ some .directory) :
    (d.put (l ++ [n]) e).IsTree := by
  have hne : l ++ [n] ≠ [] := by simp
  constructor
  · intro k x hx m hm
    rw [entry?_put hne] at hx
    split at hx
    · rename_i hk
      subst hk
      rcases List.mem_append.mp hm with hm | hm
      · exact h.named _ _ hdir m hm
      · obtain rfl := List.mem_singleton.mp hm
        exact hn
    · exact h.named _ _ hx m hm
  · intro k m x hx
    rw [entry?_put hne] at hx ⊢
    have hup : d.entry? k = some .directory := by
      split at hx
      · rename_i hk
        obtain ⟨rfl,-⟩ := List.append_inj' hk rfl
        exact hdir
      · exact h.closed _ _ _ hx
    split
    · rename_i hk
      rcases hkeep with rfl | hkeep
      · rfl
      · exact absurd (hk ▸ hup) hkeep
    · exact hup

/-- The location of a direct path that can be looked up: its last name is in a directory. -/
theorem exists_of_locate_direct {p : String} {l : Location} (hp : Path.IsDirect p)
    (h : d.locate p = .ok l) : l = Path.place p ∧ (∀ n ∈ l, Path.IsName n) ∧
      ∀ k n, l = k ++ [n] → d.entry? k = some .directory := by
  rw [locate_eq_reach d hp] at h
  obtain ⟨rfl,hnames,hdirs⟩ := reach_eq_ok (fun n hn => Path.isStep_of_mem_place hn) h
  exact ⟨rfl,hnames,fun k n hk => hdirs k n [] hk⟩

theorem write_eq_ok {p : String} {bytes : ByteArray} {d' : Disk} (h : d.write p bytes = .ok d') :
    ∃ l, d.locate p = .ok l ∧ d.entry? l ≠ some .directory ∧ d' = d.put l (.file bytes) := by
  unfold write at h
  obtain ⟨l,hl,h⟩ := exists_of_bind_eq_ok h
  split at h
  · exact absurd h (by simp)
  · rename_i hne
    exact ⟨l,hl,hne,(Except.ok.inj h).symm⟩

theorem makeDirectory_eq_ok {p : String} {d' : Disk} (h : d.makeDirectory p = .ok d') :
    ∃ l, d.locate p = .ok l ∧ d.entry? l = none ∧ d' = d.put l .directory := by
  unfold makeDirectory at h
  obtain ⟨l,hl,h⟩ := exists_of_bind_eq_ok h
  split at h
  · exact absurd h (by simp)
  · rename_i hnone
    exact ⟨l,hl,hnone,(Except.ok.inj h).symm⟩

/-- Writing a file changes the entry at its place alone. -/
theorem IsTree.write (h : d.IsTree) {p : String} (hp : Path.IsDirect p) {bytes : ByteArray}
    {d' : Disk} (hw : d.write p bytes = .ok d') :
    d'.IsTree ∧ ∀ l, d'.entry? l = if l = Path.place p then some (.file bytes) else d.entry? l := by
  obtain ⟨l,hl,hne,rfl⟩ := write_eq_ok hw
  obtain ⟨rfl,hnames,hdir⟩ := exists_of_locate_direct hp hl
  rcases List.eq_nil_or_concat (Path.place p) with hnil | ⟨k,n,hk⟩
  · rw [hnil] at hne
    exact absurd rfl hne
  · rw [List.concat_eq_append] at hk
    rw [hk] at hnames hne ⊢
    exact ⟨h.put (hdir k n hk) (hnames n (by simp)) (Or.inr hne),entry?_put (by simp) _⟩

end Disk

end BlogSite
