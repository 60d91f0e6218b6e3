import BlogSite.Proofs.DiskTree
import BlogSite.Proofs.LogFile
import BlogSite.Proofs.PathTrails

/-!
Worlds as sessions leave them: the entries of the file tree lie in directories, and the log file, if
there is one, is there and is named as log files are. In such a world a direct path leads to a text
just when a file with that text is at its place, and a report changes the bytes of the log file alone.
-/

namespace BlogSite

/-- The text in the bytes of a file, with line feeds for all its line ends. -/
def Text.ofBytes? (bytes : ByteArray) : Option String :=
  (String.fromUTF8? bytes).map fun s => String.ofList (Text.unifyBreaks s.toList)

namespace Entry

/-- What there is at two places is of one kind: nothing, a directory or a file. -/
def SameKind (x y : Option Entry) : Prop := Entry.isDirectory <$> x = Entry.isDirectory <$> y

theorem SameKind.directory_iff {x y : Option Entry} (h : SameKind x y) :
    x = some .directory ↔ y = some .directory := by
  have hiff : ∀ z : Option Entry, z = some .directory ↔ Entry.isDirectory <$> z = some true := by
    rintro (_ | _ | _) <;> simp [Entry.isDirectory]
  rw [hiff x,hiff y,h]

theorem SameKind.none_iff {x y : Option Entry} (h : SameKind x y) : x = none ↔ y = none := by
  have hiff : ∀ z : Option Entry, z = none ↔ Entry.isDirectory <$> z = none := by simp
  rw [hiff x,hiff y,h]

theorem SameKind.file_iff {x y : Option Entry} (h : SameKind x y) :
    (∃ bytes, x = some (.file bytes)) ↔ ∃ bytes, y = some (.file bytes) := by
  have hiff : ∀ z : Option Entry,
      (∃ bytes, z = some (.file bytes)) ↔ Entry.isDirectory <$> z = some false := by
    rintro (_ | _ | _) <;> simp [Entry.isDirectory]
  rw [hiff x,hiff y,h]

end Entry

namespace Disk

variable {d d' : Disk}

/-- The bytes of the file at a location, if there is one. -/
def bytesAt? (d : Disk) (l : Location) : Option ByteArray :=
  match d.entry? l with
  | some (.file bytes) => some bytes
  | _ => none

theorem bytesAt?_eq_some_iff {l : Location} {bytes : ByteArray} :
    d.bytesAt? l = some bytes ↔ d.entry? l = some (.file bytes) := by
  unfold bytesAt?
  split
  · simp_all
  · simp_all

theorem bytesAt?_congr {l l' : Location} (h : d.entry? l = d'.entry? l') :
    d.bytesAt? l = d'.bytesAt? l' := by
  unfold bytesAt?
  rw [h]

theorem bytesAt?_of_directory {l : Location} (h : d.entry? l = some .directory) :
    d.bytesAt? l = none := by
  unfold bytesAt?
  rw [h]

/-- Which locations a tree has, and which of them are directories, makes it one. -/
theorem IsTree.of_sameShape (h : d.IsTree) (hs : d'.SameShape d) : d'.IsTree := by
  constructor
  · intro l e he n hn
    have hsome : d.entry? l ≠ none := by
      rw [ne_eq,← Entry.SameKind.none_iff (hs l),he]
      simp
    obtain ⟨e',he'⟩ := Option.ne_none_iff_exists'.mp hsome
    exact h.named l e' he' n hn
  · intro l n e he
    have hsome : d.entry? (l ++ [n]) ≠ none := by
      rw [ne_eq,← Entry.SameKind.none_iff (hs _),he]
      simp
    obtain ⟨e',he'⟩ := Option.ne_none_iff_exists'.mp hsome
    exact (Entry.SameKind.directory_iff (hs l)).mpr (h.closed l n e' he')

namespace IsTree

theorem read_eq_ok_iff (h : d.IsTree) {p : String} (hp : Path.IsDirect p) {bytes : ByteArray} :
    d.read p = .ok bytes ↔ d.bytesAt? (Path.place p) = some bytes := by
  rw [bytesAt?_eq_some_iff]
  unfold read
  constructor
  · intro hread
    obtain ⟨l,hl,hread⟩ := exists_of_bind_eq_ok hread
    obtain ⟨rfl,-⟩ := exists_of_locate_direct hp hl
    split at hread
    · exact absurd hread (by simp)
    · exact absurd hread (by simp)
    · rename_i hfile
      rw [hfile,Except.ok.inj hread]
  · intro hfile
    have hl : d.locate p = .ok (Path.place p) := by rw [locate_eq_reach d hp,h.reach_eq hfile]
    simp [hl,bind,Except.bind,hfile]

/-- The text that a direct path leads to is that of the file at its place. -/
theorem textAt_eq_ok_iff (h : d.IsTree) {p : String} (hp : Path.IsDirect p) {t : String} :
    d.textAt p = .ok t ↔ ∃ bytes, d.bytesAt? (Path.place p) = some bytes ∧
      Text.ofBytes? bytes = some t := by
  simp only [← h.read_eq_ok_iff hp]
  unfold textAt Text.ofBytes?
  cases d.read p with
  | error f => simp
  | ok bytes => cases hs : String.fromUTF8? bytes <;> simp [hs]

/-- A direct path to a directory lists the names in it. -/
theorem list_eq_ok_iff (h : d.IsTree) {p : String} (hp : Path.IsDirect p) {ns : List String} :
    d.list p = .ok ns ↔ d.entry? (Path.place p) = some .directory ∧ d.names (Path.place p) = ns := by
  rw [Disk.list_eq_ok_iff]
  constructor
  · rintro ⟨l,hl,hdir,hnames⟩
    obtain ⟨rfl,-⟩ := exists_of_locate_direct hp hl
    exact ⟨hdir,hnames⟩
  · rintro ⟨hdir,hnames⟩
    exact ⟨_,by rw [locate_eq_reach d hp,h.reach_eq hdir],hdir,hnames⟩

end IsTree

/-- A location that is named as log files are. -/
def IsLogAt (l : Location) : Prop := ∃ k n, l = k ++ [n] ∧ ".log".toList <:+ n.toList

/-- What is named with another ending is no log file. -/
theorem not_isLogAt_concat (l : Location) {n : String} {e : List Char} (he : e <:+ n.toList) (hne : e ≠ [])
    (hlast : e.getLast? ≠ some 'g') : ¬ IsLogAt (l ++ [n]) := by
  rintro ⟨k,n',hk,t,ht⟩
  obtain ⟨t',ht'⟩ := he
  obtain ⟨-,hn⟩ := List.append_inj' hk rfl
  obtain rfl : n = n' := by simpa using hn
  have hends := congrArg List.getLast? (ht'.trans ht.symm)
  rw [List.getLast?_append_of_ne_nil _ hne,List.getLast?_append_of_ne_nil _ (by decide)] at hends
  exact hlast hends

/-- A path with another ending leads to no log file. -/
theorem not_isLogAt_of_ending {d : Disk} {p : String} {e : List Char} (he : e <:+ p.toList)
    (hslash : '/' ∉ e) (hlen : 2 < e.length) (hlast : e.getLast? ≠ some 'g') {l : Location}
    (hl : d.locate p = .ok l) : ¬ IsLogAt l := by
  obtain ⟨k,n,rfl,hn⟩ := exists_of_locate hl he hslash hlen
  exact not_isLogAt_concat k hn (by rintro rfl; simp at hlen) hlast

end Disk

namespace World

/-- The place of the log file. -/
def LogAt (w : World) (l : Location) : Prop := ∃ f ∈ w.logFile, Path.place f.path = l

structure IsSound (w : World) : Prop where
  tree : w.disk.IsTree
  named : w.LogNamed
  direct : ∀ f ∈ w.logFile, Path.IsDirect f.path
  logged : ∀ l, w.LogAt l → ∃ bytes, w.disk.entry? l = some (.file bytes)

variable {w : World}

theorem logAt_congr {u : World} {l : Location} (h : u.logFile = w.logFile) : u.LogAt l ↔ w.LogAt l := by
  simp only [LogAt,h]

/-- A log file lies where log files are named. -/
theorem LogNamed.isLogAt (h : w.LogNamed) {l : Location} (hl : w.LogAt l) : Disk.IsLogAt l := by
  obtain ⟨f,hf,rfl⟩ := hl
  obtain ⟨before,n,hnames,hn,hproper⟩ := Path.exists_names_eq (h f hf) (by decide) (by decide)
  exact ⟨Path.walked true before,n,by rw [Path.place,hnames,Path.walked_concat _ _ hproper],hn⟩

/-- A report leaves all entries but the log file as they are. -/
theorem entry?_report (w : World) (r : Log.Record) {l : Location} (hl : ¬ w.LogAt l) :
    (w.report r).disk.entry? l = w.disk.entry? l := by
  rcases w.disk_report r with hd | ⟨f,hf,k,old,new,hk,he,hd⟩
  · rw [hd]
  · obtain ⟨rfl,-⟩ := Disk.eq_place_of_locate hk
    have hother : l ≠ Path.place f.path := fun heq => hl ⟨f,hf,heq.symm⟩
    rw [hd,Disk.entry?_put (Disk.ne_nil_of_entry_ne he (by simp)),if_neg hother]

theorem isTree_report (h : w.disk.IsTree) (r : Log.Record) : (w.report r).disk.IsTree :=
  h.of_sameShape (w.sameShape_report r)

namespace IsSound

theorem report (h : w.IsSound) (r : Log.Record) : (w.report r).IsSound where
  tree := isTree_report h.tree r
  named := h.named
  direct := h.direct
  logged := fun l hl => (Entry.SameKind.file_iff (w.sameShape_report r l)).mpr (h.logged l hl)

theorem withPages (h : w.IsSound) (pages : Array String) : IsSound { w with pages } :=
  ⟨h.tree,h.named,h.direct,h.logged⟩

end IsSound

end World

end BlogSite
