import BlogSite.Disk.Basic
import Mathlib.Data.List.Nodup

/-!
Looking things up in a file tree. What a path names depends on which entries are directories, not on
the bytes of files; a directory lists each of its names once; and the last name of a path is the last
name of the location it leads to.
-/

namespace BlogSite

/-- Steps that succeed together have each given a result. -/
theorem exists_of_bind_eq_ok {ε α β : Type} {x : Except ε α} {k : α → Except ε β} {b : β}
    (h : x >>= k = .ok b) : ∃ a, x = .ok a ∧ k a = .ok b := by
  cases x with
  | error f => exact absurd h (by simp [bind,Except.bind])
  | ok a => exact ⟨a,rfl,h⟩

/-- Whether an entry can have others below it. -/
def Entry.isDirectory : Entry → Bool
  | .directory => true
  | .file _ => false

namespace Disk

/-- Trees with directories and files at the same locations. -/
def SameShape (d d' : Disk) : Prop :=
  ∀ l, Entry.isDirectory <$> d.entry? l = Entry.isDirectory <$> d'.entry? l

@[simp] theorem entry?_root (d : Disk) : d.entry? [] = some .directory := rfl

theorem ne_nil_of_entry_ne {d : Disk} {l : Location} {x : Option Entry} (h : d.entry? l = x)
    (hx : x ≠ some .directory) : l ≠ [] := by
  rintro rfl
  exact hx h.symm

theorem entry?_eq_some_iff {d : Disk} {l : Location} (hl : l ≠ []) {e : Entry} :
    d.entry? l = some e ↔ (l,e) ∈ d.entries := by
  unfold entry?
  rw [if_neg hl,Option.map_eq_some_iff]
  constructor
  · rintro ⟨⟨k,x⟩,hfind,rfl⟩
    obtain rfl : k = l := by simpa using List.find?_some hfind
    exact List.mem_of_find?_eq_some hfind
  · intro hmem
    have hsome : (d.entries.find? fun x => decide (x.1 = l)).isSome :=
      List.find?_isSome.mpr ⟨(l,e),hmem,by simp⟩
    obtain ⟨x,hx⟩ := Option.isSome_iff_exists.mp hsome
    have hxl : x.1 = l := by simpa using List.find?_some hx
    have hsame : x = (l,e) :=
      List.inj_on_of_nodup_map d.distinct (List.mem_of_find?_eq_some hx) hmem hxl
    exact ⟨x,hx,by rw [hsame]⟩

theorem entry?_put {d : Disk} {at_ : Location} (hat : at_ ≠ []) (e : Entry) (l : Location) :
    Disk.entry? (d.put at_ e) l = if l = at_ then some e else d.entry? l := by
  by_cases hl : l = []
  · subst hl
    simp [Ne.symm hat]
  · apply Option.ext
    intro x
    rw [entry?_eq_some_iff hl]
    by_cases hat' : l = at_
    · subst hat'
      simp [put,eq_comm]
    · simp [put,hat',entry?_eq_some_iff hl]

/-- Other bytes in a file leave the shape of the tree as it is. -/
theorem sameShape_put_file {d : Disk} {at_ : Location} {old : ByteArray}
    (h : d.entry? at_ = some (.file old)) (new : ByteArray) :
    (d.put at_ (.file new)).SameShape d := by
  have hat : at_ ≠ [] := ne_nil_of_entry_ne h (by simp)
  intro l
  rw [entry?_put hat]
  by_cases hl : l = at_
  · subst hl
    simp [h,Entry.isDirectory]
  · simp [hl]

theorem walk_eq_of_sameShape {d d' : Disk} (h : d.SameShape d') (here : Location)
    (ns : List String) : d.walk here ns = d'.walk here ns := by
  induction ns generalizing here with
  | nil => rfl
  | cons n ns ih =>
    have hhere := h here
    cases hd : d.entry? here with
    | none =>
      have hd' : d'.entry? here = none := by simpa [hd] using hhere.symm
      simp [walk,hd,hd']
    | some e =>
      obtain ⟨e',hd',he⟩ : ∃ e', d'.entry? here = some e' ∧ e'.isDirectory = e.isDirectory := by
        simpa [hd] using hhere.symm
      cases e with
      | file _ =>
        cases e' with
        | file _ => simp [walk,hd,hd']
        | directory => exact absurd he (by simp [Entry.isDirectory])
      | directory =>
        cases e' with
        | file _ => exact absurd he (by simp [Entry.isDirectory])
        | directory => simp [walk,hd,hd',ih]

theorem locate_eq_of_sameShape {d d' : Disk} (h : d.SameShape d') (p : String) :
    d.locate p = d'.locate p := by
  simp only [locate,walk_eq_of_sameShape h]

/-- A file is read by its location and its bytes. -/
theorem read_congr {d d' : Disk} {p : String} (hlocate : d.locate p = d'.locate p)
    (hentry : ∀ l, d.locate p = .ok l → d.entry? l = d'.entry? l) : d.read p = d'.read p := by
  unfold read
  rw [← hlocate]
  cases hl : d.locate p with
  | error f => rfl
  | ok l =>
    have h := hentry l hl
    simp only [bind,Except.bind,h]

/-! ### Listings -/

theorem list_eq_ok_iff {d : Disk} {p : String} {ns : List String} :
    d.list p = .ok ns ↔ ∃ l, d.locate p = .ok l ∧ d.entry? l = some .directory ∧ d.names l = ns := by
  unfold list
  cases hl : d.locate p with
  | error f => simp [bind,Except.bind]
  | ok l =>
    simp only [bind,Except.bind,Except.ok.injEq,exists_eq_left']
    cases he : d.entry? l with
    | none => simp
    | some e => cases e <;> simp

theorem isDirectory_eq_true_iff {d : Disk} {p : String} :
    d.isDirectory p = true ↔ ∃ ns, d.list p = .ok ns := by
  simp only [list_eq_ok_iff]
  unfold isDirectory lookup?
  cases hl : d.locate p with
  | error f => simp
  | ok l => simp

/-- The name of a location that is directly below another. -/
def nameIn? (l k : Location) : Option String :=
  match k.drop l.length with
  | [n] => if l ++ [n] = k then some n else none
  | _ => none

theorem nameIn?_eq_some_iff {l k : Location} {n : String} : nameIn? l k = some n ↔ k = l ++ [n] := by
  unfold nameIn?
  constructor
  · intro h
    split at h
    · split at h
      · rename_i hk
        rw [← hk,Option.some.inj h]
      · exact absurd h (by simp)
    · exact absurd h (by simp)
  · rintro rfl
    simp

theorem names_eq (d : Disk) (l : Location) :
    d.names l = (d.entries.map Prod.fst).filterMap (nameIn? l) := by
  rw [names,below,List.filterMap_filterMap,List.filterMap_map]
  apply List.filterMap_congr
  intro x _
  by_cases hx : l.isPrefixOf x.1
  · obtain ⟨t,ht⟩ := List.isPrefixOf_iff_prefix.mp hx
    rw [Function.comp_apply,← ht]
    match t with
    | [] => simp [nameIn?]
    | [n] => simp [nameIn?]
    | _ :: _ :: _ => simp [nameIn?]
  · have hnone : nameIn? l x.1 = none := by
      apply Option.eq_none_iff_forall_ne_some.mpr
      intro n hn
      exact hx (List.isPrefixOf_iff_prefix.mpr (nameIn?_eq_some_iff.mp hn ▸ List.prefix_append l [n]))
    simp [hx,hnone]

/-- A directory lists each of its names once. -/
theorem nodup_names (d : Disk) (l : Location) : (d.names l).Nodup := by
  rw [names_eq]
  apply d.distinct.filterMap
  intro k k' n hk hk'
  rw [nameIn?_eq_some_iff.mp hk,nameIn?_eq_some_iff.mp hk']

/-! ### Walks -/

/-- A walk that ends somewhere starts at a directory, and goes on from there, from above or from below,
as its first name says. -/
theorem walk_cons_eq_ok_iff {d : Disk} {here l : Location} {n : String} {ns : List String} :
    d.walk here (n :: ns) = .ok l ↔
      d.entry? here = some .directory ∧ n.utf8ByteSize ≤ nameLimit ∧
        ((n = "" ∨ n = ".") ∧ d.walk here ns = .ok l ∨
          n = ".." ∧ d.walk here.dropLast ns = .ok l ∨
          (n ≠ "" ∧ n ≠ "." ∧ n ≠ "..") ∧ d.walk (here ++ [n]) ns = .ok l) := by
  rw [walk]
  cases hhere : d.entry? here with
  | none => simp
  | some e =>
    cases e with
    | file bytes => simp
    | directory =>
      rcases Nat.lt_or_ge nameLimit n.utf8ByteSize with hlong | hshort
      · simp [hlong,Nat.not_le.mpr hlong]
      simp only [Nat.not_lt.mpr hshort,hshort,if_false,true_and]
      by_cases hstay : n = "" ∨ n = "."
      · rcases hstay with rfl | rfl <;> simp
      obtain ⟨hempty,hdot⟩ := not_or.mp hstay
      by_cases hback : n = ".." <;> simp [hempty,hdot,hback]

/-! ### The last name of a path -/

/-- The last step of a walk goes down, if the last name is no step back or none at all. -/
theorem exists_of_walk_concat {d : Disk} {n : String} (hn : n ≠ "" ∧ n ≠ "." ∧ n ≠ "..")
    {here at_ : Location} {ns : List String} (h : d.walk here (ns ++ [n]) = .ok at_) :
    ∃ l, at_ = l ++ [n] := by
  induction ns generalizing here with
  | nil =>
    obtain ⟨-,-,⟨hstay,-⟩ | ⟨hback,-⟩ | ⟨-,hdown⟩⟩ := walk_cons_eq_ok_iff.mp h
    · rcases hstay with rfl | rfl <;> simp at hn
    · exact absurd hback hn.2.2
    · exact ⟨here,(Except.ok.inj hdown).symm⟩
  | cons k ns ih =>
    obtain ⟨-,-,⟨-,h⟩ | ⟨-,h⟩ | ⟨-,h⟩⟩ := walk_cons_eq_ok_iff.mp h <;> exact ih h

end Disk

/-- What is put at the end of a text without a separator goes into its last piece. -/
theorem Text.exists_splitOn_append {α : Type} [DecidableEq α] {sep : α} {e : List α} (he : sep ∉ e)
    (s : List α) : ∃ before last, splitOn sep (s ++ e) = before ++ [last ++ e] := by
  induction s with
  | nil =>
    refine ⟨[],[],?_⟩
    induction e with
    | nil => rfl
    | cons c e ih =>
      simp only [List.mem_cons,not_or] at he
      have h := ih he.2
      simp only [List.nil_append] at h
      simp [splitOn,Ne.symm he.1,h]
  | cons c s ih =>
    obtain ⟨before,last,h⟩ := ih
    by_cases hc : c = sep
    · exact ⟨[] :: before,last,by simp [splitOn,hc,h]⟩
    · cases before with
      | nil => exact ⟨[],c :: last,by simp [splitOn,hc,h]⟩
      | cons p ps => exact ⟨(c :: p) :: ps,last,by simp [splitOn,hc,h]⟩

/-- The last name of a path that ends in an extension ends so too. -/
theorem Path.exists_names_eq {p : String} {e : List Char} (he : e <:+ p.toList) (hslash : '/' ∉ e)
    (hlen : 2 < e.length) : ∃ before n, Path.names p = before ++ [n] ∧ e <:+ n.toList ∧
      n ≠ "" ∧ n ≠ "." ∧ n ≠ ".." := by
  obtain ⟨s,hs⟩ := he
  obtain ⟨before,last,hsplit⟩ := Text.exists_splitOn_append hslash s
  have hlong : ∀ k : String, k.toList.length ≤ 2 → String.ofList (last ++ e) ≠ k := by
    rintro k hk rfl
    simp only [String.toList_ofList,List.length_append] at hk
    omega
  refine ⟨before.map String.ofList,String.ofList (last ++ e),?_,by simp,
    hlong "" (by decide),hlong "." (by decide),hlong ".." (by decide)⟩
  rw [Path.names,← hs,hsplit,List.map_append]
  rfl

theorem Disk.exists_of_locate {d : Disk} {p : String} {e : List Char} {at_ : Location}
    (hlocate : d.locate p = .ok at_) (he : e <:+ p.toList) (hslash : '/' ∉ e) (hlen : 2 < e.length) :
    ∃ l n, at_ = l ++ [n] ∧ e <:+ n.toList := by
  obtain ⟨before,n,hnames,hn,hproper⟩ := Path.exists_names_eq he hslash hlen
  unfold locate at hlocate
  split at hlocate
  · exact absurd hlocate (by simp)
  rw [hnames] at hlocate
  obtain ⟨l,rfl⟩ := exists_of_walk_concat hproper hlocate
  exact ⟨l,n,rfl,hn⟩

/-- A path seen from another ends as it does. -/
theorem Path.suffix_join (base p : String) : p.toList <:+ (Path.join base p).toList := by
  unfold join
  split
  · exact List.suffix_rfl
  split
  · simp
  · exact ⟨base.toList ++ ['/'],by simp⟩

end BlogSite
