import BlogSite.Proofs.DiskChanges
import BlogSite.Proofs.PathTrails
import BlogSite.Proofs.PostOrder

/-!
File trees that agree but for the bytes of some files, and but for whatever is in a hidden region. What
a path that avoids the region leads to is found in both or in neither, and an operation that neither
enters the region nor looks into those files does the same to both trees.
-/

namespace BlogSite

/-- No location that a path goes through lies in a region. -/
def Path.Avoids (p : String) (Y : Location → Prop) : Prop := ∀ l, Passes p l → ¬ Y l

/-- No location. -/
def Location.Nowhere (_ : Location) : Prop := False

theorem Path.avoids_nowhere (p : String) : Avoids p Location.Nowhere := fun _ _ h => h

/-- A path that avoids a region leads to no place in it. -/
theorem Path.Avoids.place {p : String} {Y : Location → Prop} (h : Avoids p Y) : ¬ Y (place p) :=
  h _ (passes_place p)

theorem Path.Avoids.parent {p : String} {Y : Location → Prop} (h : Avoids p Y)
    (hp : isAbsolute p = true) : Avoids (parent p) Y :=
  fun l hl => h l (hl.of_parent hp)

/-- The directories on the way to a place are avoided where the way to it is. -/
theorem Path.Avoids.ofNames {p : String} {Y : Location → Prop} (h : Avoids p Y) {ns : List String}
    (hns : ns <+: legs p) : Avoids ("/" ++ ofNames ns) Y := by
  have hplain : ∀ n ∈ ns, '/' ∉ n.toList := fun n hn => noSlash_of_mem_legs (hns.subset hn)
  have hlegs : legs ("/" ++ Path.ofNames ns) = ns := by
    rw [show "/" ++ Path.ofNames ns = "" ++ "/" ++ Path.ofNames ns from rfl,legs_append_slash,
      show legs "" = [] by decide,List.nil_append]
    by_cases hne : ns = []
    · subst hne
      decide
    · rw [legs,names_ofNames hne hplain,List.filter_eq_self]
      exact fun n hn => (List.mem_filter.mp (hns.subset hn)).2
  rintro l ⟨ks,hks,hl⟩
  rw [hlegs] at hks
  exact h l ⟨ks,hks.trans hns,hl⟩

namespace Disk

/-- Trees with directories and files at the same locations off a hidden region `Y`, and with the same
entries there off some locations `X`. The order in which they hold their entries may differ. -/
structure Agree (Y X : Location → Prop) (d d' : Disk) : Prop where
  kind : ∀ l, ¬ Y l → Entry.isDirectory <$> d.entry? l = Entry.isDirectory <$> d'.entry? l
  entry : ∀ l, ¬ Y l → ¬ X l → d.entry? l = d'.entry? l

/-- What an operation leaves of two trees that agree. -/
inductive Alike (Y X : Location → Prop) : Except DiskFault Disk → Except DiskFault Disk → Prop
  | error (f : DiskFault) : Alike Y X (.error f) (.error f)
  | ok {d d' : Disk} (h : d.Agree Y X d') : Alike Y X (.ok d) (.ok d')

variable {Y X : Location → Prop} {d d' : Disk}

/-- A path that avoids the hidden region is located outside of it. -/
theorem not_of_locate {p : String} (hp : Path.Avoids p Y) {l : Location} (hl : d.locate p = .ok l) :
    ¬ Y l := by
  obtain ⟨rfl,-⟩ := eq_place_of_locate hl
  exact hp.place

namespace Agree

theorem of_eq (h : ∀ l, d.entry? l = d'.entry? l) : d.Agree Y X d' :=
  ⟨fun l _ => by rw [h l],fun l _ _ => h l⟩

theorem symm (h : d.Agree Y X d') : d'.Agree Y X d :=
  ⟨fun l hl => (h.kind l hl).symm,fun l hl hx => (h.entry l hl hx).symm⟩

/-- The entry at a location that is not hidden is missing, a directory or a file in both. -/
theorem entry_cases (h : d.Agree Y X d') {l : Location} (hl : ¬ Y l) :
    (d.entry? l = none ∧ d'.entry? l = none) ∨
    (d.entry? l = some .directory ∧ d'.entry? l = some .directory) ∨
    ∃ b b', d.entry? l = some (.file b) ∧ d'.entry? l = some (.file b') := by
  have hkind := h.kind l hl
  cases he : d.entry? l with
  | none =>
    have he' : d'.entry? l = none := by simpa [he] using hkind.symm
    exact Or.inl ⟨rfl,he'⟩
  | some e =>
    obtain ⟨e',he',hsame⟩ : ∃ e', d'.entry? l = some e' ∧ e'.isDirectory = e.isDirectory := by
      simpa [he] using hkind.symm
    cases e <;> cases e' <;> simp_all [Entry.isDirectory]

/-- Names are walked along alike while they lead through nothing that is hidden. -/
theorem walk_eq (h : d.Agree Y X d') {here : Location} {ns : List String} (hhere : ".." ∉ here)
    (hway : ∀ ks, ks <+: ns → ¬ Y (ks.foldl (Path.step true) here.reverse).reverse) :
    d.walk here ns = d'.walk here ns := by
  induction ns generalizing here with
  | nil => rfl
  | cons n ns ih =>
    have hnext : ∀ there : Location, ".." ∉ there → Path.step true here.reverse n = there.reverse →
        d.walk there ns = d'.walk there ns := by
      intro there hback hstep
      refine ih hback fun ks hks => ?_
      have hlonger := hway (n :: ks) ((List.prefix_cons_inj n).mpr hks)
      rwa [List.foldl_cons,hstep] at hlonger
    have hstart : ¬ Y here := by simpa using hway [] List.nil_prefix
    unfold walk
    rcases h.entry_cases hstart with ⟨he,he'⟩ | ⟨he,he'⟩ | ⟨b,b',he,he'⟩
    · rw [he,he']
    · rw [he,he']
      simp only
      split
      · rfl
      split
      · rename_i hstay
        exact hnext here hhere (by simp_all [Path.step])
      rename_i hmove
      simp only [Bool.or_eq_true,decide_eq_true_eq,not_or] at hmove
      split
      · rename_i hback
        refine hnext here.dropLast (fun hmem => hhere (List.dropLast_subset here hmem)) ?_
        rcases List.eq_nil_or_concat here with rfl | ⟨up,last,rfl⟩
        · simp [Path.step,hback]
        · have hlast : last ≠ ".." := fun heq => hhere (by simp [heq])
          simp [Path.step,hback,hlast]
      · rename_i hback
        refine hnext (here ++ [n]) (by simpa using ⟨hhere,Ne.symm hback⟩) ?_
        simp [Path.step,hmove.1,hmove.2,hback]
    · rw [he,he']

theorem locate_eq (h : d.Agree Y X d') {p : String} (hp : Path.Avoids p Y) :
    d.locate p = d'.locate p := by
  unfold locate
  rw [h.walk_eq (by simp) fun ks hks => ?_]
  refine hp _ ⟨ks.filter (· ≠ ""),hks.filter _,?_⟩
  rw [Path.walked,Path.foldl_step_filter]
  rfl

theorem isThere_eq (h : d.Agree Y X d') {p : String} (hp : Path.Avoids p Y) :
    d.isThere p = d'.isThere p := by
  unfold isThere lookup?
  rw [← h.locate_eq hp]
  cases hl : d.locate p with
  | error f => rfl
  | ok l =>
    rcases h.entry_cases (not_of_locate hp hl) with ⟨he,he'⟩ | ⟨he,he'⟩ | ⟨b,b',he,he'⟩ <;> simp [he,he']

theorem isFile_eq (h : d.Agree Y X d') {p : String} (hp : Path.Avoids p Y) :
    d.isFile p = d'.isFile p := by
  unfold isFile lookup?
  rw [← h.locate_eq hp]
  cases hl : d.locate p with
  | error f => rfl
  | ok l =>
    rcases h.entry_cases (not_of_locate hp hl) with ⟨he,he'⟩ | ⟨he,he'⟩ | ⟨b,b',he,he'⟩ <;> simp [he,he']

theorem isDirectory_eq (h : d.Agree Y X d') {p : String} (hp : Path.Avoids p Y) :
    d.isDirectory p = d'.isDirectory p := by
  unfold isDirectory lookup?
  rw [← h.locate_eq hp]
  cases hl : d.locate p with
  | error f => rfl
  | ok l =>
    rcases h.entry_cases (not_of_locate hp hl) with ⟨he,he'⟩ | ⟨he,he'⟩ | ⟨b,b',he,he'⟩
    · simp [he,he']
    · simp [he,he']
    · simp only [he,he']
      rw [Bool.eq_iff_iff]
      simp

theorem read_eq (h : d.Agree Y X d') {p : String} (hp : Path.Avoids p Y)
    (hx : ∀ l, d.locate p = .ok l → ¬ X l) : d.read p = d'.read p :=
  read_congr (h.locate_eq hp) fun l hl => h.entry l (not_of_locate hp hl) (hx l hl)

/-! ### Changes -/

/-- Entries of one kind may be put at a location at which the trees may differ. -/
theorem put_of_kind (h : d.Agree Y X d') {at_ : Location} (hat : at_ ≠ []) {e e' : Entry}
    (hkind : e.isDirectory = e'.isDirectory) (he : ¬ X at_ → e = e') :
    (d.put at_ e).Agree Y X (d'.put at_ e') := by
  constructor
  · intro l hl
    rw [entry?_put hat,entry?_put hat]
    split
    · exact congrArg some hkind
    · exact h.kind l hl
  · intro l hl hx
    rw [entry?_put hat,entry?_put hat]
    split
    · rename_i hlat
      rw [he (hlat ▸ hx)]
    · exact h.entry l hl hx

theorem put (h : d.Agree Y X d') {at_ : Location} (hat : at_ ≠ []) (e : Entry) :
    (d.put at_ e).Agree Y X (d'.put at_ e) :=
  h.put_of_kind hat rfl fun _ => rfl

/-- One tree alone may change in the hidden region, and in the bytes of a file that may differ. -/
theorem put_left (h : d.Agree Y X d') {at_ : Location} {old : ByteArray}
    (he : d.entry? at_ = some (.file old)) (hat : Y at_ ∨ X at_) (new : ByteArray) :
    (d.put at_ (.file new)).Agree Y X d' := by
  refine ⟨fun l hl => (sameShape_put_file he new l).trans (h.kind l hl),fun l hl hx => ?_⟩
  rw [entry?_put (ne_nil_of_entry_ne he (by simp))]
  split
  · rename_i hlat
    subst hlat
    exact absurd hat (not_or.mpr ⟨hl,hx⟩)
  · exact h.entry l hl hx

/-- What is done at the location of a path is alike if it is alike at each location that is not hidden. -/
theorem alike_at (h : d.Agree Y X d') {p : String} (hp : Path.Avoids p Y)
    {change change' : Location → Except DiskFault Disk}
    (hchange : ∀ l, ¬ Y l → d.locate p = .ok l → Alike Y X (change l) (change' l)) :
    Alike Y X (d.locate p >>= change) (d'.locate p >>= change') := by
  rw [← h.locate_eq hp]
  cases hl : d.locate p with
  | error f => exact .error f
  | ok l => exact hchange l (not_of_locate hp hl) hl

theorem write (h : d.Agree Y X d') {p : String} (hp : Path.Avoids p Y) (bytes : ByteArray) :
    Alike Y X (d.write p bytes) (d'.write p bytes) := by
  refine h.alike_at hp fun l hl _ => ?_
  rcases h.entry_cases hl with ⟨he,he'⟩ | ⟨he,he'⟩ | ⟨b,b',he,he'⟩
  · simp only [he,he']
    exact .ok (h.put (ne_nil_of_entry_ne he (by simp)) _)
  · simp only [he,he']
    exact .error _
  · simp only [he,he']
    exact .ok (h.put (ne_nil_of_entry_ne he (by simp)) _)

theorem makeDirectory (h : d.Agree Y X d') {p : String} (hp : Path.Avoids p Y) :
    Alike Y X (d.makeDirectory p) (d'.makeDirectory p) := by
  refine h.alike_at hp fun l hl _ => ?_
  rcases h.entry_cases hl with ⟨he,he'⟩ | ⟨he,he'⟩ | ⟨b,b',he,he'⟩
  · simp only [he,he']
    exact .ok (h.put (ne_nil_of_entry_ne he (by simp)) _)
  · simp only [he,he']
    exact .error _
  · simp only [he,he']
    exact .error _

theorem makeDirectoriesFrom (h : d.Agree Y X d') {ns : List String}
    (hns : ∀ k, k <:+ ns → Path.Avoids ("/" ++ Path.ofNames k.reverse) Y) :
    (d.makeDirectoriesFrom ns).1 = (d'.makeDirectoriesFrom ns).1 ∧
      (d.makeDirectoriesFrom ns).2.Agree Y X (d'.makeDirectoriesFrom ns).2 := by
  induction ns generalizing d d' with
  | nil => exact ⟨rfl,h⟩
  | cons n up ih =>
    have hhere := hns (n :: up) List.suffix_rfl
    have hup : ∀ k, k <:+ up → Path.Avoids ("/" ++ Path.ofNames k.reverse) Y :=
      fun k hk => hns k (hk.trans (List.suffix_cons n up))
    -- The directories above are made alike, and then the last one is.
    have habove : ∀ q : String, Path.Avoids q Y →
        (if d.isThere q then (.ok (),d) else d.makeDirectoriesFrom up).1 =
          (if d'.isThere q then (.ok (),d') else d'.makeDirectoriesFrom up).1 ∧
        (if d.isThere q then (.ok (),d) else d.makeDirectoriesFrom up).2.Agree Y X
          (if d'.isThere q then (.ok (),d') else d'.makeDirectoriesFrom up).2 := by
      intro q hq
      rw [← h.isThere_eq hq]
      split
      · exact ⟨rfl,h⟩
      · exact ih h hup
    unfold Disk.makeDirectoriesFrom
    obtain ⟨hresult,hagree⟩ := habove ("/" ++ Path.ofNames up.reverse) (hup up List.suffix_rfl)
    simp only
    generalize (if d.isThere _ then _ else d.makeDirectoriesFrom up) = a at hresult hagree
    generalize (if d'.isThere _ then _ else d'.makeDirectoriesFrom up) = a' at hresult hagree
    obtain ⟨r,e⟩ := a
    obtain ⟨r',e'⟩ := a'
    obtain rfl : r = r' := hresult
    cases r with
    | error f => exact ⟨rfl,hagree⟩
    | ok _ =>
      simp only
      rw [← hagree.isDirectory_eq hhere]
      split
      · exact ⟨rfl,hagree⟩
      · have hmade := hagree.makeDirectory hhere
        generalize e.makeDirectory _ = m at hmade
        generalize e'.makeDirectory _ = m' at hmade
        cases hmade with
        | ok hnext => exact ⟨rfl,hnext⟩
        | error f =>
          simp only
          split
          · exact ⟨rfl,hagree⟩
          · exact ⟨rfl,hagree⟩

theorem makeDirectories (h : d.Agree Y X d') {p : String} (hp : Path.Avoids p Y) :
    (d.makeDirectories p).1 = (d'.makeDirectories p).1 ∧
      (d.makeDirectories p).2.Agree Y X (d'.makeDirectories p).2 := by
  have hlegs : ∀ k, k <:+ (Path.legs p).reverse → Path.Avoids ("/" ++ Path.ofNames k.reverse) Y := by
    intro k hk
    apply hp.ofNames
    rwa [← List.reverse_suffix,List.reverse_reverse]
  exact h.makeDirectoriesFrom hlegs

theorem removeTree (h : d.Agree Y X d') {p : String} (hp : Path.Avoids p Y) :
    Alike Y X (d.removeTree p) (d'.removeTree p) := by
  refine h.alike_at hp fun l hl _ => ?_
  rcases h.entry_cases hl with ⟨he,he'⟩ | ⟨he,he'⟩ | ⟨b,b',he,he'⟩
  · simp only [he,he']
    exact .error _
  · simp only [he,he']
    refine .ok ⟨fun k hk => ?_,fun k hk hx => ?_⟩
    · rw [entry?_prune,entry?_prune]
      split
      · rfl
      · exact h.kind k hk
    · rw [entry?_prune,entry?_prune]
      split
      · rfl
      · exact h.entry k hk hx
  · simp only [he,he']
    exact .error _

/-- Copies agree but for the copies of entries in which the trees may differ. -/
theorem copy (h : d.Agree Y X d') {origin goal : Location}
    (hhidden : ∀ r, r ≠ [] → Y (origin ++ r) → Y (goal ++ r))
    (hcopied : ∀ r, r ≠ [] → X (origin ++ r) → X (goal ++ r)) :
    (d.overlay goal (d.below origin)).Agree Y X (d'.overlay goal (d'.below origin)) := by
  constructor
  · intro l hY
    by_cases hl : l = goal ∨ ¬ goal <+: l
    · rw [entry?_copy_of_not_below d origin goal hl,entry?_copy_of_not_below d' origin goal hl]
      exact h.kind l hY
    · obtain ⟨hne,r,rfl⟩ := by simpa using hl
      have hr : r ≠ [] := by simpa using hne
      rw [entry?_copy d origin goal hr,entry?_copy d' origin goal hr]
      rcases h.entry_cases (mt (hhidden r hr) hY) with ⟨he,he'⟩ | ⟨he,he'⟩ | ⟨b,b',he,he'⟩
      · simpa [he,he'] using h.kind (goal ++ r) hY
      · rw [he,he']
        rfl
      · rw [he,he']
        rfl
  · intro l hY hX
    by_cases hl : l = goal ∨ ¬ goal <+: l
    · rw [entry?_copy_of_not_below d origin goal hl,entry?_copy_of_not_below d' origin goal hl]
      exact h.entry l hY hX
    · obtain ⟨hne,r,rfl⟩ := by simpa using hl
      have hr : r ≠ [] := by simpa using hne
      have hfrom : d.entry? (origin ++ r) = d'.entry? (origin ++ r) :=
        h.entry _ (mt (hhidden r hr) hY) (mt (hcopied r hr) hX)
      rw [entry?_copy d origin goal hr,entry?_copy d' origin goal hr,hfrom,h.entry _ hY hX]

theorem copyTree (h : d.Agree Y X d') {source target : String} (hsource : Path.Avoids source Y)
    (htarget : Path.Avoids target Y) (hhidden : ∀ r, ¬ Y (Path.place source ++ r))
    (hcopied : ∀ r, r ≠ [] → X (Path.place source ++ r) → X (Path.place target ++ r)) :
    Alike Y X (d.copyTree source target) (d'.copyTree source target) := by
  refine h.alike_at hsource fun origin _ horigin => h.alike_at htarget fun goal _ hgoal => ?_
  obtain ⟨rfl,-⟩ := eq_place_of_locate horigin
  obtain ⟨rfl,-⟩ := eq_place_of_locate hgoal
  exact .ok (h.copy (fun r _ hr => absurd hr (hhidden r)) hcopied)

end Agree

/-! ### Listings -/

theorem mem_names_iff {l : Location} {n : String} :
    n ∈ d.names l ↔ ∃ e, d.entry? (l ++ [n]) = some e := by
  rw [names_eq,List.mem_filterMap]
  simp only [nameIn?_eq_some_iff,List.mem_map]
  constructor
  · rintro ⟨k,⟨x,hx,rfl⟩,hk⟩
    exact ⟨x.2,(entry?_eq_some_iff (by simp)).mpr (hk ▸ hx)⟩
  · rintro ⟨e,he⟩
    exact ⟨l ++ [n],⟨(l ++ [n],e),(entry?_eq_some_iff (by simp)).mp he,rfl⟩,rfl⟩

theorem Agree.sortedNames_eq (h : d.Agree Y X d') {l : Location} (hl : ∀ n, ¬ Y (l ++ [n])) :
    Path.sortedNames (d.names l) = Path.sortedNames (d'.names l) := by
  apply Path.sortedNames_eq_of_perm
  rw [List.perm_ext_iff_of_nodup (d.nodup_names l) (d'.nodup_names l)]
  intro n
  rw [mem_names_iff,mem_names_iff]
  rcases h.entry_cases (hl n) with ⟨he,he'⟩ | ⟨he,he'⟩ | ⟨b,b',he,he'⟩ <;> simp [he,he']

/-- Directories without anything hidden list the same names, if not in the same order. -/
theorem Agree.list_eq (h : d.Agree Y X d') {p : String} (hp : Path.Avoids p Y)
    (hnames : ∀ n, ¬ Y (Path.place p ++ [n])) :
    (d.list p).map Path.sortedNames = (d'.list p).map Path.sortedNames := by
  unfold list
  rw [← h.locate_eq hp]
  cases hl : d.locate p with
  | error f => rfl
  | ok l =>
    obtain ⟨rfl,-⟩ := eq_place_of_locate hl
    simp only [bind,Except.bind]
    rcases h.entry_cases hp.place with ⟨he,he'⟩ | ⟨he,he'⟩ | ⟨b,b',he,he'⟩ <;>
      simp [he,he',Except.map,h.sortedNames_eq hnames]

end Disk

end BlogSite
