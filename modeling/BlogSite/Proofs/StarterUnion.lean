import BlogSite.Proofs.ProjectStarting

/-!
What a new project holds. The starter files are added where nothing is and everything else stays as it is, in
whatever order they are placed; what was there wins, and a second start adds nothing.
-/

namespace BlogSite

theorem Disk.IsTree.isSome_of_prefix {d : Disk} (h : d.IsTree) {l k : Location} (hl : l <+: k)
    (hk : (d.entry? k).isSome) : (d.entry? l).isSome := by
  obtain ⟨m,rfl⟩ := hl
  by_cases hm : m = []
  · simpa [hm] using hk
  · obtain ⟨e,he⟩ := Option.isSome_iff_exists.mp hk
    rw [h.directory_of_append hm he]
    rfl

namespace Starter

/-- Where a starter file belongs. -/
def File.spot (root : Location) (f : File) : Location := root ++ Path.names f.path

/-- What a start may add at a location: a starter file, or a directory above one. -/
def starterEntry (root l : Location) : Option Entry :=
  match files.find? (·.spot root = l) with
  | some f => some (.file f.text.toUTF8)
  | none => if files.any (l.isPrefixOf <| ·.spot root) then some .directory else none

/-- Places the files in an order of their own. -/
def createIn (order : List File) (root : String) : Run Unit := do
  order.forM (place root)
  advice.forM Run.print

theorem create_eq (root : String) : create root = createIn files root := rfl

variable {root : Location} {f : File}

/-! ### The places of the starter files -/

theorem names_files : (files.map fun f => Path.names f.path).Nodup ∧
    ∀ f ∈ files, ∀ g ∈ files, Path.names f.path <+: Path.names g.path →
      Path.names f.path = Path.names g.path := by
  decide +kernel

theorem eq_of_spot {g : File} (hf : f ∈ files) (hg : g ∈ files) (h : f.spot root <+: g.spot root) : f = g := by
  have hnames := names_files.2 f hf g hg ((List.prefix_append_right_inj root).mp h)
  exact List.inj_on_of_nodup_map names_files.1 hf hg hnames

theorem starterEntry_spot (hf : f ∈ files) : starterEntry root (f.spot root) = some (.file f.text.toUTF8) := by
  unfold starterEntry
  split
  · rename_i g hg
    have hspot : g.spot root = f.spot root := by simpa using List.find?_some hg
    have hlead : g.spot root <+: f.spot root := ⟨[],by simp [hspot]⟩
    rw [eq_of_spot (List.mem_of_find?_eq_some hg) hf hlead]
  · rename_i hnone
    exact absurd (List.find?_eq_none.mp hnone f hf) (by simp)

theorem starterEntry_above (hf : f ∈ files) {l : Location} (hl : l <+: f.spot root) (hne : l ≠ f.spot root) :
    starterEntry root l = some .directory := by
  unfold starterEntry
  split
  · rename_i g hg
    have hspot : g.spot root = l := by simpa using List.find?_some hg
    have hsame := eq_of_spot (List.mem_of_find?_eq_some hg) hf (hspot ▸ hl)
    exact absurd (hsame ▸ hspot).symm hne
  · have hany : files.any (l.isPrefixOf <| ·.spot root) = true :=
      List.any_eq_true.mpr ⟨f,hf,List.isPrefixOf_iff_prefix.mpr hl⟩
    rw [hany,if_pos rfl]

theorem exists_of_starterEntry {l : Location} {e : Entry} (h : starterEntry root l = some e) :
    ∃ f ∈ files, l <+: f.spot root := by
  unfold starterEntry at h
  split at h
  · rename_i f hf
    have hspot : f.spot root = l := by simpa using List.find?_some hf
    exact ⟨f,List.mem_of_find?_eq_some hf,[],by simp [hspot]⟩
  · split at h
    · rename_i hany
      obtain ⟨f,hf,hl⟩ := List.any_eq_true.mp hany
      exact ⟨f,hf,List.isPrefixOf_iff_prefix.mp hl⟩
    · exact absurd h (by simp)

/-! ### What a start may change -/

/-- Nothing changes but that something of the starter files is added where nothing is. -/
def Adds (root : Location) (d d' : Disk) : Prop :=
  ∀ l, d'.entry? l = d.entry? l ∨ d.entry? l = none ∧ d'.entry? l = starterEntry root l

namespace Adds

variable {d d' d'' : Disk}

theorem refl (root : Location) (d : Disk) : Adds root d d := fun _ => .inl rfl

theorem trans (h : Adds root d d') (h' : Adds root d' d'') : Adds root d d'' := by
  intro l
  rcases h l with hl | ⟨hnone,hl⟩
  · rw [← hl]
    exact h' l
  · rcases h' l with hl' | ⟨-,hl'⟩
    · exact .inr ⟨hnone,hl'.trans hl⟩
    · exact .inr ⟨hnone,hl'⟩

theorem keeps (h : Adds root d d') {l : Location} {e : Entry} (he : d.entry? l = some e) :
    d'.entry? l = some e := by
  rcases h l with hl | ⟨hnone,-⟩
  · exact hl.trans he
  · exact absurd (hnone.symm.trans he) (by simp)

theorem of_grownTo {ns : Location} (hf : f ∈ files) (hns : ns <+: f.spot root) (hne : ns ≠ f.spot root)
    (h : d.GrownTo ns d') : Adds root d d' := by
  intro l
  rcases h l with hl | ⟨hnone,hdir,hl⟩
  · exact .inl hl
  · have habove : l ≠ f.spot root := fun heq => hne (hns.eq_of_length_le (heq ▸ hl.length_le))
    exact .inr ⟨hnone,hdir.trans (starterEntry_above hf (hl.trans hns) habove).symm⟩

theorem of_write (hf : f ∈ files) (h : Adds root d d') (hnone : d'.entry? (f.spot root) = none)
    (hentry : ∀ l, d''.entry? l = if l = f.spot root then some (.file f.text.toUTF8) else d'.entry? l) :
    Adds root d d'' := by
  refine h.trans fun l => ?_
  rw [hentry]
  split
  · rename_i hl
    exact .inr ⟨hl ▸ hnone,by rw [hl,starterEntry_spot hf]⟩
  · exact .inl rfl

end Adds

/-- A starter file can be placed: something is at its place, or nothing is in the way of it. -/
def Clear (root : Location) (d : Disk) (f : File) : Prop :=
  (d.entry? (f.spot root)).isSome ∨ ¬ d.Blocked (f.spot root)

/-- What a start adds for one file is not in the way of another. -/
theorem Adds.clear_iff {d d' : Disk} (h : Adds root d d') (hd' : d'.IsTree) (hf : f ∈ files) :
    Clear root d' f ↔ Clear root d f := by
  constructor
  · rintro (hthere | hfree)
    · by_cases hsome : (d.entry? (f.spot root)).isSome
      · exact .inl hsome
      · right
        obtain ⟨e,he⟩ := Option.isSome_iff_exists.mp hthere
        rintro (⟨n,hn,hname⟩ | ⟨l,bytes,⟨m,hm⟩,hfile⟩)
        · exact hname (hd'.named _ _ he n hn)
        · by_cases hnil : m = []
          · rw [hnil,List.append_nil] at hm
            simp [← hm,hfile] at hsome
          · have hdir := hd'.directory_of_append hnil (hm ▸ he)
            exact absurd (hdir.symm.trans (h.keeps hfile)) (by simp)
    · right
      rintro (hname | ⟨l,bytes,hl,hfile⟩)
      · exact hfree (.inl hname)
      · exact hfree (.inr ⟨l,bytes,hl,h.keeps hfile⟩)
  · rintro (hthere | hfree)
    · obtain ⟨e,he⟩ := Option.isSome_iff_exists.mp hthere
      exact .inl (Option.isSome_iff_exists.mpr ⟨e,h.keeps he⟩)
    · by_cases hthere : (d'.entry? (f.spot root)).isSome
      · exact .inl hthere
      · right
        rintro (hname | ⟨l,bytes,hl,hfile⟩)
        · exact hfree (.inl hname)
        · rcases h l with hsame | ⟨-,hnew⟩
          · exact hfree (.inr ⟨l,bytes,hl,hsame ▸ hfile⟩)
          · have hne : l ≠ f.spot root := by
              rintro rfl
              simp [hfile] at hthere
            rw [hfile,starterEntry_above hf hl hne] at hnew
            exact absurd hnew (by simp)

/-! ### Placing files -/

theorem write_error {d : Disk} (hd : d.IsTree) {p : String} (hp : Path.IsDirect p) {l : Location} {n : String}
    (hplace : Path.place p = l ++ [n]) (hdir : d.entry? l = some .directory) (hnone : d.entry? (l ++ [n]) = none)
    {bytes : ByteArray} {e : DiskFault} (h : d.write p bytes = .error e) : ¬ Path.IsName n := by
  intro hn
  have hlocate : d.locate p = .ok (l ++ [n]) := by
    rw [Disk.locate_eq_reach d hp,hplace]
    exact hd.reach_concat hdir hn
  simp [Disk.write,hlocate,bind,Except.bind,hnone] at h

variable {root : String} {w : World}

/-- One file: it is there afterwards, or it cannot be placed. -/
theorem place_adds (hroot : Path.IsDirect root) (hf : f ∈ files) (hw : w.disk.IsTree) :
    (place root f).Meets w
      (fun _ v => v.disk.IsTree ∧ Adds (Path.place root) w.disk v.disk ∧
        (v.disk.entry? (f.spot (Path.place root))).isSome)
      (fun _ v => Adds (Path.place root) w.disk v.disk ∧ ¬ Clear (Path.place root) w.disk f) := by
  obtain ⟨hpath,hplace⟩ := hroot.join (isStep_of_mem_files f hf)
  obtain ⟨l,n,hlast⟩ := exists_concat_names (Path.place root) f
  obtain ⟨hparent,habove⟩ := hpath.parent (hplace.trans hlast)
  have hspot : f.spot (Path.place root) = l ++ [n] := hlast
  have hshort : l ≠ f.spot (Path.place root) := by
    simp [hspot]
  unfold place
  rw [Run.meets_bind,Run.meets_ask]
  split
  · rename_i hthere
    rw [hw.isThere_eq hpath] at hthere
    exact (Run.meets_print _).mpr ⟨hw,.refl _ _,by rwa [hspot,← hlast,← hplace]⟩
  · rename_i hmissing
    have hnone : w.disk.entry? (l ++ [n]) = none := by
      simpa [hw.isThere_eq hpath,hplace,hlast] using hmissing
    have hfaulty : w.disk.Blocked (l ++ [n]) → ¬ Clear (Path.place root) w.disk f := by
      rintro hblocked (hthere | hfree)
      · simp [hspot,hnone] at hthere
      · exact hfree (hspot ▸ hblocked)
    have hgrown : ∀ r d', w.disk.MadeTo (Path.place (Path.parent (Path.join root f.path))) (r,d') →
        Adds (Path.place root) w.disk d' := by
      intro r d' hmade
      have hup := hmade.grown
      rw [habove] at hup
      exact .of_grownTo hf (hspot ▸ List.prefix_append l [n]) hshort hup
    rw [Run.meets_bind]
    apply Run.meets_makeDirectories hw hparent
    case hbad =>
      intro e d' hmade
      have hblocked := hmade.failed e rfl
      rw [habove] at hblocked
      exact ⟨hgrown _ d' hmade,hfaulty (hblocked.concat n)⟩
    intro d' hmade
    have hadds := hgrown _ d' hmade
    have hdir := hmade.made rfl
    rw [habove] at hdir
    have hstill : d'.entry? (l ++ [n]) = none := by
      rcases hmade.grown (l ++ [n]) with hsame | ⟨-,-,hlead⟩
      · exact hsame.trans hnone
      · rw [habove] at hlead
        exact absurd hlead.length_le (by simp)
    rw [Run.meets_bind]
    apply Run.meets_alter
    case hbad =>
      intro e hwrite
      have hname := write_error hmade.tree hpath (hplace.trans hlast) hdir hstill hwrite
      exact ⟨hadds,hfaulty (.inl ⟨n,by simp,hname⟩)⟩
    intro d'' hwrite
    obtain ⟨htree,hentry⟩ := hmade.tree.write hpath hwrite
    rw [hplace,hlast,← hspot] at hentry
    refine (Run.meets_print _).mpr ⟨htree,hadds.of_write hf (hspot ▸ hstill) hentry,?_⟩
    exact Option.isSome_iff_exists.mpr ⟨_,(hentry _).trans (if_pos rfl)⟩

/-! ### A whole start -/

variable {order : List File}

theorem advice_leaves {bad : Failure → World → Prop} :
    (advice.forM Run.print).Meets w (fun _ v => v.disk = w.disk) bad :=
  Run.meets_forM_append (I := fun _ v => v.disk = w.disk)
    (fun _ line _ _ _ hv => (Run.meets_print line).mpr hv) rfl

/-- A start in any order: all its files are there afterwards, or one cannot be placed. -/
theorem createIn_adds (hroot : Path.IsDirect root) (horder : ∀ f ∈ order, f ∈ files) (hw : w.disk.IsTree) :
    (createIn order root).Meets w
      (fun _ v => v.disk.IsTree ∧ Adds (Path.place root) w.disk v.disk ∧
        ∀ f ∈ order, (v.disk.entry? (f.spot (Path.place root))).isSome)
      (fun _ v => Adds (Path.place root) w.disk v.disk ∧ ∃ f ∈ files, ¬ Clear (Path.place root) w.disk f) := by
  unfold createIn
  refine Run.Meets.bind (Run.meets_forM_append (I := fun done v => v.disk.IsTree ∧
    Adds (Path.place root) w.disk v.disk ∧ ∀ f ∈ done, (v.disk.entry? (f.spot (Path.place root))).isSome)
    ?_ ⟨hw,.refl _ _,by simp⟩) fun _ v hv => ?_
  · rintro done f rest rfl v ⟨htree,hadds,hdone⟩
    have hf := horder f (by simp)
    refine (place_adds hroot hf htree).imp ?_ ?_
    · rintro _ u ⟨htree',hadds',hthere⟩
      refine ⟨htree',hadds.trans hadds',List.forall_mem_append.mpr ⟨?_,by simpa using hthere⟩⟩
      intro g hg
      obtain ⟨e,he⟩ := Option.isSome_iff_exists.mp (hdone g hg)
      exact Option.isSome_iff_exists.mpr ⟨e,hadds'.keeps he⟩
    · rintro _ u ⟨hadds',hclear⟩
      exact ⟨hadds.trans hadds',f,hf,fun h => hclear ((hadds.clear_iff htree hf).mpr h)⟩
  · exact advice_leaves.imp (fun _ u hu => hu ▸ hv) fun _ _ h => h

/-- Where all the files are there, a start leaves the tree as it is. -/
theorem createIn_again (hroot : Path.IsDirect root) (horder : ∀ f ∈ order, f ∈ files) (hw : w.disk.IsTree)
    (hthere : ∀ f ∈ order, (w.disk.entry? (f.spot (Path.place root))).isSome) :
    (createIn order root).Meets w (fun _ v => v.disk = w.disk) fun _ _ => False := by
  unfold createIn
  refine Run.Meets.bind (Run.meets_forM_append (I := fun _ v => v.disk = w.disk) ?_ rfl) fun _ v hv =>
    advice_leaves.imp (fun _ u hu => hu.trans hv) fun _ _ h => h
  rintro done f rest rfl v hv
  obtain ⟨hpath,hplace⟩ := hroot.join (isStep_of_mem_files f (horder f (by simp)))
  have hsome : v.disk.isThere (Path.join root f.path) = true := by
    rw [hv,hw.isThere_eq hpath,hplace]
    exact hthere f (by simp)
  unfold place
  rw [Run.meets_bind,Run.meets_ask,if_pos hsome]
  exact (Run.meets_print _).mpr hv

/-- A start comes to its end just when each of its files can be placed. -/
theorem createIn_ok_iff (hroot : Path.IsDirect root) (horder : order.Perm files) (hw : w.disk.IsTree) :
    ((createIn order root).go w).1 = .ok () ↔ ∀ f ∈ files, Clear (Path.place root) w.disk f := by
  have hmeets := createIn_adds hroot (fun f hf => horder.mem_iff.mp hf) hw
  cases hgo : (createIn order root).go w with
  | mk r v =>
    cases r with
    | error e =>
      obtain ⟨-,f,hf,hclear⟩ := hmeets.failure e v hgo
      exact ⟨fun h => absurd h (by simp),fun h => absurd (h f hf) hclear⟩
    | ok _ =>
      obtain ⟨htree,hadds,hthere⟩ := hmeets.result _ v hgo
      exact ⟨fun _ f hf => (hadds.clear_iff htree hf).mp (.inl (hthere f (horder.mem_iff.mpr hf))),fun _ => rfl⟩

/-- After a start that comes to its end there is what was there and, where nothing was, the starter files. -/
theorem createIn_union (hroot : Path.IsDirect root) (horder : order.Perm files) (hw : w.disk.IsTree) {v : World}
    (hgo : (createIn order root).go w = (.ok (),v)) (l : Location) :
    v.disk.entry? l = (w.disk.entry? l).or (starterEntry (Path.place root) l) := by
  have hmeets := createIn_adds hroot (fun f hf => horder.mem_iff.mp hf) hw
  obtain ⟨htree,hadds,hthere⟩ := hmeets.result _ v hgo
  rcases hadds l with hsame | ⟨hnone,hnew⟩
  · rw [hsame]
    cases hl : w.disk.entry? l with
    | some e => rfl
    | none =>
      cases hnew : starterEntry (Path.place root) l with
      | none => rfl
      | some e =>
        obtain ⟨f,hf,hlead⟩ := exists_of_starterEntry hnew
        have hsome := htree.isSome_of_prefix hlead (hthere f (horder.mem_iff.mpr hf))
        simp [hsame,hl] at hsome
  · rw [hnone,hnew,Option.none_or]

/-- A start is a union in which what was there wins. What was there stays as it is, whether the start comes to its
end or not. Whether it does so does not depend on the order of the files; and when it does, what is there
afterwards is what was there and, where nothing was, the starter files, in any order, and a second start leaves
all as it is. -/
theorem create_union {root : String} (hroot : Path.IsDirect root) {w : World} (hw : w.disk.IsTree)
    {order : List File} (horder : order.Perm files) :
    (∀ l e, w.disk.entry? l = some e → ((createIn order root).go w).2.disk.entry? l = some e) ∧
    (((createIn order root).go w).1 = .ok () ↔ ((create root).go w).1 = .ok ()) ∧
    (((create root).go w).1 = .ok () →
      (∀ l, ((create root).go w).2.disk.entry? l =
        (w.disk.entry? l).or (starterEntry (Path.place root) l)) ∧
      (∀ l, ((createIn order root).go w).2.disk.entry? l = ((create root).go w).2.disk.entry? l) ∧
      ((createIn order root).go ((create root).go w).2).1 = .ok () ∧
      ((createIn order root).go ((create root).go w).2).2.disk = ((create root).go w).2.disk) := by
  rw [create_eq]
  have hmem : ∀ f ∈ order, f ∈ files := fun f hf => horder.mem_iff.mp hf
  have hiff : ((createIn order root).go w).1 = .ok () ↔ ((createIn files root).go w).1 = .ok () :=
    (createIn_ok_iff hroot horder hw).trans (createIn_ok_iff hroot (.refl files) hw).symm
  refine ⟨?_,hiff,fun hok => ?_⟩
  · have hadds := ((createIn_adds hroot hmem hw).imp (fun _ _ h => h.2.1) fun _ _ h => h.1).world
    exact fun l e he => hadds.keeps he
  · obtain ⟨v,hv⟩ : ∃ v, (createIn files root).go w = (.ok (),v) := ⟨_,Prod.ext hok rfl⟩
    obtain ⟨u,hu⟩ : ∃ u, (createIn order root).go w = (.ok (),u) := ⟨_,Prod.ext (hiff.mpr hok) rfl⟩
    have hunion := createIn_union hroot (.refl files) hw hv
    obtain ⟨htree,-,hthere⟩ := (createIn_adds hroot (fun f hf => hf) hw).result _ v hv
    have hagain := createIn_again hroot hmem htree fun f hf => hthere f (hmem f hf)
    rw [hv,hu]
    refine ⟨hunion,fun l => (createIn_union hroot horder hw hu l).trans (hunion l).symm,?_⟩
    cases hgo : (createIn order root).go v with
    | mk r x =>
      cases r with
      | error e => exact (hagain.failure e x hgo).elim
      | ok _ => exact ⟨rfl,hagain.result _ x hgo⟩

open Session in
/-- In a project with settings and one template, each starter file can be placed. -/
theorem clear_sampleProject : ∀ f ∈ files, Clear [] sampleProject.disk f := by
  have hnames : ∀ f ∈ files, ∀ n ∈ f.spot [], Path.IsName n := by decide +kernel
  have hway : ∀ f ∈ files, ∀ x ∈ sampleProject.disk.entries, x.1 <+: f.spot [] →
      x.2 = .directory ∨ (sampleProject.disk.entry? (f.spot [])).isSome := by decide +kernel
  intro f hf
  by_cases hthere : (sampleProject.disk.entry? (f.spot [])).isSome
  · exact .inl hthere
  · right
    rintro (⟨n,hn,hname⟩ | ⟨l,bytes,hl,hfile⟩)
    · exact hname (hnames f hf n hn)
    · have hne : l ≠ [] := by
        rintro rfl
        exact absurd hfile (by simp [Disk.entry?])
      rcases hway f hf _ ((Disk.entry?_eq_some_iff hne).mp hfile) hl with hdir | hsome
      · exact absurd hdir (by simp)
      · exact hthere hsome

open Session in
theorem create_union_sample :
    (Path.IsDirect "/" ∧ sampleProject.disk.IsTree ∧ files.reverse.Perm files ∧
      ((create "/").go sampleProject).1 = .ok ()) ∧
    ((create "/").go sampleProject).2.disk.entry? ["templates","home.html"] = some (.file "Home".toUTF8) ∧
    ((create "/").go sampleProject).2.disk.entry? ["templates","404.html"] =
      some (.file notFoundTemplate.toUTF8) ∧
    ((createIn files.reverse "/").go ((create "/").go sampleProject).2).2.disk =
      ((create "/").go sampleProject).2.disk := by
  obtain ⟨hroot,hplace⟩ := isDirect_root
  have hperm := List.reverse_perm files
  have hok : ((create "/").go sampleProject).1 = .ok () :=
    (createIn_ok_iff hroot (.refl files) isTree_sampleProject).mpr (hplace ▸ clear_sampleProject)
  obtain ⟨-,-,hunion⟩ := create_union hroot isTree_sampleProject hperm
  obtain ⟨hentry,-,-,hagain⟩ := hunion hok
  have hmine : sampleProject.disk.entry? ["templates","home.html"] = some (.file "Home".toUTF8) := by decide
  have hmissing : sampleProject.disk.entry? ["templates","404.html"] = none := by decide
  have hnew : starterEntry [] ["templates","404.html"] = some (.file notFoundTemplate.toUTF8) :=
    starterEntry_spot (f := ⟨"templates/404.html",notFoundTemplate⟩) List.mem_cons_self
  refine ⟨⟨hroot,isTree_sampleProject,hperm,hok⟩,?_,?_,hagain⟩
  · rw [hentry,hmine,Option.some_or]
  · rw [hentry,hmissing,Option.none_or,hplace,hnew]

end Starter

end BlogSite
