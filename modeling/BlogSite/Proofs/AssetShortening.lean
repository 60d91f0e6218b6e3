import BlogSite.Proofs.FileWriting
import BlogSite.Proofs.ProjectStarting
import BlogSite.Proofs.ShortCopies
import BlogSite.Proofs.SteadyBuild

/-!
The pass that puts a short copy beside each asset. It writes into the directories that it lists; but a copy
is never taken for an asset, so what is copied are the files that were there before, in whatever order they
are listed. All else stays as it is, and a second pass finds every copy in its place.
-/

namespace BlogSite

/-! ### Names of copies -/

namespace Minify

namespace Kind

variable {k k' : Kind} {name name' short short' : String}

/-- A file of the kind and its short copy, by their names. A file that is named as short copies are has no
copy. -/
def IsCopy (k : Kind) (name short : String) : Prop :=
  ∃ stem, name = stem ++ k.ending ∧ short = stem ++ k.shortEnding ∧
    ¬ k.shortEnding.toList <:+ name.toList

theorem shortName?_eq_some_iff : k.shortName? name = some short ↔ k.IsCopy name short := by
  have hsuffix : (Path.withoutEnding? k.shortEnding name).isSome ↔
      k.shortEnding.toList <:+ name.toList := by
    rw [Option.isSome_iff_exists]
    simp only [Path.withoutEnding?_eq_some_iff]
    constructor
    · rintro ⟨stem,rfl⟩
      simp
    · rintro ⟨t,ht⟩
      exact ⟨String.ofList t,String.toList_injective (by simp [ht])⟩
  unfold shortName? IsCopy
  cases hstem : Path.withoutEnding? k.ending name with
  | none =>
    simp only [false_iff,not_exists,reduceCtorEq]
    rintro stem ⟨hname,-⟩
    rw [Path.withoutEnding?_eq_some_iff.mpr hname] at hstem
    exact absurd hstem (by simp)
  | some stem =>
    obtain rfl := Path.withoutEnding?_eq_some_iff.mp hstem
    simp only [hsuffix,Option.ite_none_left_eq_some,Option.some.injEq]
    constructor
    · rintro ⟨hlong,rfl⟩
      exact ⟨stem,rfl,rfl,hlong⟩
    · rintro ⟨stem',heq,rfl,hlong⟩
      have hstems : stem = stem' := by simpa using heq
      exact ⟨hlong,by rw [hstems]⟩

/-- The names of copies depend on the folder alone. -/
theorem shortName?_congr (h : k.folder = k'.folder) (name : String) :
    k.shortName? name = k'.shortName? name := by
  obtain ⟨folder,label,compress⟩ := k
  obtain ⟨folder',label',compress'⟩ := k'
  obtain rfl : folder = folder' := h
  rfl

theorem asset_inj : k.asset name = k'.asset name' ↔ k.folder = k'.folder ∧ name = name' := by
  simp [asset]

/-- What is written by the pass is never read by it. -/
theorem asset_ne_asset (h : k.shortName? name = some short) (h' : k'.shortName? name' = some short') :
    k.asset short ≠ k'.asset name' := by
  intro heq
  obtain ⟨hfolder,rfl⟩ := asset_inj.mp heq
  rw [← shortName?_congr hfolder,shortName?_of_shortName? h] at h'
  exact absurd h' (by simp)

theorem eq_of_folder_eq {c : Compressors} (hk : k ∈ kinds c) (hk' : k' ∈ kinds c)
    (h : k.folder = k'.folder) : k = k' := by
  simp only [kinds,List.mem_cons,List.not_mem_nil,or_false] at hk hk'
  have hother : "css" ≠ "js" := by decide
  rcases hk with rfl | rfl <;> rcases hk' with rfl | rfl
  · rfl
  · exact absurd h hother
  · exact absurd h hother.symm
  · rfl

/-- Different assets have different copies. -/
theorem eq_of_asset_eq {c : Compressors} (hk : k ∈ kinds c) (hk' : k' ∈ kinds c)
    (h : k.shortName? name = some short) (h' : k'.shortName? name' = some short')
    (heq : k.asset short = k'.asset short') : k = k' ∧ name = name' := by
  obtain ⟨hfolder,rfl⟩ := asset_inj.mp heq
  obtain rfl := eq_of_folder_eq hk hk' hfolder
  have hlong := (longName?_eq_some_iff.mpr h).symm.trans (longName?_eq_some_iff.mpr h')
  exact ⟨rfl,Option.some.inj hlong⟩

theorem suffix_of_shortName? (h : k.shortName? name = some short) :
    k.ending.toList <:+ name.toList ∧ k.ending.toList <:+ short.toList := by
  obtain ⟨stem,rfl,rfl⟩ := shortName?_eq_some h
  refine ⟨by simp,?_⟩
  rw [shortEnding,String.toList_append,String.toList_append,← List.append_assoc]
  exact List.suffix_append _ _

end Kind

/-- What a tree has after short copies are made of the assets in a directory: beside each asset the
compressed text of it; and all else as it was, but for a log. -/
structure Shortens (c : Compressors) (out : Location) (log : Location → Prop) (d d' : Disk) : Prop where
  /-- Every asset is a text, and its compressed text is in the sibling. -/
  copied : ∀ k ∈ kinds c, ∀ name short, k.IsCopy name short → d.entry? (out ++ k.asset name) ≠ none →
    ∃ bytes text, d.entry? (out ++ k.asset name) = some (.file bytes) ∧ Text.ofBytes? bytes = some text ∧
      d'.entry? (out ++ k.asset short) = some (.file (k.compress text).toUTF8)
  /-- Only siblings of assets are written. -/
  kept : ∀ l, ¬ log l → (∀ k ∈ kinds c, ∀ name short, k.IsCopy name short →
    l = out ++ k.asset short → d.entry? (out ++ k.asset name) = none) → d'.entry? l = d.entry? l
  originals : ∀ k ∈ kinds c, ∀ name short, k.IsCopy name short →
    d'.entry? (out ++ k.asset name) = d.entry? (out ++ k.asset name)
  /-- No sibling is an asset that has a sibling itself. -/
  apart : ∀ k ∈ kinds c, ∀ name short, k.IsCopy name short → ∀ k' ∈ kinds c, ∀ name' short',
    k'.IsCopy name' short' → k.asset short ≠ k'.asset name'

end Minify

/-! ### Log files -/

namespace World

variable {w : World}

/-- No log file is named as assets are. -/
theorem LogNamed.not_logAt_asset (h : w.LogNamed) {c : Minify.Compressors} {k : Minify.Kind}
    (hk : k ∈ Minify.kinds c) {name : String} (hname : k.ending.toList <:+ name.toList) (out : Location) :
    ¬ w.LogAt (out ++ k.asset name) := by
  intro hl
  have hlog := h.isLogAt hl
  rw [show out ++ k.asset name = (out ++ ["assets",k.folder]) ++ [name] by simp [Minify.Kind.asset]] at hlog
  unfold Minify.Kind.ending at hname
  rcases Minify.folder_of_mem_kinds hk with hfolder | hfolder <;> rw [hfolder] at hname <;>
    exact Disk.not_isLogAt_concat _ hname (by decide) (by decide) hlog

theorem LogNamed.not_logAt_folder (h : w.LogNamed) {c : Minify.Compressors} {k : Minify.Kind}
    (hk : k ∈ Minify.kinds c) (out : Location) : ¬ w.LogAt (out ++ ["assets",k.folder]) := by
  intro hl
  have hlog := h.isLogAt hl
  rw [show out ++ ["assets",k.folder] = (out ++ ["assets"]) ++ [k.folder] by simp] at hlog
  rcases Minify.folder_of_mem_kinds hk with hfolder | hfolder <;> rw [hfolder] at hlog <;>
    exact Disk.not_isLogAt_concat _ List.suffix_rfl (by decide) (by decide) hlog

end World

namespace Site

/-! ### The first pass -/

/-- A world in the course of a pass, when copies of some assets have been made. -/
structure Shortening (s : Site) (done : Minify.Kind → String → Prop) (w u : World) : Prop where
  tree : u.disk.IsTree
  logFile : u.logFile = w.logFile
  copied : ∀ k ∈ Minify.kinds s.compressors, ∀ name short, done k name → k.shortName? name = some short →
    ∃ bytes text, w.disk.entry? (s.outputPlace ++ k.asset name) = some (.file bytes) ∧
      Text.ofBytes? bytes = some text ∧
      u.disk.entry? (s.outputPlace ++ k.asset short) = some (.file (k.compress text).toUTF8)
  kept : ∀ l, ¬ w.LogAt l → (∀ k ∈ Minify.kinds s.compressors, ∀ name short, done k name →
    k.shortName? name = some short → l ≠ s.outputPlace ++ k.asset short) →
    u.disk.entry? l = w.disk.entry? l

namespace Shortening

variable {s : Site} {done : Minify.Kind → String → Prop} {w u : World} {k : Minify.Kind}

theorem refl (h : w.disk.IsTree) : s.Shortening (fun _ _ => False) w w :=
  ⟨h,rfl,fun _ _ _ _ hdone => absurd hdone id,fun _ _ _ => rfl⟩

/-- It matters only which assets with copies are done. -/
theorem congr (h : s.Shortening done w u) {done' : Minify.Kind → String → Prop}
    (hdone : ∀ k ∈ Minify.kinds s.compressors, ∀ name short, k.shortName? name = some short →
      (done k name ↔ done' k name)) : s.Shortening done' w u where
  tree := h.tree
  logFile := h.logFile
  copied := fun k hk name short hname hshort =>
    h.copied k hk name short ((hdone k hk name short hshort).mpr hname) hshort
  kept := fun l hl hother => h.kept l hl fun k hk name short hname hshort =>
    hother k hk name short ((hdone k hk name short hshort).mp hname) hshort

/-- The assets are as they were. -/
theorem original (h : s.Shortening done w u) (hlog : w.LogNamed)
    (hk : k ∈ Minify.kinds s.compressors) {name short : String} (hshort : k.shortName? name = some short) :
    u.disk.entry? (s.outputPlace ++ k.asset name) = w.disk.entry? (s.outputPlace ++ k.asset name) := by
  refine h.kept _ (hlog.not_logAt_asset hk (Minify.Kind.suffix_of_shortName? hshort).1 _) ?_
  intro k' _ name' short' _ hshort' heq
  exact Minify.Kind.asset_ne_asset hshort' hshort (List.append_cancel_left heq).symm

/-- The directories of assets are as they were. -/
theorem folder (h : s.Shortening done w u) (hlog : w.LogNamed) (hk : k ∈ Minify.kinds s.compressors) :
    u.disk.entry? (s.outputPlace ++ ["assets",k.folder]) =
      w.disk.entry? (s.outputPlace ++ ["assets",k.folder]) := by
  refine h.kept _ (hlog.not_logAt_folder hk _) fun k' _ name short _ _ heq => ?_
  simpa [Minify.Kind.asset] using congrArg List.length heq

/-- One more copy is made. -/
theorem put (h : s.Shortening done w u) (hlog : w.LogNamed) (hk : k ∈ Minify.kinds s.compressors)
    {name short : String} (hshort : k.shortName? name = some short) {bytes : ByteArray} {text : String}
    (hfile : u.disk.entry? (s.outputPlace ++ k.asset name) = some (.file bytes))
    (htext : Text.ofBytes? bytes = some text) {d : Disk} (htree : d.IsTree)
    (hd : ∀ l, d.entry? l = if l = s.outputPlace ++ k.asset short then
      some (.file (k.compress text).toUTF8) else u.disk.entry? l) (r : Log.Record) :
    s.Shortening (fun k' name' => done k' name' ∨ k' = k ∧ name' = name) w
      (World.report { u with disk := d } r) := by
  have hreport : ∀ l, ¬ w.LogAt l →
      (World.report { u with disk := d } r).disk.entry? l = d.entry? l := fun l hl =>
    World.entry?_report { u with disk := d } r (mt (World.logAt_congr h.logFile).mp hl)
  have hcopies : ∀ k' ∈ Minify.kinds s.compressors, ∀ name' short', k'.shortName? name' = some short' →
      (World.report { u with disk := d } r).disk.entry? (s.outputPlace ++ k'.asset short') =
        d.entry? (s.outputPlace ++ k'.asset short') := fun k' hk' _ _ hshort' =>
    hreport _ (hlog.not_logAt_asset hk' (Minify.Kind.suffix_of_shortName? hshort').2 _)
  refine ⟨World.isTree_report htree r,h.logFile,?_,?_⟩
  · rintro k' hk' name' short' hname hshort'
    rw [hcopies k' hk' name' short' hshort',hd]
    by_cases hsame : k'.asset short' = k.asset short
    · obtain ⟨rfl,rfl⟩ := Minify.Kind.eq_of_asset_eq hk' hk hshort' hshort hsame
      exact ⟨bytes,text,(h.original hlog hk hshort).symm.trans hfile,htext,by rw [hsame,if_pos rfl]⟩
    · rw [if_neg fun heq => hsame (List.append_cancel_left heq)]
      rcases hname with hname | ⟨rfl,rfl⟩
      · exact h.copied k' hk' name' short' hname hshort'
      · exact absurd (by rw [Option.some.inj (hshort'.symm.trans hshort)]) hsame
  · intro l hl hother
    rw [hreport l hl,hd,if_neg (hother k hk name short (Or.inr ⟨rfl,rfl⟩) hshort)]
    exact h.kept l hl fun k' hk' name' short' hname => hother k' hk' name' short' (Or.inl hname)

variable (hs : Path.IsDirect s.paths.outputDir)
include hs

theorem file (h : s.Shortening done w u) (hlog : w.LogNamed) (hk : k ∈ Minify.kinds s.compressors)
    {name : String} (hname : Path.IsStep name) :
    (Minify.file k (Path.joinAll s.paths.outputDir ["assets",k.folder]) name).Meets u
      (fun _ => s.Shortening (fun k' name' => done k' name' ∨ k' = k ∧ name' = name) w)
      fun _ _ => True := by
  have hfolder := Minify.isStep_folder hk
  cases hshort : k.shortName? name with
  | none =>
    unfold Minify.file
    rw [hshort]
    refine (Run.meets_pure _).mpr (h.congr fun k' _ name' short' hshort' => ?_)
    refine ⟨Or.inl,fun hdone => hdone.resolve_right ?_⟩
    rintro ⟨rfl,rfl⟩
    exact absurd (hshort.symm.trans hshort') (by simp)
  | some short =>
    obtain ⟨hpath,hgoal⟩ := place_asset hs hfolder
      (Minify.Kind.isStep_of_shortName? hfolder hname hshort)
    refine meets_minifyFile hs hfolder h.tree hname hshort ?_ fun _ _ => trivial
    intro bytes text d hfile htext hd
    obtain ⟨htree,hentry⟩ := h.tree.write hpath hd
    rw [hgoal] at hentry
    exact h.put hlog hk hshort hfile htext htree hentry _

/-- All files of a kind get their copies, unless there is a file in the place of their directory. -/
theorem kind (h : s.Shortening done w u) (hlog : w.LogNamed) (hk : k ∈ Minify.kinds s.compressors) :
    (Minify.kind s.paths.outputDir k).Meets u
      (fun _ v => s.Shortening (fun k' name =>
        done k' name ∨ k' = k ∧ u.disk.entry? (s.outputPlace ++ k.asset name) ≠ none) w v ∧
        ∀ bytes, u.disk.entry? (s.outputPlace ++ ["assets",k.folder]) ≠ some (.file bytes))
      fun _ _ => True := by
  refine meets_minifyKind hs (Minify.isStep_folder hk) h.tree (fun hdir => ?_) (fun hnone => ?_)
    fun _ _ _ => trivial
  · refine (Run.meets_forM_append (I := fun copied v =>
      s.Shortening (fun k' name => done k' name ∨ k' = k ∧ name ∈ copied) w v)
      (fun copied name rest hall v hv => ?_) ?_).imp
      (fun _ v hv => ⟨hv.congr ?_,by simp [hdir]⟩) fun _ _ => id
    · have hname : Path.IsStep name := isStep_of_mem_assetNames h.tree (by rw [hall]; simp)
      refine (hv.file hs hlog hk hname).imp (fun _ v' hv' => hv'.congr ?_) fun _ _ => id
      intro k' _ name' _ _
      simp only [List.mem_append,List.mem_singleton,or_assoc,and_or_left]
    · exact h.congr fun k' _ name _ _ => by simp
    · intro k' _ name _ _
      rw [mem_assetNames_iff]
  · refine ⟨h.congr fun k' _ name _ _ => ?_,by simp [hnone]⟩
    simp [entry?_asset_of_folder h.tree hnone name]

/-- All assets get their copies. -/
theorem assets (hw : w.disk.IsTree) (hlog : w.LogNamed) :
    (Minify.assets s.compressors s.paths.outputDir).Meets w
      (fun _ v => s.Shortening (fun k name => w.disk.entry? (s.outputPlace ++ k.asset name) ≠ none) w v ∧
        ∀ k ∈ Minify.kinds s.compressors, ∀ bytes,
          w.disk.entry? (s.outputPlace ++ ["assets",k.folder]) ≠ some (.file bytes))
      fun _ _ => True := by
  unfold Minify.assets
  refine (Run.meets_forM_append (I := fun ks v =>
    s.Shortening (fun k name => k ∈ ks ∧ w.disk.entry? (s.outputPlace ++ k.asset name) ≠ none) w v ∧
      ∀ k ∈ ks, ∀ bytes, w.disk.entry? (s.outputPlace ++ ["assets",k.folder]) ≠ some (.file bytes))
    (fun ks k rest hall v hv => ?_) ⟨?_,by simp⟩).imp (fun _ v hv => ⟨hv.1.congr ?_,hv.2⟩) fun _ _ => id
  · have hk : k ∈ Minify.kinds s.compressors := by rw [hall]; simp
    refine (hv.1.kind hs hlog hk).imp (fun _ v' hv' => ⟨hv'.1.congr ?_,?_⟩) fun _ _ => id
    · intro k' hk' name short hshort
      have hsame := hv.1.original hlog hk' hshort
      simp only [List.mem_append,List.mem_singleton]
      constructor
      · rintro (⟨hmem,hname⟩ | ⟨rfl,hname⟩)
        · exact ⟨Or.inl hmem,hname⟩
        · exact ⟨Or.inr rfl,hsame ▸ hname⟩
      · rintro ⟨hmem | rfl,hname⟩
        · exact Or.inl ⟨hmem,hname⟩
        · exact Or.inr ⟨rfl,hsame.symm ▸ hname⟩
    · intro k' hmem bytes hfile
      rcases List.mem_append.mp hmem with hmem | hmem
      · exact hv.2 k' hmem bytes hfile
      · obtain rfl := List.mem_singleton.mp hmem
        exact hv'.2 bytes ((hv.1.folder hlog hk).trans hfile)
  · exact (refl hw).congr fun k _ name _ _ => by simp
  · exact fun k hk name _ _ => by simp [hk]

end Shortening

/-! ### A second pass -/

/-- The copy of every asset is in its place. -/
structure Settled (s : Site) (w : World) : Prop where
  folders : ∀ k ∈ Minify.kinds s.compressors, ∀ bytes,
    w.disk.entry? (s.outputPlace ++ ["assets",k.folder]) ≠ some (.file bytes)
  copied : ∀ k ∈ Minify.kinds s.compressors, ∀ name short, k.shortName? name = some short →
    w.disk.entry? (s.outputPlace ++ k.asset name) ≠ none →
    ∃ bytes text, w.disk.entry? (s.outputPlace ++ k.asset name) = some (.file bytes) ∧
      Text.ofBytes? bytes = some text ∧
      w.disk.entry? (s.outputPlace ++ k.asset short) = some (.file (k.compress text).toUTF8)

/-- Nothing has changed but for the log file. -/
structure Unchanged (w u : World) : Prop where
  tree : u.disk.IsTree
  logFile : u.logFile = w.logFile
  entry : ∀ l, ¬ w.LogAt l → u.disk.entry? l = w.disk.entry? l

variable {s : Site} {w u : World} {k : Minify.Kind}

theorem Unchanged.report (h : Unchanged w u) (r : Log.Record) : Unchanged w (u.report r) :=
  ⟨World.isTree_report h.tree r,h.logFile,fun l hl =>
    (u.entry?_report r (mt (World.logAt_congr h.logFile).mp hl)).trans (h.entry l hl)⟩

section

variable (hs : Path.IsDirect s.paths.outputDir) (hlog : w.LogNamed) (hset : s.Settled w)
include hs hlog hset

/-- A copy is written again with the same text. -/
theorem Unchanged.file (h : Unchanged w u) (hk : k ∈ Minify.kinds s.compressors) {name : String}
    (hname : Path.IsStep name) (hthere : ∀ short, k.shortName? name = some short →
      w.disk.entry? (s.outputPlace ++ k.asset name) ≠ none) :
    (Minify.file k (Path.joinAll s.paths.outputDir ["assets",k.folder]) name).Meets u
      (fun _ => Unchanged w) fun _ _ => False := by
  have hfolder := Minify.isStep_folder hk
  cases hshort : k.shortName? name with
  | none =>
    unfold Minify.file
    rw [hshort]
    exact (Run.meets_pure _).mpr h
  | some short =>
    obtain ⟨hpath,hgoal⟩ := place_asset hs hfolder
      (Minify.Kind.isStep_of_shortName? hfolder hname hshort)
    obtain ⟨hends,hends'⟩ := Minify.Kind.suffix_of_shortName? hshort
    obtain ⟨bytes,text,hfile,htext,hcopy⟩ := hset.copied k hk name short hshort (hthere short hshort)
    rw [← h.entry _ (hlog.not_logAt_asset hk hends _)] at hfile
    rw [← h.entry _ (hlog.not_logAt_asset hk hends' _)] at hcopy
    refine meets_minifyFile hs hfolder h.tree hname hshort ?_ fun hbad _ => ?_
    · intro bytes' text' d hfile' htext' hd
      obtain rfl : bytes = bytes' := by simpa using hfile.symm.trans hfile'
      obtain rfl : text = text' := Option.some.inj (htext.symm.trans htext')
      obtain ⟨htree,hentry⟩ := h.tree.write hpath hd
      rw [hgoal] at hentry
      have hsame : Unchanged w { u with disk := d } := by
        refine ⟨htree,h.logFile,fun l hl => (hentry l).trans ?_⟩
        split
        · rename_i heq
          rw [heq,← hcopy,h.entry _ (hlog.not_logAt_asset hk hends' _)]
        · exact h.entry l hl
      exact hsame.report _
    · obtain ⟨d,hd⟩ := h.tree.exists_write hpath (hgoal ▸ hcopy) (k.compress text).toUTF8
      exact hbad bytes text d hfile htext hd

theorem Unchanged.kind (h : Unchanged w u) (hk : k ∈ Minify.kinds s.compressors) :
    (Minify.kind s.paths.outputDir k).Meets u (fun _ => Unchanged w) fun _ _ => False := by
  refine meets_minifyKind hs (Minify.isStep_folder hk) h.tree (fun _ => ?_) (fun _ => h) fun bytes hfile => ?_
  · refine Run.meets_forM_append (I := fun _ => Unchanged w) (fun _ name rest hall v hv => ?_) h
    have hmem : name ∈ Path.sortedNames (u.disk.names (s.outputPlace ++ ["assets",k.folder])) := by
      rw [hall]
      simp
    refine hv.file hs hlog hset hk (isStep_of_mem_assetNames h.tree hmem) fun short hshort => ?_
    have hends := (Minify.Kind.suffix_of_shortName? hshort).1
    rw [← h.entry _ (hlog.not_logAt_asset hk hends _)]
    exact mem_assetNames_iff.mp hmem
  · rw [h.entry _ (hlog.not_logAt_folder hk _)] at hfile
    exact absurd hfile (hset.folders k hk bytes)

/-- A pass over a site that has its copies changes nothing. -/
theorem Settled.assets (hw : w.disk.IsTree) :
    (Minify.assets s.compressors s.paths.outputDir).Meets w (fun _ => Unchanged w) fun _ _ => False := by
  unfold Minify.assets
  refine Run.meets_forM_append (I := fun _ => Unchanged w) (fun _ k rest hall v hv => ?_)
    ⟨hw,rfl,fun _ _ => rfl⟩
  exact hv.kind hs hlog hset (by rw [hall]; simp)

end

/-- A pass that returns leaves a site that has its copies. -/
theorem Shortening.settled {v : World}
    (h : s.Shortening (fun k name => w.disk.entry? (s.outputPlace ++ k.asset name) ≠ none) w v)
    (hlog : w.LogNamed) (hfolders : ∀ k ∈ Minify.kinds s.compressors, ∀ bytes,
      w.disk.entry? (s.outputPlace ++ ["assets",k.folder]) ≠ some (.file bytes)) : s.Settled v := by
  refine ⟨fun k hk bytes hfile => ?_,fun k hk name short hshort hthere => ?_⟩
  · exact hfolders k hk bytes ((h.folder hlog hk).symm.trans hfile)
  · have hsame := h.original hlog hk hshort
    rw [hsame] at hthere ⊢
    exact h.copied k hk name short hthere hshort

theorem Shortening.shortens {v : World}
    (h : s.Shortening (fun k name => w.disk.entry? (s.outputPlace ++ k.asset name) ≠ none) w v)
    (hlog : w.LogNamed) :
    Minify.Shortens s.compressors s.outputPlace w.LogAt w.disk v.disk := by
  refine ⟨fun k hk name short hcopy hthere => ?_,fun l hl hother => ?_,fun k hk name short hcopy => ?_,?_⟩
  · exact h.copied k hk name short hthere (Minify.Kind.shortName?_eq_some_iff.mpr hcopy)
  · refine h.kept l hl fun k hk name short hthere hshort heq => ?_
    exact hthere (hother k hk name short (Minify.Kind.shortName?_eq_some_iff.mp hshort) heq)
  · exact h.original hlog hk (Minify.Kind.shortName?_eq_some_iff.mpr hcopy)
  · intro k _ name short hcopy k' _ name' short' hcopy'
    exact Minify.Kind.asset_ne_asset (Minify.Kind.shortName?_eq_some_iff.mpr hcopy)
      (Minify.Kind.shortName?_eq_some_iff.mpr hcopy')

/-- A pass that returns makes the copies, and a second one returns and changes nothing. -/
theorem shortens_of_go_assets (hs : Path.IsDirect s.paths.outputDir) (hw : w.disk.IsTree)
    (hlog : w.LogNamed) {v : World}
    (hgo : (Minify.assets s.compressors s.paths.outputDir).go w = (.ok (),v)) :
    v.disk.IsTree ∧ v.logFile = w.logFile ∧
      Minify.Shortens s.compressors s.outputPlace w.LogAt w.disk v.disk ∧
      ∃ v', (Minify.assets s.compressors s.paths.outputDir).go v = (.ok (),v') ∧
        ∀ l, ¬ w.LogAt l → v'.disk.entry? l = v.disk.entry? l := by
  obtain ⟨hshort,hfolders⟩ := (Shortening.assets hs hw hlog).result () v hgo
  have hlog' : v.LogNamed := by
    unfold World.LogNamed
    rw [hshort.logFile]
    exact hlog
  have hsecond := Settled.assets hs hlog' (hshort.settled hlog hfolders) hshort.tree
  refine ⟨hshort.tree,hshort.logFile,hshort.shortens hlog,?_⟩
  cases hagain : (Minify.assets s.compressors s.paths.outputDir).go v with
  | mk r v' =>
    cases r with
    | error f => exact (hsecond.failure f v' hagain).elim
    | ok _ =>
      exact ⟨v',rfl,fun l hl => (hsecond.result () v' hagain).entry l
        (mt (World.logAt_congr hshort.logFile).mp hl)⟩

/-! ### The order of a listing -/

/-- The pass does the same to a tree with the same entries in any order. -/
theorem go_assets_of_entry_eq (s : Site) {w : World} {d : Disk}
    (hd : ∀ l, d.entry? l = w.disk.entry? l) :
    ((Minify.assets s.compressors s.paths.outputDir).go { w with disk := d }).1 =
        ((Minify.assets s.compressors s.paths.outputDir).go w).1 ∧
      ∀ l, ((Minify.assets s.compressors s.paths.outputDir).go { w with disk := d }).2.disk.entry? l =
        ((Minify.assets s.compressors s.paths.outputDir).go w).2.disk.entry? l := by
  have halike : World.Alike Location.Nowhere Location.Nowhere { w with disk := d } w :=
    World.alike_of_logFile_eq (.of_eq hd) rfl rfl
  have hsteady := (Site.steadily_alike (X := Location.Nowhere) (fun _ hl => absurd hl id)
    { s with minify := true } []).shorten
  have hpass : shorten { s with minify := true } = Minify.assets s.compressors s.paths.outputDir := rfl
  rw [hpass] at hsteady
  exact ⟨hsteady.result halike,fun l => (hsteady.world halike).disk.entry l id id⟩

end Site

end BlogSite
