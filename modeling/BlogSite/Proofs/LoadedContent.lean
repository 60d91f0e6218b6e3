import BlogSite.BlogList
import BlogSite.Proofs.DiskAgreement
import BlogSite.Proofs.InvalidPosts
import BlogSite.Proofs.OutputReset

/-!
What is loaded depends on the content directory alone. Trees that agree below it but for the bytes of
log files give the same blogs and the same posts; loading changes nothing but the log.
-/

namespace BlogSite

/-! ### Runs that only report -/

/-- A run that does nothing to the world but report. -/
def Run.Quiet {α : Type} (r : Run α) : Prop :=
  ∀ I : World → Prop, (∀ w m, I w → I (w.report m)) → ∀ w, I w →
    r.Meets w (fun _ => I) fun _ => I

namespace Run

variable {α β : Type}

theorem quiet_of_go {r : Run α} (h : ∀ w, (r.go w).2 = w) : r.Quiet := by
  intro I _ w hw
  refine ⟨fun a v hgo => ?_,fun f v hgo => ?_⟩
  · have hv := (congrArg Prod.snd hgo).symm.trans (h w)
    exact (show v = w from hv) ▸ hw
  · have hv := (congrArg Prod.snd hgo).symm.trans (h w)
    exact (show v = w from hv) ▸ hw

theorem quiet_pure (a : α) : (pure a : Run α).Quiet := quiet_of_go fun _ => rfl

theorem quiet_throw (f : Failure) : (throw f : Run α).Quiet := quiet_of_go fun _ => rfl

theorem quiet_settle (r : Except Failure α) : (settle r).Quiet := quiet_of_go fun _ => rfl

theorem quiet_ask (q : Disk → α) : (ask q).Quiet := quiet_of_go fun _ => rfl

theorem quiet_get : (get : Run World).Quiet := quiet_of_go fun _ => rfl

theorem quiet_fetch (q : Disk → Except DiskFault α) : (fetch q).Quiet := by
  apply quiet_of_go
  intro w
  rw [go_fetch]
  cases q w.disk <;> rfl

theorem quiet_readText (p : String) : (readText p).Quiet :=
  quiet_of_go fun w => by rw [go_readText]

theorem quiet_report (source : Log.Source) (level : Log.Level) (message : String) :
    (report source level message).Quiet :=
  fun _ hI w hw => (meets_report source level message).mpr (hI w _ hw)

theorem Quiet.bind {x : Run α} {k : α → Run β} (hx : x.Quiet) (hk : ∀ a, (k a).Quiet) :
    (x >>= k).Quiet :=
  fun I hI w hw => (hx I hI w hw).bind fun a v hv => hk a I hI v hv

end Run

namespace PostFolder

theorem quiet_loadFile (f : PostFolder) (blog item slug : String) :
    (f.loadFile blog item slug).Quiet := by
  unfold loadFile
  refine (Run.quiet_readText _).bind fun text => (Run.quiet_settle _).bind fun r => ?_
  cases r with
  | draft => exact (Run.quiet_report _ _ _).bind fun _ => Run.quiet_pure _
  | published post => exact Run.quiet_pure _

theorem quiet_loadFiles (f : PostFolder) (blog : String) (items : List String) :
    (f.loadFiles blog items).Quiet := by
  induction items with
  | nil => exact Run.quiet_pure _
  | cons item items ih =>
    unfold loadFiles
    cases Path.withoutEnding? ending item with
    | none => exact ih
    | some slug =>
      refine (f.quiet_loadFile blog item slug).bind fun post => ?_
      exact ih.bind fun posts => Run.quiet_pure _

theorem quiet_load (f : PostFolder) (blog : String) : (f.load blog).Quiet := by
  unfold load
  refine (Run.quiet_ask _).bind fun isDirectory => ?_
  split
  · refine (Run.quiet_fetch _).bind fun items => ?_
    exact (f.quiet_loadFiles blog _).bind fun posts => Run.quiet_pure _
  · exact (Run.quiet_report _ _ _).bind fun _ => Run.quiet_pure _

end PostFolder

theorem BlogList.quiet_load (p : String) : (BlogList.load p).Quiet := by
  unfold BlogList.load
  refine (Run.quiet_ask _).bind fun isThere => ?_
  split
  · exact (Run.quiet_readText p).bind fun _ => Run.quiet_settle _
  · exact Run.quiet_throw _

/-! ### Content directories that agree -/

/-- Trees that agree at and below a location but for the bytes of log files. -/
structure Disk.SameBelow (at_ : Location) (d d' : Disk) : Prop where
  kind : ∀ r, Entry.SameKind (d.entry? (at_ ++ r)) (d'.entry? (at_ ++ r))
  entry : ∀ r, ¬ Disk.IsLogAt (at_ ++ r) → d.entry? (at_ ++ r) = d'.entry? (at_ ++ r)

namespace Disk

variable {at_ : Location} {d d' : Disk}

theorem SameBelow.symm (h : SameBelow at_ d d') : SameBelow at_ d' d :=
  ⟨fun r => (h.kind r).symm,fun r hr => (h.entry r hr).symm⟩

/-- Direct paths to one entry lead to one text. -/
theorem IsTree.textAt_eq_of_entry (hd : d.IsTree) (hd' : d'.IsTree) {p p' : String}
    (hp : Path.IsDirect p) (hp' : Path.IsDirect p') {entry : Entry}
    (he : d.entry? (Path.place p) = some entry) (he' : d'.entry? (Path.place p') = some entry) :
    d'.textAt p' = d.textAt p := by
  have hlocate : d.locate p = .ok (Path.place p) := by rw [locate_eq_reach d hp,hd.reach_eq he]
  have hlocate' : d'.locate p' = .ok (Path.place p') := by
    rw [locate_eq_reach d' hp',hd'.reach_eq he']
  have hread : d'.read p' = d.read p := by
    simp only [read,hlocate,hlocate',he,he',bind,Except.bind]
  unfold textAt
  rw [hread]

/-- Directories of two trees that agree but for the bytes of log files. -/
structure SameAt (l l' : Location) (d d' : Disk) : Prop where
  kind : ∀ r, Entry.SameKind (d.entry? (l ++ r)) (d'.entry? (l' ++ r))
  entry : ∀ r, ¬ IsLogAt (l ++ r) → d.entry? (l ++ r) = d'.entry? (l' ++ r)

theorem SameBelow.sameAt (h : SameBelow at_ d d') (r : Location) : SameAt (at_ ++ r) (at_ ++ r) d d' :=
  ⟨fun k => by simpa using h.kind (r ++ k),fun k hk => by simpa using h.entry (r ++ k) (by simpa using hk)⟩

theorem SameAt.sortedNames_eq {l l' : Location} (h : SameAt l l' d d') :
    Path.sortedNames (d.names l) = Path.sortedNames (d'.names l') := by
  apply Path.sortedNames_eq_of_perm
  rw [List.perm_ext_iff_of_nodup (d.nodup_names _) (d'.nodup_names _)]
  intro n
  rw [mem_names_iff,mem_names_iff,← Option.ne_none_iff_exists',← Option.ne_none_iff_exists']
  exact not_congr (h.kind [n]).none_iff

end Disk

/-- The start of a build changes nothing that is loaded. -/
theorem World.IsSound.sameBelow_opened {w : World} (h : w.IsSound) (at_ : Location) :
    Disk.SameBelow at_ w.opened.disk w.disk := by
  refine ⟨fun r => w.sameShape_opened _,fun r hr => ?_⟩
  exact World.entry?_report { w with pages := #[] } _ fun hlog => hr (h.named.isLogAt hlog)

/-- What holds a text is there. -/
theorem Disk.isThere_of_textAt {d : Disk} {p t : String} (h : d.textAt p = .ok t) :
    d.isThere p = true := by
  unfold textAt read at h
  unfold isThere lookup?
  cases hl : d.locate p with
  | error f => simp [hl,bind,Except.bind] at h
  | ok l =>
    cases he : d.entry? l with
    | none => simp [hl,he,bind,Except.bind] at h
    | some e => simp [he]

/-- The blogs of a list depend on the text of its file alone. -/
theorem BlogList.load_eq_ok_iff {p : String} {w : World} {blogs : List Blog} :
    ((BlogList.load p).go w).1 = .ok blogs ↔
      ∃ t, w.disk.textAt p = .ok t ∧ BlogList.ofText p t = .ok blogs := by
  unfold BlogList.load
  rw [Run.go_bind,Run.go_ask]
  simp only
  split
  · rw [Run.go_bind,Run.go_readText]
    cases w.disk.textAt p with
    | error f => simp
    | ok t => simp
  · rename_i hmissing
    simp only [Run.go_throw,reduceCtorEq,false_iff,not_exists,not_and]
    intro t ht
    exact absurd (Disk.isThere_of_textAt ht) hmissing

namespace PostFolder

variable {f : PostFolder} {blog : String} {w w' : World}

theorem isDirect_directory (hf : Path.IsDirect f.content) (hblog : Path.IsStep blog) :
    Path.IsDirect (f.directory blog) ∧
      Path.place (f.directory blog) = Path.place f.content ++ ["blogs",blog,"posts"] := by
  apply hf.joinAll
  have hfixed : Path.IsStep "blogs" ∧ Path.IsStep "posts" := by decide
  simpa using ⟨hfixed.1,hblog,hfixed.2⟩

theorem load_eq_ok_iff (hw : w.IsSound) (hdirect : Path.IsDirect (f.directory blog))
    {posts : List Post} : ((f.load blog).go w).1 = .ok posts ↔
      (w.disk.entry? (Path.place (f.directory blog)) ≠ some .directory ∧ posts = []) ∨
      (w.disk.entry? (Path.place (f.directory blog)) = some .directory ∧ ∃ found,
        readAll (f.reading w.disk blog)
          (Path.sortedNames (w.disk.names (Path.place (f.directory blog)))) = .ok found ∧
        posts = newestFirst Post.date found) := by
  unfold load
  rw [Run.go_bind,Run.go_ask]
  simp only
  split
  · rename_i hdir
    rw [hw.tree.isDirectory_iff hdirect] at hdir
    have hlist := (hw.tree.list_eq_ok_iff hdirect).mpr ⟨hdir,rfl⟩
    have hfiles : ((f.loadFiles blog _).go w).1 = _ :=
      go_loadFiles hw.named (Path.sortedNames (w.disk.names (Path.place (f.directory blog))))
    rw [Run.go_bind,Run.go_fetch,hlist]
    simp only [hdir,ne_eq,not_true_eq_false,false_and,true_and,false_or]
    rw [Run.go_bind,← hfiles]
    generalize (f.loadFiles blog _).go w = r
    obtain ⟨r,v⟩ := r
    cases r with
    | error e => simp
    | ok found => simp [eq_comm]
  · rename_i hdir
    rw [hw.tree.isDirectory_iff hdirect] at hdir
    rw [Run.go_bind,Run.go_report]
    simp [hdir,eq_comm]

/-- The names of the files that posts were read from are among those that were gone through. -/
theorem sublist_of_readAll {reading : String → String → Except Failure Post.Reading}
    (hreading : ∀ item slug post, reading item slug = .ok (.published post) → post.slug = slug)
    {items : List String} {found : List Post} (hfound : readAll reading items = .ok found) :
    (found.map fun p => p.slug ++ ending).Sublist items := by
  induction items generalizing found with
  | nil =>
    obtain rfl := Except.ok.inj hfound
    exact List.Sublist.slnil
  | cons item items ih =>
    unfold readAll at hfound
    cases hslug : Path.withoutEnding? ending item with
    | none =>
      simp only [hslug] at hfound
      exact (ih hfound).cons _
    | some slug =>
      have hitem := Path.withoutEnding?_eq_some_iff.mp hslug
      cases hr : reading item slug with
      | error e => simp [hslug,hr] at hfound
      | ok r =>
        simp only [hslug,hr] at hfound
        cases r with
        | draft => exact (ih hfound).cons _
        | published post =>
          cases htail : readAll reading items with
          | error e => simp [htail,Except.map] at hfound
          | ok tail =>
            simp only [htail,Except.map,Except.ok.injEq] at hfound
            subst hfound
            rw [hitem,← hreading item slug post hr]
            exact (ih htail).cons_cons _

theorem slug_of_reading {d : Disk} {item slug : String} {post : Post}
    (h : f.reading d blog item slug = .ok (.published post)) : post.slug = slug := by
  obtain ⟨metadata,body,-,-,hpost⟩ := reading_eq_ok_iff.mp h
  split at hpost
  · exact absurd hpost (by simp)
  · rw [Post.Reading.published.inj hpost]
    rfl

/-- The path of a file in the directory with the posts leads straight to it. -/
theorem isDirect_pathOf (hdirect : Path.IsDirect (f.directory blog)) {item : String}
    (hitem : Path.IsStep item) : Path.IsDirect (f.pathOf blog item) ∧
      Path.place (f.pathOf blog item) = Path.place (f.directory blog) ++ [item] :=
  hdirect.join_step hitem

/-- A post file reads alike where it is the same entry. -/
theorem reading_eq_of_entry {f' : PostFolder} (hyaml : f.yaml = f'.yaml) {d d' : Disk} (hd : d.IsTree)
    (hd' : d'.IsTree) (hf : Path.IsDirect (f.directory blog)) (hf' : Path.IsDirect (f'.directory blog))
    {item : String} {e : Entry} (he : d.entry? (Path.place (f.directory blog) ++ [item]) = some e)
    (he' : d'.entry? (Path.place (f'.directory blog) ++ [item]) = some e) (slug : String) :
    f'.reading d' blog item slug = f.reading d blog item slug := by
  have hstep : Path.IsStep item := (hd.named _ _ he item (by simp)).toIsStep
  obtain ⟨hpath,hat⟩ := isDirect_pathOf hf hstep
  obtain ⟨hpath',hat'⟩ := isDirect_pathOf hf' hstep
  rw [← hat] at he
  rw [← hat'] at he'
  rw [reading,reading,hd.textAt_eq_of_entry hd' hpath hpath' he he',hyaml]

/-- A post file is no log file. -/
theorem not_isLogAt_item (l : Location) {item slug : String} (hslug : item = slug ++ ending) :
    ¬ Disk.IsLogAt (l ++ [item]) :=
  Disk.not_isLogAt_concat l (e := ending.toList) (by simp [hslug]) (by decide) (by decide)

/-- Directories that agree give the same posts, or the same failure. -/
theorem load_eq_of_sameAt {f' : PostFolder} (hyaml : f.yaml = f'.yaml) (hw : w.IsSound)
    (hw' : w'.IsSound) (hf : Path.IsDirect (f.directory blog)) (hf' : Path.IsDirect (f'.directory blog))
    (h : Disk.SameAt (Path.place (f.directory blog)) (Path.place (f'.directory blog)) w.disk w'.disk) :
    ((f'.load blog).go w').1 = ((f.load blog).go w).1 := by
  have hkind := h.kind []
  rw [List.append_nil,List.append_nil] at hkind
  by_cases hdir : w.disk.entry? (Path.place (f.directory blog)) = some .directory
  · have hlist := (hw.tree.list_eq_ok_iff hf).mpr ⟨hdir,rfl⟩
    have hlist' := (hw'.tree.list_eq_ok_iff hf').mpr ⟨hkind.directory_iff.mp hdir,rfl⟩
    rw [go_load_of_list hlist hw.named,go_load_of_list hlist' hw'.named,h.sortedNames_eq.symm]
    refine congrArg _ (readAll_congr fun item hitem slug hslug => ?_)
    obtain ⟨e,he⟩ := Disk.mem_names_iff.mp ((Path.sortedNames_perm _).mem_iff.mp hitem)
    have hlog := not_isLogAt_item (Path.place (f.directory blog)) (Path.withoutEnding?_eq_some_iff.mp hslug)
    exact reading_eq_of_entry hyaml hw.tree hw'.tree hf hf' he ((h.entry [item] hlog).symm.trans he) slug
  · have hdir' := fun h => hdir (hkind.directory_iff.mpr h)
    rw [(load_eq_ok_iff hw hf).mpr (Or.inl ⟨hdir,rfl⟩),(load_eq_ok_iff hw' hf').mpr (Or.inl ⟨hdir',rfl⟩)]

/-- Content directories that agree give the same posts, or the same failure. -/
theorem load_eq_of_sameBelow (hw : w.IsSound) (hw' : w'.IsSound) (hf : Path.IsDirect f.content)
    (hblog : Path.IsStep blog) (h : Disk.SameBelow (Path.place f.content) w.disk w'.disk) :
    ((f.load blog).go w').1 = ((f.load blog).go w).1 := by
  obtain ⟨hdirect,hplace⟩ := isDirect_directory hf hblog
  have hsame := h.sameAt ["blogs",blog,"posts"]
  rw [← hplace] at hsame
  exact load_eq_of_sameAt rfl hw hw' hdirect hdirect hsame

theorem load_eq_ok_of_sameBelow (hw : w.IsSound) (hw' : w'.IsSound) (hf : Path.IsDirect f.content)
    (hblog : Path.IsStep blog) (h : Disk.SameBelow (Path.place f.content) w.disk w'.disk)
    {posts : List Post} (hload : ((f.load blog).go w).1 = .ok posts) :
    ((f.load blog).go w').1 = .ok posts :=
  (load_eq_of_sameBelow hw hw' hf hblog h).trans hload

/-- The posts of a blog have pages of their own: their names are steps, and no two are the same. -/
theorem slugs_of_load (hw : w.IsSound) (hf : Path.IsDirect f.content) (hblog : Path.IsStep blog)
    {posts : List Post} (hload : ((f.load blog).go w).1 = .ok posts) :
    (∀ p ∈ posts, '/' ∉ p.slug.toList) ∧ (posts.map Post.slug).Nodup := by
  obtain ⟨hdirect,hplace⟩ := isDirect_directory hf hblog
  rcases (load_eq_ok_iff hw hdirect).mp hload with ⟨-,rfl⟩ | ⟨-,found,hfound,rfl⟩
  · simp
  · have hsub := sublist_of_readAll (fun _ _ _ => slug_of_reading) hfound
    have hperm := newestFirst_perm Post.date found
    have hnodup : (found.map fun p => p.slug ++ ending).Nodup :=
      ((Path.sortedNames_perm _).nodup_iff.mpr (w.disk.nodup_names _)).sublist hsub
    constructor
    · intro p hp hslash
      have hitem : p.slug ++ ending ∈ found.map fun p => p.slug ++ ending :=
        List.mem_map_of_mem (hperm.mem_iff.mp hp)
      obtain ⟨e,he⟩ := Disk.mem_names_iff.mp ((Path.sortedNames_perm _).mem_iff.mp (hsub.subset hitem))
      have hstep := hw.tree.named _ _ he (p.slug ++ ending) (by simp)
      exact hstep.noSlash (by simp [hslash])
    · rw [(hperm.map Post.slug).nodup_iff]
      refine List.Nodup.of_map (fun slug => slug ++ ending) ?_
      rwa [List.map_map]

end PostFolder

theorem SitePaths.isDirect_blogList {p : SitePaths} (hp : Path.IsDirect p.contentDir) :
    Path.IsDirect p.blogList ∧ Path.place p.blogList = Path.place p.contentDir ++ ["blogs.json"] :=
  hp.join_step (by decide)

/-- Where the file of the list is the same entry, the same blogs are listed. -/
theorem BlogList.load_eq_ok_of_entry {w w' : World} (hw : w.IsSound) (hw' : w'.IsSound) {p : SitePaths}
    (hp : Path.IsDirect p.contentDir)
    (h : w'.disk.entry? (Path.place p.contentDir ++ ["blogs.json"]) =
      w.disk.entry? (Path.place p.contentDir ++ ["blogs.json"])) {blogs : List Blog}
    (hload : ((BlogList.load p.blogList).go w).1 = .ok blogs) :
    ((BlogList.load p.blogList).go w').1 = .ok blogs := by
  obtain ⟨t,ht,hblogs⟩ := BlogList.load_eq_ok_iff.mp hload
  obtain ⟨hdirect,hplace⟩ := SitePaths.isDirect_blogList hp
  obtain ⟨bytes,hbytes,-⟩ := (hw.tree.textAt_eq_ok_iff hdirect).mp ht
  have he := Disk.bytesAt?_eq_some_iff.mp hbytes
  rw [← hplace] at h
  refine BlogList.load_eq_ok_iff.mpr ⟨t,?_,hblogs⟩
  exact (hw.tree.textAt_eq_of_entry hw'.tree hdirect hdirect he (h.trans he)).trans ht

/-- Content directories that agree list the same blogs. -/
theorem BlogList.load_eq_ok_of_sameBelow {w w' : World} (hw : w.IsSound) (hw' : w'.IsSound)
    {p : SitePaths} (hp : Path.IsDirect p.contentDir)
    (h : Disk.SameBelow (Path.place p.contentDir) w.disk w'.disk) {blogs : List Blog}
    (hload : ((BlogList.load p.blogList).go w).1 = .ok blogs) :
    ((BlogList.load p.blogList).go w').1 = .ok blogs := by
  have hending : ".json".toList <:+ "blogs.json".toList := by decide
  have hlog := Disk.not_isLogAt_concat (Path.place p.contentDir) hending (by decide) (by decide)
  exact BlogList.load_eq_ok_of_entry hw hw' hp (h.entry _ hlog).symm hload

end BlogSite
