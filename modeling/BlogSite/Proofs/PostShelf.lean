import BlogSite.Proofs.PostLoading

/-!
The published posts of a blog as they stand on the shelf: one for each post file that is no draft,
newest first, and by file name among posts of one date.
-/

namespace BlogSite

theorem Post.read_eq_ok_iff {yaml : YamlReader} {item slug text : String} {r : Post.Reading} :
    Post.read yaml blog item slug text = .ok r ↔ ∃ metadata body,
      FrontMatter.parse yaml text = .ok (metadata,body) ∧ Post.missingFields metadata = [] ∧
        r = if (metadata.field "draft").truthy then .draft
          else .published (Post.ofParts slug metadata body) := by
  unfold Post.read
  cases hparse : FrontMatter.parse yaml text with
  | error e => cases e <;> simp
  | ok p =>
    obtain ⟨metadata,body⟩ := p
    simp only [Except.ok.injEq,Prod.mk.injEq]
    constructor
    · intro h
      refine ⟨metadata,body,⟨rfl,rfl⟩,?_⟩
      cases hmissing : Post.missingFields metadata with
      | cons => simp [hmissing] at h
      | nil =>
        refine ⟨rfl,?_⟩
        simp only [hmissing] at h
        split at h
        · rename_i hdraft
          rw [if_pos hdraft]
          exact (Except.ok.inj h).symm
        · rename_i hdraft
          rw [if_neg hdraft]
          exact (Except.ok.inj h).symm
    · rintro ⟨_,_,⟨rfl,rfl⟩,hmissing,rfl⟩
      simp only [hmissing]
      split <;> rfl

namespace PostFolder

variable (f : PostFolder) (d : Disk) (blog : String)

/-- A post file whose text gives a metadata table and a body. -/
def Holds (item : String) (metadata : Entries) (body : String) : Prop :=
  ∃ text, d.textAt (f.pathOf blog item) = .ok text ∧
    FrontMatter.parse f.yaml text = .ok (metadata,body)

/-- A post file that is no draft. -/
def IsPublished (item : String) : Prop :=
  ∃ slug metadata body, item = slug ++ ".md" ∧ f.Holds d blog item metadata body ∧
    (metadata.field "draft").truthy = false

/-- A post file that is no draft, and the post that is in it. -/
def Publishes (item : String) (post : Post) : Prop :=
  ∃ metadata body, f.Holds d blog item metadata body ∧ (metadata.field "draft").truthy = false ∧
    item = post.slug ++ ".md" ∧
    post.date = String.ofList ((metadata.field "date").display.take 10) ∧
    post = Post.ofParts post.slug metadata body

/-- Every post file has a readable text with all that a post needs. -/
def Sound (items : List String) : Prop :=
  ∀ item ∈ items, ∀ slug, item = slug ++ ending → ∃ r, f.reading d blog item slug = .ok r

variable {f d blog}

theorem reading_eq_ok_iff {item slug : String} {r : Post.Reading} :
    f.reading d blog item slug = .ok r ↔ ∃ metadata body, f.Holds d blog item metadata body ∧
      Post.missingFields metadata = [] ∧
        r = if (metadata.field "draft").truthy then .draft
          else .published (Post.ofParts slug metadata body) := by
  unfold reading Holds
  cases d.textAt (f.pathOf blog item) with
  | error e => simp [Except.bind]
  | ok text => simp [Except.bind,Post.read_eq_ok_iff]

theorem Holds.unique {item : String} {metadata metadata' : Entries} {body body' : String}
    (h : f.Holds d blog item metadata body) (h' : f.Holds d blog item metadata' body') :
    metadata = metadata' ∧ body = body' := by
  obtain ⟨text,htext,hparse⟩ := h
  obtain ⟨text',htext',hparse'⟩ := h'
  obtain rfl := Except.ok.inj (htext.symm.trans htext')
  exact Prod.mk.inj (Except.ok.inj (hparse.symm.trans hparse'))

theorem post?_eq_some_iff {item : String} {post : Post} :
    post? (f.reading d blog) item = some post ↔
      ∃ slug, item = slug ++ ending ∧ f.reading d blog item slug = .ok (.published post) := by
  unfold post?
  cases hslug : Path.withoutEnding? ending item with
  | none =>
    simp only [reduceCtorEq,false_iff,not_exists,not_and]
    intro slug hitem
    rw [Path.withoutEnding?_eq_some_iff.mpr hitem] at hslug
    exact absurd hslug (by simp)
  | some slug =>
    constructor
    · intro h
      refine ⟨slug,Path.withoutEnding?_eq_some_iff.mp hslug,?_⟩
      cases hr : f.reading d blog item slug with
      | error e => simp [hr] at h
      | ok r =>
        cases r with
        | draft => simp [hr] at h
        | published _ => simpa [hr] using h
    · rintro ⟨slug',hitem,hr⟩
      rw [Path.withoutEnding?_eq_some_iff.mpr hitem] at hslug
      obtain rfl := Option.some.inj hslug
      simp [hr]

theorem publishes_of_post? {item : String} {post : Post} (h : post? (f.reading d blog) item = some post) :
    f.Publishes d blog item post := by
  obtain ⟨slug,hitem,hr⟩ := post?_eq_some_iff.mp h
  obtain ⟨metadata,body,hholds,-,hpost⟩ := reading_eq_ok_iff.mp hr
  split at hpost
  · exact absurd hpost (by simp)
  · rename_i hdraft
    obtain rfl := Post.Reading.published.inj hpost
    exact ⟨metadata,body,hholds,by simpa using hdraft,hitem,rfl,rfl⟩

/-- Among sound files, those with a post are the published ones. -/
theorem exists_post?_iff {items : List String} (hsound : f.Sound d blog items) {item : String}
    (hitem : item ∈ items) :
    (∃ post, post? (f.reading d blog) item = some post) ↔ f.IsPublished d blog item := by
  constructor
  · rintro ⟨post,h⟩
    obtain ⟨metadata,body,hholds,hdraft,hname,-⟩ := publishes_of_post? h
    exact ⟨post.slug,metadata,body,hname,hholds,hdraft⟩
  · rintro ⟨slug,metadata,body,hname,hholds,hdraft⟩
    obtain ⟨r,hr⟩ := hsound item hitem slug hname
    obtain ⟨metadata',body',hholds',hmissing,rfl⟩ := reading_eq_ok_iff.mp hr
    obtain ⟨rfl,rfl⟩ := hholds.unique hholds'
    rw [hdraft,if_neg (by simp)] at hr
    exact ⟨_,post?_eq_some_iff.mpr ⟨slug,hname,hr⟩⟩

theorem readAll_eq_ok {items : List String} (hsound : f.Sound d blog items) :
    readAll (f.reading d blog) items = .ok (items.filterMap (post? (f.reading d blog))) := by
  induction items with
  | nil => rfl
  | cons item items ih =>
    have htail := ih fun i hi => hsound i (by simp [hi])
    cases hslug : Path.withoutEnding? ending item with
    | none =>
      have hnone : post? (f.reading d blog) item = none := by simp only [post?,hslug]
      simp only [readAll,hslug,htail,List.filterMap_cons,hnone]
    | some slug =>
      have hname := Path.withoutEnding?_eq_some_iff.mp hslug
      obtain ⟨r,hr⟩ := hsound item (by simp) slug hname
      cases r with
      | draft =>
        have hnone : post? (f.reading d blog) item = none := by simp only [post?,hslug,hr]
        simp only [readAll,hslug,hr,htail,List.filterMap_cons,hnone]
      | published post =>
        have hsome : post? (f.reading d blog) item = some post := by simp only [post?,hslug,hr]
        simp only [readAll,hslug,hr,htail,List.filterMap_cons,hsome]
        rfl

variable (f d blog) in
/-- The posts in some files with the names of their files: newest first, and by name among posts of
one date. -/
def shelf (items : List String) : List (String × Post) :=
  newestFirst (fun x => x.2.date)
    ((Path.sortedNames items).filterMap fun item => (post? (f.reading d blog) item).map (item,·))

theorem mem_shelf_iff {items : List String} {x : String × Post} :
    x ∈ f.shelf d blog items ↔ x.1 ∈ items ∧ post? (f.reading d blog) x.1 = some x.2 := by
  rw [shelf,(newestFirst_perm _ _).mem_iff,List.mem_filterMap]
  constructor
  · rintro ⟨item,hitem,hx⟩
    obtain ⟨post,hpost,rfl⟩ := Option.map_eq_some_iff.mp hx
    exact ⟨(Path.sortedNames_perm items).mem_iff.mp hitem,hpost⟩
  · rintro ⟨hitem,hpost⟩
    exact ⟨x.1,(Path.sortedNames_perm items).mem_iff.mpr hitem,by simp [hpost]⟩

theorem map_snd_shelf (items : List String) : (f.shelf d blog items).map Prod.snd =
    newestFirst Post.date ((Path.sortedNames items).filterMap (post? (f.reading d blog))) := by
  rw [shelf,map_newestFirst Post.date,List.map_filterMap,List.filterMap_congr]
  intro item _
  cases post? (f.reading d blog) item <;> rfl

/-- The posts start out in the order of their files. -/
theorem pairwise_filterMap_post? {items : List String} (h : items.Nodup) :
    ((Path.sortedNames items).filterMap fun item => (post? (f.reading d blog) item).map (item,·)).Pairwise
      fun x y => x.1 < y.1 := by
  apply (Path.pairwise_sortedNames h).filterMap
  intro n n' hlt x hx y hy
  obtain ⟨_,-,rfl⟩ := Option.map_eq_some_iff.mp hx
  obtain ⟨_,-,rfl⟩ := Option.map_eq_some_iff.mp hy
  exact hlt

theorem pairwise_shelf {items : List String} (h : items.Nodup) :
    (f.shelf d blog items).Pairwise fun x y =>
      y.2.date < x.2.date ∨ y.2.date = x.2.date ∧ x.1 < y.1 :=
  pairwise_newestFirst _ (pairwise_filterMap_post? h)

theorem nodup_shelf {items : List String} (h : items.Nodup) :
    ((f.shelf d blog items).map Prod.fst).Nodup := by
  rw [shelf,((newestFirst_perm _ _).map Prod.fst).nodup_iff]
  apply List.pairwise_map.mpr
  apply (pairwise_filterMap_post? h).imp
  intro x y hlt heq
  exact String.lt_irrefl _ (heq ▸ hlt)

theorem shelf_congr {d' : Disk} {items items' : List String} (hitems : items.Perm items')
    (h : ∀ item ∈ items, post? (f.reading d blog) item = post? (f.reading d' blog) item) :
    f.shelf d blog items = f.shelf d' blog items' := by
  rw [shelf,shelf,← Path.sortedNames_eq_of_perm hitems,List.filterMap_congr]
  intro item hitem
  rw [h item ((Path.sortedNames_perm items).mem_iff.mp hitem)]

/-- Loading gives what the files hold on the tree that it starts from. -/
theorem go_load_of_list {w : World} {items : List String}
    (hlist : w.disk.list (f.directory blog) = .ok items) (hlog : w.LogNamed) :
    ((f.load blog).go w).1 =
      (readAll (f.reading w.disk blog) (Path.sortedNames items)).map (newestFirst Post.date) := by
  have hrun : ((f.loadFiles blog (Path.sortedNames items)).go w).1 = _ :=
    go_loadFiles hlog (Path.sortedNames items)
  have hdir := Disk.isDirectory_eq_true_iff.mpr ⟨items,hlist⟩
  simp only [load,Run.go_bind,Run.go_ask,hdir,if_true,Run.go_fetch,hlist,← hrun]
  generalize (f.loadFiles blog (Path.sortedNames items)).go w = p
  obtain ⟨r,v⟩ := p
  cases r <;> rfl

/-- Without a directory there are no posts. -/
theorem go_load_of_not_directory {w : World} (hdir : w.disk.isDirectory (f.directory blog) = false) :
    ((f.load blog).go w).1 = .ok [] := by
  simp only [load,Run.go_bind,Run.go_ask,hdir,Bool.false_eq_true,if_false]
  rfl

theorem go_load {w : World} {items : List String}
    (hlist : w.disk.list (f.directory blog) = .ok items) (hlog : w.LogNamed)
    (hsound : f.Sound w.disk blog items) :
    ((f.load blog).go w).1 = .ok ((f.shelf w.disk blog items).map Prod.snd) := by
  have hsorted : f.Sound w.disk blog (Path.sortedNames items) := fun item hitem =>
    hsound item ((Path.sortedNames_perm items).mem_iff.mp hitem)
  rw [go_load_of_list hlist hlog,readAll_eq_ok hsorted,map_snd_shelf]
  rfl

/-- The published posts of a blog are loaded each once, newest first and by file name among posts of
one date; the order in which the directory lists its files makes no difference. -/
theorem load_newestFirst {w : World} {items : List String}
    (hlist : w.disk.list (f.directory blog) = .ok items) (hlog : w.LogNamed)
    (hload : ∀ item ∈ items, ∀ slug, item = slug ++ ".md" →
      ∃ r, ((f.loadFile blog item slug).go w).1 = .ok r) :
    ∃ posts : List (String × Post),
      ((f.load blog).go w).1 = .ok (posts.map Prod.snd) ∧
      (posts.map Prod.fst).Nodup ∧
      (∀ item, item ∈ posts.map Prod.fst ↔ item ∈ items ∧ f.IsPublished w.disk blog item) ∧
      (∀ x ∈ posts, f.Publishes w.disk blog x.1 x.2) ∧
      posts.Pairwise (fun x y => y.2.date < x.2.date ∨ y.2.date = x.2.date ∧ x.1 < y.1) ∧
      ∀ (v : World) (others : List String), v.LogNamed → others.Perm items →
        v.disk.list (f.directory blog) = .ok others →
        (∀ item ∈ items, v.disk.read (f.pathOf blog item) = w.disk.read (f.pathOf blog item)) →
          ((f.load blog).go v).1 = .ok (posts.map Prod.snd) := by
  have hsound : f.Sound w.disk blog items := by
    intro item hitem slug hslug
    obtain ⟨r,hr⟩ := hload item hitem slug hslug
    rw [go_loadFile] at hr
    cases hread : f.reading w.disk blog item slug with
    | error e => simp [hread] at hr
    | ok r => exact ⟨r,rfl⟩
  obtain ⟨l,-,-,hnames⟩ := Disk.list_eq_ok_iff.mp hlist
  have hnodup : items.Nodup := hnames ▸ Disk.nodup_names _ _
  refine ⟨f.shelf w.disk blog items,go_load hlist hlog hsound,nodup_shelf hnodup,?_,?_,
    pairwise_shelf hnodup,?_⟩
  · intro item
    rw [List.mem_map]
    constructor
    · rintro ⟨x,hx,rfl⟩
      obtain ⟨hitem,hpost⟩ := mem_shelf_iff.mp hx
      exact ⟨hitem,(exists_post?_iff hsound hitem).mp ⟨x.2,hpost⟩⟩
    · rintro ⟨hitem,hpublished⟩
      obtain ⟨post,hpost⟩ := (exists_post?_iff hsound hitem).mpr hpublished
      exact ⟨(item,post),mem_shelf_iff.mpr ⟨hitem,hpost⟩,rfl⟩
  · intro x hx
    exact publishes_of_post? (mem_shelf_iff.mp hx).2
  · intro v others hv hperm hothers hread
    have hreading : ∀ item ∈ items, ∀ slug,
        f.reading v.disk blog item slug = f.reading w.disk blog item slug :=
      fun item hitem => reading_congr (hread item hitem)
    have hsound' : f.Sound v.disk blog others := by
      intro item hitem slug hslug
      have hitem' := hperm.mem_iff.mp hitem
      rw [hreading item hitem']
      exact hsound item hitem' slug hslug
    rw [go_load hothers hv hsound',shelf_congr hperm]
    intro item hitem
    simp only [post?,hreading item (hperm.mem_iff.mp hitem)]

/-- The text of a post with a date and further metadata lines. -/
def samplePage (date more : String) : ByteArray :=
  ("---\ntitle: T\nauthor: A\ndate: '" ++ date ++ "'\n" ++ more ++ "---\nText\n").toUTF8

/-- A blog with two posts of one date, a draft and a file that is no post. -/
def sampleWorld : World where
  disk :=
    { entries :=
        [(["c"],.directory),(["c","blogs"],.directory),(["c","blogs","b"],.directory),
          (["c","blogs","b","posts"],.directory),
          (["c","blogs","b","posts","z.md"],.file (samplePage "2024-05-01" "")),
          (["c","blogs","b","posts","notes.txt"],.file "".toUTF8),
          (["c","blogs","b","posts","m.md"],.file (samplePage "2024-06-01" "draft: true\n")),
          (["c","blogs","b","posts","a.md"],.file (samplePage "2024-05-01" "")),
          (["c","site.log"],.file "".toUTF8)]
      distinct := by decide }
  logFile := some ⟨"/c/site.log","2024-08-01 12:00:00,000"⟩

/-- The same files, listed in another order. -/
def reorderedWorld : World :=
  { sampleWorld with disk := ⟨sampleWorld.disk.entries.reverse,by decide⟩ }

theorem load_newestFirst_sample :
    let f : PostFolder := ⟨"/c",Yaml.read⟩
    let w := sampleWorld
    let v := reorderedWorld
    let items := ["z.md","notes.txt","m.md","a.md"]
    let others := ["a.md","m.md","notes.txt","z.md"]
    (w.disk.list (f.directory "b") = .ok items ∧ w.LogNamed ∧
      (∀ item ∈ items, ∀ slug, item = slug ++ ".md" →
        ∃ r, ((f.loadFile "b" item slug).go w).1 = .ok r) ∧
      v.LogNamed ∧ others.Perm items ∧ v.disk.list (f.directory "b") = .ok others ∧
      ∀ item ∈ items, v.disk.read (f.pathOf "b" item) = w.disk.read (f.pathOf "b" item)) ∧
    ∃ posts : List (String × Post),
      ((f.load "b").go w).1 = .ok (posts.map Prod.snd) ∧
      ((f.load "b").go v).1 = .ok (posts.map Prod.snd) ∧
      (posts.map Prod.fst).Nodup ∧
      (∀ item, item ∈ posts.map Prod.fst ↔ item ∈ items ∧ f.IsPublished w.disk "b" item) ∧
      (∀ x ∈ posts, f.Publishes w.disk "b" x.1 x.2) ∧
      posts.Pairwise (fun x y => y.2.date < x.2.date ∨ y.2.date = x.2.date ∧ x.1 < y.1) := by
  intro f w v items others
  have hlist : w.disk.list (f.directory "b") = .ok items := by decide
  have hothers : v.disk.list (f.directory "b") = .ok others := by decide
  have hlog : w.LogNamed := by
    intro l hl
    obtain rfl := Option.some.inj hl
    exact ⟨"/c/site".toList,by decide⟩
  have hload : ∀ item ∈ items, ∀ slug, item = slug ++ ".md" →
      ∃ r, ((f.loadFile "b" item slug).go w).1 = .ok r := by
    have hall : ∀ item ∈ items, ∀ slug ∈ Path.withoutEnding? ".md" item,
        ((f.loadFile "b" item slug).go w).1.isOk = true := by decide +kernel
    intro item hitem slug hslug
    have hok := hall item hitem slug (Path.withoutEnding?_eq_some_iff.mpr hslug)
    cases hr : ((f.loadFile "b" item slug).go w).1 with
    | error e => simp [hr,Except.isOk,Except.toBool] at hok
    | ok r => exact ⟨r,rfl⟩
  have hread : ∀ item ∈ items,
      v.disk.read (f.pathOf "b" item) = w.disk.read (f.pathOf "b" item) := by decide +kernel
  have hperm : others.Perm items := by decide
  obtain ⟨posts,hrun,hnodup,hmem,hposts,horder,hother⟩ := load_newestFirst hlist hlog hload
  refine ⟨⟨hlist,hlog,hload,hlog,hperm,hothers,hread⟩,posts,hrun,
    hother v others hlog hperm hothers hread,hnodup,hmem,hposts,horder⟩

end PostFolder

end BlogSite
