import BlogSite.Proofs.PostShelf

/-!
Posts that stop a build. A post file is invalid when its front matter is no mapping or leaves out a
field that a post needs, whether it is a draft or not. The posts of a blog are loaded exactly when no
file is invalid; otherwise the failure tells of the blog, of the first invalid file by name and of the
fields that are missing there.
-/

namespace BlogSite

/-- The fields that a fault finds missing. -/
def FrontMatterFault.fields : FrontMatterFault → List String
  | .missing fields => fields
  | _ => []

/-- The blog of the post that a failure tells of. -/
def Failure.blog? : Failure → Option String
  | .invalidPost blog _ _ => some blog
  | _ => none

theorem Disk.blog?_of_textAt_error {d : Disk} {p : String} {e : Failure} (h : d.textAt p = .error e) :
    e.blog? = none := by
  unfold textAt at h
  split at h
  · obtain rfl := Except.error.inj h
    rfl
  · split at h
    · obtain rfl := Except.error.inj h
      rfl
    · simp at h

namespace FrontMatter

theorem blog?_of_parse_error {read : YamlReader} {text : String} {e : Failure}
    (h : parse read text = .error e) : e.blog? = none := by
  unfold parse at h
  simp only at h
  split at h
  · simp at h
  · split at h
    · rename_i fault _
      obtain rfl := Except.error.inj h
      cases fault <;> rfl
    · simp at h
    · simp at h
    · obtain rfl := Except.error.inj h
      rfl

/-- On the front matter of a text, a reader fails only where it is no YAML or has a value that cannot
be made. -/
def FailsPlainly (read : YamlReader) (text : String) : Prop :=
  ∀ block body fault, split? (withoutMark text.toList) = some (block,body) →
    read (String.ofList block) = .error fault → fault = .malformed ∨ fault = .badValue

theorem FailsPlainly.exists_of_error {read : YamlReader} {text : String} (h : FailsPlainly read text)
    {e : Failure} (he : parse read text = .error e) :
    ∃ fault : FrontMatterFault, e = .frontMatter fault ∧ fault.fields = [] := by
  unfold parse at he
  simp only at he
  cases hsplit : split? (withoutMark text.toList) with
  | none => simp [hsplit] at he
  | some x =>
    obtain ⟨block,body⟩ := x
    simp only [hsplit] at he
    cases hread : read (String.ofList block) with
    | error fault =>
      rw [hread] at he
      obtain rfl := Except.error.inj he
      rcases h block body fault hsplit hread with rfl | rfl
      · exact ⟨_,rfl,rfl⟩
      · exact ⟨_,rfl,rfl⟩
    | ok v =>
      rw [hread] at he
      cases v with
      | null => simp at he
      | map entries => simp at he
      | _ =>
        obtain rfl := Except.error.inj he
        exact ⟨_,rfl,rfl⟩

theorem failsPlainly_of_isOk {read : YamlReader} {text : String}
    (h : ∀ x ∈ split? (withoutMark text.toList), (read (String.ofList x.1)).isOk) :
    FailsPlainly read text := by
  intro block body fault hsplit hread
  have hok := h (block,body) hsplit
  simp [hread,Except.isOk,Except.toBool] at hok

end FrontMatter

namespace Post

theorem missingFields_eq_nil_iff {metadata : Entries} :
    missingFields metadata = [] ↔ ¬ ∃ field ∈ requiredFields, (metadata.field field).truthy = false := by
  simp [missingFields,List.filter_eq_nil_iff]

variable {yaml : YamlReader} {blog item slug text : String}

theorem read_of_parse_error {fault : FrontMatterFault}
    (h : FrontMatter.parse yaml text = .error (.frontMatter fault)) :
    read yaml blog item slug text = .error (.invalidPost blog item fault) := by
  simp [read,h]

theorem read_of_missing {metadata : Entries} {body : String}
    (h : FrontMatter.parse yaml text = .ok (metadata,body)) (hmissing : missingFields metadata ≠ []) :
    read yaml blog item slug text =
      .error (.invalidPost blog item (.missing (missingFields metadata))) := by
  unfold read
  rw [h]
  cases hfields : missingFields metadata with
  | nil => exact absurd hfields hmissing
  | cons field fields => simp [hfields]

/-- The reading of a post tells of no other blog. -/
theorem blog?_of_read_error {e : Failure} (h : read yaml blog item slug text = .error e) :
    ∀ other ∈ e.blog?, other = blog := by
  unfold read at h
  split at h
  · obtain rfl := Except.error.inj h
    simp [Failure.blog?]
  · rename_i hparse
    obtain rfl := Except.error.inj h
    simp [FrontMatter.blog?_of_parse_error hparse]
  · split at h
    · split at h <;> simp at h
    · obtain rfl := Except.error.inj h
      simp [Failure.blog?]

end Post

namespace PostFolder

variable (f : PostFolder) (d : Disk) (blog : String)

/-- A post file whose front matter gives no mapping, or one without a field that a post needs. -/
def IsInvalid (item : String) : Prop :=
  (∃ slug, item = slug ++ ".md") ∧
    ((∀ metadata body, ¬ f.Holds d blog item metadata body) ∨
      ∃ metadata body, f.Holds d blog item metadata body ∧
        ∃ field ∈ ["title","date","author"], (metadata.field field).truthy = false)

/-- The failure that tells of an invalid post file: it names the fields that the file leaves out, or
none if there is no mapping to have them. -/
def TellsOf (item : String) (e : Failure) : Prop :=
  ∃ fault : FrontMatterFault, e = .invalidPost blog item fault ∧
    ((∀ metadata body, ¬ f.Holds d blog item metadata body) → fault.fields = []) ∧
    ∀ metadata body, f.Holds d blog item metadata body →
      fault.fields = ["title","date","author"].filter fun field => !(metadata.field field).truthy

/-- The text of a post file can be read, and a fault in its front matter is one of YAML. -/
def Readable (item : String) : Prop :=
  ∃ text, d.textAt (f.pathOf blog item) = .ok text ∧ FrontMatter.FailsPlainly f.yaml text

variable {f d blog}

/-- A file that can be read is invalid just when its reading fails, and the failure tells of it. -/
theorem Readable.reading_error {item slug : String} (h : f.Readable d blog item)
    (hslug : item = slug ++ ".md") :
    (f.IsInvalid d blog item ↔ ∃ e, f.reading d blog item slug = .error e) ∧
      ∀ e, f.reading d blog item slug = .error e → f.TellsOf d blog item e := by
  obtain ⟨text,htext,hplain⟩ := h
  have hholds : ∀ metadata body, f.Holds d blog item metadata body ↔
      FrontMatter.parse f.yaml text = .ok (metadata,body) := by
    intro metadata body
    unfold Holds
    simp [htext]
  have hreading : f.reading d blog item slug = Post.read f.yaml blog item slug text := by
    simp [reading,htext,Except.bind]
  rw [hreading]
  cases hparse : FrontMatter.parse f.yaml text with
  | error e =>
    obtain ⟨fault,rfl,hfields⟩ := hplain.exists_of_error hparse
    have hnone : ∀ metadata body, ¬ f.Holds d blog item metadata body := by simp [hholds,hparse]
    rw [Post.read_of_parse_error hparse]
    refine ⟨iff_of_true ⟨⟨slug,hslug⟩,Or.inl hnone⟩ ⟨_,rfl⟩,?_⟩
    intro e he
    refine ⟨fault,(Except.error.inj he).symm,fun _ => hfields,?_⟩
    exact fun metadata body h => absurd h (hnone metadata body)
  | ok x =>
    obtain ⟨metadata,body⟩ := x
    have hunique : ∀ metadata' body', f.Holds d blog item metadata' body' ↔
        metadata' = metadata ∧ body' = body := by simp [hholds,hparse,eq_comm]
    by_cases hmissing : Post.missingFields metadata = []
    · have hgiven := Post.missingFields_eq_nil_iff.mp hmissing
      have hread : ∃ r, Post.read f.yaml blog item slug text = .ok r :=
        ⟨_,Post.read_eq_ok_iff.mpr ⟨metadata,body,hparse,hmissing,rfl⟩⟩
      obtain ⟨r,hr⟩ := hread
      rw [hr]
      refine ⟨iff_of_false ?_ (by simp),by simp⟩
      rintro ⟨-,hnone | ⟨_,_,hholds,hfield⟩⟩
      · exact hnone metadata body ((hunique metadata body).mpr ⟨rfl,rfl⟩)
      · obtain ⟨rfl,rfl⟩ := (hunique _ _).mp hholds
        exact hgiven hfield
    · rw [Post.read_of_missing hparse hmissing]
      rw [Post.missingFields_eq_nil_iff,not_not] at hmissing
      have hheld := (hunique metadata body).mpr ⟨rfl,rfl⟩
      refine ⟨iff_of_true ⟨⟨slug,hslug⟩,Or.inr ⟨metadata,body,hheld,hmissing⟩⟩ ⟨_,rfl⟩,?_⟩
      intro e he
      refine ⟨_,(Except.error.inj he).symm,fun hnone => absurd hheld (hnone metadata body),?_⟩
      intro metadata' body' hheld'
      obtain ⟨rfl,rfl⟩ := (hunique _ _).mp hheld'
      rfl

/-! ### All files -/

section

variable {reading : String → String → Except Failure Post.Reading} {item slug : String}
  {items : List String}

theorem readAll_cons_of_other (h : Path.withoutEnding? ending item = none) :
    readAll reading (item :: items) = readAll reading items := by
  simp only [readAll,h]

/-- A post file is read before those that come after it. -/
theorem readAll_cons_of_post (h : item = slug ++ ending) :
    readAll reading (item :: items) = (reading item slug).bind fun r =>
      (readAll reading items).map fun posts => match r with
        | .draft => posts
        | .published post => post :: posts := by
  simp only [readAll,Path.withoutEnding?_eq_some_iff.mpr h]
  cases reading item slug with
  | error e => rfl
  | ok r =>
    cases r with
    | draft => simp only [Except.bind]; cases readAll reading items <;> rfl
    | published post => rfl

/-- Reading goes through without a failure just when it does so for each post file. -/
theorem forall_reading_of_readAll {posts : List Post} (h : readAll reading items = .ok posts) :
    ∀ item ∈ items, ∀ slug, item = slug ++ ending → ∃ r, reading item slug = .ok r := by
  induction items generalizing posts with
  | nil => simp
  | cons first items ih =>
    intro item hitem slug hslug
    cases hname : Path.withoutEnding? ending first with
    | none =>
      rw [readAll_cons_of_other hname] at h
      rcases List.mem_cons.mp hitem with rfl | hitem
      · rw [Path.withoutEnding?_eq_some_iff.mpr hslug] at hname
        exact absurd hname (by simp)
      · exact ih h item hitem slug hslug
    | some slug' =>
      rw [readAll_cons_of_post (Path.withoutEnding?_eq_some_iff.mp hname)] at h
      cases hr : reading first slug' with
      | error e => simp [hr,Except.bind] at h
      | ok r =>
        cases htail : readAll reading items with
        | error e => simp [hr,htail,Except.bind,Except.map] at h
        | ok tail =>
          rcases List.mem_cons.mp hitem with rfl | hitem
          · rw [Path.withoutEnding?_eq_some_iff.mpr hslug] at hname
            exact ⟨r,Option.some.inj hname ▸ hr⟩
          · exact ih htail item hitem slug hslug

/-- A failure is that of the first post file whose reading fails. -/
theorem first_of_readAll {e : Failure} (h : readAll reading items = .error e) :
    ∃ before item after slug, items = before ++ item :: after ∧ item = slug ++ ending ∧
      reading item slug = .error e ∧ ∃ posts, readAll reading before = .ok posts := by
  induction items with
  | nil => simp [readAll] at h
  | cons first items ih =>
    cases hname : Path.withoutEnding? ending first with
    | none =>
      rw [readAll_cons_of_other hname] at h
      obtain ⟨before,item,after,slug,rfl,hslug,he,hbefore⟩ := ih h
      exact ⟨first :: before,item,after,slug,rfl,hslug,he,(readAll_cons_of_other hname).symm ▸ hbefore⟩
    | some slug =>
      have hslug := Path.withoutEnding?_eq_some_iff.mp hname
      rw [readAll_cons_of_post hslug] at h
      cases hr : reading first slug with
      | error e' =>
        rw [hr] at h
        exact ⟨[],first,items,slug,rfl,hslug,hr.trans (congrArg _ (Except.error.inj h)),[],rfl⟩
      | ok r =>
        cases htail : readAll reading items with
        | ok posts => simp [hr,htail,Except.bind,Except.map] at h
        | error e' =>
          obtain rfl : e' = e := by simpa [hr,htail,Except.bind,Except.map] using h
          obtain ⟨before,item,after,slug',rfl,hslug',he,posts,hposts⟩ := ih htail
          refine ⟨first :: before,item,after,slug',rfl,hslug',he,?_⟩
          rw [readAll_cons_of_post hslug,hr,hposts]
          exact ⟨_,rfl⟩

end

/-- A load that fails tells of no other blog. -/
theorem blog?_of_load_error {w : World} (hlog : w.LogNamed) {e : Failure}
    (he : ((f.load blog).go w).1 = .error e) : ∀ other ∈ e.blog?, other = blog := by
  by_cases hdir : w.disk.isDirectory (f.directory blog) = true
  · obtain ⟨items,hlist⟩ := Disk.isDirectory_eq_true_iff.mp hdir
    rw [go_load_of_list hlist hlog] at he
    cases hall : readAll (f.reading w.disk blog) (Path.sortedNames items) with
    | ok posts => simp [hall,Except.map] at he
    | error e' =>
      obtain rfl : e' = e := by simpa [hall,Except.map] using he
      obtain ⟨-,item,-,slug,-,-,hitem,-⟩ := first_of_readAll hall
      unfold reading at hitem
      cases htext : w.disk.textAt (f.pathOf blog item) with
      | error e'' =>
        rw [htext] at hitem
        obtain rfl := Except.error.inj hitem
        simp [Disk.blog?_of_textAt_error htext]
      | ok text =>
        rw [htext] at hitem
        exact Post.blog?_of_read_error hitem
  · rw [go_load_of_not_directory (by simpa using hdir)] at he
    simp at he

section

variable {w : World} {items : List String} (hlist : w.disk.list (f.directory blog) = .ok items)
  (hlog : w.LogNamed)
  (hread : ∀ item ∈ items, ∀ slug, item = slug ++ ".md" → f.Readable w.disk blog item)

include hlist hlog hread

/-- A load that fails tells of the first invalid file. -/
theorem invalid_of_load_eq_error {e : Failure} (he : ((f.load blog).go w).1 = .error e) :
    ∃ item ∈ items, f.IsInvalid w.disk blog item ∧
      (∀ other ∈ items, f.IsInvalid w.disk blog other → item ≤ other) ∧
      f.TellsOf w.disk blog item e := by
  have hmem : ∀ item, item ∈ Path.sortedNames items ↔ item ∈ items := fun item =>
    (Path.sortedNames_perm items).mem_iff
  have hall : readAll (f.reading w.disk blog) (Path.sortedNames items) = .error e := by
    rw [go_load_of_list hlist hlog] at he
    cases hr : readAll (f.reading w.disk blog) (Path.sortedNames items) with
    | ok posts => simp [hr,Except.map] at he
    | error e' => simpa [hr,Except.map] using he
  obtain ⟨before,item,after,slug,hitems,hslug,hitem,posts,hbefore⟩ := first_of_readAll hall
  have hin : item ∈ items := (hmem item).mp (by simp [hitems])
  obtain ⟨hiff,htells⟩ := (hread item hin slug hslug).reading_error hslug
  refine ⟨item,hin,hiff.mpr ⟨e,hitem⟩,?_,htells e hitem⟩
  intro other hother hinvalid
  obtain ⟨slug',hslug'⟩ := hinvalid.1
  obtain ⟨e',he'⟩ := ((hread other hother slug' hslug').reading_error hslug').1.mp hinvalid
  have hsorted := Path.pairwise_sortedNames_le items
  rw [hitems,List.pairwise_append] at hsorted
  have hplace := (hmem other).mpr hother
  rw [hitems,List.mem_append,List.mem_cons] at hplace
  rcases hplace with hother | rfl | hother
  · obtain ⟨r,hr⟩ := forall_reading_of_readAll hbefore other hother slug' hslug'
    exact absurd (hr.symm.trans he') (by simp)
  · exact String.le_refl _
  · exact (List.pairwise_cons.mp hsorted.2.1).1 other hother

/-- A load that gives posts has found no invalid file. -/
theorem not_invalid_of_load_eq_ok {posts : List Post} (hposts : ((f.load blog).go w).1 = .ok posts)
    {item : String} (hitem : item ∈ items) : ¬ f.IsInvalid w.disk blog item := by
  intro hinvalid
  obtain ⟨slug,hslug⟩ := hinvalid.1
  obtain ⟨e,he⟩ := ((hread item hitem slug hslug).reading_error hslug).1.mp hinvalid
  rw [go_load_of_list hlist hlog] at hposts
  cases hall : readAll (f.reading w.disk blog) (Path.sortedNames items) with
  | error e' => simp [hall,Except.map] at hposts
  | ok found =>
    have hplace := (Path.sortedNames_perm items).mem_iff.mpr hitem
    obtain ⟨r,hr⟩ := forall_reading_of_readAll hall item hplace slug hslug
    exact absurd (hr.symm.trans he) (by simp)

end

/-- A blog with a draft that has no author before a file whose front matter is no mapping. -/
def invalidWorld : World where
  disk :=
    { entries :=
        [(["c"],.directory),(["c","blogs"],.directory),(["c","blogs","b"],.directory),
          (["c","blogs","b","posts"],.directory),
          (["c","blogs","b","posts","z.md"],.file "---\n- x\n---\n".toUTF8),
          (["c","blogs","b","posts","notes.txt"],.file "x".toUTF8),
          (["c","blogs","b","posts","m.md"],
            .file "---\ntitle: T\ndate: x\ndraft: true\n---\n".toUTF8)]
      distinct := by decide }

end PostFolder

end BlogSite
