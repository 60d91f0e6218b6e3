import BlogSite.PostFolder
import BlogSite.Proofs.LogFile
import BlogSite.Proofs.PostOrder

/-!
Loading the posts of a blog. A run that reads the files one after the other gives what the files hold
on the tree it starts from, whatever it reports on the way; so the posts are those of the published
files, newest first and by file name among posts of one date, in whatever order the directory lists
its entries.
-/

namespace BlogSite

theorem Path.withoutEnding?_eq_some_iff {e n s : String} :
    Path.withoutEnding? e n = some s ↔ n = s ++ e := by
  change (if e.toList.isSuffixOf n.toList then
    some (String.ofList (n.toList.take (n.toList.length - e.toList.length))) else none) = some s ↔ _
  constructor
  · intro h
    split at h
    · rename_i hsuffix
      obtain ⟨t,ht⟩ := List.isSuffixOf_iff_suffix.mp hsuffix
      obtain rfl := Option.some.inj h
      apply String.toList_injective
      rw [String.toList_append,String.toList_ofList,← ht]
      simp
    · exact absurd h (by simp)
  · rintro rfl
    simp

namespace PostFolder

variable (f : PostFolder) (d : Disk) (blog : String)

/-- The path of a file among the posts of a blog. -/
def pathOf (item : String) : String := Path.join (f.directory blog) item

/-- What a post file holds. -/
def reading (item slug : String) : Except Failure Post.Reading :=
  (d.textAt (f.pathOf blog item)).bind (Post.read f.yaml blog item slug)

/-- The posts of some files, or the first failure among them. A reading tells what a file holds from
its name and its slug. -/
def readAll (reading : String → String → Except Failure Post.Reading) :
    List String → Except Failure (List Post)
  | [] => .ok []
  | item :: items =>
    match Path.withoutEnding? ending item with
    | none => readAll reading items
    | some slug =>
      match reading item slug with
      | .error e => .error e
      | .ok .draft => readAll reading items
      | .ok (.published post) => (readAll reading items).map (post :: ·)

/-- The post in a file, if there is one. -/
def post? (reading : String → String → Except Failure Post.Reading) (item : String) : Option Post :=
  match Path.withoutEnding? ending item with
  | none => none
  | some slug =>
    match reading item slug with
    | .ok (.published post) => some post
    | _ => none

variable {f d blog}

theorem go_loadFile (item slug : String) (w : World) :
    (f.loadFile blog item slug).go w = match f.reading w.disk blog item slug with
      | .error e => (.error e,w)
      | .ok .draft =>
        (.ok none,w.report ⟨.posts,.detail,"Skipping draft: " ++ blog ++ "/posts/" ++ item⟩)
      | .ok (.published post) => (.ok (some post),w) := by
  simp only [loadFile,Run.go_bind,Run.go_readText,reading,pathOf]
  cases w.disk.textAt (Path.join (f.directory blog) item) with
  | error e => rfl
  | ok text =>
    simp only [Run.go_settle,Except.bind]
    cases Post.read f.yaml blog item slug text with
    | error e => rfl
    | ok r => cases r <;> rfl

theorem reading_congr {d' : Disk} {item : String}
    (h : d.read (f.pathOf blog item) = d'.read (f.pathOf blog item)) (slug : String) :
    f.reading d blog item slug = f.reading d' blog item slug := by
  unfold reading
  rw [Disk.textAt_eq_of_read_eq h]

/-- Log files and post files have different endings. -/
theorem logApart_of_ending {w : World} (hw : w.LogNamed) {item slug : String}
    (h : Path.withoutEnding? ending item = some slug) : w.LogApart (f.pathOf blog item) := by
  obtain rfl := Path.withoutEnding?_eq_some_iff.mp h
  have hitem : ending.toList <:+ (slug ++ ending).toList := by simp
  refine hw.logApart (hitem.trans (Path.suffix_join _ _)) (by decide) (by decide) ?_
  rintro s ⟨t,rfl⟩ ⟨u,hu⟩
  have hlast := congrArg List.getLast? hu
  simp [ending] at hlast

/-- A report in between does not change what the post files hold. -/
theorem reading_report {w : World} (hw : w.LogNamed) (r : Log.Record) {item slug : String}
    (h : Path.withoutEnding? ending item = some slug) :
    f.reading (w.report r).disk blog item slug = f.reading w.disk blog item slug :=
  reading_congr (World.read_report (logApart_of_ending hw h) r) slug

theorem readAll_congr {reading reading' : String → String → Except Failure Post.Reading}
    {items : List String} (h : ∀ item ∈ items, ∀ slug, Path.withoutEnding? ending item = some slug →
      reading item slug = reading' item slug) : readAll reading items = readAll reading' items := by
  induction items with
  | nil => rfl
  | cons item items ih =>
    have htail := ih fun i hi => h i (by simp [hi])
    cases hslug : Path.withoutEnding? ending item with
    | none => simp only [readAll,hslug,htail]
    | some slug =>
      have hitem := h item (by simp) slug hslug
      simp only [readAll,hslug,hitem,htail]

/-- A run over the files gives what they hold on the tree that it starts from. -/
theorem go_loadFiles {w : World} (hw : w.LogNamed) (items : List String) :
    ((f.loadFiles blog items).go w).1 = readAll (f.reading w.disk blog) items := by
  induction items generalizing w with
  | nil => rfl
  | cons item items ih =>
    unfold loadFiles readAll
    cases hslug : Path.withoutEnding? ending item with
    | none => exact ih hw
    | some slug =>
      simp only [Run.go_bind,go_loadFile]
      cases hr : f.reading w.disk blog item slug with
      | error e => rfl
      | ok r =>
        cases r with
        | draft =>
          have hreport := ih (w := w.report
            ⟨.posts,.detail,"Skipping draft: " ++ blog ++ "/posts/" ++ item⟩) hw
          rw [readAll_congr fun i _ s hs => reading_report hw _ hs] at hreport
          simp only [← hreport]
          generalize (f.loadFiles blog items).go _ = p
          obtain ⟨r,v⟩ := p
          cases r <;> rfl
        | published post =>
          have htail := ih hw
          simp only [← htail]
          generalize (f.loadFiles blog items).go w = p
          obtain ⟨r,v⟩ := p
          cases r <;> rfl

end PostFolder

end BlogSite
