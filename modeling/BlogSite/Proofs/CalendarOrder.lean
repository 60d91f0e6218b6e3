import BlogSite.Page
import BlogSite.Proofs.DayTexts
import BlogSite.Proofs.PostShelf
import BlogSite.Proofs.RunOutcomes
import BlogSite.Yaml.Document

/-!
Newest first in the calendar. Posts are ordered by the texts of their dates; where those are written
with four, two and two digits, that is the order of their days, on the page of a blog and on the home
page alike. Shorter spellings of a day are read as that day and put elsewhere.
-/

namespace BlogSite

open Calendar

namespace Post

/-- The date of a post is the text of a day. -/
def IsDated (p : Post) : Prop := ∃ d : Date, p.date.toList = d.iso

/-- The dates of two posts are read as days, and the first does not come before the second. -/
def NotEarlier (p q : Post) : Prop :=
  ∃ d e, Date.parse? p.date.toList = some d ∧ Date.parse? q.date.toList = some e ∧
    e.ordinal ≤ d.ordinal

/-- A day in the metadata of a post gives its text, and so does the day of a moment. -/
theorem isDated_ofParts (slug body : String) {metadata : Entries}
    (h : (∃ d, metadata.field "date" = .date d) ∨ ∃ m, metadata.field "date" = .moment m) :
    (ofParts slug metadata body).IsDated := by
  rcases h with ⟨d,h⟩ | ⟨m,h⟩
  · exact ⟨d,by simp [ofParts,h,Value.display,dateLength,List.take_of_length_le,d.length_iso]⟩
  · exact ⟨m.date,by simp [ofParts,h,Value.display,Moment.iso,dateLength,← m.date.length_iso]⟩

theorem NotEarlier.of_date_le {p q : Post} (hp : p.IsDated) (hq : q.IsDated) (h : q.date ≤ p.date) :
    p.NotEarlier q := by
  obtain ⟨d,hd⟩ := hp
  obtain ⟨e,he⟩ := hq
  refine ⟨d,e,hd ▸ d.parse?_iso,he ▸ e.parse?_iso,?_⟩
  rw [← Nat.not_lt,Date.ordinal_lt_iff,← Date.iso_lt_iff,← hd,← he,← String.lt_iff,String.not_lt]
  exact h

end Post

/-- Things with posts that are dated have them in the order of the calendar. -/
theorem pairwise_newestFirst_notEarlier {α : Type} (post : α → Post) {xs : List α}
    (h : ∀ x ∈ xs, (post x).IsDated) :
    (newestFirst (fun x => (post x).date) xs).Pairwise fun x y => (post x).NotEarlier (post y) := by
  have hdated : ∀ x ∈ newestFirst (fun x => (post x).date) xs, (post x).IsDated := fun x hx =>
    h x ((newestFirst_perm _ xs).mem_iff.mp hx)
  have horder := pairwise_newestFirst (fun x => (post x).date) (R := fun _ _ => True)
    (List.pairwise_of_forall (l := xs) fun _ _ => trivial)
  refine horder.imp_of_mem fun {x y} hx hy hxy => ?_
  refine .of_date_le (hdated x hx) (hdated y hy) ?_
  rcases hxy with hlt | ⟨heq,-⟩
  · exact String.not_lt.mp (String.lt_asymm hlt)
  · exact heq ▸ String.le_refl _

namespace PostFolder

variable {f : PostFolder} {w : World} {blog : String}

theorem go_loadFile_eq_ok_iff {item slug : String} {post : Option Post} :
    ((f.loadFile blog item slug).go w).1 = .ok post ↔
      ∃ r, f.reading w.disk blog item slug = .ok r ∧
        post = match r with
          | .draft => none
          | .published p => some p := by
  rw [go_loadFile]
  cases f.reading w.disk blog item slug with
  | error e => simp
  | ok r => cases r <;> simp [eq_comm]

/-- A blog whose files can all be loaded is loaded: it has the posts in the files, newest first. -/
theorem exists_load_eq_ok (hlog : w.LogNamed)
    (hload : ∀ items, w.disk.list (f.directory blog) = .ok items → ∀ item ∈ items, ∀ slug,
      item = slug ++ ending → ∃ post, ((f.loadFile blog item slug).go w).1 = .ok post) :
    ∃ items posts, ((f.load blog).go w).1 = .ok (newestFirst Post.date posts) ∧
      (items = [] ∨ w.disk.list (f.directory blog) = .ok items) ∧
      ∀ p ∈ posts, ∃ item ∈ items, ∃ slug, item = slug ++ ending ∧
        ((f.loadFile blog item slug).go w).1 = .ok (some p) := by
  by_cases hdir : w.disk.isDirectory (f.directory blog) = true
  · obtain ⟨items,hlist⟩ := Disk.isDirectory_eq_true_iff.mp hdir
    have hsound : f.Sound w.disk blog items := by
      intro item hitem slug hslug
      obtain ⟨post,hpost⟩ := hload items hlist item hitem slug hslug
      obtain ⟨r,hr,-⟩ := go_loadFile_eq_ok_iff.mp hpost
      exact ⟨r,hr⟩
    refine ⟨items,_,map_snd_shelf (f := f) items ▸ go_load hlist hlog hsound,Or.inr hlist,?_⟩
    intro p hp
    obtain ⟨item,hitem,hpost⟩ := List.mem_filterMap.mp hp
    obtain ⟨slug,hslug,hr⟩ := post?_eq_some_iff.mp hpost
    exact ⟨item,(Path.sortedNames_perm items).mem_iff.mp hitem,slug,hslug,
      go_loadFile_eq_ok_iff.mpr ⟨_,hr,rfl⟩⟩
  · refine ⟨[],[],?_,Or.inl rfl,by simp⟩
    rw [go_load_of_not_directory (by simpa using hdir)]
    simp [newestFirst]

end PostFolder

/-- Where every published post of a blog has the text of a day for its date, the posts are loaded in
the order of the calendar, so that none is later than the first; and where all posts of a site have,
the home page has them in that order across the blogs. -/
theorem newestFirst_inCalendarOrder (f : PostFolder) (w : World) (blog : String) (blogs : List Blog)
    (shelf : HomePage.Shelf) :
    (w.LogNamed →
      (∀ items, w.disk.list (f.directory blog) = .ok items → ∀ item ∈ items, ∀ slug,
        item = slug ++ ".md" → ∃ post : Option Post,
          ((f.loadFile blog item slug).go w).1 = .ok post ∧ ∀ p ∈ post, p.IsDated) →
      ∃ posts, ((f.load blog).go w).1 = .ok posts ∧ posts.Pairwise Post.NotEarlier ∧
        ∀ p ∈ posts.head?, ∀ q ∈ posts, p.NotEarlier q) ∧
    ((∀ x ∈ shelf, ∀ p ∈ x.2, p.IsDated) →
      (HomePage.entries blogs shelf).Pairwise fun x y => x.2.NotEarlier y.2) := by
  constructor
  · intro hlog hfiles
    have hload : ∀ items, w.disk.list (f.directory blog) = .ok items → ∀ item ∈ items, ∀ slug,
        item = slug ++ PostFolder.ending → ∃ post, ((f.loadFile blog item slug).go w).1 = .ok post :=
      fun items hlist item hitem slug hslug =>
        (hfiles items hlist item hitem slug hslug).imp fun _ h => h.1
    obtain ⟨items,posts,hrun,hitems,hposts⟩ := PostFolder.exists_load_eq_ok hlog hload
    have hdated : ∀ p ∈ posts, p.IsDated := by
      intro p hp
      obtain ⟨item,hitem,slug,hslug,hpost⟩ := hposts p hp
      have hlist := hitems.resolve_left (List.ne_nil_of_mem hitem)
      obtain ⟨post,hpost',hpublished⟩ := hfiles items hlist item hitem slug hslug
      obtain rfl := Except.ok.inj (hpost.symm.trans hpost')
      exact hpublished p rfl
    have horder := pairwise_newestFirst_notEarlier id hdated
    refine ⟨_,hrun,horder,fun p hp q hq => ?_⟩
    obtain ⟨rest,hrest⟩ := List.head?_eq_some_iff.mp hp
    have hmem : p ∈ newestFirst Post.date posts := by simp [hrest]
    rw [hrest] at hq
    rcases List.mem_cons.mp hq with rfl | hq
    · have hself := hdated q ((newestFirst_perm _ posts).mem_iff.mp hmem)
      exact .of_date_le hself hself (String.le_refl _)
    · have hpairs : (p :: rest).Pairwise Post.NotEarlier := hrest ▸ horder
      exact (List.pairwise_cons.mp hpairs).1 q hq
  · intro hshelf
    refine pairwise_newestFirst_notEarlier Prod.snd fun x hx => ?_
    obtain ⟨b,-,hb⟩ := List.mem_flatMap.mp hx
    obtain ⟨p,hp,rfl⟩ := List.mem_map.mp hb
    cases hposts : shelf.lookup b.slug with
    | none => simp [hposts] at hp
    | some posts =>
      obtain ⟨before,after,hrow,-⟩ := List.lookup_eq_some_iff.mp hposts
      rw [hposts] at hp
      exact hshelf (b.slug,posts) (by simp [hrow]) p hp

/-- A blog with two posts, whose dates are written as given. -/
def datedWorld (date date' : String) : World where
  disk :=
    { entries :=
        [(["c"],.directory),(["c","blogs"],.directory),(["c","blogs","b"],.directory),
          (["c","blogs","b","posts"],.directory),
          (["c","blogs","b","posts","a.md"],
            .file ("---\ntitle: T\nauthor: A\ndate: " ++ date ++ "\n---\nText\n").toUTF8),
          (["c","blogs","b","posts","z.md"],
            .file ("---\ntitle: T\nauthor: A\ndate: " ++ date' ++ "\n---\nText\n").toUTF8)]
      distinct := (by decide : ([["c"],["c","blogs"],["c","blogs","b"],["c","blogs","b","posts"],
        ["c","blogs","b","posts","a.md"],["c","blogs","b","posts","z.md"]] : List Location).Nodup) }

theorem list_datedWorld (date date' : String) : (datedWorld date date').disk.list
    ((⟨"/c",Yaml.read⟩ : PostFolder).directory "b") = .ok ["a.md","z.md"] := by
  have hpath : (⟨"/c",Yaml.read⟩ : PostFolder).directory "b" = "/c/blogs/b/posts" := by decide
  rw [hpath]
  rfl

/-- What holds of both post files with their slugs holds of every post file. -/
theorem forall_datedWorld {P : String → String → Prop} (hfirst : P "a.md" "a") (hlast : P "z.md" "z") :
    ∀ item ∈ ["a.md","z.md"], ∀ slug, item = slug ++ ".md" → P item slug := by
  have hbare : Path.withoutEnding? ".md" "a.md" = some "a" ∧
      Path.withoutEnding? ".md" "z.md" = some "z" := by decide
  intro item hitem slug hslug
  have hname := Path.withoutEnding?_eq_some_iff.mpr hslug
  simp only [List.mem_cons,List.not_mem_nil,or_false] at hitem
  rcases hitem with rfl | rfl
  · exact Option.some.inj (hbare.1.symm.trans hname) ▸ hfirst
  · exact Option.some.inj (hbare.2.symm.trans hname) ▸ hlast

/-- The date of the post in a file. -/
def dateOf? : Except Failure Post.Reading → Option String
  | .ok (.published p) => some p.date
  | _ => none

theorem exists_of_dateOf? {r : Except Failure Post.Reading} {date : String}
    (h : dateOf? r = some date) : ∃ p, r = .ok (.published p) ∧ p.date = date := by
  cases r with
  | error e => simp [dateOf?] at h
  | ok r =>
    cases r with
    | draft => simp [dateOf?] at h
    | published p => exact ⟨p,rfl,Option.some.inj h⟩

theorem newestFirst_inCalendarOrder_sample :
    let f : PostFolder := ⟨"/c",Yaml.read⟩
    let w := datedWorld "2024-02-29 08:00:00" "'2024-10-01'"
    (w.LogNamed ∧ ∀ items, w.disk.list (f.directory "b") = .ok items → ∀ item ∈ items, ∀ slug,
      item = slug ++ ".md" → ∃ post : Option Post,
        ((f.loadFile "b" item slug).go w).1 = .ok post ∧ ∀ p ∈ post, p.IsDated) ∧
    ∃ posts, ((f.load "b").go w).1 = .ok posts ∧ posts.Pairwise Post.NotEarlier ∧
      (∀ p ∈ posts.head?, ∀ q ∈ posts, p.NotEarlier q) ∧
      ∀ b : Blog, (∀ x ∈ [("b",posts)], ∀ p ∈ x.2, p.IsDated) →
        (HomePage.entries [b] [("b",posts)]).Pairwise fun x y => x.2.NotEarlier y.2 := by
  intro f w
  have hlog : w.LogNamed := by simp [World.LogNamed,w,datedWorld]
  have hfirst : dateOf? (f.reading w.disk "b" "a.md" "a") =
      some (String.ofList (Date.iso { year := 2024, month := 2, day := 29 })) := by decide +kernel
  have hlast : dateOf? (f.reading w.disk "b" "z.md" "z") =
      some (String.ofList (Date.iso { year := 2024, month := 10, day := 1 })) := by decide +kernel
  have hfile : ∀ {item slug : String} {d : Date},
      dateOf? (f.reading w.disk "b" item slug) = some (String.ofList d.iso) → ∃ post : Option Post,
        ((f.loadFile "b" item slug).go w).1 = .ok post ∧ ∀ p ∈ post, p.IsDated := by
    intro item slug d hdate
    obtain ⟨p,hp,hd⟩ := exists_of_dateOf? hdate
    refine ⟨some p,PostFolder.go_loadFile_eq_ok_iff.mpr ⟨_,hp,rfl⟩,?_⟩
    intro q hq
    obtain rfl := Option.mem_some_iff.mp hq
    exact ⟨d,by simp [hd]⟩
  have hfiles : ∀ items, w.disk.list (f.directory "b") = .ok items → ∀ item ∈ items, ∀ slug,
      item = slug ++ ".md" → ∃ post : Option Post,
        ((f.loadFile "b" item slug).go w).1 = .ok post ∧ ∀ p ∈ post, p.IsDated := by
    intro items hlist
    obtain rfl : ["a.md","z.md"] = items :=
      Except.ok.inj ((list_datedWorld "2024-02-29 08:00:00" "'2024-10-01'").symm.trans hlist)
    exact forall_datedWorld (hfile hfirst) (hfile hlast)
  obtain ⟨posts,hposts⟩ := (newestFirst_inCalendarOrder f w "b" [] []).1 hlog hfiles
  exact ⟨⟨hlog,hfiles⟩,posts,hposts.1,hposts.2.1,hposts.2.2,
    fun b => (newestFirst_inCalendarOrder f w "b" [b] [("b",posts)]).2⟩

/-- Days that are written without their zeros are read as days, and are not in the order of the
calendar. -/
theorem not_inCalendarOrder_short :
    ∃ posts, (((⟨"/c",Yaml.read⟩ : PostFolder).load "b").go
        (datedWorld "'2024-9-5'" "'2024-10-1'")).1 = .ok posts ∧
      (∀ p ∈ posts, (Date.parse? p.date.toList).isSome) ∧ ¬ posts.Pairwise Post.NotEarlier := by
  set f : PostFolder := ⟨"/c",Yaml.read⟩
  set w := datedWorld "'2024-9-5'" "'2024-10-1'"
  have hlog : w.LogNamed := by simp [World.LogNamed,w,datedWorld]
  have hshort : dateOf? (f.reading w.disk "b" "a.md" "a") = some "2024-9-5" := by decide +kernel
  have hlong : dateOf? (f.reading w.disk "b" "z.md" "z") = some "2024-10-1" := by decide +kernel
  obtain ⟨p,hp,hpdate⟩ := exists_of_dateOf? hshort
  obtain ⟨q,hq,hqdate⟩ := exists_of_dateOf? hlong
  have hsound : f.Sound w.disk "b" ["a.md","z.md"] := forall_datedWorld ⟨_,hp⟩ ⟨_,hq⟩
  have hfound : ["a.md","z.md"].filterMap (PostFolder.post? (f.reading w.disk "b")) = [p,q] := by
    have hfirst := PostFolder.post?_eq_some_iff.mpr ⟨"a",(by decide : "a.md" = "a" ++ ".md"),hp⟩
    have hlast := PostFolder.post?_eq_some_iff.mpr ⟨"z",(by decide : "z.md" = "z" ++ ".md"),hq⟩
    simp [hfirst,hlast]
  have hsorted : Path.sortedNames ["a.md","z.md"] = ["a.md","z.md"] :=
    List.mergeSort_of_pairwise (by decide)
  have hkept : newestFirst Post.date [p,q] = [p,q] :=
    List.mergeSort_of_pairwise (by simp [hpdate,hqdate])
  have hload := PostFolder.go_load (list_datedWorld "'2024-9-5'" "'2024-10-1'") hlog hsound
  rw [PostFolder.map_snd_shelf,hsorted,hfound,hkept] at hload
  have hfirst : Date.parse? p.date.toList = some { year := 2024, month := 9, day := 5 } :=
    hpdate ▸ by decide
  have hlast : Date.parse? q.date.toList = some { year := 2024, month := 10, day := 1 } :=
    hqdate ▸ by decide
  refine ⟨[p,q],hload,by simp [hfirst,hlast],fun horder => ?_⟩
  obtain ⟨d,e,hd,he,hle⟩ := List.pairwise_pair.mp horder
  obtain rfl := Option.some.inj (hfirst.symm.trans hd)
  obtain rfl := Option.some.inj (hlast.symm.trans he)
  exact absurd hle (by decide)

end BlogSite
