import BlogSite.Proofs.BuiltSite
import BlogSite.Proofs.ShelvedRows

/-!
What the home page tells of the blogs. It is made of the posts of all blogs, sorted once more and cut to
the latest ones, and of tables by the slugs of the blogs; the page of a blog is made of the posts of that
blog alone. Both tell the same: how many posts there are, of what day the newest is, and whether it is
recent.
-/

namespace BlogSite

open BlogSite.Html

/-- The date of the newest post as pages show it, if there is one. -/
def BlogPage.dateText : Option String → String
  | none => "N/A"
  | some date => escapeText date

theorem BlogPage.latestDate_eq (posts : List Post) :
    latestDate posts = dateText (posts.head?.map Post.date) := by
  cases posts <;> rfl

theorem Table.lookup_map_snd {κ α β : Type} [DecidableEq κ] (f : α → β) (rows : List (κ × α)) (k : κ) :
    (rows.map fun p => (p.1,f p.2)).lookup k = (rows.lookup k).map f := by
  induction rows with
  | nil => rfl
  | cons r rows ih =>
    rw [List.map_cons,lookup_cons_eq,lookup_cons_eq,ih]
    split
    · rfl
    · rfl

/-! ### Rows -/

namespace Row

/-- The date of the newest post. -/
def latest? (r : Row) : Option String := r.posts.head?.map Post.date

/-- Whether there is a newest post and its day is recent. -/
def isNew (today : Calendar.Date) (r : Row) : Bool :=
  r.latest?.any fun date => HomePage.isRecent? date today = some true

/-- The number of the posts. -/
def count (r : Row) : Value := .int r.posts.length

/-- The posts stand from the newest to the oldest. -/
def IsSorted (r : Row) : Prop := r.posts.Pairwise fun p q => q.date ≤ p.date

theorem lookup_latestDate (r : Row) :
    r.shown.lookup "LATEST_DATE" = some (BlogPage.dateText r.latest?) :=
  congrArg some (BlogPage.latestDate_eq r.posts)

theorem lookup_postCount (r : Row) :
    r.shown.lookup "POST_COUNT" = some (String.ofList r.count.display) := by
  have hnonneg : ¬ (r.posts.length : Int) < 0 := by omega
  have htext : Value.display r.count = Nat.toDigits 10 r.posts.length := by
    simp [count,Value.display,Value.inspect,Value.intText,hnonneg]
  rw [htext]
  rfl

end Row

theorem Site.WritesRow.isSorted {s : Site} {r : Row} {w v : World} (h : s.WritesRow r w v) :
    r.IsSorted := by
  obtain ⟨_,_,_,_,_,_,hload,-⟩ := h
  rcases PostFolder.exists_of_go_load hload with hnone | ⟨_,found,_,_,-,-,hfound⟩
  · rw [Row.IsSorted,hnone]
    exact .nil
  · rw [Row.IsSorted,hfound]
    exact pairwise_date_newestFirst Post.date found

theorem Site.Writes.isSorted {s : Site} {rows : List Row} {w v : World} (h : s.Writes w rows v) :
    ∀ r ∈ rows, r.IsSorted := by
  induction h with
  | nil => simp
  | cons hr _ ih => exact List.forall_mem_cons.mpr ⟨hr.isSorted,ih⟩

/-! ### The home page -/

namespace HomePage

/-- Whether the first of some posts is recent. -/
def opensNew (today : Calendar.Date) (posts : List Post) : Bool :=
  (posts.head?.map Post.date).any fun date => isRecent? date today = some true

theorem recentSlugs?_eq {today : Calendar.Date} {shelf : Shelf} {recent : List String}
    (h : recentSlugs? today shelf = some recent) :
    recent = (shelf.filter fun row => opensNew today row.2).map Prod.fst := by
  induction shelf generalizing recent with
  | nil => exact (Option.some.inj h).symm
  | cons row shelf ih =>
    obtain ⟨slug,posts⟩ := row
    cases posts with
    | nil => exact ih h
    | cons p posts =>
      simp only [recentSlugs?,Option.bind_eq_bind,Option.bind_eq_some_iff,Option.pure_def] at h
      obtain ⟨isRecent,hp,slugs,hslugs,h⟩ := h
      obtain rfl := ih hslugs
      have hfirst : opensNew today (p :: posts) = isRecent := by simp [opensNew,hp]
      rw [← Option.some.inj h,List.filter_cons,hfirst]
      cases isRecent <;> rfl

variable {rows : List Row}

theorem contains_recentSlugs? {today : Calendar.Date} {recent : List String}
    (h : recentSlugs? today (Row.shelf rows) = some recent) {r : Row} (hr : r ∈ rows) :
    recent.contains r.blog.slug = (Row.current rows r).isNew today := by
  have hlookup := Row.lookup_shelf_of_mem hr
  rw [Bool.eq_iff_iff,List.contains_iff_mem,recentSlugs?_eq h,List.mem_map]
  constructor
  · rintro ⟨⟨slug,posts⟩,hmem,hslug⟩
    obtain rfl : slug = r.blog.slug := hslug
    obtain ⟨hshelf,hnew⟩ := List.mem_filter.mp hmem
    have hposts := (Table.mem_iff_lookup (Table.nodup_ofPairs _)).mp hshelf
    obtain rfl := Option.some.inj (hlookup.symm.trans hposts)
    exact hnew
  · intro hnew
    refine ⟨(r.blog.slug,(Row.current rows r).posts),List.mem_filter.mpr ⟨?_,hnew⟩,rfl⟩
    exact (Table.mem_iff_lookup (Table.nodup_ofPairs _)).mpr hlookup

/-- The posts of the current rows are gone through, each with its blog. -/
theorem entries_perm (rows : List Row) : (entries (rows.map Row.blog) (Row.shelf rows)).Perm
    (rows.flatMap fun r => (Row.current rows r).posts.map fun p => (r.blog,p)) := by
  unfold entries
  refine (newestFirst_perm _ _).trans (List.Perm.of_eq ?_)
  rw [List.flatMap_map]
  refine List.flatMap_congr fun r hr => ?_
  rw [Row.lookup_shelf_of_mem hr,Option.getD_some]

theorem mem_entries_iff {e : Blog × Post} :
    e ∈ entries (rows.map Row.blog) (Row.shelf rows) ↔
      ∃ r ∈ rows, r.blog = e.1 ∧ e.2 ∈ (Row.current rows r).posts := by
  obtain ⟨b,p⟩ := e
  simp [(entries_perm rows).mem_iff,and_comm]

/-- The date of the newest post of all blogs. -/
def latest? (rows : List Row) : Option String :=
  (entries (rows.map Row.blog) (Row.shelf rows)).head?.map fun e => e.2.date

theorem latest?_eq_none : latest? rows = none ↔ ∀ r ∈ rows, (Row.current rows r).posts = [] := by
  rw [latest?,Option.map_eq_none_iff,List.head?_eq_none_iff,List.eq_nil_iff_forall_not_mem]
  constructor
  · intro h r hr
    refine List.eq_nil_iff_forall_not_mem.mpr fun p hp => h (r.blog,p) ?_
    exact mem_entries_iff.mpr ⟨r,hr,rfl,hp⟩
  · intro h e he
    obtain ⟨r,hr,-,hp⟩ := mem_entries_iff.mp he
    rw [h r hr] at hp
    exact List.not_mem_nil hp

theorem date_le_latest? {r : Row} (hr : r ∈ rows) {p : Post} (hp : p ∈ (Row.current rows r).posts) :
    ∃ date, latest? rows = some date ∧ p.date ≤ date := by
  have hmem : (r.blog,p) ∈ entries (rows.map Row.blog) (Row.shelf rows) :=
    mem_entries_iff.mpr ⟨r,hr,rfl,hp⟩
  have hsorted : (entries (rows.map Row.blog) (Row.shelf rows)).Pairwise
      fun d e => e.2.date ≤ d.2.date := pairwise_date_newestFirst _ _
  obtain ⟨date,hdate,hle⟩ := date_le_head (fun e => e.2.date) hsorted hmem
  exact ⟨date,hdate,hle⟩

/-- The newest post of all blogs is the newest of its blog. -/
theorem exists_latest? (hsorted : ∀ r ∈ rows, r.IsSorted) {date : String}
    (h : latest? rows = some date) : ∃ r ∈ rows, (Row.current rows r).latest? = some date := by
  obtain ⟨e,he,rfl⟩ := Option.map_eq_some_iff.mp h
  obtain ⟨r,hr,-,hp⟩ := mem_entries_iff.mp (List.mem_of_mem_head? he)
  obtain ⟨d,hd,hle⟩ := date_le_head Post.date (hsorted _ (Row.current_mem hr)) hp
  obtain ⟨q,hq,rfl⟩ := Option.map_eq_some_iff.mp hd
  obtain ⟨top,htop,hge⟩ := date_le_latest? hr (List.mem_of_mem_head? hq)
  obtain rfl := Option.some.inj (htop.symm.trans h)
  exact ⟨r,hr,hd.trans (congrArg some (String.le_antisymm hge hle))⟩

theorem latest?_le {r : Row} (hr : r ∈ rows) {date : String}
    (h : (Row.current rows r).latest? = some date) : ∃ top, latest? rows = some top ∧ date ≤ top := by
  obtain ⟨p,hp,rfl⟩ := Option.map_eq_some_iff.mp h
  exact date_le_latest? hr (List.mem_of_mem_head? hp)

variable {title : Value} {today : Calendar.Date} {recent : List String}

theorem lookup_latestDate :
    (shown title today (rows.map Row.blog) (Row.shelf rows) recent).lookup "LATEST_DATE" =
      some (BlogPage.dateText (latest? rows)) := by
  refine congrArg some ((BlogPage.latestDate_eq _).trans (congrArg _ ?_))
  rw [latest?,List.head?_map,List.head?_take,if_neg (by decide),Option.map_map]
  rfl

theorem lookup_blogRows (h : recentSlugs? today (Row.shelf rows) = some recent) :
    (shown title today (rows.map Row.blog) (Row.shelf rows) recent).lookup "BLOG_TABLE_ROWS" =
      some (Fragment.join "\n" (rows.map fun r =>
        Home.blogRow r.blog (Row.current rows r).count ((Row.current rows r).isNew today))).render := by
  have hrows : Home.blogRows (rows.map Row.blog)
      ((Row.shelf rows).map fun p => (p.1,.int p.2.length)) recent = Fragment.join "\n" (rows.map fun r =>
        Home.blogRow r.blog (Row.current rows r).count ((Row.current rows r).isNew today)) := by
    rw [Home.blogRows,List.map_map]
    refine congrArg _ (List.map_congr_left fun r hr => ?_)
    rw [Function.comp_apply,Table.lookup_map_snd (fun posts : List Post => Value.int posts.length),
      Row.lookup_shelf_of_mem hr,contains_recentSlugs? h hr]
    rfl
  rw [← hrows]
  rfl

/-- The home page and the pages of the blogs tell the same. Where two blogs have one slug, it is the page
of the later one that is left for both. -/
structure Agrees (today : Calendar.Date) (rows : List Row) (home : Shown) (latest : Option String) :
    Prop where
  left : ∀ r ∈ rows, Row.current rows r ∈ rows ∧
    BlogPage.path (Row.current rows r).blog = BlogPage.path r.blog
  homeDate : home.lookup "LATEST_DATE" = some (BlogPage.dateText latest)
  pageDate : ∀ r ∈ rows, r.shown.lookup "LATEST_DATE" = some (BlogPage.dateText r.latest?)
  pageCount : ∀ r ∈ rows, r.shown.lookup "POST_COUNT" = some (String.ofList r.count.display)
  homeRows : home.lookup "BLOG_TABLE_ROWS" = some (Fragment.join "\n" (rows.map fun r =>
    Home.blogRow r.blog (Row.current rows r).count ((Row.current rows r).isNew today))).render
  dateless : latest = none ↔ ∀ r ∈ rows, (Row.current rows r).posts = []
  attained : ∀ date, latest = some date → ∃ r ∈ rows, (Row.current rows r).latest? = some date
  greatest : ∀ r ∈ rows, ∀ date, (Row.current rows r).latest? = some date →
    ∃ top, latest = some top ∧ date ≤ top
  homeCovers : ∀ r ∈ rows, ∀ p ∈ (Row.current rows r).posts,
    ∃ date, latest = some date ∧ p.date ≤ date
  pageCovers : ∀ r ∈ rows, ∀ p ∈ r.posts, ∃ date, r.latest? = some date ∧ p.date ≤ date

end HomePage

namespace Site

variable {s : Site} {w v : World}

theorem Course.agrees {rows : List Row} {home : Shown} {shelf : HomePage.Shelf}
    (h : s.Course w rows home shelf v) :
    HomePage.Agrees s.today rows home (HomePage.latest? rows) := by
  obtain ⟨_,_,_,_,_,_,_,-,hwrites,-⟩ := h.written
  obtain ⟨recent,hrecent,rfl⟩ := h.shows
  have hshelf : shelf = Row.shelf rows := h.shelved
  subst hshelf
  exact
    { left := fun r hr => ⟨Row.current_mem hr,Row.path_current hr⟩
      homeDate := HomePage.lookup_latestDate
      pageDate := fun r _ => r.lookup_latestDate
      pageCount := fun r _ => r.lookup_postCount
      homeRows := HomePage.lookup_blogRows hrecent
      dateless := HomePage.latest?_eq_none
      attained := fun _ hdate => HomePage.exists_latest? hwrites.isSorted hdate
      greatest := fun _ hr _ hdate => HomePage.latest?_le hr hdate
      homeCovers := fun _ hr _ hp => HomePage.date_le_latest? hr hp
      pageCovers := fun r hr _ hp => date_le_head Post.date (hwrites.isSorted r hr) hp }

/-- When a build succeeds, the home page tells of every blog what the page of the blog tells: the number
of its posts, and that it is new just when it has posts and the date on its page is recent. Its own date
is the greatest of the dates on the pages of the blogs that have posts, and missing if none has any. -/
theorem build_pagesAgree {shelf : HomePage.Shelf} (hgo : s.build.go w = (.ok shelf,v)) :
    ∃ rows home latest, s.Course w rows home shelf v ∧ HomePage.Agrees s.today rows home latest := by
  obtain ⟨rows,home,hcourse⟩ := exists_course hgo
  exact ⟨rows,home,_,hcourse,hcourse.agrees⟩

theorem build_pagesAgree_sample : ∃ shelf v, sample.build.go sampleProject = (.ok shelf,v) ∧
    ∃ rows home latest, sample.Course sampleProject rows home shelf v ∧
      HomePage.Agrees sample.today rows home latest := by
  obtain ⟨shelf,v,hgo⟩ := exists_go_sample
  exact ⟨shelf,v,hgo,build_pagesAgree hgo⟩

end Site

end BlogSite
