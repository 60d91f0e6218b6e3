import BlogSite.Proofs.EscapedTexts
import BlogSite.Proofs.FragmentOutlines
import BlogSite.Proofs.PostOrder
import BlogSite.Proofs.SiteCounts

/-!
The latest posts on the home page. They are the first ones in the order of dates, newest first, where posts of
one date keep the order of the blogs in the list and of the posts in a blog; and the entry of each of them tells
of its own blog.
-/

namespace BlogSite

open Html Html.Fragment

/-! ### Reading an entry -/

namespace Home

/-- The tags of an entry down to its excerpt, each with the text after it. -/
def entryTags (b : Blog) (p : Post) : List (Tag String × String) :=
  [(⟨"a".toList,[("href".toList,"blogs/" ++ b.slug ++ "/posts/" ++ p.slug ++ ".html"),
      ("class".toList,"word-blog-entry")]⟩,"\n  "),
    (⟨"div".toList,[("class".toList,"word-blog-entry-title")]⟩,"\n    "),
    (⟨"span".toList,[("class".toList,"word-emoji")]⟩,b.planet.emoji.shown),
    (⟨"/span".toList,[]⟩,p.title.shown ++ "\n  "),
    (⟨"/div".toList,[]⟩,"\n  "),
    (⟨"div".toList,[("class".toList,"word-blog-meta")]⟩,
      "投稿者: " ++ p.author.shown ++ " | ブログ: " ++ b.title.shown ++ " | 日時: " ++ p.date),
    (⟨"/div".toList,[]⟩,"\n  "),
    (⟨"p".toList,[("class".toList,"word-blog-excerpt")]⟩,p.excerpt.shown)]

/-- The pieces of an entry down to its excerpt. -/
def entryHead (b : Blog) (p : Post) : Fragment := (latestEntry b p).take 16

/-- The pieces after the excerpt, among them the badges of tags. -/
def entryRest (b : Blog) (p : Post) : Fragment := (latestEntry b p).drop 16

theorem signs_latestEntry (b : Blog) (p : Post) :
    (latestEntry b p).signs = (entryHead b p).signs ++ (entryRest b p).signs := by
  rw [← signs_append,entryHead,entryRest,List.take_append_drop]

/-! The tags are read once, off an entry with a number for each text. -/

def numberedBlog : Blog where
  slug := "0"
  title := .str "5"
  desc := .null
  author := .null
  theme := .null
  planet := ⟨.str "2",.null,.null⟩

def numberedPost : Post where
  slug := "1"
  title := .str "3"
  date := "6"
  author := .str "4"
  excerpt := .str "7"
  tags := []
  content := ""

/-- The text that a number stands for. -/
def numbered (b : Blog) (p : Post) (s : String) : String :=
  ((["0","1","2","3","4","5","6","7"].zip (entryTexts b p)).lookup s).getD ""

def numberedTags : List (Tag (List (Sign String)) × List (Sign String)) :=
  [(⟨"a".toList,[("href".toList,plain "blogs/" ++ ([.hole "0"] ++ (plain "/posts/" ++ ([.hole "1"] ++
      plain ".html")))),("class".toList,plain "word-blog-entry")]⟩,plain "\n  "),
    (⟨"div".toList,[("class".toList,plain "word-blog-entry-title")]⟩,plain "\n    "),
    (⟨"span".toList,[("class".toList,plain "word-emoji")]⟩,[.hole "2"]),
    (⟨"/span".toList,[]⟩,[.hole "3"] ++ plain "\n  "),
    (⟨"/div".toList,[]⟩,plain "\n  "),
    (⟨"div".toList,[("class".toList,plain "word-blog-meta")]⟩,
      plain "投稿者: " ++ ([.hole "4"] ++ (plain " | ブログ: " ++ ([.hole "5"] ++
        (plain " | 日時: " ++ [.hole "6"]))))),
    (⟨"/div".toList,[]⟩,plain "\n  "),
    (⟨"p".toList,[("class".toList,plain "word-blog-excerpt")]⟩,[.hole "7"])]

theorem outline?_numbered :
    (entryHead numberedBlog numberedPost).outline? = some ⟨[],numberedTags⟩ := by
  decide +kernel

theorem map_fill_numbered (b : Blog) (p : Post) :
    (entryHead numberedBlog numberedPost).map (Piece.fill (numbered b p)) = entryHead b p := by
  simp [entryHead,latestEntry,numberedBlog,numberedPost,Piece.fill,numbered,entryTexts,markup,text,value,Value.shown,
    Value.text,Value.display,List.lookup_cons]

theorem filled_numberedTags (b : Blog) (p : Post) :
    (numberedTags.map fun x => (x.1.map (List.map (Sign.map (numbered b p))),
      x.2.map (Sign.map (numbered b p)))).map (fun x => (x.1.map filled,filled x.2)) = entryTags b p := by
  have hnumbered : ∀ x ∈ ["0","1","2","3","4","5","6","7"].zip (entryTexts b p),
      numbered b p x.1 = x.2 := by
    simp [numbered,entryTexts,List.lookup_cons]
  simp only [entryTexts,List.cons_append,List.zip_cons_cons,List.forall_mem_cons] at hnumbered
  obtain ⟨h0,h1,h2,h3,h4,h5,h6,h7,-⟩ := hnumbered
  have hhole : ∀ s, filled [Sign.map (numbered b p) (.hole s)] = numbered b p s := by
    simp [filled,Sign.map]
  simp only [numberedTags,entryTags,List.map_cons,List.map_nil,Tag.map,List.map_append,filled_append,
    map_plain,filled_plain,hhole,h0,h1,h2,h3,h4,h5,h6,h7,String.append_assoc]

/-- What comes after the excerpt can be read, and it begins with a tag. -/
theorem exists_run_entryRest (b : Blog) (p : Post) :
    ∃ us, Spot.content.run (entryRest b p).signs = some (.content,us) ∧ (pageOf us).lead = [] := by
  obtain ⟨k,hk⟩ := rigid_tagsBlock (Theme.isTidy_of_mem_registry Theme.default (by decide))
  have hclose : Fragment.Leads .content [markup "\n</a>"] .content := .markup (.lit (by decide)) .nil
  obtain ⟨l,hl⟩ := hclose.exists_hasSkeleton
  obtain ⟨us,hus,-⟩ := skeleton?_eq_some_iff.mp ((hk p.tags).append hl).skeleton
  obtain ⟨ts,hts⟩ : ∃ ts, Spot.content.run (signs [markup "</p>\n  "]) =
      some (.content,.tag ⟨"/p".toList,[]⟩ :: ts) := ⟨(plain "\n  ").map .sign,by decide⟩
  refine ⟨.tag ⟨"/p".toList,[]⟩ :: ts ++ us,?_,rfl⟩
  change Spot.content.run (signs ([markup "</p>\n  "] ++ (_ ++ [markup "\n</a>"]))) = _
  rw [signs_append,Spot.run_append,hts,Option.bind_some]
  exact congrArg (Option.map _) hus

/-- A reader of an entry finds the link to the post in its blog, the emoji and the title of the blog, and what
the post tells of itself. -/
theorem readPage_latestEntry (b : Blog) (p : Post) :
    ∃ rest, readPage (latestEntry b p).render = some ⟨"",entryTags b p ++ rest⟩ := by
  obtain ⟨k,hk⟩ := rigid_latestEntry
  obtain ⟨o,ho,hread⟩ := (hk (b,p)).readsBack
  have hhead := outline?_fill (numbered b p) (entryHead numberedBlog numberedPost)
  rw [map_fill_numbered,outline?_numbered,Option.map_some] at hhead
  obtain ⟨ts,hts,hpage⟩ := exists_run_of_page? hhead
  obtain ⟨us,hus,hlead⟩ := exists_run_entryRest b p
  have hrun : Spot.content.run (latestEntry b p).signs = some (.content,ts ++ us) :=
    signs_latestEntry b p ▸ Spot.run_trans hts hus
  have hall : o = pageOf (ts ++ us) := Option.some.inj (ho.symm.trans (outline?_of_run hrun))
  refine ⟨(pageOf us).tags.map fun x => (x.1.map filled,filled x.2),hread.trans ?_⟩
  rw [hall,pageOf_append hlead,hpage,← filled_numberedTags]
  simp [Page.map,filled]

end Home

namespace HomePage

/-- A post of a blog, with the positions of both. -/
structure Pick where
  blogAt : ℕ
  postAt : ℕ
  blog : Blog
  post : Post

namespace Pick

/-- The post is there: at its position among those on the shelf for the blog, which is at its own position. -/
def IsIn (blogs : List Blog) (shelf : Shelf) (x : Pick) : Prop :=
  blogs[x.blogAt]? = some x.blog ∧ ((shelf.lookup x.blog.slug).getD [])[x.postAt]? = some x.post

/-- One post is before another one by their positions. -/
def Precedes (x y : Pick) : Prop := x.blogAt < y.blogAt ∨ x.blogAt = y.blogAt ∧ x.postAt < y.postAt

/-- One post comes before another one: it is newer, or as new and before it by their positions. -/
def Before (x y : Pick) : Prop :=
  y.post.date < x.post.date ∨ y.post.date = x.post.date ∧ x.Precedes y

end Pick

/-- All posts of blogs with their positions. -/
def picks (blogs : List Blog) (shelf : Shelf) : List Pick :=
  blogs.zipIdx.flatMap fun (b,i) =>
    ((shelf.lookup b.slug).getD []).zipIdx.map fun (p,j) => ⟨i,j,b,p⟩

variable {blogs : List Blog} {shelf : Shelf}

theorem mem_picks_iff {x : Pick} : x ∈ picks blogs shelf ↔ x.IsIn blogs shelf := by
  simp only [picks,List.mem_flatMap,List.mem_map,Prod.exists,List.mk_mem_zipIdx_iff_getElem?]
  constructor
  · rintro ⟨b,i,hb,p,j,hp,rfl⟩
    exact ⟨hb,hp⟩
  · rintro ⟨hb,hp⟩
    exact ⟨_,_,hb,_,_,hp,rfl⟩

theorem pairwise_zipIdx {α : Type} (xs : List α) : xs.zipIdx.Pairwise fun x y => x.2 < y.2 := by
  rw [← List.pairwise_map (f := Prod.snd) (R := (· < ·)),List.zipIdx_map_snd]
  exact List.pairwise_lt_range'

theorem pairwise_picks (blogs : List Blog) (shelf : Shelf) :
    (picks blogs shelf).Pairwise Pick.Precedes := by
  refine List.pairwise_flatMap.mpr ⟨fun b _ => ?_,?_⟩
  · refine List.pairwise_map.mpr ((pairwise_zipIdx _).imp fun h => ?_)
    exact .inr ⟨rfl,h⟩
  · refine (pairwise_zipIdx blogs).imp fun h x hx y hy => ?_
    obtain ⟨_,-,rfl⟩ := List.mem_map.mp hx
    obtain ⟨_,-,rfl⟩ := List.mem_map.mp hy
    exact .inl h

theorem map_picks (blogs : List Blog) (shelf : Shelf) :
    (picks blogs shelf).map (fun x => (x.blog,x.post)) =
      blogs.flatMap fun b => ((shelf.lookup b.slug).getD []).map fun p => (b,p) := by
  have hblogs : blogs = blogs.zipIdx.map Prod.fst := (List.zipIdx_map_fst 0 blogs).symm
  conv_rhs => rw [hblogs,List.flatMap_map]
  rw [picks,List.map_flatMap]
  refine List.flatMap_congr fun x _ => ?_
  conv_rhs => rw [← List.zipIdx_map_fst 0 ((shelf.lookup x.1.slug).getD []),List.map_map]
  rw [List.map_map]
  rfl

theorem length_picks (blogs : List Blog) (shelf : Shelf) :
    (picks blogs shelf).length = (blogs.map fun b => ((shelf.lookup b.slug).getD []).length).sum := by
  rw [← List.length_map fun x : Pick => (x.blog,x.post),map_picks,List.length_flatMap]
  simp

/-- The posts that the home page shows, with their positions. -/
def latest (blogs : List Blog) (shelf : Shelf) : List Pick :=
  (newestFirst (fun x => x.post.date) (picks blogs shelf)).take latestCount

theorem map_latest (blogs : List Blog) (shelf : Shelf) :
    (latest blogs shelf).map (fun x => (x.blog,x.post)) = feed blogs shelf := by
  rw [latest,List.map_take,feed,entries,← map_picks,
    ← map_newestFirst (fun e : Blog × Post => e.2.date) fun x : Pick => (x.blog,x.post)]

/-- Some posts are the latest ones: up to ten of those that are there, in order, and all others come after
them. -/
structure IsLatest (blogs : List Blog) (shelf : Shelf) (xs : List Pick) : Prop where
  length : xs.length = min 10 (blogs.map fun b => ((shelf.lookup b.slug).getD []).length).sum
  present : ∀ x ∈ xs, x.IsIn blogs shelf
  sorted : xs.Pairwise Pick.Before
  first : ∀ x ∈ xs, ∀ y : Pick, y.IsIn blogs shelf → y ∉ xs → x.Before y

theorem isLatest_latest (blogs : List Blog) (shelf : Shelf) : IsLatest blogs shelf (latest blogs shelf) := by
  set xs := newestFirst (fun x : Pick => x.post.date) (picks blogs shelf)
  have hperm : xs.Perm (picks blogs shelf) := newestFirst_perm _ _
  have hsorted : xs.Pairwise Pick.Before := pairwise_newestFirst _ (pairwise_picks blogs shelf)
  rw [← List.take_append_drop latestCount xs] at hsorted
  obtain ⟨htake,-,hcross⟩ := List.pairwise_append.mp hsorted
  constructor
  · rw [latest,List.length_take,← length_picks,← hperm.length_eq]
    rfl
  · exact fun x hx => mem_picks_iff.mp (hperm.mem_iff.mp (List.mem_of_mem_take hx))
  · exact htake
  · intro x hx y hy hout
    have hmem : y ∈ xs := hperm.mem_iff.mpr (mem_picks_iff.mpr hy)
    rw [← List.take_append_drop latestCount xs] at hmem
    exact hcross x hx y ((List.mem_append.mp hmem).resolve_left hout)

/-- Whatever blogs there are and whatever is on the shelf, the home page shows the latest posts and no others,
one entry for each in their order, and each entry is read as that of the post in its own blog. -/
theorem shown_latestPosts (title : Value) (today : Calendar.Date) (blogs : List Blog) (shelf : Shelf)
    (recent : List String) : ∃ xs, IsLatest blogs shelf xs ∧
      (shown title today blogs shelf recent).lookup "LATEST_POSTS" =
        some ("\n".intercalate (xs.map fun x => (Home.latestEntry x.blog x.post).render)) ∧
      ∀ x ∈ xs, ∃ rest, readPage (Home.latestEntry x.blog x.post).render =
        some ⟨"",Home.entryTags x.blog x.post ++ rest⟩ := by
  refine ⟨latest blogs shelf,isLatest_latest blogs shelf,?_,fun x _ => Home.readPage_latestEntry _ _⟩
  rw [lookup_latestPosts,← map_latest,Home.latestPosts,List.map_map,render_join,List.map_map]
  rfl

end HomePage

end BlogSite
