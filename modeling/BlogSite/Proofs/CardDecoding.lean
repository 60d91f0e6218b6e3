import BlogSite.Proofs.CardReading
import Mathlib.Data.List.DropRight

/-!
Posts recovered from their cards. Every theme shows the same data: from its list of posts, a reader that knows its
layout gets back what each post tells of itself. So two lists that look alike in one theme look alike in all.
-/

namespace BlogSite

open Html Html.Fragment

/-- What the card of a post tells. -/
structure Summary where
  slug : String
  title : String
  date : String
  author : String
  excerpt : String
  tags : List String
deriving DecidableEq

def Post.summary (p : Post) : Summary := ⟨p.slug,p.title.shown,p.date,p.author.shown,p.excerpt.shown,p.tags⟩

/-- A post that tells this. -/
def Summary.post (s : Summary) : Post := ⟨s.slug,.str s.title,s.date,.str s.author,.str s.excerpt,s.tags,""⟩

/-! ### Texts in parts -/

/-- A text without what stands before it. -/
def without (before s : String) : String := String.ofList (s.toList.drop before.toList.length)

@[simp] theorem without_append (before s : String) : without before (before ++ s) = s := by
  simp [without]

@[simp] theorem without_empty (s : String) : without "" s = s := by
  simp [without]

/-- What stands between two texts. -/
def between (before after s : String) : String :=
  String.ofList ((s.toList.drop before.toList.length).rdrop after.toList.length)

@[simp] theorem between_append (before s after : String) : between before after (before ++ s ++ after) = s := by
  simp [between]

section Sections

variable {α : Type} {cut : α → Bool} {mark : α}

/-- Parts without a mark are found again between the marks. -/
theorem splitOnP_sections (hmark : cut mark = true) {part : List α} {parts : List (List α)}
    (hpart : ∀ x ∈ part, cut x = false) (hparts : ∀ part ∈ parts, ∀ x ∈ part, cut x = false) :
    (part ++ parts.flatMap (mark :: ·)).splitOnP cut = part :: parts := by
  induction parts generalizing part with
  | nil => rw [List.flatMap_nil,List.append_nil,List.splitOnP_eq_singleton hpart]
  | cons next parts ih =>
    obtain ⟨hnext,hparts⟩ := List.forall_mem_cons.mp hparts
    rw [List.flatMap_cons,List.cons_append,List.splitOnP_append_cons_of_forall_mem hpart _ hmark,ih hnext hparts]

end Sections

/-! ### Reading a card -/

/-- Where a card has the texts of its post: their places among its tags, and what stands before a text. -/
structure Legend where
  title : Nat
  date : Nat
  author : Nat
  excerpt : Nat
  /-- The place of the first badge. -/
  badges : Nat
  beforeDate : String
  beforeAuthor : String

/-- The text at a place. -/
def textAt (xs : List (String × String)) (i : Nat) : String := (xs[i]?.map Prod.snd).getD ""

/-- What a card tells that leads to a page. -/
def Legend.read (l : Legend) (link : String) (xs : List (String × String)) : Summary where
  slug := between "posts/" ".html" link
  title := textAt xs l.title
  date := without l.beforeDate (textAt xs l.date)
  author := without l.beforeAuthor (textAt xs l.author)
  excerpt := textAt xs l.excerpt
  tags := ((xs.drop l.badges).filter (·.1 = "span")).map fun x => without "#" x.2

namespace Theme

variable {t : Theme}

/-- How the cards of a theme are read. -/
def legend (t : Theme) : Legend :=
  match t.layout with
  | .cards | .document => ⟨1,3,9,6,12,t.beforeDate,"✍️ "⟩
  | .stacked => ⟨2,0,7,4,10,t.beforeDate,"✍️ "⟩
  | .terminal => ⟨4,0,2,6,9,"",""⟩

theorem badges_badgesSeen (tags : List String) :
    ((badgesSeen tags).filter (·.1 = "span")).map (fun x => without "#" x.2) = tags := by
  induction tags with
  | nil => rfl
  | cons tag tags ih => simpa [badgesSeen] using ih

theorem read_cardSeen (p : Post) (e : String) :
    t.legend.read ("posts/" ++ p.slug ++ ".html") (t.cardSeen p ++ [("/a",e)]) = p.summary := by
  have hbadges := badges_badgesSeen p.tags
  unfold Legend.read legend cardSeen
  cases t.layout <;> simp [textAt,hbadges,Post.summary]

/-! ### Reading a list of posts -/

/-- What is found between a card and those after it. -/
def separator (posts : List Post) : String := if posts = [] then "" else "\n"

def listTokens (t : Theme) : List Post → List (Token String)
  | [] => []
  | p :: ps => t.cardTokens p ++ (said (separator ps) ++ t.listTokens ps)

theorem finds_join (ht : t.IsPlain) (posts : List Post) :
    Finds .content (Fragment.join "\n" (posts.map t.card)) .content (t.listTokens posts) := by
  induction posts with
  | nil => rfl
  | cons p ps ih =>
    cases ps with
    | nil =>
      have hend : t.listTokens [p] = t.cardTokens p := List.append_nil _
      exact hend ▸ finds_card ht p
    | cons q qs => exact (finds_card ht p).append (.cons (.content (by decide)) ih)

/-- What is seen on each card after its link. -/
def cardsSeen (t : Theme) : List Post → List (List (String × String))
  | [] => []
  | p :: ps => (t.cardSeen p ++ [("/a",separator ps)]) :: t.cardsSeen ps

theorem leadAs_listTokens (posts : List Post) : leadAs (t.listTokens posts) = "" := by
  cases posts with
  | nil => rfl
  | cons p ps =>
    unfold listTokens cardTokens
    cases t.layout <;> simp

theorem seenAs_listTokens (posts : List Post) :
    seenAs (t.listTokens posts) = (t.cardsSeen posts).flatMap (("a","\n  ") :: ·) := by
  induction posts with
  | nil => rfl
  | cons p ps ih =>
    simp [listTokens,cardsSeen,seenAs_cardTokens,leadAs_listTokens,ih]

def isLink (x : String × String) : Bool := x.1 = "a"

theorem isLink_cardSeen (p : Post) : ∀ x ∈ t.cardSeen p, isLink x = false := by
  have hbadges : ∀ x ∈ badgesSeen p.tags, isLink x = false := by
    intro x hx
    obtain ⟨tag,-,hx⟩ := List.mem_flatMap.mp hx
    rcases List.mem_pair.mp hx with rfl | rfl <;> rfl
  unfold cardSeen
  cases t.layout <;> exact List.forall_mem_append.mpr
    ⟨List.forall_mem_append.mpr ⟨by simp [isLink],hbadges⟩,by simp [isLink]⟩

theorem isLink_cardsSeen (posts : List Post) : ∀ xs ∈ t.cardsSeen posts, ∀ x ∈ xs, isLink x = false := by
  induction posts with
  | nil => exact fun xs hxs => absurd hxs List.not_mem_nil
  | cons p ps ih =>
    refine List.forall_mem_cons.mpr ⟨List.forall_mem_append.mpr ⟨isLink_cardSeen p,?_⟩,ih⟩
    simp [isLink]

/-- What is seen after each link of a page. -/
def sections (page : String) : List (List (String × String)) := ((seenOn page).splitOnP isLink).tail

theorem sections_postList (ht : t ∈ registry) (posts : List Post) :
    sections (t.postList posts).render = t.cardsSeen posts := by
  obtain ⟨k,hk⟩ := rigid_postList (isTidy_of_mem_registry t ht)
  cases posts with
  | nil =>
    have hnone : Finds .content noPosts .content
        (tagged "p" ++ said "記事がまだありません" ++ tagged "/p") := .lit (by decide)
    rw [sections,(hk []).readsBack.seenOn hnone]
    rfl
  | cons p ps =>
    have hsome := finds_join (isPlain_of_mem_registry t ht) (p :: ps)
    have hmark : isLink ("a","\n  ") = true := rfl
    have hparts := splitOnP_sections hmark (List.forall_mem_nil _) (isLink_cardsSeen (t := t) (p :: ps))
    rw [List.nil_append] at hparts
    rw [sections,(hk (p :: ps)).readsBack.seenOn hsome,seenAs_listTokens,hparts,List.tail_cons]

/-- The posts of a page, as its theme shows them. -/
def decode (t : Theme) (page : String) : List Summary := List.zipWith t.legend.read (links page) (sections page)

theorem decode_postList (ht : t ∈ registry) (posts : List Post) :
    t.decode (t.postList posts).render = posts.map Post.summary := by
  rw [decode,sections_postList ht,links_postList (isPlain_of_mem_registry t ht)]
  induction posts with
  | nil => rfl
  | cons p ps ih => rw [List.map_cons,cardsSeen,List.zipWith_cons_cons,read_cardSeen,ih,List.map_cons]

/-! ### Lists that look alike -/

/-- A card shows its post by what it tells. -/
theorem card_summary (p : Post) : t.card p.summary.post = t.card p := by
  have hvalue : ∀ v : Value, value (.str v.shown) = value v := by
    intro v
    simp [value,Value.shown,Value.text,Value.display]
  unfold card
  cases t.layout <;>
    simp only [cardOfCards,stackedCard,terminalRow,documentEntry,cardOpen,Post.summary,Summary.post,hvalue]

theorem postList_summary (posts : List Post) :
    t.postList ((posts.map Post.summary).map Summary.post) = t.postList posts := by
  have hcards : ((posts.map Post.summary).map Summary.post).map t.card = posts.map t.card := by
    simp [Function.comp_def,card_summary]
  rw [postList,postList,hcards,List.isEmpty_map,List.isEmpty_map]

theorem render_postList_eq_iff (ht : t ∈ registry) (posts posts' : List Post) :
    (t.postList posts).render = (t.postList posts').render ↔
      posts.map Post.summary = posts'.map Post.summary := by
  constructor
  · intro h
    rw [← decode_postList ht,h,decode_postList ht]
  · intro h
    rw [← postList_summary posts,h,postList_summary]

/-- For all themes and all lists of posts, the posts are recovered from their list: what is read is what they tell,
and this is what stands in a post whose fields are texts. So lists look alike in one theme just when they do in
the other, that is when they tell the same; and the links and the tags of the cards are those of the posts. -/
theorem postList_tells (name name' : String) (posts posts' : List Post) :
    (named name).decode ((named name).postList posts).render = posts.map Post.summary ∧
    (∀ slug title date author excerpt tags content,
      Post.summary ⟨slug,.str title,date,.str author,.str excerpt,tags,content⟩ =
        ⟨slug,title,date,author,excerpt,tags⟩) ∧
    (((named name).postList posts).render = ((named name).postList posts').render ↔
      ((named name').postList posts).render = ((named name').postList posts').render) ∧
    (((named name).postList posts).render = ((named name).postList posts').render ↔
      posts.map Post.summary = posts'.map Post.summary) ∧
    links ((named name).postList posts).render = posts.map (fun p => "posts/" ++ p.slug ++ ".html") ∧
    attributeValues "data-post-tags" ((named name).postList posts).render =
      posts.map fun p => ",".intercalate p.tags := by
  have ht := named_mem_registry name
  have hplain := isPlain_of_mem_registry _ ht
  have hiff := render_postList_eq_iff ht posts posts'
  refine ⟨decode_postList ht posts,?_,?_,hiff,links_postList hplain posts,?_⟩
  · intro slug title date author excerpt tags content
    simp [Post.summary,Value.shown,Value.text,Value.display]
  · exact hiff.trans (render_postList_eq_iff (named_mem_registry name') posts posts').symm
  · exact (reads_tags_postList hplain posts).attributeValues

end Theme

end BlogSite
