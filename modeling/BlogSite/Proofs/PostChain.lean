import BlogSite.Proofs.IsolatedBlogs
import BlogSite.Proofs.SiteLinks

/-!
The chain that the cards of neighbours make of the posts of a blog. Every page leads to the ones beside it in
the order of the posts and to no other one, so that the pages are met one after the other, and only the two ends
have an empty card.
-/

namespace BlogSite

namespace PostPage

/-- A post with what its page shows. -/
abbrev Leaf := Post × Shown

/-- The pages of the posts of a blog, in the order of the posts. -/
def leaves (t : Theme) (b : Blog) (posts : List Post) : List Leaf :=
  (places posts).map fun at_ => (at_.post,shown t b at_)

/-- A card on a page is a link, and it leads to the page of a post of the same blog. -/
def LeadsTo (token : String) (x y : Leaf) : Prop :=
  (x.2.lookup token).map links = some [y.1.slug ++ ".html"]

instance (token : String) (x y : Leaf) : Decidable (LeadsTo token x y) :=
  inferInstanceAs (Decidable (_ = _))

/-- A card on a page is the empty one. -/
def IsEnd (token : String) (x : Leaf) : Prop := x.2.lookup token = some Theme.emptyCard.render

/-- The page that the card of the older post leads to. -/
def previous? (xs : List Leaf) (x : Leaf) : Option Leaf := xs.find? fun y => LeadsTo "PREV_POST" x y

/-- The pages that are met when this card is followed from a page on, no more than so many. -/
def followed (xs : List Leaf) : Nat → Option Leaf → List Leaf
  | 0,_ => []
  | _ + 1,none => []
  | n + 1,some x => x :: followed xs n (previous? xs x)

/-- The pages are those of the posts, no two with one name, and the cards make one chain of them from the newest
to the oldest. -/
structure Chained (posts : List Post) (xs : List Leaf) : Prop where
  complete : xs.map Prod.fst = posts
  once : (posts.map Post.slug).Nodup
  sorted : posts.Pairwise fun p q => q.date ≤ p.date
  converse : ∀ x ∈ xs, ∀ y ∈ xs, LeadsTo "PREV_POST" x y ↔ LeadsTo "NEXT_POST" y x
  walk : ∀ n, followed xs n xs.head? = xs.take n
  newest : posts ≠ [] → ∃! x, x ∈ xs ∧ IsEnd "NEXT_POST" x
  oldest : posts ≠ [] → ∃! x, x ∈ xs ∧ IsEnd "PREV_POST" x
  alone : (∃ x ∈ xs, IsEnd "NEXT_POST" x ∧ IsEnd "PREV_POST" x) ↔ posts.length = 1

/-! ### The neighbours of a page -/

/-- The places of posts, where something comes before the first of them. -/
theorem getElem?_placesFrom (newer : Option Post) (posts : List Post) (i : ℕ) :
    (placesFrom newer posts)[i]? =
      posts[i]?.map fun p => ⟨if i = 0 then newer else posts[i - 1]?,p,posts[i + 1]?⟩ := by
  induction posts generalizing newer i with
  | nil => rfl
  | cons p ps ih =>
    cases i with
    | zero => simp [placesFrom,List.head?_eq_getElem?]
    | succ i => cases i <;> simp [placesFrom,ih]

variable {t : Theme} {b : Blog} {posts : List Post} {x y : Leaf} {i j : ℕ}

/-- A page shows the posts beside its own. -/
theorem getElem?_leaves : (leaves t b posts)[i]? = some x ↔
    ∃ p, posts[i]? = some p ∧ x = (p,shown t b ⟨if i = 0 then none else posts[i - 1]?,p,posts[i + 1]?⟩) := by
  rw [leaves,places,List.getElem?_map,getElem?_placesFrom,Option.map_map,Option.map_eq_some_iff]
  simp only [Function.comp_apply,eq_comm]

theorem map_post_leaves : (leaves t b posts).map Prod.fst = posts := by
  rw [leaves,List.map_map]
  exact map_post_places posts

theorem length_leaves : (leaves t b posts).length = posts.length := by
  rw [← List.length_map Prod.fst,map_post_leaves]

theorem eq_of_slug_eq (hdistinct : (posts.map Post.slug).Nodup) {p q : Post} (hp : posts[i]? = some p)
    (hq : posts[j]? = some q) (hslug : p.slug = q.slug) : i = j := by
  have hi : (posts.map Post.slug)[i]? = some p.slug := by rw [List.getElem?_map,hp,Option.map_some]
  have hj : (posts.map Post.slug)[j]? = some q.slug := by rw [List.getElem?_map,hq,Option.map_some]
  obtain ⟨hlt,-⟩ := List.getElem?_eq_some_iff.mp hi
  exact (List.getElem?_inj hlt hdistinct).mp (hi.trans (hslug ▸ hj.symm))

/-- The card of a neighbour leads to the page of this post, and to no other one of the blog. -/
theorem links_navCard_eq_iff (ht : t.IsPlain) (hdistinct : (posts.map Post.slug).Nodup) {q : Post}
    (hq : posts[j]? = some q) (k : ℕ) (label : Value) :
    links (t.navCard posts[k]? label).render = [q.slug ++ ".html"] ↔ j = k := by
  rw [Theme.links_navCard ht]
  constructor
  · intro h
    obtain ⟨p,hp,hslug⟩ := List.map_eq_singleton_iff.mp h
    rw [Option.toList_eq_singleton_iff] at hp
    exact eq_of_slug_eq hdistinct hq hp ((String.append_left_inj _).mp hslug).symm
  · rintro rfl
    rw [hq]
    rfl

/-- Only the card of no neighbour is empty. -/
theorem navCard_eq_emptyCard_iff (ht : t.IsPlain) {neighbour : Option Post} (label : Value) :
    (t.navCard neighbour label).render = Theme.emptyCard.render ↔ neighbour = none := by
  constructor
  · intro h
    have hlinks := Theme.links_navCard ht neighbour label
    rw [h,show Theme.emptyCard = t.navCard none label from rfl,Theme.links_navCard ht] at hlinks
    simpa using hlinks
  · rintro rfl
    rfl

/-- The older post comes next in the order of the posts. -/
theorem leadsTo_previous_iff (ht : t.IsPlain) (hdistinct : (posts.map Post.slug).Nodup)
    (hx : (leaves t b posts)[i]? = some x) (hy : (leaves t b posts)[j]? = some y) :
    LeadsTo "PREV_POST" x y ↔ j = i + 1 := by
  obtain ⟨p,hp,rfl⟩ := getElem?_leaves.mp hx
  obtain ⟨q,hq,rfl⟩ := getElem?_leaves.mp hy
  exact Option.some_inj.trans (links_navCard_eq_iff ht hdistinct hq (i + 1) olderLabel)

theorem leadsTo_next_iff (ht : t.IsPlain) (hdistinct : (posts.map Post.slug).Nodup)
    (hx : (leaves t b posts)[i]? = some x) (hy : (leaves t b posts)[j]? = some y) :
    LeadsTo "NEXT_POST" x y ↔ i = j + 1 := by
  obtain ⟨p,hp,rfl⟩ := getElem?_leaves.mp hx
  obtain ⟨q,hq,rfl⟩ := getElem?_leaves.mp hy
  refine Option.some_inj.trans ?_
  cases i with
  | zero => simp [Theme.links_navCard ht]
  | succ i =>
    rw [if_neg (Nat.succ_ne_zero i)]
    exact (links_navCard_eq_iff ht hdistinct hq i newerLabel).trans (by omega)

/-- The newest post has nothing before it, and the oldest one nothing after it. -/
theorem isEnd_next_iff (ht : t.IsPlain) (hx : (leaves t b posts)[i]? = some x) :
    IsEnd "NEXT_POST" x ↔ i = 0 := by
  obtain ⟨p,hp,rfl⟩ := getElem?_leaves.mp hx
  obtain ⟨hlt,-⟩ := List.getElem?_eq_some_iff.mp hp
  refine Option.some_inj.trans ((navCard_eq_emptyCard_iff ht newerLabel).trans ?_)
  split
  · simpa
  · rw [List.getElem?_eq_none_iff]
    omega

theorem isEnd_previous_iff (ht : t.IsPlain) (hx : (leaves t b posts)[i]? = some x) :
    IsEnd "PREV_POST" x ↔ i + 1 = posts.length := by
  obtain ⟨p,hp,rfl⟩ := getElem?_leaves.mp hx
  obtain ⟨hlt,-⟩ := List.getElem?_eq_some_iff.mp hp
  refine Option.some_inj.trans ((navCard_eq_emptyCard_iff ht olderLabel).trans ?_)
  rw [List.getElem?_eq_none_iff]
  omega

/-! ### Following the cards -/

theorem previous?_leaves (ht : t.IsPlain) (hdistinct : (posts.map Post.slug).Nodup)
    (hx : (leaves t b posts)[i]? = some x) :
    previous? (leaves t b posts) x = (leaves t b posts)[i + 1]? := by
  unfold previous?
  cases hnext : (leaves t b posts)[i + 1]? with
  | none =>
    rw [List.find?_eq_none]
    intro y hy hleads
    obtain ⟨j,hj⟩ := List.mem_iff_getElem?.mp hy
    obtain rfl := (leadsTo_previous_iff ht hdistinct hx hj).mp (of_decide_eq_true hleads)
    simp [hnext] at hj
  | some y =>
    have hleads := (leadsTo_previous_iff ht hdistinct hx hnext).mpr rfl
    obtain ⟨hlt,hy⟩ := List.getElem?_eq_some_iff.mp hnext
    refine List.find?_eq_some_iff_getElem.mpr ⟨decide_eq_true hleads,i + 1,hlt,hy,fun j hj => ?_⟩
    have hbefore := leadsTo_previous_iff ht hdistinct hx (List.getElem?_eq_getElem (hj.trans hlt))
    have hne : j ≠ i + 1 := hj.ne
    simpa [hbefore] using hne

theorem followed_leaves (ht : t.IsPlain) (hdistinct : (posts.map Post.slug).Nodup) (n i : ℕ) :
    followed (leaves t b posts) n (leaves t b posts)[i]? = ((leaves t b posts).drop i).take n := by
  induction n generalizing i with
  | zero => rfl
  | succ n ih =>
    cases hx : (leaves t b posts)[i]? with
    | none =>
      rw [List.drop_eq_nil_of_le (List.getElem?_eq_none_iff.mp hx)]
      rfl
    | some x =>
      obtain ⟨hlt,rfl⟩ := List.getElem?_eq_some_iff.mp hx
      rw [followed,previous?_leaves ht hdistinct hx,ih,List.drop_eq_getElem_cons hlt,List.take_succ_cons]

/-- A card that is empty at one place only is empty on one page. -/
theorem existsUnique_isEnd {token : String} {k : ℕ} (hk : k < posts.length)
    (h : ∀ i x, (leaves t b posts)[i]? = some x → (IsEnd token x ↔ i = k)) :
    ∃! x, x ∈ leaves t b posts ∧ IsEnd token x := by
  have hk' : k < (leaves t b posts).length := by rwa [length_leaves]
  have hx := List.getElem?_eq_getElem hk'
  refine ⟨_,⟨List.getElem_mem hk',(h k _ hx).mpr rfl⟩,?_⟩
  rintro y ⟨hy,hend⟩
  obtain ⟨j,hj⟩ := List.mem_iff_getElem?.mp hy
  obtain rfl := (h j y hj).mp hend
  exact Option.some.inj (hj.symm.trans hx)

/-- The cards make a chain of posts that are in order and have names of their own. -/
theorem chained_leaves (ht : t.IsPlain) (hdistinct : (posts.map Post.slug).Nodup)
    (hsorted : posts.Pairwise fun p q => q.date ≤ p.date) : Chained posts (leaves t b posts) where
  complete := map_post_leaves
  once := hdistinct
  sorted := hsorted
  converse x hx y hy := by
    obtain ⟨i,hi⟩ := List.mem_iff_getElem?.mp hx
    obtain ⟨j,hj⟩ := List.mem_iff_getElem?.mp hy
    rw [leadsTo_previous_iff ht hdistinct hi hj,leadsTo_next_iff ht hdistinct hj hi]
  walk n := by
    rw [List.head?_eq_getElem?,followed_leaves ht hdistinct,List.drop_zero]
  newest hne := existsUnique_isEnd (List.length_pos_iff.mpr hne) fun _ _ => isEnd_next_iff ht
  oldest hne := by
    have hpos := List.length_pos_iff.mpr hne
    refine existsUnique_isEnd (Nat.sub_one_lt_of_lt hpos) fun i x hx => ?_
    rw [isEnd_previous_iff ht hx]
    omega
  alone := by
    constructor
    · rintro ⟨x,hx,hnext,hprevious⟩
      obtain ⟨i,hi⟩ := List.mem_iff_getElem?.mp hx
      have hfirst := (isEnd_next_iff ht hi).mp hnext
      have hlast := (isEnd_previous_iff ht hi).mp hprevious
      omega
    · intro hone
      have hlt : 0 < (leaves t b posts).length := by rw [length_leaves,hone]; exact Nat.one_pos
      have hx := List.getElem?_eq_getElem hlt
      exact ⟨_,List.getElem_mem hlt,(isEnd_next_iff ht hx).mpr rfl,(isEnd_previous_iff ht hx).mpr hone.symm⟩

end PostPage

namespace Site

variable {s : Site} {w v : World}

end Site

end BlogSite
