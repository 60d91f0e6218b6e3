import BlogSite.Page
import BlogSite.Proofs.BodySkeletons
import BlogSite.Proofs.HomeSkeletons
import Mathlib.Data.List.Perm.Basic

/-!
Texts on pages. Whatever is written in titles, tags, dates and bodies, it is shown as it was written: it
begins no tag, ends no value and is escaped once, in every theme, on the home page and in bodies.
-/

namespace BlogSite

open Html Html.Fragment

/-- What a page shows of a value. -/
def Value.shown (v : Value) : String := String.ofList v.text

/-! ### Texts of cards -/

/-- The texts on the card of a post. -/
def Post.cardTexts (p : Post) : List String :=
  [p.slug,",".intercalate p.tags,p.title.shown,p.date,p.excerpt.shown,p.author.shown] ++ p.tags

namespace Theme

/-- The texts on the panel of tag buttons: every tag is the value of its button and its label. -/
def filterTexts (t : Theme) (posts : List Post) : List String :=
  if uniqueTags posts = [] then [] else t.allLabel :: (uniqueTags posts).flatMap fun tag => [tag,tag]

/-- The texts on the card of a neighbour. -/
def navTexts (post : Option Post) (label : Value) : List String :=
  post.elim [] fun p => [p.slug,label.shown,p.title.shown,p.date]

variable {t : Theme}

theorem texts_tagBadges (tags : List String) : (t.tagBadges tags).texts = tags := by
  rw [tagBadges,texts_flatMap]
  exact List.flatMap_singleton' tags

theorem texts_dated (date : String) : (t.dated date).texts = [date] := by
  unfold dated
  split <;> rfl

theorem texts_cardOfCards (p : Post) : (t.cardOfCards p).texts = p.cardTexts := by
  simp only [cardOfCards,cardOpen,texts_append,texts_dated,texts_tagBadges]
  simp [texts,markup,text,value,Post.cardTexts,Value.shown]

theorem texts_stackedCard (p : Post) : (t.stackedCard p).texts =
    [p.slug,",".intercalate p.tags,p.date,p.title.shown,p.excerpt.shown,p.author.shown] ++ p.tags := by
  simp only [stackedCard,cardOpen,texts_append,texts_dated,texts_tagBadges]
  simp [texts,markup,text,value,Value.shown]

theorem texts_terminalRow (p : Post) : (t.terminalRow p).texts =
    [p.slug,",".intercalate p.tags,p.date,p.author.shown,p.title.shown,p.excerpt.shown] ++ p.tags := by
  simp only [terminalRow,cardOpen,texts_append,texts_tagBadges]
  simp [texts,markup,text,value,Value.shown]

theorem texts_documentEntry (p : Post) : (t.documentEntry p).texts = p.cardTexts := by
  simp only [documentEntry,cardOpen,texts_append,texts_dated,texts_tagBadges]
  simp [texts,markup,text,value,Post.cardTexts,Value.shown]

/-- A card shows the texts of its post, in the order of its layout. -/
theorem texts_card (p : Post) : (t.card p).texts.Perm p.cardTexts := by
  unfold card
  cases t.layout with
  | cards => exact .of_eq (texts_cardOfCards p)
  | stacked =>
    refine (List.Perm.of_eq (texts_stackedCard p)).trans (.append_right p.tags ?_)
    exact ((List.Perm.swap _ _ _).cons _).cons _
  | terminal =>
    refine (List.Perm.of_eq (texts_terminalRow p)).trans (.append_right p.tags ?_)
    rw [List.perm_iff_count]
    intro s
    simp only [List.count_cons]
    omega
  | document => exact .of_eq (texts_documentEntry p)

theorem texts_postList (posts : List Post) :
    (t.postList posts).texts.Perm (posts.flatMap Post.cardTexts) := by
  cases posts with
  | nil => exact .refl []
  | cons p ps =>
    rw [show t.postList (p :: ps) = Fragment.join "\n" ((p :: ps).map t.card) from rfl,texts_join]
    exact List.Perm.flatMap_left _ fun p _ => texts_card p

theorem texts_tagFilter (posts : List Post) : (t.tagFilter posts).texts = t.filterTexts posts := by
  have hbuttons : ∀ tags, (t.buttons tags).texts = t.allLabel :: tags.flatMap fun tag => [tag,tag] := by
    intro tags
    rw [buttons,texts_append,texts_flatMap]
    rfl
  simp only [tagFilter,filterTexts,List.isEmpty_iff]
  split
  · rfl
  · rw [texts_append,texts_append,hbuttons]
    simp [texts,markup]

theorem texts_navCard (post : Option Post) (label : Value) :
    (t.navCard post label).texts = navTexts post label := by
  cases post with
  | none => rfl
  | some p =>
    unfold navCard
    cases t.layout <;> rfl

theorem named_mem_registry (name : String) : named name ∈ registry := by
  unfold named
  cases h : registry.find? fun t => t.name = name with
  | none => exact List.mem_cons_self
  | some t => exact List.mem_of_find?_eq_some h

end Theme

/-! ### Texts of the home page -/

namespace Home

/-- The texts in the row of a blog. -/
def rowTexts (b : Blog) : List String :=
  [b.slug,b.planet.emoji.shown,b.title.shown,b.desc.shown,b.author.shown]

/-- The texts in the entry of a post of a blog. -/
def entryTexts (b : Blog) (p : Post) : List String :=
  [b.slug,p.slug,b.planet.emoji.shown,p.title.shown,p.author.shown,b.title.shown,p.date,
    p.excerpt.shown] ++ p.tags

theorem texts_blogRows (blogs : List Blog) (counts : List (String × Value)) (recent : List String) :
    (blogRows blogs counts recent).texts = blogs.flatMap rowTexts := by
  rw [blogRows,texts_join]
  rfl

theorem texts_latestPosts (entries : List (Blog × Post)) :
    (latestPosts entries).texts = entries.flatMap fun e => entryTexts e.1 e.2 := by
  have hblock : ∀ tags : List String, Fragment.texts (if (Theme.default.tagBadges tags).isEmpty then []
      else markup "<div style=\"margin-top:8px\">" :: Theme.default.tagBadges tags ++
        [markup "</div>"]) = tags := by
    intro tags
    cases tags with
    | nil => rfl
    | cons tag tags =>
      change Fragment.texts ([markup "<div style=\"margin-top:8px\">"] ++
        Theme.default.tagBadges (tag :: tags) ++ [markup "</div>"]) = _
      rw [texts_append,texts_append,Theme.texts_tagBadges]
      simp [texts,markup]
  rw [latestPosts,texts_join]
  refine List.flatMap_congr fun e _ => ?_
  rw [latestEntry,texts_append,texts_append,hblock]
  simp [texts,markup,text,value,entryTexts,Value.shown]

end Home

/-! ### Texts that are put into templates by themselves -/

/-- A text that begins no tag and ends neither a tag nor a value. -/
def Harmless (s : String) : Prop := ∀ c ∈ ['<','>','"'], c ∉ s.toList

instance (s : String) : Decidable (Harmless s) :=
  List.decidableBAll (fun c => c ∉ s.toList) ['<','>','"']

theorem Harmless.append {s t : String} (hs : Harmless s) (ht : Harmless t) : Harmless (s ++ t) := by
  intro c hc
  simp [hs c hc,ht c hc]

theorem harmless_escapeValue (v : Value) : Harmless (escapeValue v) := by
  intro c hc
  simpa [escapeValue] using notMem_escape hc v.text

theorem harmless_escapeText (s : String) : Harmless (escapeText s) := harmless_escapeValue _

theorem harmless_repr (n : Nat) : Harmless n.repr := by
  intro c hc h
  have hdigit := isDigit_of_mem_repr h
  simp only [List.mem_cons,List.not_mem_nil,or_false] at hc
  rcases hc with rfl | rfl | rfl <;> exact absurd hdigit (by decide)

theorem harmless_latestDate (posts : List Post) : Harmless (BlogPage.latestDate posts) := by
  cases posts with
  | nil => decide
  | cons p ps => exact harmless_escapeText p.date

theorem harmless_buildDate (d : Calendar.Date) : Harmless (HomePage.buildDate d) :=
  (((((harmless_repr _).append (by decide)).append (harmless_repr _)).append
    (by decide)).append (harmless_repr _)).append (by decide)

/-- Texts in quotation marks with commas between them, each harmless and escaped once. -/
def Lists (s : String) (tags : List String) : Prop :=
  ∃ shown : List String, s = ", ".intercalate (shown.map fun x => "\"" ++ x ++ "\"") ∧
    (∀ x ∈ shown, Harmless x) ∧ shown.map (fun x => String.ofList (unescape x.toList)) = tags

theorem rawTags_lists (tags : List String) : Lists (PostPage.rawTags tags) tags := by
  refine ⟨tags.map escapeText,?_,?_,?_⟩
  · rw [PostPage.rawTags,List.map_map]
    rfl
  · intro x hx
    obtain ⟨tag,-,rfl⟩ := List.mem_map.mp hx
    exact harmless_escapeText tag
  · simp [Function.comp_def,escapeText,escapeValue,unescape_escape,Value.text,Value.display]

/-! ### The result -/

/-- No text changes the tags of what a theme, the home page and bodies show: data of one shape are shown
with the same tags, and every text is read on the page as it was. Whatever else is put into a template
has no characters of tags and values. -/
structure Theme.KeepsTags (t : Theme) : Prop where
  postList : Inserts t.postList (List.map fun p => p.tags.length) (List.flatMap Post.cardTexts)
  tagFilter : Inserts t.tagFilter (fun posts => (uniqueTags posts).length) t.filterTexts
  tagBadges : Inserts t.tagBadges List.length id
  navCard : Inserts (fun x : Option Post × Value => t.navCard x.1 x.2) (fun x => x.1.isSome)
    fun x => Theme.navTexts x.1 x.2
  blogRows : Inserts
    (fun x : List Blog × List (String × Int) × List String =>
      Home.blogRows x.1 (x.2.1.map fun c => (c.1,.int c.2)) x.2.2)
    (fun x => x.1.map fun b => x.2.2.contains b.slug) fun x => x.1.flatMap Home.rowTexts
  latestPosts : Inserts Home.latestPosts (List.map fun e => e.2.tags.length)
    (List.flatMap fun e => Home.entryTexts e.1 e.2)
  body : Inserts Markup.fragment Markup.lineKinds
    fun body => (Markup.bodyLines body).filterMap fun s => (Markup.Line.read s).text?
  blogPage : ∀ b posts, ∀ e ∈ BlogPage.shown t b posts,
    e ∈ [("POST_LIST",(t.postList posts).render),("TAG_FILTER",(t.tagFilter posts).render)] ∨
      Harmless e.2
  postPage : ∀ b (at_ : PostPage.Place), ∀ e ∈ PostPage.shown t b at_,
    e ∈ [("POST_CONTENT",(Markup.fragment at_.post.content).render),
        ("POST_TAGS",(t.tagBadges at_.post.tags).render),
        ("PREV_POST",(t.navCard at_.older PostPage.olderLabel).render),
        ("NEXT_POST",(t.navCard at_.newer PostPage.newerLabel).render)] ∨
      (e.1 = "POST_TAGS_RAW" ∧ Lists e.2 at_.post.tags) ∨ Harmless e.2
  homePage : ∀ title today blogs (shelf : HomePage.Shelf) recent,
    ∀ e ∈ HomePage.shown title today blogs shelf recent,
      e ∈ [("BLOG_TABLE_ROWS",(Home.blogRows blogs
            (shelf.map fun x => (x.1,.int x.2.length)) recent).render),
          ("LATEST_POSTS",(Home.latestPosts
            ((HomePage.entries blogs shelf).take HomePage.latestCount)).render)] ∨ Harmless e.2

/-- Every theme keeps the tags, whatever name it is asked for by. -/
theorem Theme.named_keepsTags (name : String) : (Theme.named name).KeepsTags := by
  have htidy := Theme.isTidy_of_mem_registry _ (Theme.named_mem_registry name)
  exact
    { postList := (Theme.rigid_postList htidy).inserts Theme.texts_postList
      tagFilter := (Theme.rigid_tagFilter htidy).inserts fun posts => .of_eq (Theme.texts_tagFilter posts)
      tagBadges := (Theme.rigid_tagBadges htidy).inserts fun tags => .of_eq (Theme.texts_tagBadges tags)
      navCard := (Theme.rigid_navCard htidy).inserts fun x => .of_eq (Theme.texts_navCard x.1 x.2)
      blogRows := Home.rigid_blogRows.inserts fun x => .of_eq (Home.texts_blogRows ..)
      latestPosts := Home.rigid_latestPosts.inserts fun es => .of_eq (Home.texts_latestPosts es)
      body := Markup.rigid_fragment.inserts fun body => .of_eq (Markup.texts_fragment body)
      blogPage := by
        simp [BlogPage.shown,harmless_escapeValue,harmless_escapeText,harmless_repr,harmless_latestDate]
      postPage := by
        simp [PostPage.shown,harmless_escapeValue,harmless_escapeText,rawTags_lists,Markup.render]
      homePage := by
        simp [HomePage.shown,harmless_escapeValue,harmless_repr,harmless_buildDate,harmless_latestDate] }

end BlogSite
