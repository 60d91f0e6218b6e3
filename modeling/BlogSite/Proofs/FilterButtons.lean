import BlogSite.Proofs.BareReading
import BlogSite.Proofs.EscapedTexts
import BlogSite.Proofs.TagFilter
import Mathlib.Data.List.Induction

/-!
The buttons of the tag filter. Posts without tags have no filter. Otherwise a reader of it finds the button for all
posts, which alone is marked as active, and then one button for each tag, in the order in which the posts have them
first; and no text of a tag changes that.
-/

namespace BlogSite

open Html Html.Fragment

/-! ### First occurrences -/

section Firsts

variable {α : Type} [DecidableEq α]

/-- Each value of a list once, in the order of their first occurrence. -/
structure FirstsOf (xs ys : List α) : Prop where
  mem : ∀ x, x ∈ ys ↔ x ∈ xs
  nodup : ys.Nodup
  order : ys.Pairwise fun a b => xs.idxOf a < xs.idxOf b

theorem distinct_concat (xs : List α) (x : α) :
    distinct (xs ++ [x]) = if x ∈ xs then distinct xs else distinct xs ++ [x] := by
  have hseen : x ∈ xs.foldl (fun seen x => if x ∈ seen then seen else x :: seen) [] ↔ x ∈ xs := by
    have hmem : x ∈ distinct xs ↔ x ∈ xs := mem_distinct
    rw [← hmem,distinct,List.mem_reverse]
  simp only [distinct,List.foldl_append,List.foldl_cons,List.foldl_nil,hseen]
  split
  · rfl
  · rw [List.reverse_cons]

theorem pairwise_idxOf_distinct (xs : List α) :
    (distinct xs).Pairwise fun a b => xs.idxOf a < xs.idxOf b := by
  induction xs using List.reverseRecOn with
  | nil => simp [distinct]
  | append_singleton xs x ih =>
    have hbefore : (distinct xs).Pairwise fun a b => (xs ++ [x]).idxOf a < (xs ++ [x]).idxOf b := by
      refine ih.imp_of_mem fun {a b} ha hb h => ?_
      rwa [List.idxOf_append_of_mem (mem_distinct.mp ha),List.idxOf_append_of_mem (mem_distinct.mp hb)]
    rw [distinct_concat]
    split
    · exact hbefore
    · rename_i hx
      refine List.pairwise_append.mpr ⟨hbefore,by simp,fun a ha b hb => ?_⟩
      obtain rfl := List.mem_singleton.mp hb
      have hlt := List.idxOf_lt_length_of_mem (mem_distinct.mp ha)
      rw [List.idxOf_append_of_mem (mem_distinct.mp ha),List.idxOf_append_of_notMem hx]
      exact Nat.lt_add_right _ hlt

theorem firstsOf_distinct (xs : List α) : FirstsOf xs (distinct xs) := by
  have horder := pairwise_idxOf_distinct xs
  refine ⟨fun x => mem_distinct,horder.imp fun {a b} h => ?_,horder⟩
  rintro rfl
  exact Nat.lt_irrefl _ h

end Firsts

/-! ### Attributes and classes -/

namespace Html

/-- The value of an attribute of a tag. -/
def Tag.value? {τ : Type} (name : List Char) (t : Tag τ) : Option τ := t.attributes.lookup name

/-- The classes that a value lists, with white space between them. -/
def classList (v : String) : List String :=
  ((v.toList.splitOnP (· ∈ [' ','\t','\n','\r','\x0c'])).filter (· ≠ [])).map String.ofList

def Tag.classes (t : Tag String) : List String := classList ((t.value? "class".toList).getD "")

end Html

namespace Theme

/-! ### Buttons -/

/-- The tag of a button for what is shown with it. -/
def buttonTag {τ : Type} (shown looks : τ) : Tag τ :=
  ⟨"button".toList,[(buttonAttribute,shown),("class".toList,looks)]⟩

theorem map_buttonTag {τ υ : Type} (h : τ → υ) (shown looks : τ) :
    (buttonTag shown looks).map h = buttonTag (h shown) (h looks) := rfl

theorem value?_buttonTag {τ : Type} (shown looks : τ) :
    (buttonTag shown looks).value? "data-tag-btn".toList = some shown := rfl

theorem classes_buttonTag (shown looks : String) : (buttonTag shown looks).classes = classList looks := by
  have hclass : (buttonTag shown looks).value? "class".toList = some looks := rfl
  rw [Tag.classes,hclass,Option.getD_some]

/-- The buttons that a reader finds on a page. -/
def pageButtons (page : String) : List (Tag String) := tagsNamed "button".toList page

variable {t : Theme}

/-- A button is read from the value that says what is shown with it. -/
theorem named?_button {head rest : Fragment} {shown : List (Sign String)} {looks : String}
    (hhead : Spot.content.run head.signs = some (.value (.bare "button".toList) buttonAttribute shown,[]))
    (hlooks : '"' ∉ looks.toList) (hrest : rest.named? "button".toList = some []) :
    named? "button".toList (head ++ ([markup ("\" class=\"" ++ looks ++ "\">")] ++ rest)) =
      some [buttonTag shown (plain looks)] := by
  have hopen : (Spot.value (.bare "button".toList) buttonAttribute shown).run (plain "\" class=\"") =
      some (.value ⟨"button".toList,[(buttonAttribute,shown)]⟩ "class".toList [],[]) := rfl
  have hvalue := Spot.run_value hlooks ⟨"button".toList,[(buttonAttribute,shown)]⟩ "class".toList []
  have hclose : (Spot.value ⟨"button".toList,[(buttonAttribute,shown)]⟩ "class".toList (plain looks)).run
      (plain "\">") = some (.content,[.tag (buttonTag shown (plain looks))]) := rfl
  have hsigns : signs (head ++ [markup ("\" class=\"" ++ looks ++ "\">")]) =
      head.signs ++ (plain "\" class=\"" ++ plain looks ++ plain "\">") := by
    rw [signs_append,markup,signs_markup,plain_append,plain_append]
  have hrun := hsigns ▸ Spot.run_trans hhead (Spot.run_trans (Spot.run_trans hopen hvalue) hclose)
  have hbutton : named? "button".toList (head ++ [markup ("\" class=\"" ++ looks ++ "\">")]) =
      some [buttonTag shown (plain looks)] := by
    rw [named?,outline?_of_run hrun]
    rfl
  rw [← List.append_assoc]
  exact named?_append hbutton hrest

theorem named?_tagButton (ht : t.IsPlain) (tag : String) :
    (t.tagButton tag).named? "button".toList = some [buttonTag [.hole tag] (plain t.tagClass)] := by
  have hsigns : (t.tagButton tag).signs = signs ([markup "<button data-tag-btn=\"",text tag] ++
      ([markup ("\" class=\"" ++ t.tagClass ++ "\">")] ++ [markup "#",text tag,markup "</button>"])) := by
    simp [signs,tagButton,markup,text,pieceSigns]
  rw [named?_congr hsigns]
  exact named?_button rfl ht.tagClass rfl

theorem named?_allButton (ht : t.IsPlain) : t.allButton.named? "button".toList =
    some [buttonTag (plain allTags) (plain (t.tagClass ++ " " ++ t.activeClass))] := by
  have hsigns : t.allButton.signs = signs ([markup ("<button data-tag-btn=\"" ++ allTags)] ++
      ([markup ("\" class=\"" ++ (t.tagClass ++ " " ++ t.activeClass) ++ "\">")] ++
        [text t.allLabel,markup "</button>"])) := by
    simp [signs,allButton,markup,text,pieceSigns]
  have hopen : Spot.content.run (signs [markup ("<button data-tag-btn=\"" ++ allTags)]) =
      some (.value (.bare "button".toList) buttonAttribute (plain allTags),[]) := by decide
  rw [named?_congr hsigns]
  exact named?_button hopen (by simp [activeClass,ht.tagClass]) rfl

/-! ### The panel around the buttons -/

/-- Where a reader is after some markup, if it is readable, and whether it has found a button. -/
def lookFor (p : Spot String) (s : List (Sign String)) : Option (Spot String × Bool) :=
  (p.find s).map fun y => (y.1,decide (.tag (.bare "button".toList) ∈ y.2))

/-- Markup leads a reader from one place to another, and has no button. -/
def Buttonless (p : Spot String) (s : String) (q : Spot String) : Prop :=
  ∃ ts, Finds p [.markup s] q ts ∧ .tag (.bare "button".toList) ∉ ts

namespace Buttonless

variable {p q r : Spot String} {s s' : String} {l name : List Char}

theorem of_lookFor (h : lookFor p (plain s) = some (q,false)) : Buttonless p s q := by
  obtain ⟨⟨q,ts⟩,hfind,hq⟩ := Option.map_eq_some_iff.mp h
  obtain ⟨rfl,hts⟩ := Prod.mk.inj hq
  refine ⟨ts,?_,of_decide_eq_false hts⟩
  rw [Finds,signs_markup,hfind]

theorem lit (h : lookFor p (l.map .char) = some (q,false)) : Buttonless p (String.ofList l) q :=
  of_lookFor (by rwa [plain,String.toList_ofList])

theorem trans (hs : Buttonless p s q) (ht : Buttonless q s' r) : Buttonless p (s ++ s') r := by
  obtain ⟨ts,hs,hts⟩ := hs
  obtain ⟨us,ht,hus⟩ := ht
  exact ⟨ts ++ us,hs.trans ht,fun h => (List.mem_append.mp h).elim hts hus⟩

theorem content (h : '<' ∉ s.toList) : Buttonless .content s .content :=
  ⟨_,.content h,by simp [said]⟩

theorem value (h : '"' ∉ s.toList) : Buttonless (.inside name) s (.inside name) :=
  ⟨_,.value h,List.not_mem_nil⟩

theorem named? (h : Buttonless .content s .content) : named? "button".toList [.markup s] = some [] := by
  obtain ⟨ts,hts,hnone⟩ := h
  exact hts.named? hnone

/-- A class name of the theme. -/
theorem cls (ht : t.IsPlain) (part : String) (hpart : '"' ∉ part.toList) :
    Buttonless (.inside name) (t.cls part) (.inside name) :=
  .value (ht.cls hpart)

end Buttonless

set_option maxRecDepth 4000 in
/-- The panel around the buttons has no button of its own. -/
theorem buttonless_panelEnds (ht : t.IsPlain) (hafter : Buttonless .content t.afterPanel .content) :
    Buttonless .content t.panelEnds.1 .content ∧ Buttonless .content t.panelEnds.2 .content := by
  have hheading : Buttonless .content t.heading .content := .content ht.heading
  have hframe : Buttonless .content "<div class=\"" (.inside "div".toList) := .lit (by decide)
  have hfilter := hframe.trans (.cls ht "tag-filter" (by decide))
  have hinner : Buttonless (.inside "div".toList) "\">\n  <div class=\"" (.inside "div".toList) := .lit (by decide)
  have hend : Buttonless (.inside "div".toList) "\">" .content := .lit (by decide)
  unfold panelEnds
  cases t.layout with
  | cards =>
    have hstyle : Buttonless .content "</div>\n  <div style=\"display:flex;gap:6px;flex-wrap:wrap"
        (.inside "div".toList) := .lit (by decide)
    have hcentered : '"' ∉ (if t.centered then ";justify-content:center" else "").toList := by
      split <;> decide
    have hopen := ((hfilter.trans hinner).trans (.cls ht "tag-filter-heading" (by decide))).trans hend
    exact ⟨(((hopen.trans hheading).trans hstyle).trans (.value hcentered)).trans hend,
      .trans (.lit (by decide)) hafter⟩
  | stacked =>
    have hwrap : Buttonless .content "</div>\n  <div class=\"" (.inside "div".toList) := .lit (by decide)
    have hopen := ((hfilter.trans hinner).trans (.cls ht "tag-filter-heading" (by decide))).trans hend
    exact ⟨(((hopen.trans hheading).trans hwrap).trans (.cls ht "tag-filter-wrap" (by decide))).trans hend,
      .lit (by decide)⟩
  | terminal =>
    have hspan : Buttonless (.inside "div".toList) "\" style=\"padding:10px\">\n  <span class=\""
        (.inside "span".toList) := .lit (by decide)
    have hprompt : Buttonless (.inside "span".toList) "\">$</span> grep --tag:\n" .content := .lit (by decide)
    have hblock := (hfilter.trans (.value (s := " ") (by decide))).trans (.cls ht "block" (by decide))
    have hopen := ((hblock.trans hspan).trans (.cls ht "prompt-mini" (by decide))).trans hprompt
    exact ⟨hopen.trans (.lit (by decide)),.lit (by decide)⟩
  | document =>
    have hsection : Buttonless .content "<div class=\"word-section\">\n  <div class=\"word-section-heading\">"
        .content := .lit (by decide)
    exact ⟨(hsection.trans hheading).trans (.lit (by decide)),.lit (by decide)⟩

theorem buttonless_afterPanel : ∀ t ∈ registry, Buttonless .content t.afterPanel .content := by
  have hplain : ∀ t ∈ registry, lookFor .content (plain t.afterPanel) = some (.content,false) := by
    decide +kernel
  exact fun t ht => .of_lookFor (hplain t ht)

/-- Every button is found, and the panel around the buttons has none of its own. -/
theorem pageButtons_tagFilter (ht : t ∈ registry) {posts : List Post} (hposts : uniqueTags posts ≠ []) :
    pageButtons (t.tagFilter posts).render =
      buttonTag allTags (t.tagClass ++ " " ++ t.activeClass) ::
        (uniqueTags posts).map fun tag => buttonTag tag t.tagClass := by
  have hplain := isPlain_of_mem_registry t ht
  obtain ⟨k,hk⟩ := rigid_tagFilter (isTidy_of_mem_registry t ht)
  obtain ⟨hbefore,hafter⟩ := buttonless_panelEnds hplain (buttonless_afterPanel t ht)
  have hbuttons := named?_append (named?_allButton hplain)
    (named?_flatMap (fun tag => named?_tagButton hplain tag) (uniqueTags posts))
  have hpanel := named?_append (named?_append hbefore.named? hbuttons) hafter.named?
  have hfilter : t.tagFilter posts =
      [markup t.panelEnds.1] ++ t.buttons (uniqueTags posts) ++ [markup t.panelEnds.2] := by
    simp [tagFilter,hposts]
  rw [pageButtons,(hk posts).readsBack.tagsNamed (hfilter ▸ hpanel)]
  simp [map_buttonTag,filled_plain,filled_hole]

theorem classList_activeClass : ∀ t ∈ registry,
    t.activeClass ∈ classList (t.tagClass ++ " " ++ t.activeClass) ∧
      t.activeClass ∉ classList t.tagClass := by
  decide +kernel

/-- For every theme and all posts, there is no filter just when no post has a tag. Otherwise the buttons show all
posts and then the tags, each once and in the order in which they occur first; and the first button alone is
marked as active. -/
theorem tagFilter_tells (name : String) (posts : List Post) :
    (((named name).tagFilter posts).render = "" ↔ ∀ p ∈ posts, p.tags = []) ∧
    (((named name).tagFilter posts).render = "" ∨
      ∃ tags, FirstsOf (posts.flatMap Post.tags) tags ∧
        (pageButtons ((named name).tagFilter posts).render).map (·.value? "data-tag-btn".toList) =
          ("__all__" :: tags).map some ∧
        ∀ i button, (pageButtons ((named name).tagFilter posts).render)[i]? = some button →
          ((named name).activeClass ∈ button.classes ↔ i = 0)) := by
  have ht := named_mem_registry name
  have hnone : uniqueTags posts = [] ↔ ∀ p ∈ posts, p.tags = [] := by
    simp only [List.eq_nil_iff_forall_not_mem,mem_uniqueTags,not_exists,not_and]
    exact forall_comm.trans (forall_congr' fun p => forall_comm)
  by_cases hposts : uniqueTags posts = []
  · have hempty : ((named name).tagFilter posts).render = "" := by
      simp [tagFilter,hposts]
    exact ⟨⟨fun _ => hnone.mp hposts,fun _ => hempty⟩,.inl hempty⟩
  · have hbuttons := pageButtons_tagFilter ht hposts
    refine ⟨⟨fun h => ?_,fun h => absurd (hnone.mpr h) hposts⟩,.inr ⟨_,firstsOf_distinct _,?_,?_⟩⟩
    · have hempty : pageButtons "" = [] := by decide
      rw [h,hempty] at hbuttons
      exact absurd hbuttons (by simp)
    · have hvalues : ((·.value? "data-tag-btn".toList) ∘ fun tag => buttonTag tag (named name).tagClass) =
          some := funext fun tag => value?_buttonTag tag _
      rw [hbuttons,List.map_cons,List.map_map,hvalues,value?_buttonTag]
      rfl
    · obtain ⟨hactive,hplain⟩ := classList_activeClass _ ht
      intro i button hi
      rw [hbuttons] at hi
      cases i with
      | zero =>
        obtain rfl := Option.some.inj hi
        simp [classes_buttonTag,hactive]
      | succ i =>
        rw [List.getElem?_cons_succ,List.getElem?_map,Option.map_eq_some_iff] at hi
        obtain ⟨tag,-,rfl⟩ := hi
        simp [classes_buttonTag,hplain]

end Theme

end BlogSite
