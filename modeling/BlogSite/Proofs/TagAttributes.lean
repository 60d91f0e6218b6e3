import BlogSite.Proofs.HtmlReading
import BlogSite.Theme.Registry

/-!
The tag attributes on the page of a blog. Whatever the theme and the posts are, a reader of the page
finds on the cards the tags of the posts with commas between them, in the order of the posts, and on
the buttons the value for all posts and then each tag once.
-/

namespace BlogSite

open Html

namespace Html

/-- The attributes that say what something looks like. -/
def looks : List (List Char) := [['c','l','a','s','s'],['s','t','y','l','e']]

/-- Reading some characters leads from a place to another, past attributes of looks only. -/
def Place.Passes (p : Place) (s : List Char) (q : Place) : Prop :=
  p.after s = q ∧ ∀ name ∈ p.names s, name ∈ looks

instance (p : Place) (s : List Char) (q : Place) : Decidable (p.Passes s q) :=
  inferInstanceAs (Decidable (p.after s = q ∧ ∀ name ∈ p.names s, name ∈ looks))

namespace Place.Reads

variable {wanted l m n b : List Char} {p q r : Place} {s t c : String} {vs : List (List Char)}

/-! ### Fixed markup -/

theorem passes (hw : wanted ∉ looks) (h : p.Passes l q) : p.Reads wanted l [] q :=
  ⟨h.1,values_eq_nil fun hname => hw (h.2 _ hname)⟩

theorem lit (hw : wanted ∉ looks) (h : p.Passes l q) :
    p.Reads wanted (String.ofList l).toList [] q := by
  simpa using passes hw h

theorem lits (hw : wanted ∉ looks) (h : p.Passes (l ++ m) q) :
    p.Reads wanted (String.ofList l ++ String.ofList m).toList [] q := by
  simpa using passes hw h

theorem lits₃ (hw : wanted ∉ looks) (h : p.Passes (l ++ m ++ n) q) :
    p.Reads wanted (String.ofList l ++ String.ofList m ++ String.ofList n).toList [] q := by
  simpa using passes hw h

/-- One text after another that does not have the attribute. -/
theorem trans (hs : p.Reads wanted s.toList vs q) (ht : q.Reads wanted t.toList [] r) :
    p.Reads wanted (s ++ t).toList vs r := by
  simpa using hs.append ht

/-- A value of looks ends. -/
theorem closed {name v : List Char} (hw : wanted ∉ looks) (hname : name ∈ looks)
    (hb : (Place.tag []).Passes b q) :
    (Place.value name v).Reads wanted (String.ofList ('"' :: b)).toList [] q := by
  simpa using Place.Reads.close (passes hw hb) fun h => hw (h ▸ hname)

/-- A class name that is not fixed, between what is. -/
theorem classed (hw : wanted ∉ looks) (hs : p.Reads wanted s.toList vs (.value "class".toList []))
    (hc : '"' ∉ c.toList) (hb : (Place.tag []).Passes b q) :
    p.Reads wanted (s ++ c ++ String.ofList ('"' :: b)).toList vs q :=
  .trans (.trans hs (.value hc)) (.closed hw (by decide) hb)

end Place.Reads

end Html

namespace Theme

/-- The attribute that holds the tags of a card. -/
def tagsAttribute : List Char := ['d','a','t','a','-','p','o','s','t','-','t','a','g','s']

/-- The attribute that holds the tag of a button. -/
def buttonAttribute : List Char := ['d','a','t','a','-','t','a','g','-','b','t','n']

/-- A theme whose names and labels hold no markup. What stands after the panel may hold some. -/
structure IsPlain (t : Theme) : Prop where
  stem : '"' ∉ t.stem.toList
  heading : '<' ∉ t.heading.toList
  dateIcon : '<' ∉ t.dateIcon.toList
  afterPanel : Place.content.Reads buttonAttribute t.afterPanel.toList [] .content

instance (t : Theme) : Decidable t.IsPlain :=
  decidable_of_iff ('"' ∉ t.stem.toList ∧ '<' ∉ t.heading.toList ∧ '<' ∉ t.dateIcon.toList ∧
    Place.content.Reads buttonAttribute t.afterPanel.toList [] .content)
    ⟨fun h => ⟨h.1,h.2.1,h.2.2.1,h.2.2.2⟩,fun h => ⟨h.stem,h.heading,h.dateIcon,h.afterPanel⟩⟩

theorem isPlain_of_mem_registry : ∀ t ∈ registry, t.IsPlain := by
  decide +kernel

variable {t : Theme}

theorem IsPlain.cls (ht : t.IsPlain) {part : String} (hpart : '"' ∉ part.toList) :
    '"' ∉ (t.cls part).toList := by
  simp [Theme.cls,ht.stem,hpart]

theorem IsPlain.tagClass (ht : t.IsPlain) : '"' ∉ t.tagClass.toList := by
  simp [Theme.tagClass,ht.stem]

/-! ### Cards -/

section Cards

variable {wanted v : List Char} (hw : wanted ∉ looks)

include hw

theorem reads_tagBadges (ht : t.IsPlain) (tags : List String) :
    Fragment.Reads wanted (t.tagBadges tags) [] := by
  have hbadge : ∀ tag ∈ tags, Fragment.Reads wanted (t.tagBadge tag) [] := by
    intro tag _
    exact .cons (.markup (.classed hw (.lit hw (by decide)) ht.tagClass (by decide)))
      (.cons (.text tag) (.markup (.lit hw (by decide))))
  have hall := Fragment.Reads.flatMap hbadge
  rwa [show tags.flatMap (fun _ => ([] : List (List Char))) = [] by simp] at hall

omit hw in
theorem reads_dated (ht : t.IsPlain) (date : String) : Fragment.Reads wanted (t.dated date) [] := by
  unfold dated
  split
  · exact .text date
  · refine .cons (.markup (.content ?_)) (.text date)
    simp [ht.dateIcon]

variable {p : Post}
  (hopen : ∀ c : String, '"' ∉ c.toList → Fragment.Reads wanted (cardOpen p c) [v])

include hopen

set_option maxRecDepth 4000 in
theorem reads_cardOfCards (ht : t.IsPlain) : Fragment.Reads wanted (t.cardOfCards p) [v] := by
  unfold cardOfCards
  refine (((((hopen _ (ht.cls (by decide))).and ?_).and (reads_dated ht p.date)).and ?_).and
    (reads_tagBadges hw ht p.tags)).and ?_
  · refine .cons (.markup (.classed hw (.lits hw (by decide +kernel)) (ht.cls (by decide))
      (by decide))) (.cons (.text _) (.markup ?_))
    exact .classed hw (.lit hw (by decide +kernel)) (ht.cls (by decide)) (by decide)
  · refine .cons (.markup (.classed hw (.lit hw (by decide +kernel)) (ht.cls (by decide))
      (by decide))) (.cons (.text _) (.cons (.markup ?_) (.cons (.text _) (.markup ?_))))
    · exact .classed hw (.lits hw (by decide +kernel)) (ht.cls (by decide)) (by decide)
    · exact .lit hw (by decide)
  · exact .markup (.lit hw (by decide))

set_option maxRecDepth 4000 in
theorem reads_stackedCard (ht : t.IsPlain) : Fragment.Reads wanted (t.stackedCard p) [v] := by
  unfold stackedCard
  refine (((((hopen _ (ht.cls (by decide))).and ?_).and (reads_dated ht p.date)).and ?_).and
    (reads_tagBadges hw ht p.tags)).and ?_
  · exact .markup (.classed hw (.lit hw (by decide)) (ht.cls (by decide)) (by decide))
  · refine .cons (.markup ?_) (.cons (.text _) (.cons (.markup ?_) (.cons (.text _)
      (.cons (.markup ?_) (.cons (.text _) (.markup ?_))))))
    · exact .classed hw (.lit hw (by decide)) (ht.cls (by decide)) (by decide)
    · exact .classed hw (.lit hw (by decide)) (ht.cls (by decide)) (by decide)
    · exact .classed hw (.classed hw (.lit hw (by decide)) (ht.cls (by decide)) (by decide))
        (ht.cls (by decide)) (by decide)
    · exact .classed hw (.lit hw (by decide)) (ht.cls (by decide)) (by decide)
  · exact .markup (.lit hw (by decide))

set_option maxRecDepth 4000 in
theorem reads_terminalRow (ht : t.IsPlain) : Fragment.Reads wanted (t.terminalRow p) [v] := by
  unfold terminalRow
  refine (((hopen _ (ht.cls (by decide))).and ?_).and (reads_tagBadges hw ht p.tags)).and ?_
  · refine .cons (.markup ?_) (.cons (.text _) (.cons (.markup ?_) (.cons (.text _)
      (.cons (.markup ?_) (.cons (.text _) (.cons (.markup ?_) (.cons (.text _) (.markup ?_))))))))
    all_goals exact .classed hw (.lit hw (by decide)) (ht.cls (by decide)) (by decide)
  · exact .markup (.lit hw (by decide))

set_option maxRecDepth 4000 in
theorem reads_documentEntry (ht : t.IsPlain) : Fragment.Reads wanted (t.documentEntry p) [v] := by
  unfold documentEntry
  refine (((((hopen _ (by decide)).and ?_).and (reads_dated ht p.date)).and ?_).and
    (reads_tagBadges hw ht p.tags)).and ?_
  · exact .cons (.markup (.lits hw (by decide +kernel))) (.cons (.text _)
      (.markup (.lits hw (by decide +kernel))))
  · exact .cons (.markup (.lits hw (by decide +kernel))) (.cons (.text _)
      (.cons (.markup (.lits₃ hw (by decide +kernel))) (.cons (.text _)
        (.markup (.lit hw (by decide))))))
  · exact .markup (.lit hw (by decide))

/-- A card has the attribute in its opening tag alone, if its looks are not asked for. -/
theorem reads_card (ht : t.IsPlain) : Fragment.Reads wanted (t.card p) [v] := by
  unfold card
  cases t.layout with
  | cards => exact reads_cardOfCards hw hopen ht
  | stacked => exact reads_stackedCard hw hopen ht
  | terminal => exact reads_terminalRow hw hopen ht
  | document => exact reads_documentEntry hw hopen ht

end Cards

/-- The cards have the values of their opening tags, card by card. -/
theorem reads_postList {wanted : List Char} (hw : wanted ∉ looks) {value : Post → List Char}
    (hopen : ∀ p (c : String), '"' ∉ c.toList → Fragment.Reads wanted (cardOpen p c) [value p])
    (ht : t.IsPlain) (posts : List Post) :
    Fragment.Reads wanted (t.postList posts) (posts.map value) := by
  unfold postList
  split
  · rename_i hnone
    rw [List.isEmpty_iff.mp hnone]
    exact .markup (.lit hw (by decide))
  · exact .join (.markup (.lit hw (by decide))) fun p _ => reads_card hw (hopen p) ht

theorem tagsAttribute_notMem : tagsAttribute ∉ looks := by decide

/-- The opening tag of a card has the tags of its post in one value. -/
theorem reads_tags_cardOpen (p : Post) (c : String) (hc : '"' ∉ c.toList) :
    Fragment.Reads tagsAttribute (cardOpen p c) [escape (",".intercalate p.tags).toList] := by
  have hslug : '"' ∉ escape p.slug.toList := notMem_escape (by decide) _
  have htags : '"' ∉ escape (",".intercalate p.tags).toList := notMem_escape (by decide) _
  have hhref : Place.content.Reads tagsAttribute "<a href=\"posts/".toList []
      (.value "href".toList "posts/".toList) := by decide
  have hclass : (Place.tag []).Reads tagsAttribute " class=\"".toList []
      (.value "class".toList []) := by decide
  have hopen : (Place.tag []).Reads tagsAttribute " data-post-tags=\"".toList []
      (.value tagsAttribute []) := by decide
  have hend : (Place.tag []).Reads tagsAttribute ">".toList [] .content := by decide
  have hbefore := (hhref.append (.value hslug)).append (.value (s := ".html".toList) (by decide))
  have hvalue := ((hbefore.append (.close hclass (by decide))).append (.value hc)).append
    (.close hopen (by decide))
  have hcard := (hvalue.append (.value htags)).append (.take hend)
  unfold Fragment.Reads
  simpa [cardOpen,Fragment.chars,markup,text] using hcard

/-- The cards have the tags of their posts, card by card. -/
theorem reads_tags_postList (ht : t.IsPlain) (posts : List Post) :
    Fragment.Reads tagsAttribute (t.postList posts)
      (posts.map fun p => escape (",".intercalate p.tags).toList) :=
  reads_postList tagsAttribute_notMem reads_tags_cardOpen ht posts

/-! ### Buttons -/

theorem buttonAttribute_notMem : buttonAttribute ∉ looks := by decide

theorem class_ne_buttonAttribute : "class".toList ≠ buttonAttribute := by decide

/-- The opening tag of a button has one value, which stands before what the button looks like. -/
theorem reads_buttonOpen {value look : List Char} (hvalue : '"' ∉ value) (hlook : '"' ∉ look) :
    Place.content.Reads buttonAttribute
      ("<button data-tag-btn=\"".toList ++ value ++ '"' :: " class=\"".toList ++ look) [value]
      (.value "class".toList look) := by
  have hopen : Place.content.Reads buttonAttribute "<button data-tag-btn=\"".toList []
      (.value buttonAttribute []) := by decide
  have hclass : (Place.tag []).Reads buttonAttribute " class=\"".toList []
      (.value "class".toList []) := by decide
  exact ((hopen.append (.value hvalue)).append (.take hclass)).append (.value hlook)

theorem reads_tagButton (ht : t.IsPlain) (tag : String) :
    Fragment.Reads buttonAttribute (t.tagButton tag) [escape tag.toList] := by
  have htag : '"' ∉ escape tag.toList := notMem_escape (by decide) _
  have hend : (Place.tag []).Reads buttonAttribute ">#".toList [] .content := by decide
  have hlabel : Fragment.Reads buttonAttribute [text tag,markup "</button>"] [] :=
    .cons (.text tag) (.markup (.lit buttonAttribute_notMem (by decide)))
  have hbutton := (reads_buttonOpen htag ht.tagClass).append (.close hend class_ne_buttonAttribute)
  unfold Fragment.Reads at hlabel ⊢
  simpa [tagButton,Fragment.chars,markup,text] using hbutton.append hlabel

theorem reads_allButton (ht : t.IsPlain) :
    Fragment.Reads buttonAttribute t.allButton [escape allTags.toList] := by
  have hactive : '"' ∉ (t.tagClass ++ " " ++ t.activeClass).toList := by
    simp [activeClass,ht.tagClass]
  have hend : (Place.tag []).Reads buttonAttribute ">".toList [] .content := by decide
  have hlabel : Fragment.Reads buttonAttribute [text t.allLabel,markup "</button>"] [] :=
    .cons (.text t.allLabel) (.markup (.lit buttonAttribute_notMem (by decide)))
  have hvalue : '"' ∉ allTags.toList := by decide
  have hplain : escape allTags.toList = allTags.toList := by decide
  have hbutton := (reads_buttonOpen hvalue hactive).append (.close hend class_ne_buttonAttribute)
  rw [hplain]
  unfold Fragment.Reads at hlabel ⊢
  simpa [allButton,Fragment.chars,markup,text] using hbutton.append hlabel

set_option maxRecDepth 4000 in
/-- The panel around the buttons has no button of its own. -/
theorem reads_panelEnds (ht : t.IsPlain) :
    Fragment.Reads buttonAttribute [markup t.panelEnds.1] [] ∧
      Fragment.Reads buttonAttribute [markup t.panelEnds.2] [] := by
  have hw := buttonAttribute_notMem
  have hheading : Place.content.Reads buttonAttribute t.heading.toList [] .content :=
    .content ht.heading
  unfold panelEnds
  cases t.layout with
  | cards =>
    refine ⟨.markup ?_,.markup (.trans (.lit hw (by decide)) ht.afterPanel)⟩
    have hstyle : Place.content.Reads buttonAttribute
        ("</div>\n  <div style=\"display:flex;gap:6px;flex-wrap:wrap").toList []
        (.value "style".toList "display:flex;gap:6px;flex-wrap:wrap".toList) := by decide
    have hcentered : '"' ∉ (if t.centered then ";justify-content:center" else "").toList := by
      split <;> decide
    refine .trans (.trans (.trans (.trans ?_ hheading) hstyle) (.value hcentered))
      (.closed hw (by decide) (by decide))
    exact .classed hw (.classed hw (.lit hw (by decide)) (ht.cls (by decide)) (by decide))
      (ht.cls (by decide)) (by decide)
  | stacked =>
    refine ⟨.markup (.classed hw (.trans (.trans ?_ hheading) (.lit hw (by decide)))
      (ht.cls (by decide)) (by decide)),.markup (.lit hw (by decide))⟩
    exact .classed hw (.classed hw (.lit hw (by decide)) (ht.cls (by decide)) (by decide))
      (ht.cls (by decide)) (by decide)
  | terminal =>
    have hfirst : Place.content.Reads buttonAttribute "<div class=\"".toList []
        (.value "class".toList []) := by decide
    have hblock : (Place.tag []).Passes " style=\"padding:10px\">\n  <span class=\"".toList
        (.value "class".toList []) := by decide
    obtain ⟨v,hvalue⟩ : ∃ v, Place.content.Reads buttonAttribute
        ("<div class=\"" ++ t.cls "tag-filter" ++ " " ++ t.cls "block").toList []
        (.value "class".toList v) :=
      ⟨_,.trans (.trans (.trans hfirst (.value (ht.cls (by decide)))) (.value (by decide)))
        (.value (ht.cls (by decide)))⟩
    refine ⟨.markup (.trans (q := .content) (.classed hw (.trans hvalue (.closed hw (by decide) hblock))
      (ht.cls (by decide)) (by decide)) (.lit hw (by decide))),.markup (.lit hw (by decide))⟩
  | document =>
    refine ⟨.markup (.trans (.trans (.lit hw (by decide)) hheading) (.lit hw (by decide))),
      .markup (.lit hw (by decide))⟩

/-- Each tag of the posts has one button, after the button for all posts. -/
theorem reads_tagFilter (ht : t.IsPlain) (posts : List Post) :
    Fragment.Reads buttonAttribute (t.tagFilter posts)
      (if uniqueTags posts = [] then []
      else (allTags :: uniqueTags posts).map fun tag => escape tag.toList) := by
  unfold tagFilter
  simp only [List.isEmpty_iff]
  split
  · exact .nil
  · obtain ⟨hbefore,hafter⟩ := reads_panelEnds ht
    have hbuttons := Fragment.Reads.flatMap fun tag (_ : tag ∈ uniqueTags posts) =>
      reads_tagButton ht tag
    rw [← List.map_eq_flatMap] at hbuttons
    exact (hbefore.append ((reads_allButton ht).append hbuttons)).and hafter

end Theme

end BlogSite
