import BlogSite.Proofs.FragmentSkeletons
import BlogSite.Theme.Registry

/-!
The fragments of the themes. Whatever posts a theme shows, the tags of what it makes depend on how many
posts and tags there are, and on nothing that is written in them.
-/

namespace BlogSite

open Html Html.Fragment

instance (k : Kind) (s : String) (l : Kind) : Decidable (k.Leads s l) :=
  decidable_of_iff ('&' ∉ s.toList ∧ k.after s.toList = some l)
    ⟨fun h => ⟨h.1,h.2⟩,fun h => ⟨h.plain,h.after⟩⟩

namespace Theme

/-- A theme whose names and labels hold no markup and no entities. What stands after the panel may hold
whole tags. -/
structure IsTidy (t : Theme) : Prop where
  stem : Kind.value.Leads t.stem .value
  heading : Kind.content.Leads t.heading .content
  dateIcon : Kind.content.Leads t.dateIcon .content
  afterPanel : Kind.content.Leads t.afterPanel .content

instance (t : Theme) : Decidable t.IsTidy :=
  decidable_of_iff (Kind.value.Leads t.stem .value ∧ Kind.content.Leads t.heading .content ∧
    Kind.content.Leads t.dateIcon .content ∧ Kind.content.Leads t.afterPanel .content)
    ⟨fun h => ⟨h.1,h.2.1,h.2.2.1,h.2.2.2⟩,fun h => ⟨h.stem,h.heading,h.dateIcon,h.afterPanel⟩⟩

theorem isTidy_of_mem_registry : ∀ t ∈ registry, t.IsTidy := by
  decide +kernel

variable {t : Theme} {σ : Type} {shape : Post → σ} {k l : Kind}

theorem IsTidy.cls (ht : t.IsTidy) {part : List Char}
    (h : '&' ∉ part ∧ Kind.value.after part = some .value) :
    Kind.value.Leads (t.cls (String.ofList part)) .value :=
  (ht.stem.trans (.lit (by decide))).trans (.lit h)

theorem IsTidy.tagClass (ht : t.IsTidy) : Kind.value.Leads t.tagClass .value :=
  ht.stem.trans (.lit (by decide))

/-- A class name of the theme, between what is fixed. -/
theorem IsTidy.classed (ht : t.IsTidy) {s part r : List Char}
    (h : ('&' ∉ s ∧ k.after s = some .value) ∧ ('&' ∉ part ∧ Kind.value.after part = some .value) ∧
      '&' ∉ r ∧ Kind.value.after r = some l) :
    k.Leads (String.ofList s ++ t.cls (String.ofList part) ++ String.ofList r) l :=
  ((Kind.Leads.lit h.1).trans (ht.cls h.2.1)).trans (.lit h.2.2)

/-! ### Cards -/

theorem rigid_cardOpen {c : String} (hc : Kind.value.Leads c .value) :
    Rigid (fun p => cardOpen p c) shape :=
  .of_leads (fun _ _ => rfl) fun _ => .markup (.lit (by decide)) (.value (.markup
    (((Kind.Leads.lit (by decide)).trans hc).trans (.lit (by decide)))
    (.value (.markup (.lit (by decide)) .nil))))

theorem rigid_tagBadges (ht : t.IsTidy) : Rigid t.tagBadges List.length := by
  have hbadge : Rigid t.tagBadge fun _ => () := .of_leads (fun _ _ => rfl) fun tag =>
    .markup (((Kind.Leads.lit (by decide)).trans ht.tagClass).trans (.lit (by decide)))
      (.content (.markup (.lit (by decide)) .nil))
  exact hbadge.flatMap.finer (fun n => List.replicate n ()) fun tags => by simp

theorem rigid_dated (ht : t.IsTidy) : Rigid (fun p : Post => t.dated p.date) shape := by
  unfold dated
  split
  · exact .of_leads (fun _ _ => rfl) fun _ => .content .nil
  · exact .of_leads (fun _ _ => rfl) fun _ =>
      .markup (ht.dateIcon.trans (.lit (by decide))) (.content .nil)

set_option maxRecDepth 4000 in
theorem rigid_cardOfCards (ht : t.IsTidy) : Rigid t.cardOfCards fun p => p.tags.length := by
  unfold cardOfCards
  refine .append (.append (.append (.append (.append (rigid_cardOpen (ht.cls (by decide))) ?_)
    (rigid_dated ht)) ?_) ((rigid_tagBadges ht).comp Post.tags)) ?_
  · exact .of_leads (fun _ _ => rfl) fun p =>
      .markup (((Kind.Leads.lits (by decide)).trans (ht.cls (by decide))).trans (.lit (by decide)))
        (.content (.markup (ht.classed (by decide)) .nil))
  · refine .of_leads (fun _ _ => rfl) fun p => .markup (ht.classed (by decide)) (.content (.markup
      (((Kind.Leads.lits (by decide)).trans (ht.cls (by decide))).trans (.lit (by decide)))
      (.content (.markup (.lit (by decide)) .nil))))
  · exact .of_leads (fun _ _ => rfl) fun p => .markup (.lit (by decide)) .nil

theorem rigid_stackedCard (ht : t.IsTidy) : Rigid t.stackedCard fun p => p.tags.length := by
  unfold stackedCard
  refine .append (.append (.append (.append (.append (rigid_cardOpen (ht.cls (by decide))) ?_)
    (rigid_dated ht)) ?_) ((rigid_tagBadges ht).comp Post.tags)) ?_
  · exact .of_leads (fun _ _ => rfl) fun p => .markup (ht.classed (by decide)) .nil
  · exact .of_leads (fun _ _ => rfl) fun p =>
      .markup (ht.classed (by decide)) (.content (.markup (ht.classed (by decide))
      (.content (.markup (((ht.classed (by decide)).trans (ht.cls (by decide))).trans (.lit (by decide)))
      (.content (.markup (ht.classed (by decide)) .nil))))))
  · exact .of_leads (fun _ _ => rfl) fun p => .markup (.lit (by decide)) .nil

theorem rigid_terminalRow (ht : t.IsTidy) : Rigid t.terminalRow fun p => p.tags.length := by
  unfold terminalRow
  refine .append (.append (.append (rigid_cardOpen (ht.cls (by decide))) ?_)
    ((rigid_tagBadges ht).comp Post.tags)) ?_
  · exact .of_leads (fun _ _ => rfl) fun p =>
      .markup (ht.classed (by decide)) (.content (.markup (ht.classed (by decide))
      (.content (.markup (ht.classed (by decide)) (.content (.markup (ht.classed (by decide))
      (.content (.markup (ht.classed (by decide)) .nil))))))))
  · exact .of_leads (fun _ _ => rfl) fun p => .markup (.lit (by decide)) .nil

set_option maxRecDepth 4000 in
theorem rigid_documentEntry (ht : t.IsTidy) : Rigid t.documentEntry fun p => p.tags.length := by
  unfold documentEntry
  refine .append (.append (.append (.append (.append (rigid_cardOpen (.lit (by decide))) ?_)
    (rigid_dated ht)) ?_) ((rigid_tagBadges ht).comp Post.tags)) ?_
  · exact .of_leads (fun _ _ => rfl) fun p =>
      .markup (.lits (by decide)) (.content (.markup (.lits (by decide)) .nil))
  · exact .of_leads (fun _ _ => rfl) fun p =>
      .markup (.lits (by decide)) (.content (.markup (.lits₃ (by decide))
      (.content (.markup (.lit (by decide)) .nil))))
  · exact .of_leads (fun _ _ => rfl) fun p => .markup (.lit (by decide)) .nil

/-- The tags of a card depend on how many tags its post has. -/
theorem rigid_card (ht : t.IsTidy) : Rigid t.card fun p => p.tags.length := by
  unfold card
  cases t.layout with
  | cards => exact rigid_cardOfCards ht
  | stacked => exact rigid_stackedCard ht
  | terminal => exact rigid_terminalRow ht
  | document => exact rigid_documentEntry ht

theorem rigid_postList (ht : t.IsTidy) :
    Rigid t.postList (List.map fun p : Post => p.tags.length) := by
  have hnone : Rigid (fun _ : List Post => noPosts) (List.map fun p : Post => p.tags.length) :=
    .of_leads (fun _ _ => rfl) fun _ => .markup (.lit (by decide)) .nil
  have hsome := (rigid_card ht).join (HasSkeleton.markup (s := "\n") (by decide) (by decide))
  refine (hnone.ite (c := (· = [])) hsome).congr fun posts => ?_
  simp [postList]

/-! ### Buttons -/

theorem rigid_buttons (ht : t.IsTidy) : Rigid t.buttons List.length := by
  have hopen : Kind.content.Leads ("<button data-tag-btn=\"" ++ allTags ++ "\" class=\"") .value :=
    .lits₃ (by decide)
  have hactive : Kind.value.Leads t.activeClass .value := ht.tagClass.trans (.lit (by decide))
  have hboth : Kind.content.Leads ("<button data-tag-btn=\"" ++ allTags ++ "\" class=\"" ++
      t.tagClass ++ " " ++ t.activeClass) .value :=
    ((hopen.trans ht.tagClass).trans (.lit (by decide))).trans hactive
  have hall : Rigid (fun _ : List String => t.allButton) List.length := .of_leads (fun _ _ => rfl) fun _ =>
    .markup (hboth.trans (.lit (by decide))) (.content (.markup (.lit (by decide)) .nil))
  have hbutton : Rigid t.tagButton fun _ => () := .of_leads (fun _ _ => rfl) fun tag =>
    .markup (.lit (by decide)) (.value (.markup
      (((Kind.Leads.lit (by decide)).trans ht.tagClass).trans (.lit (by decide)))
      (.content (.markup (.lit (by decide)) .nil))))
  exact hall.append (hbutton.flatMap.finer (fun n => List.replicate n ()) fun tags => by simp)

/-- The panel around the buttons is made of whole tags. -/
theorem leads_panelEnds (ht : t.IsTidy) :
    Kind.content.Leads t.panelEnds.1 .content ∧ Kind.content.Leads t.panelEnds.2 .content := by
  unfold panelEnds
  cases t.layout with
  | cards =>
    have hcentered : Kind.value.Leads (if t.centered then ";justify-content:center" else "") .value := by
      split
      · exact .lit (by decide)
      · exact .lit (by decide)
    refine ⟨?_,Kind.Leads.trans (.lit (by decide)) ht.afterPanel⟩
    exact ((((((ht.classed (by decide)).trans (ht.cls (by decide))).trans (.lit (by decide))).trans
      ht.heading).trans (.lit (by decide))).trans hcentered).trans (.lit (by decide))
  | stacked =>
    refine ⟨?_,.lit (by decide)⟩
    exact ((((((ht.classed (by decide)).trans (ht.cls (by decide))).trans (.lit (by decide))).trans
      ht.heading).trans (.lit (by decide))).trans (ht.cls (by decide))).trans (.lit (by decide))
  | terminal =>
    refine ⟨?_,.lit (by decide)⟩
    exact (((((ht.classed (l := .value) (by decide)).trans (ht.cls (by decide))).trans
      (.lit (by decide))).trans (ht.cls (by decide))).trans (.lit (l := .content) (by decide))).trans
      (.lit (by decide))
  | document =>
    refine ⟨?_,.lit (by decide)⟩
    exact ((Kind.Leads.lit (by decide)).trans ht.heading).trans (.lit (by decide))

/-- The tags of the panel depend on how many tags the posts have. -/
theorem rigid_tagFilter (ht : t.IsTidy) :
    Rigid t.tagFilter fun posts => (uniqueTags posts).length := by
  obtain ⟨hbefore,hafter⟩ := leads_panelEnds ht
  have hpanel : Rigid (fun tags => [markup t.panelEnds.1] ++ t.buttons tags ++ [markup t.panelEnds.2])
      List.length :=
    .append (.append (.of_leads (fun _ _ => rfl) fun _ => .markup hbefore .nil) (rigid_buttons ht))
      (.of_leads (fun _ _ => rfl) fun _ => .markup hafter .nil)
  refine ((Rigid.nil.ite (c := (· = 0)) hpanel).comp uniqueTags).congr fun posts => ?_
  simp [tagFilter]

/-! ### Cards of neighbours -/

set_option maxRecDepth 4000 in
theorem leads_navCard (ht : t.IsTidy) (p : Post) (label : Value) :
    Leads .content (t.navCard (some p) label) .content := by
  unfold navCard
  simp only
  split
  · exact .markup (.lit (by decide)) (.value (.markup (.lits (by decide)) (.content (.markup
      (.lits (by decide)) (.content (.markup (.lit (by decide)) (.content
      (.markup (.lit (by decide)) .nil))))))))
  · exact .markup (.lit (by decide)) (.value (.markup (((ht.classed (by decide)).trans
      (ht.cls (by decide))).trans (.lit (by decide))) (.content (.markup (ht.classed (by decide))
      (.content (.markup (ht.classed (by decide)) (.content (.markup (.lit (by decide)) .nil))))))))

/-- The tags of the card of a neighbour depend on whether there is one. -/
theorem rigid_navCard (ht : t.IsTidy) :
    Rigid (fun x : Option Post × Value => t.navCard x.1 x.2) fun x => x.1.isSome := by
  refine .of_blank ?_ ?_
  · rintro ⟨_ | p,label⟩ ⟨_ | q,label'⟩ h
    · rfl
    · simp at h
    · simp at h
    · unfold navCard
      cases t.layout <;> rfl
  · rintro ⟨_ | p,label⟩
    · exact .markup (.lit (by decide)) .nil
    · exact leads_navCard ht p label

end Theme

end BlogSite
