import BlogSite.Proofs.FragmentOutlines

/-!
Reading without attributes. A reader that forgets the attributes of tags goes the same way and finds the same names
and texts. So what a fragment shows is found out stretch by stretch, whatever the names of classes are.
-/

namespace BlogSite.Html

variable {α τ υ : Type}

/-! ### Attributes left out -/

/-- A tag without attributes. -/
def Tag.bare (name : List Char) : Tag τ := ⟨name,[]⟩

def Token.bare : Token α → Token α
  | .sign x => .sign x
  | .tag t => .tag (.bare t.name)

namespace Spot

/-- In the value of an attribute. -/
def inside (name : List Char) : Spot α := .value (.bare name) [] []

/-- Where the reader is, without the attributes that it has read. -/
def bare : Spot α → Spot α
  | .content => .content
  | .name w => .name w
  | .gap t => .gap (.bare t.name)
  | .label t _ => .label (.bare t.name) []
  | .equals t _ => .equals (.bare t.name) []
  | .value t _ _ => .inside t.name
  | .ended t => .ended (.bare t.name)

/-- A step without attributes. -/
def bareStep (y : Spot α × List (Token α)) : Spot α × List (Token α) := (y.1.bare,y.2.map Token.bare)

/-- Where the reader is after some signs and what it has found, without attributes. -/
def find (p : Spot α) (s : List (Sign α)) : Option (Spot α × List (Token α)) := (p.run s).map bareStep

variable (p : Spot α) (x : Sign α) (s t : List (Sign α))

/-- The reader does not look back at attributes. -/
theorem step_bare : (p.bare.step x).map bareStep = (p.step x).map bareStep := by
  cases p <;> cases x <;> simp only [bare,inside,step] <;> (try split_ifs) <;> rfl

theorem bare_bare : p.bare.bare = p.bare := by
  cases p <;> rfl

/-- What is found before stays before. -/
theorem map_bareStep (ts : List (Token α)) :
    ((p.run s).map fun z => (z.1,ts ++ z.2)).map bareStep =
      (p.find s).map fun z => (z.1,ts.map Token.bare ++ z.2) := by
  rw [find,Option.map_map,Option.map_map]
  exact congrArg (Option.map · _) (funext fun z => by simp [bareStep])

theorem find_bare : p.bare.find s = p.find s := by
  induction s generalizing p with
  | nil => exact congrArg (fun q => some (q,[])) p.bare_bare
  | cons x s ih =>
    have hcons : ∀ p : Spot α, p.find (x :: s) = ((p.step x).map bareStep).bind fun y =>
        (y.1.find s).map fun z => (z.1,y.2 ++ z.2) := by
      intro p
      rw [find,run]
      cases p.step x with
      | none => rfl
      | some y => simp only [Option.bind_some,Option.map_some,map_bareStep,bareStep,ih]
    rw [hcons,hcons,step_bare]

theorem find_append : p.find (s ++ t) =
    (p.find s).bind fun y => (y.1.find t).map fun z => (z.1,y.2 ++ z.2) := by
  rw [find,run_append,find]
  cases p.run s with
  | none => rfl
  | some y => simp only [Option.bind_some,Option.map_some,map_bareStep,bareStep,find_bare]

end Spot

/-! ### Names and texts -/

/-- The names of the tags of a page, each with the text after it. -/
def Page.seen (p : Page τ) : List (String × τ) := p.tags.map fun x => (String.ofList x.1.name,x.2)

theorem Page.seen_map (h : τ → υ) (p : Page τ) : (p.map h).seen = p.seen.map (Prod.map id h) := by
  simp only [seen,map,List.map_map]
  rfl

theorem pageOf_bare (ts : List (Token α)) : (pageOf (ts.map Token.bare)).lead = (pageOf ts).lead ∧
    (pageOf (ts.map Token.bare)).seen = (pageOf ts).seen := by
  induction ts with
  | nil => exact ⟨rfl,rfl⟩
  | cons k ts ih =>
    obtain ⟨hlead,hseen⟩ := ih
    simp only [Page.seen] at hseen
    cases k <;> simp [pageOf,Token.bare,Tag.bare,Page.seen,hlead,hseen]

theorem mem_of_mem_tags_pageOf {ts : List (Token α)} {x : Tag (List (Sign α)) × List (Sign α)}
    (h : x ∈ (pageOf ts).tags) : .tag x.1 ∈ ts := by
  induction ts with
  | nil => exact absurd h List.not_mem_nil
  | cons k ts ih =>
    cases k with
    | sign y => exact List.mem_cons_of_mem _ (ih h)
    | tag t =>
      rcases List.mem_cons.mp h with rfl | h
      · exact List.mem_cons_self
      · exact List.mem_cons_of_mem _ (ih h)

/-- What a reader of a page sees: the names of the tags, each with the text after it. -/
def seenOn (page : String) : List (String × String) := (readPage page).elim [] Page.seen

/-! ### Fragments -/

namespace Fragment

/-- A reader goes through a fragment from one place to another, and finds something. Attributes are left out. -/
def Finds (p : Spot String) (f : Fragment) (q : Spot String) (ts : List (Token String)) : Prop :=
  p.find f.signs = some (q,ts)

/-- Fixed characters outside of tags. -/
def said (s : String) : List (Token String) := (plain s).map .sign

/-- A text outside of tags. -/
def told (s : String) : List (Token String) := [.sign (.hole s)]

/-- A tag of a name. -/
def tagged (name : String) : List (Token String) := [.tag (.bare name.toList)]

namespace Finds

variable {f g : Fragment} {p q r : Spot String} {ts us : List (Token String)} {s s' : String}
  {l m k : List Char}

theorem append (hf : Finds p f q ts) (hg : Finds q g r us) : Finds p (f ++ g) r (ts ++ us) := by
  rw [Finds,signs_append,Spot.find_append,hf,Option.bind_some,hg]
  rfl

theorem cons {x : Piece} (hx : Finds p [x] q ts) (hf : Finds q f r us) : Finds p (x :: f) r (ts ++ us) :=
  hx.append hf

theorem lit (h : p.find (l.map .char) = some (q,ts)) : Finds p [.markup (String.ofList l)] q ts := by
  rw [Finds,signs_markup,plain,String.toList_ofList]
  exact h

/-- Markup that is written in two parts is read as one. -/
theorem trans (hs : Finds p [.markup s] q ts) (ht : Finds q [.markup s'] r us) :
    Finds p [.markup (s ++ s')] r (ts ++ us) := by
  have hboth := hs.append ht
  rwa [Finds,signs_append,signs_markup,signs_markup,← plain_append,← signs_markup] at hboth

theorem lits (h : p.find ((l ++ m).map .char) = some (q,ts)) :
    Finds p [.markup (String.ofList l ++ String.ofList m)] q ts := by
  rw [← String.ofList_append]
  exact lit h

theorem lits₃ (h : p.find ((l ++ m ++ k).map .char) = some (q,ts)) :
    Finds p [.markup (String.ofList l ++ String.ofList m ++ String.ofList k)] q ts := by
  rw [← String.ofList_append,← String.ofList_append]
  exact lit h

theorem content (h : '<' ∉ s.toList) : Finds .content [.markup s] .content (said s) := by
  rw [Finds,signs_markup,plain,Spot.find,Spot.run_content h]
  simp [Spot.bareStep,Spot.bare,said,plain,Token.bare]

theorem value {name : List Char} (h : '"' ∉ s.toList) :
    Finds (.inside name) [.markup s] (.inside name) [] := by
  rw [Finds,signs_markup,plain,Spot.find,Spot.inside,Spot.run_value h]
  rfl

theorem text (s : String) : Finds .content [.text s] .content (told s) := rfl

theorem textValue {name : List Char} (s : String) : Finds (.inside name) [.text s] (.inside name) [] := rfl

/-- A name that is not fixed in a value, between what is. -/
theorem classed {n : List Char} (hs : Finds p [.markup s] (.inside n) ts) (hc : '"' ∉ s'.toList)
    (hl : (Spot.inside n).find (l.map .char) = some (q,us)) :
    Finds p [.markup (s ++ s' ++ String.ofList l)] q (ts ++ us) := by
  have hvalue := hs.trans (value hc)
  rw [List.append_nil] at hvalue
  exact hvalue.trans (lit hl)

theorem exists_run (h : Finds .content f .content ts) :
    ∃ us, Spot.content.run f.signs = some (.content,us) ∧ us.map Token.bare = ts := by
  obtain ⟨⟨q,us⟩,hrun,hbare⟩ := Option.map_eq_some_iff.mp h
  obtain ⟨hq,rfl⟩ := Prod.mk.inj hbare
  have hcontent : q = .content := by
    cases q <;> first | rfl | exact absurd hq (by simp [Spot.bare,Spot.inside])
  exact ⟨us,hcontent ▸ hrun,rfl⟩

theorem seen (h : Finds .content f .content ts) : ∃ o, f.outline? = some o ∧ o.seen = (pageOf ts).seen := by
  obtain ⟨us,hrun,rfl⟩ := h.exists_run
  exact ⟨pageOf us,outline?_of_run hrun,(pageOf_bare us).2.symm⟩

/-- A name that is not found is the name of no tag. -/
theorem named? {name : List Char} (h : Finds .content f .content ts) (hts : .tag (.bare name) ∉ ts) :
    f.named? name = some [] := by
  obtain ⟨us,hrun,rfl⟩ := h.exists_run
  rw [Fragment.named?,outline?_of_run hrun,Option.map_some,Page.named]
  refine congrArg some (List.filter_eq_nil_iff.mpr fun b hb hname => hts ?_)
  obtain ⟨x,hx,rfl⟩ := List.mem_map.mp hb
  exact List.mem_map.mpr ⟨_,mem_of_mem_tags_pageOf hx,by rw [Token.bare,of_decide_eq_true hname]⟩

end Finds

/-- The names and the texts in what is found, as they are on the page. -/
def seenAs (ts : List (Token String)) : List (String × String) := (pageOf ts).seen.map (Prod.map id filled)

/-- A reader of the page of a fragment sees what is found in it, with the texts as they were. -/
theorem ReadsBack.seenOn {f : Fragment} {ts : List (Token String)} (hf : f.ReadsBack)
    (h : Finds .content f .content ts) : seenOn f.render = seenAs ts := by
  obtain ⟨o,ho,hread⟩ := hf
  obtain ⟨o',ho',hseen⟩ := h.seen
  obtain rfl : o = o' := Option.some.inj (ho.symm.trans ho')
  rw [Html.seenOn,hread,Option.elim_some,Page.seen_map,hseen,seenAs]

end Fragment

end BlogSite.Html
