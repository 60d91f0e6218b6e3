import BlogSite.Proofs.HtmlReading

/-!
Reading a page with all its tags. A reader goes from left to right, takes every tag apart into its name
and its attributes, and has the text after each tag. It reads fragments as well, and takes the texts in
them as units. A fragment that can be read so is read on its page too, with the same tags and with every
text as it was.
-/

namespace BlogSite.Html

variable {α β τ υ : Type}

/-- What stands at one point of a fragment: a character of its markup, or something that is put in. -/
inductive Sign (α : Type) where
  | char (c : Char)
  | hole (a : α)
deriving DecidableEq

/-- A tag with its attributes. The name of a tag that closes an element begins with a slash. -/
structure Tag (τ : Type) where
  name : List Char
  attributes : List (List Char × τ)
deriving DecidableEq

/-- A page: the text before the first tag, and every tag with the text after it. -/
structure Page (τ : Type) where
  lead : τ
  tags : List (Tag τ × τ)
deriving DecidableEq

def Sign.map (h : α → β) : Sign α → Sign β
  | .char c => .char c
  | .hole a => .hole (h a)

/-- A sign without what is put in. -/
def Sign.erase : Sign α → Sign Unit := Sign.map fun _ => ()

@[simp] theorem Sign.erase_erase (x : Sign α) : x.erase.erase = x.erase := by cases x <;> rfl

def Tag.map (h : τ → υ) (t : Tag τ) : Tag υ := ⟨t.name,t.attributes.map fun a => (a.1,h a.2)⟩

def Page.map (h : τ → υ) (p : Page τ) : Page υ := ⟨h p.lead,p.tags.map fun x => (x.1.map h,h x.2)⟩

/-! ### The reader -/

/-- What the reader has found: a sign outside of tags, or a tag. -/
inductive Token (α : Type) where
  | sign (x : Sign α)
  | tag (t : Tag (List (Sign α)))
deriving DecidableEq

/-- Where the reader is, with what it has of the tag that it is in. -/
inductive Spot (α : Type) where
  | content
  | name (word : List Char)
  /-- Before an attribute. -/
  | gap (t : Tag (List (Sign α)))
  | label (t : Tag (List (Sign α))) (word : List Char)
  /-- Between the name of an attribute and the quotation mark before its value. -/
  | equals (t : Tag (List (Sign α))) (word : List Char)
  | value (t : Tag (List (Sign α))) (word : List Char) (v : List (Sign α))
  /-- After the quotation mark that ends a value. -/
  | ended (t : Tag (List (Sign α)))
deriving DecidableEq

/-- Characters of which the names of tags and attributes are made. -/
def isNameChar (c : Char) : Bool := c.isAlphanum || c == '-' || c == '/'

/-- Where the reader is after one more sign, and what it has found. Nothing is put in outside of texts
and values. -/
def Spot.step : Spot α → Sign α → Option (Spot α × List (Token α))
  | .content, .char c =>
    if c = '<' then some (.name [],[]) else some (.content,[.sign (.char c)])
  | .content, .hole a => some (.content,[.sign (.hole a)])
  | .name w, .char c =>
    if c = '>' then some (.content,[.tag ⟨w,[]⟩])
    else if c = ' ' then some (.gap ⟨w,[]⟩,[])
    else if isNameChar c then some (.name (w ++ [c]),[]) else none
  | .gap t, .char c => if isNameChar c then some (.label t [c],[]) else none
  | .label t w, .char c =>
    if c = '=' then some (.equals t w,[])
    else if isNameChar c then some (.label t (w ++ [c]),[]) else none
  | .equals t w, .char c => if c = '"' then some (.value t w [],[]) else none
  | .value t w v, .char c =>
    if c = '"' then some (.ended ⟨t.name,t.attributes ++ [(w,v)]⟩,[])
    else some (.value t w (v ++ [.char c]),[])
  | .value t w v, .hole a => some (.value t w (v ++ [.hole a]),[])
  | .ended t, .char c =>
    if c = ' ' then some (.gap t,[])
    else if c = '>' then some (.content,[.tag t]) else none
  | _, .hole _ => none

/-- Where the reader is after some signs, and what it has found. -/
def Spot.run : Spot α → List (Sign α) → Option (Spot α × List (Token α))
  | p, [] => some (p,[])
  | p, x :: s => (p.step x).bind fun (q,ts) => (q.run s).map fun (r,us) => (r,ts ++ us)

/-- The page that some tokens are of. -/
def pageOf : List (Token α) → Page (List (Sign α))
  | [] => ⟨[],[]⟩
  | .sign x :: ts => ⟨x :: (pageOf ts).lead,(pageOf ts).tags⟩
  | .tag t :: ts => ⟨[],(t,(pageOf ts).lead) :: (pageOf ts).tags⟩

/-- What is read, if it ends outside of tags. -/
def page? (s : List (Sign α)) : Option (Page (List (Sign α))) :=
  match Spot.content.run s with
  | some (.content,ts) => some (pageOf ts)
  | _ => none

/-- The character of a page. -/
def Sign.toChar : Sign Empty → Char
  | .char c => c

/-- A page as it is read: its tags and texts, with the entities in texts and values replaced once. -/
def readPage (page : String) : Option (Page String) :=
  (page? (page.toList.map Sign.char)).map
    (Page.map fun v => String.ofList (unescape (v.map Sign.toChar)))

/-! ### Fragments -/

/-- The tags of a page, with what is fixed of the values of their attributes. -/
abbrev Skeleton := List (Tag (List (Sign Unit)))

def Page.skeleton (p : Page (List (Sign α))) : Skeleton :=
  p.tags.map fun x => x.1.map (List.map Sign.erase)

namespace Fragment

def pieceSigns : Piece → List (Sign String)
  | .markup s => s.toList.map .char
  | .text s => [.hole s]

/-- A fragment sign by sign. -/
def signs (f : Fragment) : List (Sign String) := f.flatMap pieceSigns

/-- The texts that are put into a fragment, as they are before they are escaped. -/
def texts (f : Fragment) : List String :=
  f.filterMap fun
    | .markup _ => none
    | .text s => some s

/-- A fragment as it is read, with its texts as units. -/
def outline? (f : Fragment) : Option (Page (List (Sign String))) := page? f.signs

/-- The tags of a fragment, without the texts that are put in. -/
def skeleton? (f : Fragment) : Option Skeleton := f.outline?.map Page.skeleton

/-- Fixed characters and the texts between them, one after the other. -/
def filled (v : List (Sign String)) : String :=
  String.ofList (v.flatMap fun
    | .char c => [c]
    | .hole s => s.toList)

/-- On its page a fragment is read as it is, with every text in its place as it was. -/
def ReadsBack (f : Fragment) : Prop :=
  ∃ o, f.outline? = some o ∧ readPage f.render = some (o.map filled)

end Fragment

/-! ### Reading in parts -/

namespace Spot

/-- Reading on from a first sign is a step and then the rest. -/
theorem exists_of_run_cons {p q : Spot α} {x : Sign α} {s : List (Sign α)} {ts : List (Token α)}
    (h : p.run (x :: s) = some (q,ts)) :
    ∃ r us vs, p.step x = some (r,us) ∧ r.run s = some (q,vs) ∧ ts = us ++ vs := by
  rw [run,Option.bind_eq_some_iff] at h
  obtain ⟨⟨r,us⟩,hstep,h⟩ := h
  obtain ⟨⟨q',vs⟩,hrun,hq⟩ := Option.map_eq_some_iff.mp h
  obtain ⟨rfl,rfl⟩ := Prod.mk.inj hq
  exact ⟨r,us,vs,hstep,hrun,rfl⟩

theorem run_append (p : Spot α) (s t : List (Sign α)) :
    p.run (s ++ t) = (p.run s).bind fun x => (x.1.run t).map fun y => (y.1,x.2 ++ y.2) := by
  induction s generalizing p with
  | nil => simp [run]
  | cons x s ih =>
    rw [List.cons_append,run,run]
    cases p.step x with
    | none => rfl
    | some y =>
      simp only [Option.bind_some,ih]
      cases y.1.run s with
      | none => rfl
      | some z => simp [Function.comp_def,List.append_assoc]

/-! ### Signs in place of others -/

def map (h : List (Sign α) → List (Sign β)) : Spot α → Spot β
  | .content => .content
  | .name w => .name w
  | .gap t => .gap (t.map h)
  | .label t w => .label (t.map h) w
  | .equals t w => .equals (t.map h) w
  | .value t w v => .value (t.map h) w (h v)
  | .ended t => .ended (t.map h)

end Spot

def Token.map (h : α → β) : Token α → Token β
  | .sign x => .sign (x.map h)
  | .tag t => .tag (t.map (List.map (Sign.map h)))

/-- The reader does not look at what is put in. -/
theorem Spot.step_map (h : α → β) (p : Spot α) (x : Sign α) :
    (p.map (List.map (Sign.map h))).step (x.map h) =
      (p.step x).map fun y => (y.1.map (List.map (Sign.map h)),y.2.map (Token.map h)) := by
  cases p <;> cases x <;> simp only [map,step,Sign.map] <;> (try split_ifs) <;>
    simp [Token.map,Tag.map,Sign.map]

theorem Spot.run_map (h : α → β) (p : Spot α) (s : List (Sign α)) :
    (p.map (List.map (Sign.map h))).run (s.map (Sign.map h)) =
      (p.run s).map fun y => (y.1.map (List.map (Sign.map h)),y.2.map (Token.map h)) := by
  induction s generalizing p with
  | nil => rfl
  | cons x s ih =>
    rw [List.map_cons,run,run,step_map]
    cases p.step x with
    | none => rfl
    | some y =>
      simp only [Option.map_some,Option.bind_some,ih]
      cases y.1.run s with
      | none => rfl
      | some z => simp

theorem pageOf_map (h : α → β) (ts : List (Token α)) :
    pageOf (ts.map (Token.map h)) = (pageOf ts).map (List.map (Sign.map h)) := by
  induction ts with
  | nil => rfl
  | cons k ts ih => cases k <;> simp [pageOf,Token.map,Page.map,ih]

theorem page?_map (h : α → β) (s : List (Sign α)) :
    page? (s.map (Sign.map h)) = (page? s).map (Page.map (List.map (Sign.map h))) := by
  have hrun := Spot.content.run_map h s
  unfold page?
  simp only [Spot.map] at hrun
  rw [hrun]
  cases Spot.content.run s with
  | none => rfl
  | some y =>
    obtain ⟨q,ts⟩ := y
    cases q <;> simp [pageOf_map]

/-! ### Characters in place of texts -/

/-- Characters that neither begin a tag nor end a value. -/
def Inert (s : List Char) : Prop := '<' ∉ s ∧ '"' ∉ s

def Sign.expand (σ : α → List Char) : Sign α → List (Sign β)
  | .char c => [.char c]
  | .hole a => (σ a).map .char

def Token.expand (σ : α → List Char) : Token α → List (Token β)
  | .sign x => (x.expand σ).map .sign
  | .tag t => [.tag (t.map (List.flatMap (Sign.expand σ)))]

namespace Spot

variable {p q : Spot α} {x : Sign α} {s : List (Sign α)} {ts : List (Token α)} {σ : α → List Char}

theorem run_content {s : List Char} (h : '<' ∉ s) :
    (content : Spot β).run (s.map Sign.char) = some (content,s.map fun c => Token.sign (.char c)) := by
  induction s with
  | nil => rfl
  | cons c s ih =>
    simp only [List.mem_cons,not_or] at h
    simp [run,step,Ne.symm h.1,ih h.2]

theorem run_value {s : List Char} (h : '"' ∉ s) (t : Tag (List (Sign β))) (w : List Char)
    (v : List (Sign β)) :
    (value t w v).run (s.map Sign.char) = some (value t w (v ++ s.map Sign.char),[]) := by
  induction s generalizing v with
  | nil => simp [run]
  | cons c s ih =>
    simp only [List.mem_cons,not_or] at h
    simp [run,step,Ne.symm h.1,ih h.2]

/-- A character is read alike whatever is put in before it. -/
theorem step_char (σ : α → List Char) (p : Spot α) (c : Char) :
    (p.map (List.flatMap (Sign.expand σ)) : Spot β).step (.char c) =
      (p.step (.char c)).map fun y =>
        (y.1.map (List.flatMap (Sign.expand σ)),y.2.flatMap (Token.expand σ)) := by
  cases p <;> simp only [map,step] <;> split_ifs <;> simp [Tag.map,Token.expand,Sign.expand]

/-- Characters in place of a text leave the reader where the text does. -/
theorem run_expand_sign (hσ : ∀ a, Inert (σ a)) (h : p.step x = some (q,ts)) :
    (p.map (List.flatMap (Sign.expand σ))).run (x.expand σ : List (Sign β)) =
      some (q.map (List.flatMap (Sign.expand σ)),ts.flatMap (Token.expand σ)) := by
  cases x with
  | char c => simp [Sign.expand,run,step_char,h]
  | hole a =>
    cases p <;> simp only [step,reduceCtorEq,Option.some.injEq,Prod.mk.injEq] at h
    case content =>
      obtain ⟨rfl,rfl⟩ := h
      simp [map,Sign.expand,Token.expand,run_content (hσ a).1]
    case value t w v =>
      obtain ⟨rfl,rfl⟩ := h
      simp [map,Sign.expand,run_value (hσ a).2]

theorem run_expand (hσ : ∀ a, Inert (σ a)) (h : p.run s = some (q,ts)) :
    (p.map (List.flatMap (Sign.expand σ))).run (s.flatMap (Sign.expand σ) : List (Sign β)) =
      some (q.map (List.flatMap (Sign.expand σ)),ts.flatMap (Token.expand σ)) := by
  induction s generalizing p ts with
  | nil =>
    simp only [run,Option.some.injEq,Prod.mk.injEq] at h
    obtain ⟨rfl,rfl⟩ := h
    rfl
  | cons x s ih =>
    obtain ⟨r,us,vs,hstep,hrun,rfl⟩ := exists_of_run_cons h
    rw [List.flatMap_cons,run_append,run_expand_sign hσ hstep]
    simp [ih hrun]

end Spot

theorem pageOf_expand (σ : α → List Char) (ts : List (Token α)) :
    (pageOf (ts.flatMap (Token.expand σ)) : Page (List (Sign β))) =
      (pageOf ts).map (List.flatMap (Sign.expand σ)) := by
  have hsigns : ∀ (xs : List (Sign β)) (us : List (Token β)),
      pageOf (xs.map .sign ++ us) = ⟨xs ++ (pageOf us).lead,(pageOf us).tags⟩ := by
    intro xs us
    induction xs with
    | nil => rfl
    | cons x xs ih => simp [pageOf,ih]
  induction ts with
  | nil => rfl
  | cons k ts ih => cases k <;> simp [pageOf,Token.expand,Page.map,hsigns,ih]

/-! ### Signs that do not occur -/

def Tag.Lacks (x : Sign α) (t : Tag (List (Sign α))) : Prop := ∀ a ∈ t.attributes, x ∉ a.2

def Token.Lacks (x : Sign α) : Token α → Prop
  | .sign y => y ≠ x
  | .tag t => t.Lacks x

def Spot.Lacks (x : Sign α) : Spot α → Prop
  | .content | .name _ => True
  | .gap t | .label t _ | .equals t _ | .ended t => t.Lacks x
  | .value t _ v => t.Lacks x ∧ x ∉ v

structure Page.Lacks (x : Sign α) (p : Page (List (Sign α))) : Prop where
  lead : x ∉ p.lead
  tags : ∀ y ∈ p.tags, y.1.Lacks x ∧ x ∉ y.2

theorem Spot.step_lacks {x y : Sign α} {p q : Spot α} {ts : List (Token α)} (hp : p.Lacks x)
    (hy : y ≠ x) (h : p.step y = some (q,ts)) : q.Lacks x ∧ ∀ k ∈ ts, k.Lacks x := by
  have htag : ∀ {t : Tag (List (Sign α))}, t.Lacks x → ∀ k ∈ [Token.tag t], k.Lacks x := by
    rintro t ht k hk
    rwa [List.mem_singleton.mp hk]
  have hsign : ∀ k ∈ [Token.sign y], k.Lacks x := by
    rintro k hk
    rwa [List.mem_singleton.mp hk]
  have hmore : ∀ {v}, x ∉ v → x ∉ v ++ [y] := by
    intro v hv
    simpa [hv] using Ne.symm hy
  cases y with
  | hole a =>
    cases p <;> simp only [step,reduceCtorEq,Option.some.injEq,Prod.mk.injEq] at h <;>
      obtain ⟨rfl,rfl⟩ := h
    case content => exact ⟨trivial,hsign⟩
    case value t w v => exact ⟨⟨hp.1,hmore hp.2⟩,by simp⟩
  | char c =>
    have hnone : ∀ k ∈ ([] : List (Token α)), k.Lacks x := by simp
    cases p with
    | content =>
      simp only [step] at h
      split_ifs at h <;> cases h
      · exact ⟨trivial,hnone⟩
      · exact ⟨trivial,hsign⟩
    | name w =>
      simp only [step] at h
      split_ifs at h <;> cases h
      · exact ⟨trivial,htag (by simp [Tag.Lacks])⟩
      · exact ⟨by simp [Lacks,Tag.Lacks],hnone⟩
      · exact ⟨trivial,hnone⟩
    | gap t =>
      simp only [step] at h
      split_ifs at h
      cases h
      exact ⟨hp,hnone⟩
    | label t w =>
      simp only [step] at h
      split_ifs at h <;> cases h <;> exact ⟨hp,hnone⟩
    | equals t w =>
      simp only [step] at h
      split_ifs at h
      cases h
      exact ⟨⟨hp,by simp⟩,hnone⟩
    | value t w v =>
      simp only [step] at h
      split_ifs at h <;> cases h
      · exact ⟨List.forall_mem_append.mpr ⟨hp.1,by simpa using hp.2⟩,hnone⟩
      · exact ⟨⟨hp.1,hmore hp.2⟩,hnone⟩
    | ended t =>
      simp only [step] at h
      split_ifs at h <;> cases h
      · exact ⟨hp,hnone⟩
      · exact ⟨trivial,htag hp⟩

/-- What is not in the signs is not in what is found. -/
theorem Spot.run_lacks {x : Sign α} {p q : Spot α} {s : List (Sign α)} {ts : List (Token α)}
    (hp : p.Lacks x) (hs : x ∉ s) (h : p.run s = some (q,ts)) : ∀ k ∈ ts, k.Lacks x := by
  induction s generalizing p ts with
  | nil =>
    obtain ⟨rfl,rfl⟩ := Prod.mk.inj (Option.some.inj h)
    simp
  | cons y s ih =>
    rw [List.mem_cons,not_or] at hs
    obtain ⟨r,us,vs,hstep,hrun,rfl⟩ := exists_of_run_cons h
    obtain ⟨hr,hus⟩ := step_lacks hp (Ne.symm hs.1) hstep
    intro k hk
    rcases List.mem_append.mp hk with hk | hk
    · exact hus k hk
    · exact ih hr hs.2 hrun k hk

theorem lacks_pageOf {x : Sign α} {ts : List (Token α)} (h : ∀ k ∈ ts, k.Lacks x) :
    (pageOf ts).Lacks x := by
  induction ts with
  | nil => exact ⟨by simp [pageOf],by simp [pageOf]⟩
  | cons k ts ih =>
    obtain ⟨hlead,htags⟩ := ih fun k hk => h k (by simp [hk])
    have hk := h k (by simp)
    cases k with
    | sign y => exact ⟨by simpa [pageOf] using ⟨Ne.symm hk,hlead⟩,htags⟩
    | tag t => exact ⟨by simp [pageOf],List.forall_mem_cons.mpr ⟨⟨hk,hlead⟩,htags⟩⟩

/-! ### Pages of fragments -/

namespace Fragment

theorem signs_append (f g : Fragment) : signs (f ++ g) = signs f ++ signs g := List.flatMap_append

/-- The characters of a page are those of its fragment with the texts escaped. -/
theorem map_char_render (f : Fragment) :
    ((render f).toList.map .char : List (Sign β)) =
      (signs f).flatMap (Sign.expand fun s => escape s.toList) := by
  rw [toList_render,signs,List.flatMap_assoc,List.map_flatMap]
  refine List.flatMap_congr fun x _ => ?_
  cases x with
  | markup s => simp [chars,pieceSigns,List.flatMap_map,Sign.expand,← List.map_eq_flatMap]
  | text s => simp [chars,pieceSigns,Sign.expand]

/-- Entities stand for the characters of texts, and for nothing else. -/
theorem unescape_expand {v : List (Sign String)} (h : Sign.char '&' ∉ v) :
    String.ofList (unescape ((v.flatMap (Sign.expand fun s => escape s.toList)).map Sign.toChar)) =
      filled v := by
  refine congrArg String.ofList ?_
  induction v with
  | nil => rfl
  | cons x v ih =>
    rw [List.mem_cons,not_or] at h
    cases x with
    | char c =>
      have hc : c ≠ '&' := fun hc => h.1 (hc ▸ rfl)
      simp [Sign.expand,Sign.toChar,unescape_cons hc,ih h.2]
    | hole s => simp [Sign.expand,Sign.toChar,Function.comp_def,unescape_escape_append,ih h.2]

end Fragment

theorem Tag.Lacks.map_expand {t : Tag (List (Sign String))} (h : t.Lacks (.char '&')) :
    (t.map (List.flatMap (Sign.expand fun s => escape s.toList))).map
      (fun v => String.ofList (unescape (v.map Sign.toChar))) = t.map Fragment.filled := by
  simp only [map,List.map_map]
  refine congrArg (Tag.mk t.name) (List.map_congr_left fun a ha => ?_)
  exact congrArg (Prod.mk a.1) (Fragment.unescape_expand (h a ha))

theorem Page.Lacks.map_expand {p : Page (List (Sign String))} (h : p.Lacks (.char '&')) :
    (p.map (List.flatMap (Sign.expand fun s => escape s.toList))).map
      (fun v => String.ofList (unescape (v.map Sign.toChar))) = p.map Fragment.filled := by
  simp only [map,List.map_map]
  refine congrArg₂ Page.mk (Fragment.unescape_expand h.lead) (List.map_congr_left fun x hx => ?_)
  obtain ⟨htag,htext⟩ := h.tags x hx
  exact congrArg₂ Prod.mk htag.map_expand (Fragment.unescape_expand htext)

namespace Fragment

/-- A fragment that can be read, and has no entities in its markup, is read so on its page. -/
theorem readsBack {f : Fragment} {o : Page (List (Sign String))} (ho : f.outline? = some o)
    (hplain : Sign.char '&' ∉ f.signs) : f.ReadsBack := by
  refine ⟨o,ho,?_⟩
  unfold outline? page? at ho
  split at ho
  · rename_i ts hrun
    obtain rfl := Option.some.inj ho
    have hinert : ∀ s : String, Inert (escape s.toList) := fun s =>
      ⟨notMem_escape (by decide) _,notMem_escape (by decide) _⟩
    have hpage : (Spot.content : Spot Empty).run
        (f.signs.flatMap (Sign.expand fun s => escape s.toList)) = some (.content,_) :=
      Spot.run_expand hinert hrun
    have hlacks := lacks_pageOf (Spot.run_lacks (p := .content) trivial hplain hrun)
    unfold readPage page?
    rw [map_char_render]
    simp only [hpage,pageOf_expand,Option.map_some]
    exact congrArg some (hlacks.map_expand)
  · exact absurd ho (by simp)

end Fragment

end BlogSite.Html
