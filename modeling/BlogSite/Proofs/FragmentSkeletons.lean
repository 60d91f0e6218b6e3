import BlogSite.Proofs.PageReading

/-!
Fragments whose tags do not depend on the texts in them. What is put together of such fragments is one
again, so it is enough to read each stretch of fixed markup once.
-/

namespace BlogSite.Html

variable {α δ ε σ υ : Type}

/-- The tag that a token is, without what is put in. -/
def Token.bones : Token α → Skeleton
  | .sign _ => []
  | .tag t => [t.map (List.map Sign.erase)]

theorem skeleton_pageOf (ts : List (Token α)) : (pageOf ts).skeleton = ts.flatMap Token.bones := by
  induction ts with
  | nil => rfl
  | cons k ts ih =>
    rw [List.flatMap_cons,← ih]
    cases k <;> rfl

namespace Fragment

theorem skeleton?_eq_some_iff {f : Fragment} {k : Skeleton} : f.skeleton? = some k ↔
    ∃ ts, Spot.content.run f.signs = some (.content,ts) ∧ ts.flatMap Token.bones = k := by
  unfold skeleton? outline? page?
  split
  · rename_i ts hrun
    simp [skeleton_pageOf,hrun]
  · rename_i hother
    simp only [Option.map_none,reduceCtorEq,false_iff,not_exists,not_and]
    exact fun ts hrun => absurd hrun (hother ts)

/-- A fragment that can be read, with no entities in its markup and with the tags of a skeleton. -/
structure HasSkeleton (f : Fragment) (k : Skeleton) : Prop where
  plain : Sign.char '&' ∉ f.signs
  skeleton : f.skeleton? = some k

theorem HasSkeleton.readsBack {f : Fragment} {k : Skeleton} (h : f.HasSkeleton k) : f.ReadsBack := by
  obtain ⟨o,ho,-⟩ := Option.map_eq_some_iff.mp h.skeleton
  exact Fragment.readsBack ho h.plain

theorem HasSkeleton.nil : HasSkeleton [] [] := ⟨by simp [signs],rfl⟩

theorem HasSkeleton.unique {f : Fragment} {k l : Skeleton} (hk : f.HasSkeleton k)
    (hl : f.HasSkeleton l) : k = l :=
  Option.some.inj (hk.skeleton.symm.trans hl.skeleton)

theorem HasSkeleton.append {f g : Fragment} {k l : Skeleton} (hf : f.HasSkeleton k)
    (hg : g.HasSkeleton l) : (f ++ g).HasSkeleton (k ++ l) := by
  obtain ⟨ts,hts,rfl⟩ := skeleton?_eq_some_iff.mp hf.skeleton
  obtain ⟨us,hus,rfl⟩ := skeleton?_eq_some_iff.mp hg.skeleton
  refine ⟨?_,skeleton?_eq_some_iff.mpr ⟨ts ++ us,?_,List.flatMap_append⟩⟩
  · rw [signs_append]
    exact fun h => (List.mem_append.mp h).elim hf.plain hg.plain
  · rw [signs_append,Spot.run_append,hts]
    simp [hus]

/-- Characters that begin no tag and no entity have no tags. -/
theorem HasSkeleton.markup {s : String} (h : '<' ∉ s.toList) (h' : '&' ∉ s.toList) :
    HasSkeleton [.markup s] [] := by
  have hsigns : signs [.markup s] = s.toList.map Sign.char := by simp [signs,pieceSigns]
  have hrun := hsigns ▸ Spot.run_content h
  refine ⟨by simpa [hsigns] using h',skeleton?_eq_some_iff.mpr ⟨_,hrun,?_⟩⟩
  simp [List.flatMap_map,Token.bones]

/-- Markup that is written in two parts is read as one. -/
theorem HasSkeleton.markup_append {s t : String} {k : Skeleton}
    (h : HasSkeleton [.markup s,.markup t] k) : HasSkeleton [.markup (s ++ t)] k := by
  have hsigns : signs [.markup (s ++ t)] = signs [.markup s,.markup t] := by
    simp [signs,pieceSigns]
  exact ⟨hsigns ▸ h.plain,by rw [skeleton?,outline?,hsigns]; exact h.skeleton⟩

/-! ### Texts left out -/

def blankPiece : Piece → Piece
  | .markup s => .markup s
  | .text _ => .text ""

/-- A fragment without its texts. -/
def blank (f : Fragment) : Fragment := f.map blankPiece

theorem blank_append (f g : Fragment) : (f ++ g).blank = f.blank ++ g.blank := List.map_append

theorem signs_blank (f : Fragment) :
    (blank f).signs.map Sign.erase = f.signs.map Sign.erase := by
  simp only [signs,blank,List.flatMap_map,List.map_flatMap]
  refine List.flatMap_congr fun x _ => ?_
  cases x <;> rfl

theorem skeleton?_congr {f g : Fragment}
    (h : f.signs.map Sign.erase = g.signs.map Sign.erase) :
    f.skeleton? = g.skeleton? := by
  have herase : ∀ f : Fragment, f.skeleton? =
      (page? (f.signs.map Sign.erase)).map Page.skeleton := by
    intro f
    change _ = (page? (f.signs.map (Sign.map fun _ => ()))).map Page.skeleton
    rw [page?_map,Option.map_map]
    refine congrArg (Option.map · f.outline?) (funext fun o => ?_)
    change _ = ((o.map (List.map Sign.erase)).skeleton)
    simp [Page.skeleton,Page.map,Tag.map,Function.comp_def]
  rw [herase f,herase g,h]

theorem HasSkeleton.of_blank {f g : Fragment} {k : Skeleton} (hg : g.HasSkeleton k)
    (h : f.blank = g.blank) : f.HasSkeleton k := by
  have herase : f.signs.map Sign.erase = g.signs.map Sign.erase := by
    rw [← signs_blank f,h,signs_blank]
  have hchars : ∀ s : List (Sign String), Sign.char '&' ∈ s ↔ Sign.char '&' ∈ s.map Sign.erase := by
    intro s
    rw [List.mem_map]
    constructor
    · exact fun hs => ⟨_,hs,rfl⟩
    · rintro ⟨x,hx,hmap⟩
      cases x with
      | char c => exact Sign.char.inj hmap ▸ hx
      | hole a => exact absurd hmap (by simp [Sign.erase,Sign.map])
  refine ⟨?_,(skeleton?_congr herase).trans hg.skeleton⟩
  rw [hchars,herase,← hchars]
  exact hg.plain

end Fragment

/-! ### Stretches of markup -/

/-- Where a reader is, without what it has read. -/
inductive Kind where
  | content
  | name
  | gap
  | label
  | equals
  | value
  | ended
deriving DecidableEq

def Spot.kind : Spot α → Kind
  | .content => .content
  | .name _ => .name
  | .gap _ => .gap
  | .label _ _ => .label
  | .equals _ _ => .equals
  | .value _ _ _ => .value
  | .ended _ => .ended

theorem Spot.eq_content_of_kind {p : Spot α} (h : p.kind = .content) : p = .content := by
  cases p <;> first | rfl | exact absurd h (by simp [kind])

theorem Spot.eq_value_of_kind {p : Spot α} (h : p.kind = .value) : ∃ t w v, p = .value t w v := by
  cases p <;> first | exact ⟨_,_,_,rfl⟩ | exact absurd h (by simp [kind])

/-- Where a reader is after one more character. -/
def Kind.next : Kind → Char → Option Kind
  | .content, c => if c = '<' then some .name else some .content
  | .name, c =>
    if c = '>' then some .content
    else if c = ' ' then some .gap else if isNameChar c then some .name else none
  | .gap, c => if isNameChar c then some .label else none
  | .label, c => if c = '=' then some .equals else if isNameChar c then some .label else none
  | .equals, c => if c = '"' then some .value else none
  | .value, c => if c = '"' then some .ended else some .value
  | .ended, c => if c = ' ' then some .gap else if c = '>' then some .content else none

/-- Where a reader is after some characters. -/
def Kind.after : Kind → List Char → Option Kind
  | k, [] => some k
  | k, c :: s => (k.next c).bind fun l => l.after s

theorem Kind.after_append (k : Kind) (s t : List Char) :
    k.after (s ++ t) = (k.after s).bind fun l => l.after t := by
  induction s generalizing k with
  | nil => rfl
  | cons c s ih =>
    rw [List.cons_append,after,after]
    cases k.next c with
    | none => rfl
    | some l => exact ih l

/-- What a reader does next with characters does not depend on what it has read. -/
theorem Spot.step_kind (p : Spot α) (c : Char) :
    (p.step (.char c)).map (fun y => y.1.kind) = p.kind.next c := by
  cases p <;> simp only [step,kind,Kind.next] <;> split_ifs <;> rfl

theorem Spot.run_kind (p : Spot α) (s : List Char) :
    (p.run (s.map Sign.char)).map (fun y => y.1.kind) = p.kind.after s := by
  induction s generalizing p with
  | nil => rfl
  | cons c s ih =>
    rw [List.map_cons,run,Kind.after,← step_kind]
    cases p.step (.char c) with
    | none => rfl
    | some y =>
      simp only [Option.bind_some,Option.map_some,← ih,Option.map_map]
      rfl

theorem isDigit_of_mem_repr {n : Nat} {c : Char} (h : c ∈ n.repr.toList) : c.isDigit = true := by
  rw [Nat.repr,String.toList_ofList] at h
  exact Nat.isDigit_of_mem_toDigits (b := 10) (by decide) (by decide) h

/-- Markup leads a reader from one kind of place to another, and has no entities. -/
structure Kind.Leads (k : Kind) (s : String) (l : Kind) : Prop where
  plain : '&' ∉ s.toList
  after : k.after s.toList = some l

namespace Kind.Leads

variable {k l m : Kind} {s t : String}

theorem lit {s : List Char} (h : '&' ∉ s ∧ k.after s = some l) : k.Leads (String.ofList s) l :=
  ⟨by simpa using h.1,by simpa using h.2⟩

/-- One literal after another. -/
theorem lits {s t : List Char} (h : '&' ∉ s ++ t ∧ k.after (s ++ t) = some l) :
    k.Leads (String.ofList s ++ String.ofList t) l :=
  ⟨by simpa using h.1,by simpa using h.2⟩

theorem lits₃ {s t r : List Char} (h : '&' ∉ s ++ t ++ r ∧ k.after (s ++ t ++ r) = some l) :
    k.Leads (String.ofList s ++ String.ofList t ++ String.ofList r) l :=
  ⟨by simpa using h.1,by simpa using h.2⟩

theorem trans (hs : k.Leads s l) (ht : l.Leads t m) : k.Leads (s ++ t) m := by
  refine ⟨by simp [hs.plain,ht.plain],?_⟩
  rw [String.toList_append,after_append,hs.after,Option.bind_some,ht.after]

/-- Characters without a meaning leave a reader where it is. -/
theorem stay (hplain : '&' ∉ s.toList) (h : ∀ c ∈ s.toList, k.next c = some k) : k.Leads s k := by
  refine ⟨hplain,?_⟩
  generalize s.toList = cs at h
  induction cs with
  | nil => rfl
  | cons c cs ih =>
    rw [Kind.after,h c (by simp),Option.bind_some]
    exact ih fun d hd => h d (by simp [hd])

/-- A number is a part of a name. -/
theorem repr (n : Nat) : Kind.name.Leads n.repr .name := by
  have hdigit : ∀ c ∈ n.repr.toList, c.isDigit = true := fun c hc => isDigit_of_mem_repr hc
  refine .stay (fun h => absurd (hdigit _ h) (by decide)) fun c hc => ?_
  have hname : isNameChar c = true := by simp [isNameChar,Char.isAlphanum,hdigit c hc]
  have hend : c ≠ '>' := by
    rintro rfl
    exact absurd (hdigit _ hc) (by decide)
  have hblank : c ≠ ' ' := by
    rintro rfl
    exact absurd (hdigit _ hc) (by decide)
  simp [Kind.next,hname,hend,hblank]

end Kind.Leads

namespace Fragment

/-- A fragment leads a reader from one kind of place to another, with texts in content and in values
only. -/
inductive Leads : Kind → Fragment → Kind → Prop
  | nil {k : Kind} : Leads k [] k
  | markup {k l m : Kind} {s : String} {f : Fragment} (hs : k.Leads s l) (hf : Leads l f m) :
      Leads k (.markup s :: f) m
  | content {m : Kind} {s : String} {f : Fragment} (hf : Leads .content f m) :
      Leads .content (.text s :: f) m
  | value {m : Kind} {s : String} {f : Fragment} (hf : Leads .value f m) :
      Leads .value (.text s :: f) m

namespace Leads

variable {f g : Fragment} {k l m : Kind}

theorem append (hf : Leads k f l) (hg : Leads l g m) : Leads k (f ++ g) m := by
  induction hf with
  | nil => exact hg
  | markup hs _ ih => exact .markup hs (ih hg)
  | content _ ih => exact .content (ih hg)
  | value _ ih => exact .value (ih hg)

theorem flatten {fs : List Fragment} (h : ∀ f ∈ fs, Leads k f k) : Leads k fs.flatten k := by
  induction fs with
  | nil => exact .nil
  | cons f fs ih => exact (h f (by simp)).append (ih fun g hg => h g (by simp [hg]))

theorem plain (h : Leads k f l) : Sign.char '&' ∉ f.signs := by
  induction h with
  | nil => simp [signs]
  | markup hs _ ih => simpa [signs,pieceSigns,hs.plain] using ih
  | content _ ih => simpa [signs,pieceSigns] using ih
  | value _ ih => simpa [signs,pieceSigns] using ih

/-- A reader goes through a fragment as it leads. -/
theorem exists_run (h : Leads k f l) {p : Spot String} (hp : p.kind = k) :
    ∃ y, p.run f.signs = some y ∧ y.1.kind = l := by
  have hcons : ∀ {p : Spot String} {x f y z}, p.run (pieceSigns x) = some y →
      y.1.run (signs f) = some z → p.run (signs (x :: f)) = some (z.1,y.2 ++ z.2) := by
    intro p x f y z hy hz
    rw [signs,List.flatMap_cons,Spot.run_append,hy]
    simp only [Option.bind_some]
    exact hz ▸ rfl
  induction h generalizing p with
  | nil => exact ⟨(p,[]),rfl,hp⟩
  | @markup _ _ _ s _ hs _ ih =>
    have hkind := Spot.run_kind p s.toList
    rw [hp,hs.after] at hkind
    obtain ⟨y,hy,hkind⟩ := Option.map_eq_some_iff.mp hkind
    obtain ⟨z,hz,hend⟩ := ih hkind
    exact ⟨_,hcons hy hz,hend⟩
  | content _ ih =>
    obtain rfl := Spot.eq_content_of_kind hp
    obtain ⟨z,hz,hend⟩ := ih hp
    exact ⟨_,hcons (y := (.content,_)) rfl hz,hend⟩
  | value _ ih =>
    obtain ⟨t,w,v,rfl⟩ := Spot.eq_value_of_kind hp
    obtain ⟨z,hz,hend⟩ := ih (p := .value t w _) rfl
    exact ⟨_,hcons (y := (.value t w _,_)) rfl hz,hend⟩

/-- What begins and ends outside of tags can be read. -/
theorem exists_hasSkeleton (h : Leads .content f .content) : ∃ k, f.HasSkeleton k := by
  obtain ⟨⟨q,ts⟩,hrun,hq⟩ := h.exists_run (p := .content) rfl
  obtain rfl := Spot.eq_content_of_kind hq
  exact ⟨_,h.plain,skeleton?_eq_some_iff.mpr ⟨ts,hrun,rfl⟩⟩

end Leads

/-! ### Fragments made of data -/

/-- What is made of data has tags that depend on the shape of the data alone. -/
def Rigid (F : δ → Fragment) (shape : δ → σ) : Prop :=
  ∃ k : σ → Skeleton, ∀ x, (F x).HasSkeleton (k (shape x))

namespace Rigid

variable {F G : δ → Fragment} {shape : δ → σ}

/-- What can be read and is alike without its texts for data of one shape. -/
theorem of_blank (h : ∀ x y, shape x = shape y → (F x).blank = (F y).blank)
    (hleads : ∀ x, Leads .content (F x) .content) : Rigid F shape := by
  have hshape : ∀ s, ∃ k, ∀ x, shape x = s → (F x).HasSkeleton k := by
    intro s
    by_cases hs : ∃ y, shape y = s
    · obtain ⟨y,hy⟩ := hs
      obtain ⟨k,hk⟩ := (hleads y).exists_hasSkeleton
      exact ⟨k,fun x hx => hk.of_blank (h x y (hx.trans hy.symm))⟩
    · exact ⟨[],fun x hx => absurd ⟨x,hx⟩ hs⟩
  choose k hk using hshape
  exact ⟨k,fun x => hk (shape x) x rfl⟩

/-- Fixed markup with texts in it. -/
theorem of_leads (h : ∀ x y, (F x).blank = (F y).blank)
    (hleads : ∀ x, Leads .content (F x) .content) : Rigid F shape :=
  .of_blank (fun x y _ => h x y) hleads

theorem congr (hF : Rigid F shape) (h : ∀ x, G x = F x) : Rigid G shape := by
  obtain ⟨k,hk⟩ := hF
  exact ⟨k,fun x => h x ▸ hk x⟩

theorem append (hF : Rigid F shape) (hG : Rigid G shape) : Rigid (fun x => F x ++ G x) shape := by
  obtain ⟨k,hk⟩ := hF
  obtain ⟨l,hl⟩ := hG
  exact ⟨fun s => k s ++ l s,fun x => (hk x).append (hl x)⟩

/-- A finer shape tells as much. -/
theorem finer {shape' : δ → υ} (hF : Rigid F shape) (u : υ → σ) (hu : ∀ x, shape x = u (shape' x)) :
    Rigid F shape' := by
  obtain ⟨k,hk⟩ := hF
  refine ⟨fun s => k (u s),fun x => ?_⟩
  simpa only [hu] using hk x

theorem comp (hF : Rigid F shape) (g : ε → δ) : Rigid (fun y => F (g y)) fun y => shape (g y) := by
  obtain ⟨k,hk⟩ := hF
  exact ⟨k,fun y => hk (g y)⟩

theorem nil : Rigid (fun _ => []) shape := ⟨fun _ => [],fun _ => .nil⟩

theorem ite {c : σ → Prop} [DecidablePred c] (hF : Rigid F shape) (hG : Rigid G shape) :
    Rigid (fun x => if c (shape x) then F x else G x) shape := by
  obtain ⟨k,hk⟩ := hF
  obtain ⟨l,hl⟩ := hG
  refine ⟨fun s => if c s then k s else l s,fun x => ?_⟩
  by_cases hc : c (shape x)
  · simpa only [hc,if_true] using hk x
  · simpa only [hc,if_false] using hl x

theorem flatMap (hF : Rigid F shape) : Rigid (fun xs => xs.flatMap F) (List.map shape) := by
  obtain ⟨k,hk⟩ := hF
  refine ⟨fun ss => ss.flatMap k,fun xs => ?_⟩
  induction xs with
  | nil => exact .nil
  | cons x xs ih => exact (hk x).append ih

/-- A separator without tags between fragments. -/
theorem join (hF : Rigid F shape) {sep : String} (hsep : HasSkeleton [.markup sep] []) :
    Rigid (fun xs => Fragment.join sep (xs.map F)) (List.map shape) := by
  obtain ⟨k,hk⟩ := hF
  refine ⟨fun ss => ss.flatMap k,fun xs => ?_⟩
  induction xs with
  | nil => exact .nil
  | cons x xs ih =>
    cases xs with
    | nil => simpa [Fragment.join] using hk x
    | cons y ys => exact (hk x).append (hsep.append ih)

end Rigid

/-! ### Texts of fragments in parts -/

theorem texts_append (f g : Fragment) : (f ++ g).texts = f.texts ++ g.texts := List.filterMap_append

theorem texts_flatMap (F : δ → Fragment) (xs : List δ) :
    Fragment.texts (xs.flatMap F) = xs.flatMap fun x => (F x).texts := by
  induction xs with
  | nil => rfl
  | cons x xs ih => rw [List.flatMap_cons,texts_append,ih,List.flatMap_cons]

theorem texts_join (sep : String) (F : δ → Fragment) (xs : List δ) :
    (Fragment.join sep (xs.map F)).texts = xs.flatMap fun x => (F x).texts := by
  induction xs with
  | nil => rfl
  | cons x xs ih =>
    cases xs with
    | nil => simp [Fragment.join]
    | cons y ys =>
      change (F x ++ ([Piece.markup sep] ++ Fragment.join sep ((y :: ys).map F))).texts = _
      rw [texts_append,texts_append,ih,List.flatMap_cons]
      rfl

/-- Texts are no markup in what is made of data: data of one shape give the same tags, and on the page
every text is in its place as it was. The texts are those told, in some order. -/
structure Inserts (F : δ → Fragment) (shape : δ → σ) (texts : δ → List String) : Prop where
  skeleton : ∀ x y, shape x = shape y → (F x).skeleton? = (F y).skeleton?
  readsBack : ∀ x, (F x).ReadsBack
  texts : ∀ x, (F x).texts.Perm (texts x)

theorem Rigid.inserts {F : δ → Fragment} {shape : δ → σ} {texts : δ → List String}
    (h : Rigid F shape) (htexts : ∀ x, (F x).texts.Perm (texts x)) : Inserts F shape texts := by
  obtain ⟨k,hk⟩ := h
  refine ⟨fun x y hxy => ?_,fun x => (hk x).readsBack,htexts⟩
  rw [(hk x).skeleton,(hk y).skeleton,hxy]

end Fragment

end BlogSite.Html
