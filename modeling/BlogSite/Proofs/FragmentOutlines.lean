import BlogSite.Proofs.FragmentSkeletons

/-!
Fragments as a reader finds them, with their texts as units. Other texts in their place change nothing else, so a
fragment is read once for all texts; and what is put together of fragments is read part by part.
-/

namespace BlogSite.Html

variable {α : Type}

/-! ### Pages in parts -/

/-- What is read is put together where the second part begins with a tag. -/
theorem pageOf_append {ts us : List (Token α)} (h : (pageOf us).lead = []) :
    pageOf (ts ++ us) = ⟨(pageOf ts).lead,(pageOf ts).tags ++ (pageOf us).tags⟩ := by
  induction ts with
  | nil => exact congrArg (Page.mk · _) h
  | cons k ts ih => cases k <;> simp [pageOf,ih]

theorem map_fst_tags_pageOf_append (ts us : List (Token α)) :
    (pageOf (ts ++ us)).tags.map Prod.fst =
      (pageOf ts).tags.map Prod.fst ++ (pageOf us).tags.map Prod.fst := by
  induction ts with
  | nil => rfl
  | cons k ts ih => cases k <;> simp [pageOf,ih]

theorem exists_run_of_page? {s : List (Sign α)} {o : Page (List (Sign α))} (h : page? s = some o) :
    ∃ ts, Spot.content.run s = some (.content,ts) ∧ pageOf ts = o := by
  unfold page? at h
  split at h
  · rename_i ts hrun
    exact ⟨ts,hrun,Option.some.inj h⟩
  · exact absurd h (by simp)

/-- One stretch is read after another. -/
theorem Spot.run_trans {p q r : Spot α} {s t : List (Sign α)} {ts us : List (Token α)}
    (hs : p.run s = some (q,ts)) (ht : q.run t = some (r,us)) : p.run (s ++ t) = some (r,ts ++ us) := by
  rw [run_append,hs,Option.bind_some,ht]
  rfl

/-! ### Texts in place of others -/

/-- Other texts in place of those of a piece. -/
def Piece.fill (h : String → String) : Piece → Piece
  | .markup s => .markup s
  | .text s => .text (h s)

/-! ### Tags of one name -/

/-- The tags of a name on a page, in their order. -/
def Page.named {τ : Type} (name : List Char) (p : Page τ) : List (Tag τ) :=
  (p.tags.map Prod.fst).filter (·.name = name)

theorem Page.named_map {τ υ : Type} (name : List Char) (h : τ → υ) (p : Page τ) :
    (p.map h).named name = (p.named name).map (Tag.map h) := by
  simp only [named,map,List.map_map,List.filter_map]
  rfl

theorem named_pageOf_append (name : List Char) (ts us : List (Token α)) :
    (pageOf (ts ++ us)).named name = (pageOf ts).named name ++ (pageOf us).named name := by
  rw [Page.named,map_fst_tags_pageOf_append,List.filter_append]
  rfl

/-- The tags of a name that a reader finds. -/
def tagsNamed (name : List Char) (page : String) : List (Tag String) :=
  match readPage page with
  | some p => p.named name
  | none => []

namespace Fragment

variable {f g : Fragment}

theorem outline?_of_run {ts : List (Token String)} (h : Spot.content.run f.signs = some (.content,ts)) :
    f.outline? = some (pageOf ts) := by
  unfold outline? page?
  rw [h]

theorem outline?_fill (h : String → String) (f : Fragment) :
    outline? (f.map (Piece.fill h)) = f.outline?.map (Page.map (List.map (Sign.map h))) := by
  have hsigns : signs (f.map (Piece.fill h)) = f.signs.map (Sign.map h) := by
    rw [signs,signs,List.flatMap_map,List.map_flatMap]
    refine List.flatMap_congr fun x _ => ?_
    cases x with
    | markup s => simp [Piece.fill,pieceSigns,Function.comp_def,Sign.map]
    | text s => rfl
  rw [outline?,hsigns,page?_map]
  rfl

/-- Fixed characters. -/
def plain (s : String) : List (Sign String) := s.toList.map .char

theorem map_plain (h : String → String) (s : String) : (plain s).map (Sign.map h) = plain s := by
  simp [plain,Sign.map]

theorem filled_plain (s : String) : filled (plain s) = s := by
  simp [filled,plain,List.flatMap_map]

theorem filled_append (v w : List (Sign String)) : filled (v ++ w) = filled v ++ filled w := by
  simp [filled,String.ofList_append]

theorem filled_hole (s : String) : filled [.hole s] = s := by
  simp [filled]

theorem signs_markup (s : String) : signs [.markup s] = plain s := List.flatMap_singleton ..

theorem plain_append (s s' : String) : plain (s ++ s') = plain s ++ plain s' := by
  simp [plain]

theorem render_join (sep : String) (fs : List Fragment) :
    (join sep fs).render = sep.intercalate (fs.map render) := by
  induction fs with
  | nil => rfl
  | cons f fs ih =>
    cases fs with
    | nil => rfl
    | cons g gs =>
      have hsep : render [.markup sep] = sep := by simp [render,chars]
      rw [List.map_cons,List.map_cons,String.intercalate_cons_cons,← List.map_cons,← ih]
      change render (f ++ ([.markup sep] ++ join sep (g :: gs))) = _
      rw [render_append,render_append,hsep,String.append_assoc]

/-- The tags of a name in a fragment, if it can be read. -/
def named? (name : List Char) (f : Fragment) : Option (List (Tag (List (Sign String)))) :=
  f.outline?.map (Page.named name)

variable {name : List Char} {ts us : List (Tag (List (Sign String)))}

theorem named?_congr (h : f.signs = g.signs) : f.named? name = g.named? name := by
  rw [named?,named?,outline?,outline?,h]

theorem named?_append (hf : f.named? name = some ts) (hg : g.named? name = some us) :
    (f ++ g).named? name = some (ts ++ us) := by
  obtain ⟨o,ho,rfl⟩ := Option.map_eq_some_iff.mp hf
  obtain ⟨o',ho',rfl⟩ := Option.map_eq_some_iff.mp hg
  obtain ⟨ks,hks,rfl⟩ := exists_run_of_page? ho
  obtain ⟨ls,hls,rfl⟩ := exists_run_of_page? ho'
  have hrun : Spot.content.run (f ++ g).signs = some (.content,ks ++ ls) :=
    signs_append f g ▸ Spot.run_trans hks hls
  rw [named?,outline?_of_run hrun,Option.map_some,named_pageOf_append]

theorem named?_flatMap {δ : Type} {piece : δ → Fragment} {tag : δ → Tag (List (Sign String))}
    (h : ∀ x, (piece x).named? name = some [tag x]) (xs : List δ) :
    named? name (xs.flatMap piece) = some (xs.map tag) := by
  induction xs with
  | nil => rfl
  | cons x xs ih => exact named?_append (h x) ih

/-- A reader of the page of a fragment finds its tags, with the texts in them as they were. -/
theorem ReadsBack.tagsNamed (hf : f.ReadsBack) (h : f.named? name = some ts) :
    tagsNamed name f.render = ts.map (Tag.map filled) := by
  obtain ⟨o,ho,hread⟩ := hf
  obtain ⟨o',ho',rfl⟩ := Option.map_eq_some_iff.mp h
  obtain rfl : o = o' := Option.some.inj (ho.symm.trans ho')
  rw [Html.tagsNamed,hread]
  exact Page.named_map name filled o

end Fragment

end BlogSite.Html
