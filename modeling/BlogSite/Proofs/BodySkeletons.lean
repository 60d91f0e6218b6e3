import BlogSite.Proofs.FragmentSkeletons
import BlogSite.Proofs.MarkupRendering

/-!
The HTML of post bodies. Its tags depend on the kinds of the lines of a body, and on nothing that is
written in them.
-/

namespace BlogSite.Markup

open Html Html.Fragment

/-- A line without its text. -/
def Line.kind : Line → Line
  | .heading level _ => .heading level []
  | .item k _ => .item k []
  | .blank => .blank
  | .paragraph _ => .paragraph []

/-- The text that a line shows. -/
def Line.text? : Line → Option String
  | .heading _ s | .item _ s | .paragraph s => some (String.ofList s)
  | .blank => none

/-- The kinds of the lines of a body. -/
def lineKinds (body : String) : List Line := (bodyLines body).map fun s => (Line.read s).kind

/-- What lines add to a page on which a list may be open, with what closes the last list. -/
def pieces : Option ListKind → List Line → Fragment
  | o, [] => (Renderer.change o none).flatten
  | o, l :: ls => (Renderer.change o l.listKind?).flatten ++ (l.element ++ pieces l.listKind? ls)

theorem Renderer.html_close_addAll {r : Renderer} (hr : r.IsSound) (ls : List Line) :
    (r.addAll ls).close.html = r.html ++ pieces r.openList ls := by
  induction ls generalizing r with
  | nil =>
    change r.close.html = _
    rw [hr.close_eq]
    simp [html,pieces]
  | cons l ls ih =>
    have hadd : (r.add l).html = r.html ++ ((change r.openList l.listKind?).flatten ++ l.element) := by
      rw [hr.add_eq]
      simp [html]
    change ((r.add l).addAll ls).close.html = _
    rw [ih (hr.add l),hadd,hr.openList_add,pieces]
    simp only [List.append_assoc]

theorem fragment_eq_pieces {body : String} (h : body ≠ "") :
    fragment body = pieces none ((bodyLines body).map Line.read) := by
  rw [fragment,if_neg h,foldl_feed,Renderer.html_close_addAll Renderer.isSound_empty]
  rfl

/-! ### Tags -/

theorem leads_heading (level : Nat) (s : List Char) :
    Leads .content (Line.heading level s).element .content := by
  have hlevel : Kind.name.Leads (toString level) .name := .repr level
  exact .markup (((Kind.Leads.lit (by decide)).trans hlevel).trans (.lit (by decide))) (.content
    (.markup (((Kind.Leads.lit (by decide)).trans hlevel).trans (.lit (by decide))) .nil))

theorem leads_element (l : Line) : Leads .content l.element .content := by
  cases l with
  | heading level s => exact leads_heading level s
  | item k s => exact .markup (.lit (by decide)) (.content (.markup (.lit (by decide)) .nil))
  | blank => exact .markup (.lit (by decide)) .nil
  | paragraph s => exact .markup (.lit (by decide)) (.content (.markup (.lit (by decide)) .nil))

theorem leads_change (old new : Option ListKind) :
    Leads .content (Renderer.change old new).flatten .content := by
  have hopening : ∀ k : ListKind, Leads .content k.opening .content := by
    rintro (_ | _)
    · exact .markup (.lit (by decide)) .nil
    · exact .markup (.lit (by decide)) .nil
  have hclosing : ∀ k : ListKind, Leads .content k.closing .content := by
    rintro (_ | _)
    · exact .markup (.lit (by decide)) .nil
    · exact .markup (.lit (by decide)) .nil
  refine .flatten fun f hf => ?_
  unfold Renderer.change at hf
  split at hf
  · simp at hf
  · rw [List.mem_append,List.mem_map,List.mem_map] at hf
    obtain ⟨k,-,rfl⟩ | ⟨k,-,rfl⟩ := hf
    · exact hclosing k
    · exact hopening k

theorem leads_pieces (o : Option ListKind) (ls : List Line) :
    Leads .content (pieces o ls) .content := by
  induction ls generalizing o with
  | nil => exact leads_change o none
  | cons l ls ih => exact (leads_change o _).append ((leads_element l).append (ih _))

/-- Without their texts lines are shown alike if they are of one kind. -/
theorem blank_pieces (o : Option ListKind) (ls : List Line) :
    (pieces o ls).blank = (pieces o (ls.map Line.kind)).blank := by
  induction ls generalizing o with
  | nil => rfl
  | cons l ls ih =>
    have hlist : l.kind.listKind? = l.listKind? := by cases l <;> rfl
    have helement : l.element.blank = l.kind.element.blank := by cases l <;> rfl
    rw [List.map_cons,pieces,pieces,hlist,blank_append,blank_append,blank_append,blank_append,ih,
      helement]

theorem rigid_pieces (o : Option ListKind) : Rigid (pieces o) (List.map Line.kind) := by
  refine .of_blank (fun ls ms h => ?_) (leads_pieces o)
  rw [blank_pieces,h,← blank_pieces]

/-- The tags of a body depend on the kinds of its lines. -/
theorem rigid_fragment : Rigid fragment lineKinds := by
  obtain ⟨k,hk⟩ := rigid_pieces none
  refine ⟨k,fun body => ?_⟩
  by_cases hbody : body = ""
  · -- The one line of an empty body is blank, and a blank line has no tags.
    have hnone : k [.blank] = [] :=
      (hk [.blank]).unique (HasSkeleton.markup (s := "\n") (by decide) (by decide))
    subst body
    rw [show lineKinds "" = [.blank] by decide,hnone]
    exact .nil
  · rw [fragment_eq_pieces hbody]
    simpa [lineKinds,Function.comp_def] using hk ((bodyLines body).map Line.read)

/-! ### Texts -/

theorem texts_pieces (o : Option ListKind) (ls : List Line) :
    (pieces o ls).texts = ls.filterMap Line.text? := by
  have hchange : ∀ old new : Option ListKind,
      Fragment.texts (Renderer.change old new).flatten = [] := by
    rintro (_ | _ | _) (_ | _ | _) <;> rfl
  induction ls generalizing o with
  | nil => exact hchange o none
  | cons l ls ih =>
    rw [pieces,texts_append,texts_append,hchange,ih]
    cases l <;> rfl

/-- The texts of the HTML of a body are those of its lines. -/
theorem texts_fragment (body : String) :
    (fragment body).texts = (bodyLines body).filterMap fun s => (Line.read s).text? := by
  by_cases hbody : body = ""
  · subst body
    decide
  · rw [fragment_eq_pieces hbody,texts_pieces,List.filterMap_map]
    rfl

end BlogSite.Markup
