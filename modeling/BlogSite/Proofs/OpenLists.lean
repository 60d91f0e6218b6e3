import BlogSite.Markup

/-!
The list that a renderer has open. Of its two flags one at most is set, whatever it is fed; so a renderer is
told by what it has written and by the list that is open, and a line changes that list to the one that it
belongs to.
-/

namespace BlogSite.Markup.Renderer

open BlogSite.Html

/-- At most one list is open. -/
def IsSound (r : Renderer) : Prop := ¬ (r.inOrdered = true ∧ r.inUnordered = true)

/-- The renderer that has written some parts and has a list open, or none. -/
def holding (parts : Array Fragment) (o : Option ListKind) : Renderer where
  parts
  inOrdered := o == some .ordered
  inUnordered := o == some .unordered

/-- What changing from one open list to another writes: nothing when it stays the same. -/
def change (old new : Option ListKind) : List Fragment :=
  if old = new then []
  else old.toList.map ListKind.closing ++ new.toList.map ListKind.opening

variable {r : Renderer} {parts : Array Fragment} {o : Option ListKind}

@[simp] theorem parts_holding : (holding parts o).parts = parts := rfl

@[simp] theorem openList_holding : (holding parts o).openList = o := by
  rcases o with _ | _ | _ <;> rfl

theorem isSound_holding : (holding parts o).IsSound := by
  rcases o with _ | _ | _ <;> simp [IsSound,holding]

theorem isSound_empty : IsSound {} := isSound_holding (o := none)

theorem IsSound.eq_holding (h : r.IsSound) : r = holding r.parts r.openList := by
  obtain ⟨parts,ordered,unordered⟩ := r
  cases ordered with
  | false => cases unordered <;> rfl
  | true =>
    cases unordered with
    | false => rfl
    | true => exact absurd ⟨rfl,rfl⟩ h

/-! ### Steps -/

theorem add_holding (l : Line) : (holding parts o).add l =
    holding (parts ++ change o l.listKind? ++ [l.element]) l.listKind? := by
  unfold add
  rcases l.listKind? with _ | _ | _
  · rcases o with _ | _ | _ <;> rfl
  · rcases o with _ | _ | _ <;> rfl
  · rcases o with _ | _ | _ <;> rfl

theorem close_holding : (holding parts o).close = holding (parts ++ change o none) none := by
  rcases o with _ | _ | _ <;> rfl

theorem IsSound.add_eq (h : r.IsSound) (l : Line) :
    r.add l = holding (r.parts ++ change r.openList l.listKind? ++ [l.element]) l.listKind? := by
  rw [← add_holding,← h.eq_holding]

theorem IsSound.close_eq (h : r.IsSound) :
    r.close = holding (r.parts ++ change r.openList none) none := by
  rw [← close_holding,← h.eq_holding]

theorem IsSound.add (h : r.IsSound) (l : Line) : (r.add l).IsSound := h.add_eq l ▸ isSound_holding

theorem IsSound.close (h : r.IsSound) : r.close.IsSound := h.close_eq ▸ isSound_holding

end BlogSite.Markup.Renderer
