import BlogSite.World

/-!
Runs step by step: what each of the basic steps gives and how it leaves the world.
-/

namespace BlogSite

namespace Run

variable {α β : Type}

theorem go_bind (x : Run α) (k : α → Run β) (w : World) :
    (x >>= k).go w = match x.go w with
      | (.ok a,v) => (k a).go v
      | (.error f,v) => (.error f,v) := by
  change (match x.go w with
    | (r,v) => (ExceptT.bindCont k r).run v) = _
  cases hx : x.go w with
  | mk r v => cases r <;> rfl

/-- A run that gives a result has given one at each of its steps. -/
theorem exists_of_go_bind {x : Run α} {k : α → Run β} {w v : World} {b : β}
    (h : (x >>= k).go w = (.ok b,v)) : ∃ a u, x.go w = (.ok a,u) ∧ (k a).go u = (.ok b,v) := by
  rw [go_bind] at h
  cases hx : x.go w with
  | mk r u =>
    rw [hx] at h
    cases r with
    | error f => exact absurd (congrArg Prod.fst h) (by simp)
    | ok a => exact ⟨a,u,rfl,h⟩

/-- A run that fails does so at one of its steps. -/
theorem cases_of_go_bind_error {x : Run α} {k : α → Run β} {w v : World} {f : Failure}
    (h : (x >>= k).go w = (.error f,v)) :
    x.go w = (.error f,v) ∨ ∃ a u, x.go w = (.ok a,u) ∧ (k a).go u = (.error f,v) := by
  rw [go_bind] at h
  cases hx : x.go w with
  | mk r u =>
    rw [hx] at h
    cases r with
    | error g =>
      obtain ⟨hfailed,rfl⟩ := Prod.mk.inj h
      exact Or.inl (by rw [Except.error.inj hfailed])
    | ok a => exact Or.inr ⟨a,u,rfl,h⟩

@[simp] theorem go_pure (a : α) (w : World) : (pure a : Run α).go w = (.ok a,w) := rfl

@[simp] theorem go_throw (f : Failure) (w : World) : (throw f : Run α).go w = (.error f,w) := rfl

@[simp] theorem go_settle (r : Except Failure α) (w : World) : (settle r).go w = (r,w) := rfl

@[simp] theorem go_ask (q : Disk → α) (w : World) : (ask q).go w = (.ok (q w.disk),w) := rfl

theorem go_fetch (q : Disk → Except DiskFault α) (w : World) :
    (fetch q).go w = match q w.disk with
      | .ok a => (.ok a,w)
      | .error f => (.error (.disk f),w) := by
  change (match q w.disk with
    | .ok a => (pure a : Run α)
    | .error f => throw (Failure.disk f)).go w = _
  cases q w.disk <;> rfl

theorem eq_ok_of_go_fetch {q : Disk → Except DiskFault α} {w v : World} {a : α}
    (h : (fetch q).go w = (.ok a,v)) : q w.disk = .ok a := by
  rw [go_fetch] at h
  split at h
  · rename_i b hb
    rw [hb,Except.ok.inj (congrArg Prod.fst h)]
  · exact absurd (congrArg Prod.fst h) (by simp)

theorem exists_go_of_isOk {x : Run α} {w : World} (h : (x.go w).1.isOk = true) :
    ∃ a v, x.go w = (.ok a,v) := by
  cases hx : x.go w with
  | mk r v =>
    rw [hx] at h
    cases r with
    | error f => exact absurd h (by simp [Except.isOk,Except.toBool])
    | ok a => exact ⟨a,v,rfl⟩

/-- What is computed of a result is known of the result. -/
theorem eq_of_toOption_map {r : Except Failure α} {g : α → β} {a : α} {b : β}
    (h : r.toOption.map g = some b) (hr : r = .ok a) : g a = b := by
  subst hr
  exact Option.some.inj h

end Run

/-- The text of a file, with line feeds for all its line ends. -/
def Disk.textAt (d : Disk) (p : String) : Except Failure String :=
  match d.read p with
  | .error f => .error (.disk f)
  | .ok bytes =>
    match String.fromUTF8? bytes with
    | none => .error .notText
    | some s => .ok (String.ofList (Text.unifyBreaks s.toList))

@[simp] theorem Run.go_readText (p : String) (w : World) :
    (Run.readText p).go w = (w.disk.textAt p,w) := by
  unfold Run.readText Run.readVerbatim
  simp only [Run.go_bind,Run.go_fetch,Disk.textAt]
  cases w.disk.read p with
  | error f => rfl
  | ok bytes =>
    cases h : String.fromUTF8? bytes with
    | none => simp only [h,Run.go_throw]
    | some s => simp only [h,Run.go_pure]

theorem Disk.textAt_eq_of_read_eq {d d' : Disk} {p : String} (h : d.read p = d'.read p) :
    d.textAt p = d'.textAt p := by
  unfold textAt
  rw [h]

end BlogSite
