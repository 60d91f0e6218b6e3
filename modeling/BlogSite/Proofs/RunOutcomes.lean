import BlogSite.Proofs.DirectoryMaking
import BlogSite.Proofs.RunSteps

/-!
What runs leave behind, whether they end in a result or stop at a failure. An outcome of steps done
one after the other is put together from the outcomes of the steps.
-/

namespace BlogSite

namespace Run

variable {α β : Type} {ok : α → World → Prop} {bad : Failure → World → Prop} {w : World}

@[simp] theorem go_modify (c : World → World) (w : World) :
    (modify c : Run Unit).go w = (.ok (),c w) := rfl

@[simp] theorem go_get (w : World) : (get : Run World).go w = (.ok w,w) := rfl

@[simp] theorem go_report (source : Log.Source) (level : Log.Level) (message : String) (w : World) :
    (report source level message).go w = (.ok (),w.report ⟨source,level,message⟩) := rfl

@[simp] theorem go_print (line : String) (w : World) : (print line).go w = (.ok (),w.print line) := rfl

theorem go_alter (c : Disk → Except DiskFault Disk) (w : World) :
    (alter c).go w = match c w.disk with
      | .ok d => (.ok (),{ w with disk := d })
      | .error f => (.error (.disk f),w) := by
  simp only [alter,go_bind,go_fetch]
  cases c w.disk <;> rfl

theorem go_makeDirectories (p : String) (w : World) :
    (makeDirectories p).go w = (match (w.disk.makeDirectories p).1 with
      | .ok () => .ok ()
      | .error f => .error (.disk f),{ w with disk := (w.disk.makeDirectories p).2 }) := by
  change (match (w.disk.makeDirectories p).1 with
    | .ok () => (pure () : Run Unit)
    | .error f => throw (Failure.disk f)).go { w with disk := (w.disk.makeDirectories p).2 } = _
  cases (w.disk.makeDirectories p).1 <;> rfl

/-- From a world, a run ends in a result and a world that are as told, or stops at a failure in a
world that are as told. -/
structure Meets (r : Run α) (w : World) (ok : α → World → Prop) (bad : Failure → World → Prop) :
    Prop where
  result : ∀ a v, r.go w = (.ok a,v) → ok a v
  failure : ∀ f v, r.go w = (.error f,v) → bad f v

theorem meets_of_go_ok {r : Run α} {a : α} {v : World} (h : r.go w = (.ok a,v)) :
    r.Meets w ok bad ↔ ok a v := by
  constructor
  · intro hr
    exact hr.result a v h
  · intro hok
    refine ⟨fun b u hb => ?_,fun f u hf => ?_⟩
    · rw [h] at hb
      obtain ⟨rfl,rfl⟩ : a = b ∧ v = u := by simpa using hb
      exact hok
    · rw [h] at hf
      exact absurd (congrArg Prod.fst hf) (by simp)

theorem meets_of_go_error {r : Run α} {f : Failure} {v : World} (h : r.go w = (.error f,v)) :
    r.Meets w ok bad ↔ bad f v := by
  constructor
  · intro hr
    exact hr.failure f v h
  · intro hbad
    refine ⟨fun b u hb => ?_,fun e u hf => ?_⟩
    · rw [h] at hb
      exact absurd (congrArg Prod.fst hb) (by simp)
    · rw [h] at hf
      obtain ⟨rfl,rfl⟩ : f = e ∧ v = u := by simpa using hf
      exact hbad

theorem meets_bind {x : Run α} {k : α → Run β} {ok : β → World → Prop} :
    (x >>= k).Meets w ok bad ↔ x.Meets w (fun a v => (k a).Meets v ok bad) bad := by
  have hgo := go_bind x k w
  cases hx : x.go w with
  | mk r v =>
    rw [hx] at hgo
    cases r with
    | error f => rw [meets_of_go_error hx,meets_of_go_error hgo]
    | ok a =>
      rw [meets_of_go_ok hx]
      cases hk : (k a).go v with
      | mk r u =>
        have hboth := hgo.trans hk
        cases r with
        | error f => rw [meets_of_go_error hboth,meets_of_go_error hk]
        | ok b => rw [meets_of_go_ok hboth,meets_of_go_ok hk]

theorem Meets.imp {r : Run α} {ok' : α → World → Prop} {bad' : Failure → World → Prop}
    (h : r.Meets w ok bad) (hok : ∀ a v, ok a v → ok' a v) (hbad : ∀ f v, bad f v → bad' f v) :
    r.Meets w ok' bad' :=
  ⟨fun a v hgo => hok a v (h.result a v hgo),fun f v hgo => hbad f v (h.failure f v hgo)⟩

/-- What holds of the world after a result and after a failure holds of the world that is left. -/
theorem Meets.world {r : Run α} {I : World → Prop} (h : r.Meets w (fun _ => I) fun _ => I) :
    I (r.go w).2 := by
  cases hgo : r.go w with
  | mk e v =>
    cases e with
    | error f => exact h.failure f v hgo
    | ok a => exact h.result a v hgo

theorem Meets.bind {x : Run α} {k : α → Run β} {mid : α → World → Prop} {ok : β → World → Prop}
    (h : x.Meets w mid bad) (hk : ∀ a v, mid a v → (k a).Meets v ok bad) :
    (x >>= k).Meets w ok bad :=
  meets_bind.mpr (h.imp hk fun _ _ hf => hf)

@[simp] theorem meets_pure (a : α) : (pure a : Run α).Meets w ok bad ↔ ok a w :=
  meets_of_go_ok (go_pure a w)

@[simp] theorem meets_throw (f : Failure) : (throw f : Run α).Meets w ok bad ↔ bad f w :=
  meets_of_go_error (go_throw f w)

@[simp] theorem meets_ask (q : Disk → α) : (ask q).Meets w ok bad ↔ ok (q w.disk) w :=
  meets_of_go_ok (go_ask q w)

@[simp] theorem meets_print {ok : Unit → World → Prop} (line : String) :
    (print line).Meets w ok bad ↔ ok () (w.print line) :=
  meets_of_go_ok (go_print line w)

@[simp] theorem meets_report {ok : Unit → World → Prop} (source : Log.Source) (level : Log.Level)
    (message : String) : (report source level message).Meets w ok bad ↔
      ok () (w.report ⟨source,level,message⟩) :=
  meets_of_go_ok (go_report source level message w)

@[simp] theorem meets_modify {ok : Unit → World → Prop} (c : World → World) :
    (modify c : Run Unit).Meets w ok bad ↔ ok () (c w) :=
  meets_of_go_ok (go_modify c w)

theorem meets_alter {ok : Unit → World → Prop} {c : Disk → Except DiskFault Disk}
    (h : ∀ d, c w.disk = .ok d → ok () { w with disk := d })
    (hbad : ∀ f, c w.disk = .error f → bad (.disk f) w) : (alter c).Meets w ok bad := by
  have hgo := go_alter c w
  cases hc : c w.disk with
  | ok d =>
    rw [hc] at hgo
    exact (meets_of_go_ok hgo).mpr (h d hc)
  | error f =>
    rw [hc] at hgo
    exact (meets_of_go_error hgo).mpr (hbad f hc)

theorem meets_makeDirectories {ok : Unit → World → Prop} {p : String} (hw : w.disk.IsTree)
    (hp : Path.IsDirect p)
    (h : ∀ d, w.disk.MadeTo (Path.place p) (.ok (),d) → ok () { w with disk := d })
    (hbad : ∀ f d, w.disk.MadeTo (Path.place p) (.error f,d) → bad (.disk f) { w with disk := d }) :
    (makeDirectories p).Meets w ok bad := by
  have hmade := hw.madeTo hp
  have hgo := go_makeDirectories p w
  generalize w.disk.makeDirectories p = r at hmade hgo
  obtain ⟨f | _,d⟩ := r
  · exact (meets_of_go_error hgo).mpr (hbad f d hmade)
  · exact (meets_of_go_ok hgo).mpr (h d hmade)

/-- What holds of the things done so far is carried along by steps that each add one. -/
theorem meets_forM_append {γ : Type} {xs : List γ} {step : γ → Run Unit} {I : List γ → World → Prop}
    (hstep : ∀ done x rest, xs = done ++ x :: rest → ∀ w, I done w →
      (step x).Meets w (fun _ => I (done ++ [x])) bad)
    {w : World} (hw : I [] w) : (xs.forM step).Meets w (fun _ => I xs) bad := by
  induction xs generalizing I w with
  | nil => exact (meets_pure ()).mpr hw
  | cons x xs ih =>
    refine Meets.bind (hstep [] x xs rfl w hw) fun _ v hv => ?_
    refine ih (I := fun done => I (x :: done)) (fun done y rest hxs => ?_) hv
    exact hstep (x :: done) y rest (by rw [hxs,List.cons_append])

/-- Steps that each keep what holds before them keep it all together. -/
theorem meets_forM {γ : Type} {xs : List γ} {step : γ → Run Unit} {I : World → Prop}
    (hstep : ∀ x ∈ xs, ∀ w, I w → (step x).Meets w (fun _ => I) fun _ => I) {w : World} (hw : I w) :
    (xs.forM step).Meets w (fun _ => I) fun _ => I :=
  meets_forM_append (I := fun _ => I) (fun _ x _ hxs => hstep x (by simp [hxs])) hw

end Run

end BlogSite
