import BlogSite.Proofs.SiteOutcomes

/-!
Pages of two sites side by side. Where the sheets of two sites match off a region of the output
directory, in their order, so do the pages that are made of them: a sheet with a place in the region has
no counterpart, and any other sheet has one with the same place that gives the same bytes.
-/

namespace BlogSite

/-- Files that agree off a region. -/
def Files.AgreeOff (Z : Location → Prop) (files files' : Files) : Prop := ∀ r, ¬ Z r → files r = files' r

theorem Files.AgreeOff.update {Z : Location → Prop} {files files' : Files} (h : AgreeOff Z files files')
    (r : Location) (bytes : Option ByteArray) :
    AgreeOff Z (Function.update files r bytes) (Function.update files' r bytes) := by
  intro k hk
  by_cases hkr : k = r
  · subst hkr
    rw [Function.update_self,Function.update_self]
  · rw [Function.update_of_ne hkr,Function.update_of_ne hkr]
    exact h k hk

theorem Files.AgreeOff.left {Z : Location → Prop} {files files' : Files} (h : AgreeOff Z files files')
    {r : Location} (hr : Z r) (bytes : Option ByteArray) :
    AgreeOff Z (Function.update files r bytes) files' := by
  intro k hk
  have hne : k ≠ r := by
    rintro rfl
    exact hk hr
  rw [Function.update_of_ne hne]
  exact h k hk

theorem Files.AgreeOff.symm {Z : Location → Prop} {files files' : Files} (h : AgreeOff Z files files') :
    AgreeOff Z files' files := fun r hr => (h r hr).symm

/-- Short copies agree off a region that has no file they are made of. -/
theorem Files.AgreeOff.finished {Z : Location → Prop} {files files' : Files}
    (h : AgreeOff Z files files') {s : Site} (hZ : ∀ k ∈ Minify.kinds s.compressors, ∀ name short,
      k.shortName? name = some short → ¬ Z (k.asset name)) :
    AgreeOff Z (s.finished files) (s.finished files') := by
  have hcopied : ∀ k ∈ Minify.kinds s.compressors, ∀ {files files' : Files}, AgreeOff Z files files' →
      AgreeOff Z (k.copied files) (k.copied files') := by
    intro k hk files files' h r hr
    unfold Minify.Kind.copied
    rw [h r hr]
    congr 1
    refine Option.bind_congr fun name hname => ?_
    obtain ⟨short,hshort,-⟩ := Minify.Kind.source?_eq_some_iff.mp hname
    rw [Minify.Kind.copy?,Minify.Kind.copy?,h _ (hZ k hk name short hshort)]
  unfold Site.finished
  split
  · exact hcopied _ (by simp [Minify.kinds]) (hcopied _ (by simp [Minify.kinds]) h)
  · exact h

namespace Site

section

variable (s s' : Site) (found found' : Disk) (Z : Location → Prop)

/-- Two locations with the same bytes whenever two sites agree off a region: they are outside of the
output directories and have the same bytes at the start, or they are one place in them off the region. -/
inductive LooksAlike (l l' : Location) : Prop
  | outside (hl : ¬ s.outputPlace <+: l) (hl' : ¬ s'.outputPlace <+: l')
      (hbytes : found.bytesAt? l = found'.bytesAt? l')
  | inside (r : Location) (hr : ¬ Z r) (hl : l = s.outputPlace ++ r) (hl' : l' = s'.outputPlace ++ r)

/-- Sheets with one place that give the same bytes where the two sites agree off a region. -/
structure Counterparts (p q : Sheet) : Prop where
  path : Path.names p.path = Path.names q.path
  text : p.text = q.text
  template : (p.template = none ∧ q.template = none) ∨ ∃ t t', p.template = some t ∧
    q.template = some t' ∧ s.LooksAlike s' found found' Z (Path.place t) (Path.place t')

/-- The sheets of two sites match off a region, in their order. -/
inductive Matched : List Sheet → List Sheet → Prop
  | nil : Matched [] []
  | left {p : Sheet} {ps qs : List Sheet} (hp : Z (Path.names p.path)) (h : Matched ps qs) :
      Matched (p :: ps) qs
  | right {q : Sheet} {ps qs : List Sheet} (hq : Z (Path.names q.path)) (h : Matched ps qs) :
      Matched ps (q :: qs)
  | both {p q : Sheet} {ps qs : List Sheet} (hpq : s.Counterparts s' found found' Z p q)
      (h : Matched ps qs) : Matched (p :: ps) (q :: qs)

end

variable {s s' : Site} {found found' : Disk} {Z : Location → Prop}

theorem LooksAlike.lookIn_eq {l l' : Location} (h : s.LooksAlike s' found found' Z l l')
    {pages pages' : Pages}
    (hagree : (s.filesWith found pages).AgreeOff Z (s'.filesWith found' pages')) :
    s.lookIn found pages l = s'.lookIn found' pages' l' := by
  unfold lookIn
  cases h with
  | outside hl hl' hbytes => rw [if_neg hl,if_neg hl',hbytes]
  | inside r hr hl hl' =>
    subst hl hl'
    rw [if_pos (List.prefix_append _ r),if_pos (List.prefix_append _ r),List.drop_left,List.drop_left]
    exact hagree r hr

theorem Counterparts.bytes?_eq {p q : Sheet} (h : s.Counterparts s' found found' Z p q)
    {pages pages' : Pages}
    (hagree : (s.filesWith found pages).AgreeOff Z (s'.filesWith found' pages')) :
    p.bytes? (s.lookIn found pages) = q.bytes? (s'.lookIn found' pages') := by
  unfold Sheet.bytes?
  rcases h.template with ⟨hp,hq⟩ | ⟨t,t',hp,hq,halike⟩
  · rw [hp,hq,h.text]
  · simp only [hp,hq,halike.lookIn_eq hagree,h.text]

/-! ### Templates of a blog -/

/-- The templates of a theme, in its directory. -/
def themeFiles : List String := ["/blog-list.html","/post.html"]

/-- Where a template of a blog is looked up. -/
def templatePlace (s : Site) (b : Blog) (file : String) : Location :=
  Path.place (s.templates.pathOf (String.ofList (s.themeName b).display ++ file))

theorem suffix_themeFile {file : String} (hfile : file ∈ themeFiles) (folder : String) :
    ".html".toList <:+ (folder ++ file).toList := by
  have hfixed : ∀ file ∈ themeFiles, ".html".toList <:+ file.toList := by decide
  rw [String.toList_append]
  exact (hfixed file hfile).trans (List.suffix_append _ _)

section Counterparts

variable {b : Blog} (h : ∀ file ∈ themeFiles,
  s.LooksAlike s' found found' Z (s.templatePlace b file) (s'.templatePlace b file))

include h

theorem counterparts_blogSheet (t : Theme) (posts : List Post) :
    s.Counterparts s' found found' Z (s.blogSheet t b posts) (s'.blogSheet t b posts) :=
  ⟨rfl,rfl,Or.inr ⟨_,_,rfl,rfl,h "/blog-list.html" (by decide)⟩⟩

theorem counterparts_postSheet (t : Theme) (at_ : PostPage.Place) :
    s.Counterparts s' found found' Z (s.postSheet t b at_) (s'.postSheet t b at_) :=
  ⟨rfl,rfl,Or.inr ⟨_,_,rfl,rfl,h "/post.html" (by decide)⟩⟩

end Counterparts

/-! ### Sheets that match -/

namespace Matched

theorem append {ps qs ps' qs' : List Sheet} (h : s.Matched s' found found' Z ps qs)
    (h' : s.Matched s' found found' Z ps' qs') : s.Matched s' found found' Z (ps ++ ps') (qs ++ qs') := by
  induction h with
  | nil => exact h'
  | left hp _ ih => exact .left hp ih
  | right hq _ ih => exact .right hq ih
  | both hpq _ ih => exact .both hpq ih

/-- Sheets in the region need no counterparts. -/
theorem lefts {ps : List Sheet} (h : ∀ p ∈ ps, Z (Path.names p.path)) :
    s.Matched s' found found' Z ps [] := by
  induction ps with
  | nil => exact .nil
  | cons p ps ih => exact .left (h p (by simp)) (ih fun q hq => h q (by simp [hq]))

theorem rights {qs : List Sheet} (h : ∀ q ∈ qs, Z (Path.names q.path)) :
    s.Matched s' found found' Z [] qs := by
  induction qs with
  | nil => exact .nil
  | cons q qs ih => exact .right (h q (by simp)) (ih fun p hp => h p (by simp [hp]))

theorem of_region {ps qs : List Sheet} (hp : ∀ p ∈ ps, Z (Path.names p.path))
    (hq : ∀ q ∈ qs, Z (Path.names q.path)) : s.Matched s' found found' Z ps qs := by
  simpa using (lefts hp).append (rights hq)

/-- Sheets with a counterpart each match. -/
theorem maps {α : Type} {xs : List α} {f g : α → Sheet}
    (h : ∀ x ∈ xs, s.Counterparts s' found found' Z (f x) (g x)) :
    s.Matched s' found found' Z (xs.map f) (xs.map g) := by
  induction xs with
  | nil => exact .nil
  | cons x xs ih => exact .both (h x (by simp)) (ih fun y hy => h y (by simp [hy]))

/-- The pages of a blog match where its templates look alike. -/
theorem blogSheets {b : Blog} (htheme : s.themeName b = s'.themeName b)
    (h : ∀ file ∈ themeFiles,
      s.LooksAlike s' found found' Z (s.templatePlace b file) (s'.templatePlace b file))
    (posts : List Post) : s.Matched s' found found' Z (s.blogSheets b posts) (s'.blogSheets b posts) := by
  unfold Site.blogSheets
  rw [htheme]
  exact .both (counterparts_blogSheet h _ _) (.maps fun at_ _ => counterparts_postSheet h _ at_)

theorem flatMap {α : Type} {xs : List α} {f g : α → List Sheet}
    (h : ∀ x ∈ xs, s.Matched s' found found' Z (f x) (g x)) :
    s.Matched s' found found' Z (xs.flatMap f) (xs.flatMap g) := by
  induction xs with
  | nil => exact .nil
  | cons x xs ih => exact (h x (by simp)).append (ih fun y hy => h y (by simp [hy]))

/-- Of the pages of some posts, one more post touches its own and those of its two neighbours. -/
theorem placesFrom {g : PostPage.Place → Sheet} (hg : ∀ at_, s.Counterparts s' found found' Z (g at_) (g at_))
    {before after : List Post} {p : Post} (hZ : ∀ at_ : PostPage.Place,
      at_.post ∈ before.getLast?.toList ++ p :: after.head?.toList → Z (Path.names (g at_).path))
    (newer : Option Post) :
    s.Matched s' found found' Z ((PostPage.placesFrom newer (before ++ after)).map g)
      ((PostPage.placesFrom newer (before ++ p :: after)).map g) := by
  induction before generalizing newer with
  | nil =>
    cases after with
    | nil => exact .right (hZ _ (by simp)) .nil
    | cons q qs =>
      refine .right (hZ _ (by simp)) (.left (hZ _ (by simp)) (.right (hZ _ (by simp)) ?_))
      exact .maps fun at_ _ => hg at_
  | cons q qs ih =>
    cases qs with
    | nil =>
      refine .left (hZ _ (by simp)) (.right (hZ _ (by simp)) (ih (fun at_ hat => hZ at_ ?_) _))
      simp only [List.getLast?_nil,Option.toList_none,List.nil_append] at hat
      simp [hat]
    | cons q' qs => exact .both (hg _) (ih hZ _)

/-- Pages that are made of sheets that match agree off the region. -/
theorem agreeOff {ps qs : List Sheet} (h : s.Matched s' found found' Z ps qs)
    {pages pages' result result' : Pages}
    (hagree : (s.filesWith found pages).AgreeOff Z (s'.filesWith found' pages'))
    (hp : s.pagesOf? found pages ps = some result) (hq : s'.pagesOf? found' pages' qs = some result') :
    (s.filesWith found result).AgreeOff Z (s'.filesWith found' result') := by
  induction h generalizing pages pages' with
  | nil =>
    obtain rfl := Option.some.inj hp
    obtain rfl := Option.some.inj hq
    exact hagree
  | left hz _ ih =>
    obtain ⟨bytes,-,hp⟩ := Option.bind_eq_some_iff.mp hp
    refine ih ?_ hp hq
    rw [filesWith_cons]
    exact hagree.left hz _
  | right hz _ ih =>
    obtain ⟨bytes,-,hq⟩ := Option.bind_eq_some_iff.mp hq
    refine ih ?_ hp hq
    rw [filesWith_cons]
    exact (hagree.symm.left hz _).symm
  | both hpq _ ih =>
    obtain ⟨bytes,hbytes,hp⟩ := Option.bind_eq_some_iff.mp hp
    obtain ⟨bytes',hbytes',hq⟩ := Option.bind_eq_some_iff.mp hq
    obtain rfl := Option.some.inj ((hbytes.symm.trans (hpq.bytes?_eq hagree)).trans hbytes')
    refine ih ?_ hp hq
    rw [filesWith_cons,filesWith_cons,hpq.path]
    exact hagree.update _ _

end Matched

end Site

end BlogSite
