import BlogSite.Proofs.LoadedContent
import BlogSite.Proofs.SiteCounts

/-!
What a list of blogs comes to. Each entry describes a blog, gives no slug, or has a planet that is given but
is no mapping. The first entry that describes no blog decides: without one there is a blog for each entry, an
entry without a slug is complained about with its position, and a planet of the wrong kind stops the loading
with a failure that is no complaint about the list.
-/

namespace BlogSite

/-! ### Values that are given -/

theorem Decimal.Layout.render_ne_nil (l : Layout) (d : Digits) : l.render d ≠ [] := by
  unfold render
  split
  · unfold Digits.positional
    split <;> simp
  · simp [Digits.scientific]

namespace Value

theorem floatText_ne_nil (x : Float) : floatText x ≠ [] := by
  unfold floatText
  simp only
  split
  · decide
  · split
    · simp
    · split
      · simp
      · simp [Decimal.Layout.render_ne_nil]

/-- A value inside another is always shown as something. -/
theorem inspect_ne_nil (v : Value) : v.inspect ≠ [] := by
  cases v with
  | null => simp [inspect]
  | bool b => cases b <;> simp [inspect,boolText]
  | int n => simp [inspect,intText,Nat.toDigits_ne_nil]
  | float x => simp [inspect,floatText_ne_nil]
  | str s => simp [inspect,Text.quoted]
  | bytes bs => simp [inspect,Text.quotedBytes]
  | date d => simp [inspect,dateText,callText]
  | moment m => simp [inspect,momentText,callText]
  | list items => simp [inspect]
  | tuple items =>
    rw [inspect]
    split <;> simp
  | map entries => simp [inspect]
  | set items =>
    rw [inspect]
    split <;> simp

/-- What counts as given is shown as something. -/
theorem display_ne_nil {v : Value} (h : v.truthy = true) : v.display ≠ [] := by
  cases v with
  | str s => simpa [display,truthy] using h
  | date d => simp [display,Calendar.Date.iso]
  | moment m => simp [display,Calendar.Moment.iso]
  | _ => exact inspect_ne_nil _

end Value

/-! ### Entries of a list of blogs -/

/-- The planet that a value describes. What does not count as given describes one without texts. -/
inductive Planet.Described : Value → Planet → Prop
  | absent {v : Value} (h : v.truthy = false) : Described v ⟨.str "",.str "",.str ""⟩
  | fields {es : Entries} (h : es ≠ []) :
    Described (.map es) ⟨es.fieldText "emoji",es.fieldText "nameJa",es.fieldText "name"⟩

/-- The blog that an entry describes: it has a slug that counts as given and a planet that can be read. -/
inductive Blog.Described : Value → Blog → Prop
  | entry {es : Entries} {slug : Value} {planet : Planet} (hslug : es.find? (.str "slug") = some slug)
    (hgiven : slug.truthy = true) (hplanet : Planet.Described (es.field "planet") planet) :
    Described (.map es)
      { slug := String.ofList slug.display, title := es.fieldText "title", desc := es.fieldText "desc"
        author := es.fieldText "author", theme := (es.field "theme").orElse .null, planet }

/-- An entry that gives no slug: it is no mapping, or its slug does not count as given. -/
def Value.LacksSlug (v : Value) : Prop := ∀ es : Entries, v = .map es → (es.field "slug").truthy = false

/-- An entry with a slug and a planet that is given but is no mapping. -/
def Value.HasOddPlanet (v : Value) : Prop :=
  ∃ es : Entries, v = .map es ∧ (es.field "slug").truthy = true ∧
    (es.field "planet").truthy = true ∧ ∀ fs, es.field "planet" ≠ .map fs

theorem Entries.find?_of_truthy {es : Entries} {key : String} (h : (es.field key).truthy = true) :
    ∃ v, es.find? (.str key) = some v ∧ v.truthy = true := by
  unfold field at h
  cases hv : es.find? (.str key) with
  | none => simp [hv,Value.truthy] at h
  | some v => exact ⟨v,rfl,by simpa [hv] using h⟩

theorem Planet.ofValue_eq_ok_iff {v : Value} {p : Planet} : ofValue v = .ok p ↔ Described v p := by
  unfold ofValue Value.orElse
  by_cases h : v.truthy = true
  · rw [if_pos h]
    constructor
    · intro hp
      cases v with
      | map es =>
        obtain rfl := Except.ok.inj hp
        exact .fields (by simpa [Value.truthy] using h)
      | _ => cases hp
    · rintro (h' | h')
      · exact absurd h (by simp [h'])
      · rfl
  · rw [if_neg h]
    constructor
    · intro hp
      obtain rfl := Except.ok.inj hp
      exact .absent (by simpa using h)
    · rintro (h' | h')
      · rfl
      · exact absurd (by simpa [Value.truthy] using h') h

theorem Planet.ofValue_of_odd {v : Value} (h : v.truthy = true) (hmap : ∀ es, v ≠ .map es) :
    ofValue v = .error .noFields := by
  unfold ofValue Value.orElse
  rw [if_pos h]
  cases v with
  | map es => exact absurd rfl (hmap es)
  | _ => rfl

/-- A described blog has a slug. -/
theorem Blog.Described.slug_ne {v : Value} {b : Blog} (h : Described v b) : b.slug ≠ "" := by
  obtain ⟨-,hgiven,-⟩ := h
  simpa [← String.toList_eq_nil_iff] using Value.display_ne_nil hgiven

/-- Every entry is of one of three kinds. -/
theorem Value.described_or (v : Value) : (∃ b, Blog.Described v b) ∨ v.LacksSlug ∨ v.HasOddPlanet := by
  by_cases hslug : ∃ es : Entries, v = .map es ∧ (es.field "slug").truthy = true
  · obtain ⟨es,rfl,hgiven⟩ := hslug
    obtain ⟨slug,hfind,htruthy⟩ := Entries.find?_of_truthy hgiven
    by_cases hodd : (es.field "planet").truthy = true ∧ ∀ fs, es.field "planet" ≠ .map fs
    · exact .inr (.inr ⟨es,rfl,hgiven,hodd⟩)
    · refine .inl ?_
      have hplanet : ∃ p, Planet.Described (es.field "planet") p := by
        by_cases ht : (es.field "planet").truthy = true
        · simp only [ht,true_and,not_forall,not_not] at hodd
          obtain ⟨fs,hfs⟩ := hodd
          rw [hfs] at ht ⊢
          exact ⟨_,.fields (by simpa [truthy] using ht)⟩
        · exact ⟨_,.absent (by simpa using ht)⟩
      obtain ⟨p,hp⟩ := hplanet
      exact ⟨_,.entry hfind htruthy hp⟩
  · refine .inr (.inl fun es hes => ?_)
    simpa using fun h => hslug ⟨es,hes,h⟩

namespace BlogList

variable {path text : String} {position : Nat} {v : Value} {vs before after : List Value}

/-! ### One entry -/

theorem ofItems_cons_of_described {b : Blog} (h : Blog.Described v b) :
    ofItems path position (v :: vs) = (ofItems path (position + 1) vs).map (b :: ·) := by
  cases h with
  | @entry es slug planet hslug hgiven hplanet =>
  have hfield : (es.field "slug").truthy = true := by simpa [Entries.field,hslug] using hgiven
  rw [ofItems,if_pos hfield,Blog.ofEntries,hslug]
  simp only [Planet.ofValue_eq_ok_iff.mpr hplanet,bind,Except.bind,pure,Except.pure]
  cases ofItems path (position + 1) vs <;> rfl

theorem ofItems_cons_of_lacksSlug (h : v.LacksSlug) :
    ofItems path position (v :: vs) = .error (.invalidBlogList (.noSlug path position)) := by
  cases v with
  | map es => simp [ofItems,h es rfl]
  | _ => rfl

theorem ofItems_cons_of_hasOddPlanet (h : v.HasOddPlanet) :
    ofItems path position (v :: vs) = .error .noFields := by
  obtain ⟨es,rfl,hgiven,hplanet,hmap⟩ := h
  obtain ⟨slug,hfind,-⟩ := Entries.find?_of_truthy hgiven
  rw [ofItems,if_pos hgiven,Blog.ofEntries,hfind]
  simp only [Planet.ofValue_of_odd hplanet hmap,bind,Except.bind]

/-! ### The first entry that describes no blog -/

/-- Entries that describe blogs come before what the rest of the list comes to. -/
theorem ofItems_append (path : String) (vs : List Value) (h : ∀ u ∈ before, ∃ b, Blog.Described u b) :
    ∃ blogs, List.Forall₂ Blog.Described before blogs ∧ ∀ position, ofItems path position (before ++ vs) =
      (ofItems path (position + before.length) vs).map (blogs ++ ·) := by
  induction before with
  | nil =>
    refine ⟨[],.nil,fun position => ?_⟩
    simp only [List.nil_append,List.length_nil,Nat.add_zero]
    cases ofItems path position vs <;> rfl
  | cons u before ih =>
    obtain ⟨b,hb⟩ := h u (by simp)
    obtain ⟨blogs,hblogs,hrest⟩ := ih fun x hx => h x (by simp [hx])
    refine ⟨b :: blogs,.cons hb hblogs,fun position => ?_⟩
    rw [List.cons_append,ofItems_cons_of_described hb,hrest,List.length_cons,Nat.add_right_comm,
      Nat.add_assoc]
    cases ofItems path (position + (before.length + 1)) vs <;> rfl

/-- A list describes its blogs, or some first entry of it describes none. -/
theorem described_or_exists (vs : List Value) : (∀ u ∈ vs, ∃ b, Blog.Described u b) ∨
    ∃ before v after, vs = before ++ v :: after ∧ (∀ u ∈ before, ∃ b, Blog.Described u b) ∧
      (v.LacksSlug ∨ v.HasOddPlanet) := by
  induction vs with
  | nil => exact .inl (by simp)
  | cons u vs ih =>
    rcases u.described_or with hu | hu
    · rcases ih with hall | ⟨before,v,after,rfl,hbefore,hv⟩
      · exact .inl (by simpa using ⟨hu,hall⟩)
      · exact .inr ⟨u :: before,v,after,rfl,by simpa using ⟨hu,hbefore⟩,hv⟩
    · exact .inr ⟨[],u,vs,rfl,by simp,hu⟩

/-! ### The whole list -/

/-- The text is a list in which the first entry that describes no blog has a planet of the wrong kind. -/
def MeetsOddPlanet (text : String) : Prop :=
  ∃ before v after, Json.read text = .ok (.list (before ++ v :: after)) ∧
    (∀ u ∈ before, ∃ b, Blog.Described u b) ∧ v.HasOddPlanet

/-- `Settled path text r`: the outcome `r` is a blog for each entry of the text, in order and each with a slug,
or a complaint about the list. -/
inductive Settled (path text : String) : Except Failure (List Blog) → Prop
  | listed {vs : List Value} {blogs : List Blog} (hread : Json.read text = .ok (.list vs))
    (hblogs : List.Forall₂ (fun v b => Blog.Described v b ∧ b.slug ≠ "") vs blogs) :
    Settled path text (.ok blogs)
  | notJson (hread : Json.read text = .error .malformed) :
    Settled path text (.error (.invalidBlogList (.notJson path)))
  | notList {v : Value} (hread : Json.read text = .ok v) (hlist : ∀ vs, v ≠ .list vs) :
    Settled path text (.error (.invalidBlogList (.notList path)))
  | noSlug {before after : List Value} {v : Value}
    (hread : Json.read text = .ok (.list (before ++ v :: after)))
    (hbefore : ∀ u ∈ before, ∃ b, Blog.Described u b) (hv : v.LacksSlug) :
    Settled path text (.error (.invalidBlogList (.noSlug path (before.length + 1))))

theorem ofText_of_tooLong (h : Json.read text = .error .tooLong) : ofText path text = .error .badValue := by
  rw [ofText,h]

theorem ofText_of_meetsOddPlanet (h : MeetsOddPlanet text) : ofText path text = .error .noFields := by
  obtain ⟨before,v,after,hread,hbefore,hv⟩ := h
  obtain ⟨blogs,-,hrest⟩ := ofItems_append path (v :: after) hbefore
  rw [ofText,hread]
  simp only [hrest,ofItems_cons_of_hasOddPlanet hv]
  rfl

theorem settled_ofText (hlong : Json.read text ≠ .error .tooLong) (hodd : ¬ MeetsOddPlanet text) :
    Settled path text (ofText path text) := by
  unfold ofText
  cases hread : Json.read text with
  | error fault =>
    cases fault with
    | malformed => exact .notJson hread
    | tooLong => exact absurd hread hlong
  | ok v =>
    cases v with
    | list vs =>
      rcases described_or_exists vs with hall | ⟨before,v,after,rfl,hbefore,hv⟩
      · obtain ⟨blogs,hblogs,hrest⟩ := ofItems_append path [] hall
        have hitems : ofItems path 1 vs = .ok blogs := by simpa [ofItems,Except.map] using hrest 1
        simp only [hitems]
        exact .listed hread (hblogs.imp fun _ _ h => ⟨h,h.slug_ne⟩)
      · obtain ⟨blogs,-,hrest⟩ := ofItems_append path (v :: after) hbefore
        have hv' := hv.resolve_right fun h => hodd ⟨before,v,after,hread,hbefore,h⟩
        simp only [hrest,ofItems_cons_of_lacksSlug hv']
        rw [Nat.add_comm]
        exact .noSlug hread hbefore hv'
    | _ => exact .notList hread (by simp)

/-- Loading a list of blogs that can be read as a text leaves the world as it is. It gives a blog for each entry,
in order and each with a slug, or complains about the list, exactly when the text has no number that is too
long and the first entry that describes no blog does not have a planet of the wrong kind. In these two cases it
fails with a bare failure instead. -/
theorem load_settled_iff {w : World} (h : w.disk.textAt path = .ok text) :
    ∃ r, (load path).go w = (r,w) ∧
      (Settled path text r ↔ Json.read text ≠ .error .tooLong ∧ ¬ MeetsOddPlanet text) ∧
      (Json.read text = .error .tooLong → r = .error .badValue) ∧
      (MeetsOddPlanet text → r = .error .noFields) := by
  refine ⟨ofText path text,?_,⟨fun hsettled => ⟨fun hlong => ?_,fun hodd => ?_⟩,fun hok => ?_⟩,
    ofText_of_tooLong,ofText_of_meetsOddPlanet⟩
  · unfold load
    rw [Run.go_bind,Run.go_ask]
    simp only [Disk.isThere_of_textAt h]
    rw [if_pos trivial,Run.go_bind,Run.go_readText,h]
    simp
  · rw [ofText_of_tooLong hlong] at hsettled
    cases hsettled
  · rw [ofText_of_meetsOddPlanet hodd] at hsettled
    cases hsettled
  · exact settled_ofText hok.1 hok.2

/-- A world with a list of blogs alone. -/
def listWorld (list : String) : World := { disk := Disk.empty.put ["blogs.json"] (.file list.toUTF8) }

/-- A list of one blog that has no planet. -/
def plainList : String := "[\x7b\"slug\":\"a\"\x7d]"

theorem load_settled_iff_plain : (listWorld plainList).disk.textAt "/blogs.json" = .ok plainList ∧
    ∃ r, (load "/blogs.json").go (listWorld plainList) = (r,listWorld plainList) ∧ r.isOk = true ∧
      Settled "/blogs.json" plainList r := by
  have htext : (listWorld plainList).disk.textAt "/blogs.json" = .ok plainList := by decide +kernel
  have hrun : ((load "/blogs.json").go (listWorld plainList)).1.isOk = true := by decide +kernel
  obtain ⟨r,hgo,hsettled,hlong,hodd⟩ := load_settled_iff htext
  have hok : r.isOk = true := by rwa [hgo] at hrun
  refine ⟨htext,r,hgo,hok,hsettled.mpr ⟨fun h => ?_,fun h => ?_⟩⟩
  · rw [hlong h] at hok
    cases hok
  · rw [hodd h] at hok
    cases hok

/-- A list of one blog, with a text for its planet. -/
def oddPlanetList : String := "[\x7b\"slug\":\"a\",\"planet\":\"x\"\x7d]"

/-- Its file is a text that holds a list, and loading it is stopped by a failure that is no complaint about it. -/
theorem load_oddPlanetList :
    (listWorld oddPlanetList).disk.textAt "/blogs.json" = .ok oddPlanetList ∧
    (Json.read oddPlanetList).isOk = true ∧
    (((load "/blogs.json").go (listWorld oddPlanetList)).1.map List.length) = .error .noFields := by
  decide +kernel

end BlogList

end BlogSite
