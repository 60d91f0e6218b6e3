import BlogSite.Html.Fragment
import Mathlib.Data.List.Basic

/-!
Reading a page back. A reader goes from left to right through content and tags and takes the values
of attributes from between their quotation marks. Texts that are escaped neither begin a tag nor end
a value, and are read as they were.
-/

namespace BlogSite.Html

/-! ### Entities -/

/-- The characters that entities stand for, in one pass from left to right. -/
def unescape : List Char → List Char
  | '&' :: 'a' :: 'm' :: 'p' :: ';' :: s => '&' :: unescape s
  | '&' :: 'l' :: 't' :: ';' :: s => '<' :: unescape s
  | '&' :: 'g' :: 't' :: ';' :: s => '>' :: unescape s
  | '&' :: 'q' :: 'u' :: 'o' :: 't' :: ';' :: s => '"' :: unescape s
  | c :: s => c :: unescape s
  | [] => []

/-- What stands for a character in an escaped text. -/
def written (c : Char) : List Char :=
  if c = '&' then "&amp;".toList else if c = '<' then "&lt;".toList
  else if c = '>' then "&gt;".toList else if c = '"' then "&quot;".toList else [c]

theorem written_of_notMem {c : Char} (h : c ∉ ['&','<','>','"']) : written c = [c] := by
  simp only [List.mem_cons,List.not_mem_nil,or_false,not_or] at h
  simp only [written,h,if_false]

theorem escape_cons (c : Char) (s : List Char) : escape (c :: s) = written c ++ escape s := by
  have hone : escape [c] = written c := by
    by_cases hc : c ∈ ['&','<','>','"']
    · simp only [List.mem_cons,List.not_mem_nil,or_false] at hc
      rcases hc with rfl | rfl | rfl | rfl <;> rfl
    · rw [written_of_notMem hc]
      simp only [List.mem_cons,List.not_mem_nil,or_false,not_or] at hc
      simp [escape,entities,replace,hc]
  rw [← List.singleton_append,escape_append,hone]

theorem unescape_written_append (c : Char) (s : List Char) :
    unescape (written c ++ s) = c :: unescape s := by
  by_cases hc : c ∈ ['&','<','>','"']
  · simp only [List.mem_cons,List.not_mem_nil,or_false] at hc
    rcases hc with rfl | rfl | rfl | rfl <;> rfl
  · rw [written_of_notMem hc,List.singleton_append]
    simp only [List.mem_cons,List.not_mem_nil,or_false,not_or] at hc
    rw [unescape] <;> simp [hc]

theorem unescape_escape_append (s t : List Char) : unescape (escape s ++ t) = s ++ unescape t := by
  induction s with
  | nil => rfl
  | cons c s ih => rw [escape_cons,List.append_assoc,unescape_written_append,ih,List.cons_append]

/-- An escaped text is read as it was. -/
theorem unescape_escape (s : List Char) : unescape (escape s) = s := by
  simpa [unescape] using unescape_escape_append s []

theorem unescape_cons {c : Char} (h : c ≠ '&') (s : List Char) : unescape (c :: s) = c :: unescape s := by
  rw [unescape] <;> simp [h]

theorem notMem_written {c : Char} (hc : c ∈ ['<','>','"']) (x : Char) : c ∉ written x := by
  by_cases hx : x ∈ ['&','<','>','"']
  · simp only [List.mem_cons,List.not_mem_nil,or_false] at hc hx
    rcases hx with rfl | rfl | rfl | rfl <;> rcases hc with rfl | rfl | rfl <;> decide
  · rw [written_of_notMem hx,List.mem_singleton]
    rintro rfl
    exact hx (List.mem_cons_of_mem _ hc)

theorem notMem_escape {c : Char} (hc : c ∈ ['<','>','"']) (s : List Char) : c ∉ escape s := by
  induction s with
  | nil => simp
  | cons x s ih => simp [escape_cons,notMem_written hc,ih]

/-! ### Attributes -/

/-- Where a reader is on a page. -/
inductive Place where
  | content
  /-- In a tag, with the characters since the last blank. -/
  | tag (word : List Char)
  /-- In the value of an attribute, with the characters since its quotation mark. -/
  | value (name value : List Char)
deriving DecidableEq

/-- Where a reader is after one more character. -/
def Place.next : Place → Char → Place
  | .content, c => if c = '<' then .tag [] else .content
  | .tag word, c =>
    if c = '>' then .content
    else if c = '"' then .value word []
    else if c = ' ' then .tag []
    else if c = '=' then .tag word
    else .tag (word ++ [c])
  | .value name v, c => if c = '"' then .tag [] else .value name (v ++ [c])

/-- Where a reader is after some characters. -/
def Place.after (p : Place) (s : List Char) : Place := s.foldl next p

/-- The value of an attribute of a name, if a character ends one. -/
def Place.ended (wanted : List Char) : Place → Char → List (List Char)
  | .value name v, c => if c = '"' ∧ name = wanted then [v] else []
  | _, _ => []

/-- The values of the attributes of a name that end while some characters are read. -/
def Place.values (wanted : List Char) : Place → List Char → List (List Char)
  | _, [] => []
  | p, c :: s => p.ended wanted c ++ values wanted (p.next c) s

/-- The name of the attribute whose value a character ends, if it ends one. -/
def Place.endedName : Place → Char → List (List Char)
  | .value name _, c => if c = '"' then [name] else []
  | _, _ => []

/-- The names of the attributes whose values end while some characters are read. -/
def Place.names : Place → List Char → List (List Char)
  | _, [] => []
  | p, c :: s => p.endedName c ++ names (p.next c) s

/-- The values of the attributes of a name on a page, in their order. -/
def attributeValues (name page : String) : List String :=
  (Place.values name.toList .content page.toList).map fun v => String.ofList (unescape v)

namespace Place

variable (wanted : List Char)

@[simp] theorem after_append (p : Place) (s t : List Char) : p.after (s ++ t) = (p.after s).after t := by
  simp [after]

@[simp] theorem values_append (p : Place) (s t : List Char) :
    p.values wanted (s ++ t) = p.values wanted s ++ (p.after s).values wanted t := by
  induction s generalizing p with
  | nil => rfl
  | cons c s ih => simp [values,ih,after]

/-- An attribute that does not end has no values. -/
theorem values_eq_nil {wanted : List Char} {p : Place} {s : List Char} (h : wanted ∉ p.names s) :
    p.values wanted s = [] := by
  induction s generalizing p with
  | nil => rfl
  | cons c s ih =>
    rw [names,List.mem_append,not_or] at h
    have hended : p.ended wanted c = [] := by
      cases p with
      | content => rfl
      | tag word => rfl
      | value name v =>
        rw [ended,if_neg]
        rintro ⟨hc,rfl⟩
        exact h.1 (by simp [endedName,hc])
    rw [values,hended,ih h.2,List.nil_append]

end Place

/-- Reading some characters leads from a place to another and gives the values of the attributes of
a name. -/
structure Place.Reads (wanted : List Char) (p : Place) (s : List Char) (vs : List (List Char))
    (q : Place) : Prop where
  after : p.after s = q
  values : p.values wanted s = vs

instance (wanted : List Char) (p : Place) (s : List Char) (vs : List (List Char)) (q : Place) :
    Decidable (p.Reads wanted s vs q) :=
  decidable_of_iff (p.after s = q ∧ p.values wanted s = vs) ⟨fun h => ⟨h.1,h.2⟩,fun h => ⟨h.1,h.2⟩⟩

namespace Place.Reads

variable {wanted name v s t : List Char} {p q r : Place} {vs ws : List (List Char)}

theorem append (hs : p.Reads wanted s vs q) (ht : q.Reads wanted t ws r) :
    p.Reads wanted (s ++ t) (vs ++ ws) r := by
  constructor
  · rw [after_append,hs.after,ht.after]
  · rw [values_append,hs.after,hs.values,ht.values]

/-- Characters that do not begin a tag are passed over in content. -/
theorem content (h : '<' ∉ s) : Place.content.Reads wanted s [] .content := by
  induction s with
  | nil => exact ⟨rfl,rfl⟩
  | cons c s ih =>
    simp only [List.mem_cons,not_or] at h
    have hnext : Place.content.next c = .content := if_neg (Ne.symm h.1)
    obtain ⟨hafter,hvalues⟩ := ih h.2
    refine ⟨?_,?_⟩
    · simpa [Place.after,hnext] using hafter
    · simpa [Place.values,ended,hnext] using hvalues

/-- Characters that do not end a value go on with it. -/
theorem value (h : '"' ∉ s) : (Place.value name v).Reads wanted s [] (.value name (v ++ s)) := by
  induction s generalizing v with
  | nil => exact ⟨by simp [Place.after],rfl⟩
  | cons c s ih =>
    simp only [List.mem_cons,not_or] at h
    have hnext : (Place.value name v).next c = .value name (v ++ [c]) := if_neg (Ne.symm h.1)
    obtain ⟨hafter,hvalues⟩ := ih (v := v ++ [c]) h.2
    refine ⟨?_,?_⟩
    · simpa [Place.after,hnext] using hafter
    · simpa [Place.values,ended,hnext,Ne.symm h.1] using hvalues

/-- A value of another attribute is passed over. -/
theorem close (h : (Place.tag []).Reads wanted s vs q) (hname : name ≠ wanted) :
    (Place.value name v).Reads wanted ('"' :: s) vs q := by
  constructor
  · simpa [Place.after,next] using h.after
  · simpa [Place.values,ended,next,hname] using h.values

/-- A value of the attribute is taken. -/
theorem take (h : (Place.tag []).Reads wanted s vs q) :
    (Place.value wanted v).Reads wanted ('"' :: s) (v :: vs) q := by
  constructor
  · simpa [Place.after,next] using h.after
  · simpa [Place.values,ended,next] using h.values

end Place.Reads

/-! ### Fragments -/

/-- A fragment between two contents, with the values of the attributes of a name in it. -/
def Fragment.Reads (wanted : List Char) (f : Fragment) (vs : List (List Char)) : Prop :=
  Place.content.Reads wanted (f.flatMap Fragment.chars) vs .content

namespace Fragment.Reads

variable {wanted : List Char} {f g : Fragment} {vs ws : List (List Char)}

theorem nil : Reads wanted [] [] := ⟨rfl,rfl⟩

theorem append (hf : Reads wanted f vs) (hg : Reads wanted g ws) :
    Reads wanted (f ++ g) (vs ++ ws) := by
  unfold Reads
  rw [List.flatMap_append]
  exact Place.Reads.append hf hg

theorem markup {s : String} (h : Place.content.Reads wanted s.toList vs .content) :
    Reads wanted [.markup s] vs := by
  unfold Reads
  simpa [chars] using h

/-- A text in content has no attributes. -/
theorem text (s : String) : Reads wanted [.text s] [] := by
  have hnone : '<' ∉ escape s.toList := notMem_escape (by decide) s.toList
  unfold Reads
  simpa [chars] using Place.Reads.content hnone

/-- What holds no attribute adds none. -/
theorem and (hf : Reads wanted f vs) (hg : Reads wanted g []) : Reads wanted (f ++ g) vs := by
  simpa using hf.append hg

theorem cons {x : Piece} (hx : Reads wanted [x] []) (hf : Reads wanted f []) :
    Reads wanted (x :: f) [] :=
  hx.append hf

theorem flatMap {α : Type} {xs : List α} {piece : α → Fragment} {values : α → List (List Char)}
    (h : ∀ x ∈ xs, Reads wanted (piece x) (values x)) :
    Reads wanted (xs.flatMap piece) (xs.flatMap values) := by
  induction xs with
  | nil => exact nil
  | cons x xs ih => exact (h x (by simp)).append (ih fun y hy => h y (by simp [hy]))

/-- A separator without the attribute between fragments adds nothing to them. -/
theorem join {α : Type} {sep : String} (hsep : Reads wanted [.markup sep] []) {xs : List α}
    {piece : α → Fragment} {v : α → List Char} (h : ∀ x ∈ xs, Reads wanted (piece x) [v x]) :
    Reads wanted (Fragment.join sep (xs.map piece)) (xs.map v) := by
  induction xs with
  | nil => exact nil
  | cons x xs ih =>
    have hx := h x (by simp)
    have hrest := ih fun y hy => h y (by simp [hy])
    cases xs with
    | nil => exact hx
    | cons y ys => exact hx.append (hsep.append hrest)

/-- The values on a page are those of the fragment that it shows. -/
theorem attributeValues {α : Type} {xs : List α} {v : α → String}
    (h : Reads wanted f (xs.map fun x => escape (v x).toList)) :
    attributeValues (String.ofList wanted) f.render = xs.map v := by
  simp [Html.attributeValues,Place.Reads.values h,unescape_escape]

end Fragment.Reads

end BlogSite.Html
