import BlogSite.Proofs.PathPlaces
import BlogSite.Text.Digit
import Mathlib.Algebra.GroupWithZero.Nat
import Mathlib.Algebra.Order.BigOperators.Group.List
import Mathlib.Algebra.Order.Group.Nat
import Mathlib.Data.List.TakeWhile

/-!
Links as addresses. A relative address ends its path at a question mark or a number sign, may begin with a
scheme, and writes any byte as a percent sign with two hexadecimal digits; its names are followed from the
directory of the page it stands on. A path that is put into a link as it is comes out of this reading as
itself only where none of these has a meaning in it.
-/

namespace BlogSite.Url

open Text

/-! ### Addresses -/

/-- A name in a path, by its bytes. -/
abbrev Name := List UInt8

def bytes (s : List Char) : Name := s.flatMap String.utf8EncodeChar

/-- The names of a path. -/
def names (s : List Char) : List Name := (splitOn '/' s).map bytes

def isLetter (c : Char) : Bool := ('a' ≤ c && c ≤ 'z') || ('A' ≤ c && c ≤ 'Z')

def isSchemeChar (c : Char) : Bool := isLetter c || isAsciiDigit c || c ∈ ['+','-','.']

/-- Whether an address begins with a scheme: a letter, then letters, digits and signs up to a colon. -/
def hasScheme : List Char → Bool
  | [] => false
  | c :: s => isLetter c && (s.dropWhile isSchemeChar).head? = some ':'

/-- The path of an address, without a query and a fragment. -/
def path (s : List Char) : List Char := s.takeWhile fun c => c ∉ ['?','#']

/-- The byte that two digits after a percent sign stand for. -/
def octet? (a b : Char) : Option UInt8 := do
  return UInt8.ofNat (16 * (← hexValue? a) + (← hexValue? b))

/-- A name with its escapes read. -/
def decode : List Char → Name
  | [] => []
  | '%' :: a :: b :: s =>
    match octet? a b with
    | some x => x :: decode s
    | none => String.utf8EncodeChar '%' ++ decode (a :: b :: s)
  | c :: s => String.utf8EncodeChar c ++ decode s

/-- Whether a name has an escape: a percent sign with two hexadecimal digits. -/
def hasEscape : List Char → Bool
  | [] => false
  | '%' :: a :: b :: s => (octet? a b).isSome || hasEscape (a :: b :: s)
  | _ :: s => hasEscape s

/-- Follows names from a directory. A dot stays and two dots lead up; at the end both leave an empty name. -/
def walk (at_ : List Name) : List Name → List Name
  | [] => at_
  | n :: ns =>
    if n = bytes ['.'] then (if ns = [] then at_ ++ [[]] else walk at_ ns)
    else if n = bytes ['.','.'] then (if ns = [] then at_.dropLast ++ [[]] else walk at_.dropLast ns)
    else walk (at_ ++ [n]) ns

/-- The path that an address on a page denotes. One with a scheme or with another host denotes none. -/
def resolve (page : List Name) (address : List Char) : Option (List Name) :=
  if hasScheme address then none
  else
    match path address with
    | [] => some page
    | '/' :: '/' :: _ => none
    | '/' :: s => some (walk [] ((splitOn '/' s).map decode))
    | s => some (walk page.dropLast ((splitOn '/' s).map decode))

/-- `Denotes page address target`: on a page, an address denotes the path of another one. -/
def Denotes (page address target : String) : Prop :=
  resolve (names page.toList) address.toList = some (names target.toList)

instance (page address target : String) : Decidable (Denotes page address target) :=
  inferInstanceAs (Decidable (_ = _))

example : Denotes "a/index.html" "./b%20c.html?d#e" "a/b c.html" := by decide

/-- A name that an address can hold as it is. -/
structure IsPlain (s : List Char) : Prop where
  noQuery : '?' ∉ s
  noFragment : '#' ∉ s
  noEscape : hasEscape s = false

/-! ### Bytes -/

variable {s t : List Char} {n : Name} {ns at_ page : List Name}

@[simp] theorem bytes_append (s t : List Char) : bytes (s ++ t) = bytes s ++ bytes t :=
  List.flatMap_append

theorem bytes_cons (c : Char) (s : List Char) : bytes (c :: s) = String.utf8EncodeChar c ++ bytes s := rfl

theorem length_utf8EncodeChar_pos (c : Char) : 0 < (String.utf8EncodeChar c).length := by
  rw [String.length_utf8EncodeChar]
  exact c.utf8Size_pos

theorem bytes_eq_nil_iff : bytes s = [] ↔ s = [] := by
  cases s with
  | nil => simp [bytes]
  | cons c s =>
    have hc := length_utf8EncodeChar_pos c
    simp only [bytes_cons,List.append_eq_nil_iff,reduceCtorEq,iff_false]
    rintro ⟨h,-⟩
    simp [h] at hc

/-- A text is known by its bytes. -/
theorem bytes_injective : Function.Injective bytes := by
  intro s t h
  have hbytes : (String.ofList s).toByteArray = (String.ofList t).toByteArray :=
    congrArg List.toByteArray h
  simpa using congrArg String.toList (String.toByteArray_inj.mp hbytes)

/-! ### Escapes -/

theorem decode_of_noEscape (h : hasEscape s = false) : decode s = bytes s := by
  fun_induction decode s with
  | case1 => rfl
  | case2 a b s x hx => simp [hasEscape,hx] at h
  | case3 a b s hx ih =>
    rw [hasEscape,hx] at h
    rw [ih (by simpa using h)]
    rfl
  | case4 c s hc ih =>
    rw [hasEscape] at h
    · rw [ih h]
      rfl
    · exact hc

/-- Reading escapes makes a name no longer, and shorter if it has one. -/
theorem length_decode (s : List Char) : (decode s).length ≤ (bytes s).length ∧
    (hasEscape s = true → (decode s).length < (bytes s).length) := by
  fun_induction decode s with
  | case1 => simp [hasEscape,bytes]
  | case2 a b s x hx ih =>
    have ha := length_utf8EncodeChar_pos a
    have hb := length_utf8EncodeChar_pos b
    have hpercent := length_utf8EncodeChar_pos '%'
    simp only [bytes_cons,List.length_cons,List.length_append]
    omega
  | case3 a b s hx ih =>
    rw [hasEscape,hx,bytes_cons]
    simpa using ih
  | case4 c s hc ih =>
    rw [hasEscape,bytes_cons]
    · simpa using ih
    · exact hc

theorem hasEscape_cons_of_ne {c : Char} (hc : c ≠ '%') (s : List Char) :
    hasEscape (c :: s) = hasEscape s := by
  rw [hasEscape]
  exact fun _ _ _ h => absurd h hc

/-- An escape does not reach beyond a character that is no digit of it. -/
theorem hasEscape_append {c : Char} (hc : hexValue? c = none) (s t : List Char) :
    hasEscape (s ++ c :: t) = (hasEscape s || hasEscape (c :: t)) := by
  fun_induction hasEscape s with
  | case1 => rfl
  | case2 a b s ih =>
    rw [Bool.or_assoc,← ih]
    rfl
  | case3 x s hx ih =>
    rw [← ih]
    by_cases hpercent : x = '%'
    · subst hpercent
      match s with
      | [] => cases t <;> simp [hasEscape,octet?,hc]
      | [a] => simp [hasEscape,octet?,hc]
      | a :: b :: s => exact absurd rfl (hx a b s rfl)
    · exact hasEscape_cons_of_ne hpercent _

/-! ### The length of a path -/

/-- The bytes of names, and one for each of them. -/
def weight (ns : List Name) : Nat := (ns.map fun n => n.length + 1).sum

@[simp] theorem weight_append (ms ns : List Name) : weight (ms ++ ns) = weight ms + weight ns := by
  simp [weight]

@[simp] theorem weight_cons (n : Name) (ns : List Name) :
    weight (n :: ns) = n.length + 1 + weight ns := by
  simp [weight]

@[simp] theorem weight_nil : weight [] = 0 := rfl

theorem weight_dropLast (ns : List Name) : weight ns.dropLast ≤ weight ns := by
  refine List.Sublist.sum_le_sum ((List.dropLast_sublist ns).map _) ?_
  simp

/-- Following names adds at most their length to a path. -/
theorem weight_walk (ns at_ : List Name) : weight (walk at_ ns) ≤ weight at_ + weight ns := by
  induction ns generalizing at_ with
  | nil => simp [walk]
  | cons n ns ih =>
    have hup := weight_dropLast at_
    have hstay := ih at_
    have hparent := ih at_.dropLast
    have hon := ih (at_ ++ [n])
    simp only [weight_append,weight_cons,weight_nil] at hon
    rw [walk,weight_cons]
    split
    · split
      · simp
        omega
      · omega
    · split
      · split
        · simp
          omega
        · omega
      · omega

/-- Names that are no dots are followed one by one. -/
theorem walk_of_proper (h : ∀ n ∈ ns, n ≠ bytes ['.'] ∧ n ≠ bytes ['.','.']) : walk at_ ns = at_ ++ ns := by
  induction ns generalizing at_ with
  | nil => simp [walk]
  | cons n ns ih =>
    obtain ⟨hn,hns⟩ := List.forall_mem_cons.mp h
    rw [walk,if_neg hn.1,if_neg hn.2,ih hns,List.append_assoc]
    rfl

/-- Each slash of a path counts as one byte. -/
theorem weight_names (s : List Char) : weight (names s) = (bytes s).length + 1 := by
  unfold names
  induction s with
  | nil => rfl
  | cons c s ih =>
    obtain ⟨p,ps,hs⟩ := List.exists_cons_of_ne_nil (splitOn_ne_nil '/' s)
    rw [splitOn]
    split
    · rename_i hc
      rw [List.map_cons,weight_cons,ih,hc,bytes_cons]
      have hslash : (String.utf8EncodeChar '/').length = 1 := rfl
      simp [bytes,hslash]
      omega
    · rw [hs] at ih ⊢
      simp only [List.map_cons,weight_cons,bytes_cons,List.length_append] at ih ⊢
      omega

theorem weight_decode (s : List Char) : weight ((splitOn '/' s).map decode) ≤ (bytes s).length + 1 ∧
    ((∃ n ∈ splitOn '/' s, hasEscape n = true) →
      weight ((splitOn '/' s).map decode) < (bytes s).length + 1) := by
  rw [← weight_names,names]
  unfold weight
  rw [List.map_map,List.map_map]
  have hle : ∀ n ∈ splitOn '/' s, (decode n).length + 1 ≤ (bytes n).length + 1 := fun n _ =>
    Nat.succ_le_succ (length_decode n).1
  refine ⟨List.sum_le_sum hle,fun ⟨n,hn,hescape⟩ => ?_⟩
  exact List.sum_lt_sum _ _ hle ⟨n,hn,Nat.succ_lt_succ ((length_decode n).2 hescape)⟩

/-! ### Paths as addresses -/

theorem path_eq_self_iff : path s = s ↔ '?' ∉ s ∧ '#' ∉ s := by
  rw [path,List.takeWhile_eq_self_iff]
  constructor
  · intro h
    exact ⟨fun hq => by simpa using h _ hq,fun hf => by simpa using h _ hf⟩
  · rintro ⟨hq,hf⟩ c hc
    have hne : c ≠ '?' ∧ c ≠ '#' := ⟨ne_of_mem_of_not_mem hc hq,ne_of_mem_of_not_mem hc hf⟩
    simpa using hne

/-- A path that is cut is shorter. -/
theorem path_eq_self (h : (bytes s).length ≤ (bytes (path s)).length) : path s = s := by
  have hsplit : path s ++ s.dropWhile (fun c => c ∉ ['?','#']) = s := List.takeWhile_append_dropWhile
  have hbytes := congrArg (fun t => (bytes t).length) hsplit
  simp only [bytes_append,List.length_append] at hbytes
  have hrest : bytes (s.dropWhile fun c => c ∉ ['?','#']) = [] :=
    List.eq_nil_of_length_eq_zero (by omega)
  rw [bytes_eq_nil_iff] at hrest
  rwa [hrest,List.append_nil] at hsplit

theorem resolve_of_path_eq {c : Char} (hc : c ≠ '/') (hscheme : hasScheme s = false)
    (hpath : path s = c :: t) :
    resolve page s = some (walk page.dropLast ((splitOn '/' (c :: t)).map decode)) := by
  rw [resolve,hscheme,hpath]
  split
  · contradiction
  · split
    · contradiction
    · rename_i h
      exact absurd (List.cons.inj h).1 hc
    · rename_i h
      exact absurd (List.cons.inj h).1 hc
    · rfl

/-- An address that leads on from the directory of its page denotes the path that it spells, just when it begins
with no scheme and each name in it is plain. -/
theorem resolve_eq_iff {c : Char} (hc : c ≠ '/')
    (hproper : ∀ n ∈ splitOn '/' (c :: s), n ≠ ['.'] ∧ n ≠ ['.','.'])
    (hother : page ≠ page.dropLast ++ names (c :: s)) :
    resolve page (c :: s) = some (page.dropLast ++ names (c :: s)) ↔
      hasScheme (c :: s) = false ∧ ∀ n ∈ splitOn '/' (c :: s), IsPlain n := by
  have hmem : ∀ x ∈ ['?','#'], (x ∈ c :: s ↔ ∃ n ∈ splitOn '/' (c :: s), x ∈ n) := fun x hx =>
    mem_iff_exists_splitOn (by rintro rfl; simp at hx) _
  constructor
  · intro h
    have hscheme : hasScheme (c :: s) = false := by
      by_contra hs
      rw [resolve,if_pos (by simpa using hs)] at h
      contradiction
    -- The path of the address is not empty, or it would lead to the page itself.
    have hpath : ∃ t, path (c :: s) = c :: t := by
      by_cases hend : c ∈ ['?','#']
      · have hnil : path (c :: s) = [] :=
          List.takeWhile_cons_of_neg (by simpa only [decide_eq_true_eq,not_not] using hend)
        rw [resolve,hscheme,hnil] at h
        exact absurd (Option.some.inj h) hother
      · exact ⟨_,List.takeWhile_cons_of_pos (by simpa using hend)⟩
    obtain ⟨t,ht⟩ := hpath
    rw [resolve_of_path_eq hc hscheme ht] at h
    -- What is cut off or read as an escape is missing in the length.
    have hweight := congrArg weight (Option.some.inj h)
    have hwalk := weight_walk ((splitOn '/' (c :: t)).map decode) page.dropLast
    have hdecode := weight_decode (c :: t)
    rw [weight_append,weight_names] at hweight
    have hwhole : path (c :: s) = c :: s := path_eq_self (by rw [ht]; omega)
    obtain rfl : t = s := (List.cons.inj (ht.symm.trans hwhole)).2
    obtain ⟨hquery,hfragment⟩ := path_eq_self_iff.mp hwhole
    refine ⟨hscheme,fun n hn => ⟨?_,?_,?_⟩⟩
    · exact fun hq => hquery ((hmem _ (by simp)).mpr ⟨n,hn,hq⟩)
    · exact fun hf => hfragment ((hmem _ (by simp)).mpr ⟨n,hn,hf⟩)
    · by_contra hescape
      have hshort := hdecode.2 ⟨n,hn,by simpa using hescape⟩
      omega
  · rintro ⟨hscheme,hplain⟩
    have hwhole : path (c :: s) = c :: s := by
      refine path_eq_self_iff.mpr ⟨fun hq => ?_,fun hf => ?_⟩
      · obtain ⟨n,hn,hq⟩ := (hmem _ (by simp)).mp hq
        exact (hplain n hn).noQuery hq
      · obtain ⟨n,hn,hf⟩ := (hmem _ (by simp)).mp hf
        exact (hplain n hn).noFragment hf
    have hnames : (splitOn '/' (c :: s)).map decode = names (c :: s) :=
      List.map_congr_left fun n hn => decode_of_noEscape (hplain n hn).noEscape
    rw [resolve_of_path_eq hc hscheme hwhole,hnames,walk_of_proper]
    intro n hn
    obtain ⟨m,hm,rfl⟩ := List.mem_map.mp hn
    exact ⟨bytes_injective.ne (hproper m hm).1,bytes_injective.ne (hproper m hm).2⟩

/-! ### Links to pages -/

theorem names_toList (p : String) : names p.toList = (Path.names p).map fun n => bytes n.toList := by
  rw [names,Path.names,List.map_map]
  exact List.map_congr_left fun n _ => by simp

theorem bytes_toList_injective : Function.Injective fun n : String => bytes n.toList :=
  fun _ _ h => String.toList_injective (bytes_injective h)

/-- A link that spells the way from the directory of one page to another page denotes that one, just when it
begins with no scheme and each name in it is plain. -/
theorem denotes_iff {page link target : String} (hsteps : ∀ n ∈ Path.names link, Path.IsStep n)
    (htarget : Path.names target = (Path.names page).dropLast ++ Path.names link)
    (hother : Path.names page ≠ Path.names target) :
    Denotes page link target ↔
      hasScheme link.toList = false ∧ ∀ n ∈ Path.names link, IsPlain n.toList := by
  have hnames : names target.toList = (names page.toList).dropLast ++ names link.toList := by
    simp only [names_toList,htarget,List.map_append,List.map_dropLast]
  have hother' : names page.toList ≠ (names page.toList).dropLast ++ names link.toList := by
    rw [← hnames,names_toList,names_toList]
    exact (List.map_injective_iff.mpr bytes_toList_injective).ne hother
  have hparts : ∀ P : List Char → Prop, (∀ n ∈ splitOn '/' link.toList, P n) ↔
      ∀ n ∈ Path.names link, P n.toList := by
    simp [Path.names]
  have habsolute := Path.not_isAbsolute_of_isStep hsteps
  rw [Denotes,hnames,← hparts]
  unfold Path.isAbsolute at habsolute
  cases hlink : link.toList with
  | nil =>
    have hempty : "" ∈ Path.names link := by simp [Path.names,hlink,splitOn]
    exact absurd rfl (hsteps _ hempty).ne_empty
  | cons c s =>
    rw [hlink] at habsolute hother'
    refine resolve_eq_iff (by simpa using habsolute) ?_ hother'
    rw [← hlink]
    refine (hparts fun n => n ≠ ['.'] ∧ n ≠ ['.','.']).mpr fun n hn => ⟨fun h => ?_,fun h => ?_⟩
    · exact (hsteps n hn).ne_dot (String.toList_injective h)
    · exact (hsteps n hn).ne_back (String.toList_injective h)

theorem isPlain_page_iff {slug : String} : IsPlain (slug ++ ".html").toList ↔ IsPlain slug.toList := by
  have hescape : hasEscape (slug ++ ".html").toList = hasEscape slug.toList := by
    have hall := hasEscape_append (c := '.') (by decide) slug.toList ['h','t','m','l']
    have hending : hasEscape ['.','h','t','m','l'] = false := by decide
    rw [hending,Bool.or_false] at hall
    simpa using hall
  constructor
  · rintro ⟨hquery,hfragment,h⟩
    exact ⟨by simpa using hquery,by simpa using hfragment,hescape ▸ h⟩
  · rintro ⟨hquery,hfragment,h⟩
    exact ⟨by simpa using hquery,by simpa using hfragment,hescape.trans h⟩

/-- The ending of a page makes no scheme. -/
theorem hasScheme_page (slug : String) : hasScheme (slug ++ ".html").toList = hasScheme slug.toList := by
  have hending : ".html".toList.dropWhile isSchemeChar = [] := by decide
  rw [String.toList_append]
  cases slug.toList with
  | nil => decide
  | cons c s =>
    simp only [List.cons_append,hasScheme,List.dropWhile_append,hending]
    cases s.dropWhile isSchemeChar with
    | nil => simp
    | cons d t => simp

end BlogSite.Url
