import BlogSite.Json.Reader
import BlogSite.Proofs.DiskLookup
import BlogSite.Proofs.TableRows
import Mathlib.Algebra.GroupWithZero.Nat
import Mathlib.Algebra.Order.BigOperators.Group.List
import Mathlib.Algebra.Order.Group.Nat

/-!
Reading an object that is written with texts in quotation marks. A text that holds no quotation mark, no
backslash and no control character is read as it is. A backslash is read as the begin of an escape: it makes the
text shorter or takes a quotation mark away. As every string that is read takes two quotation marks, one that is
taken away is missing in the end; so the members come out as they were written only where all texts are plain.
-/

namespace BlogSite.Json

open Text

/-- A text that is read as it is: it has no backslash and no control character. -/
def IsPlain (s : List Char) : Prop := ∀ c ∈ s, c ≠ '\\' ∧ 32 ≤ c.toNat

instance (s : List Char) : Decidable (IsPlain s) :=
  List.decidableBAll (fun c => c ≠ '\\' ∧ 32 ≤ c.toNat) s

/-- The number of quotation marks in a text. -/
def quotes (s : List Char) : Nat := s.count '"'

variable {s t u r rest cs : List Char} {fuel n : Nat} {v : Value} {vs : List Value} {c d : Char}

@[simp] theorem quotes_append (s t : List Char) : quotes (s ++ t) = quotes s + quotes t :=
  List.count_append

@[simp] theorem quotes_mark (s : List Char) : quotes ('"' :: s) = quotes s + 1 :=
  List.count_cons_self

theorem quotes_of_notMem (h : '"' ∉ s) : quotes s = 0 := List.count_eq_zero_of_not_mem h

theorem quotes_cons_of_ne (h : c ≠ '"') (s : List Char) : quotes (c :: s) = quotes s :=
  List.count_cons_of_ne h

theorem quotes_le (h : r <:+ s) : quotes r ≤ quotes s := h.sublist.count_le _

theorem quotes_skipBlanks (s : List Char) : quotes (skipBlanks s) ≤ quotes s :=
  quotes_le (List.dropWhile_suffix _)

/-! ### Strings -/

theorem unit?_eq_some (h : unit? s = some (n,r)) :
    ∃ u, s = u ++ r ∧ u.length = 4 ∧ '"' ∉ u := by
  unfold unit? at h
  split at h
  · rename_i a b c d r'
    simp only [Option.bind_eq_bind,Option.bind_eq_some_iff,Option.some.injEq,Prod.mk.injEq] at h
    obtain ⟨_,ha,_,hb,_,hc,_,hd,-,rfl⟩ := h
    refine ⟨[a,b,c,d],rfl,rfl,?_⟩
    have hmark : hexValue? '"' = none := by decide
    intro hmem
    simp only [List.mem_cons,List.not_mem_nil,or_false] at hmem
    rcases hmem with rfl | rfl | rfl | rfl <;> simp_all
  · contradiction

/-- A character that is written by its number takes no quotation mark. -/
theorem numbered?_eq_some (h : numbered? s = some (d,r)) : ∃ u, s = u ++ r ∧ u ≠ [] ∧ '"' ∉ u := by
  unfold numbered? at h
  simp only [Option.bind_eq_bind,Option.bind_eq_some_iff] at h
  obtain ⟨⟨high,r'⟩,hunit,h⟩ := h
  obtain ⟨u,rfl,hlength,hu⟩ := unit?_eq_some hunit
  have hne : u ≠ [] := by
    rintro rfl
    simp at hlength
  have halone : ∀ d', some (d',r') = some (d,r) → ∃ u', u ++ r' = u' ++ r ∧ u' ≠ [] ∧ '"' ∉ u' := by
    intro d' hd
    obtain ⟨-,rfl⟩ := Prod.mk.inj (Option.some.inj hd)
    exact ⟨u,rfl,hne,hu⟩
  simp only at h
  split at h
  · split at h
    · split at h
      · rename_i low r'' hpair
        obtain ⟨u',rfl,-,hu'⟩ := unit?_eq_some hpair
        split at h
        · obtain ⟨-,rfl⟩ := Prod.mk.inj (Option.some.inj h)
          exact ⟨u ++ '\\' :: 'u' :: u',by simp,by simp,by simp [hu,hu']⟩
        · exact halone _ h
      · exact halone _ h
    · exact halone _ h
  · exact halone _ h

/-- What a string is read from: its closing quotation mark, or a character or an escape and the rest. -/
theorem chars_cases (h : chars (fuel + 1) s = .ok (cs,r)) :
    (s = '"' :: r ∧ cs = []) ∨ ∃ u t d more, s = u ++ t ∧ chars fuel t = .ok (more,r) ∧ cs = d :: more ∧
      ((∃ c, u = [c] ∧ c ≠ '"' ∧ c ≠ '\\' ∧ 32 ≤ c.toNat) ∨
        ∃ w, u = '\\' :: w ∧ w ≠ [] ∧ ('"' ∉ w ∨ w = ['"'])) := by
  have hmore : ∀ t d, (do let p ← chars fuel t; .ok (d :: p.1,p.2)) = .ok (cs,r) →
      ∃ more, chars fuel t = .ok (more,r) ∧ cs = d :: more := by
    intro t d ht
    obtain ⟨⟨more,r'⟩,hchars,ht⟩ := exists_of_bind_eq_ok ht
    obtain ⟨rfl,rfl⟩ := Prod.mk.inj (Except.ok.inj ht)
    exact ⟨more,hchars,rfl⟩
  cases s with
  | nil => contradiction
  | cons c s =>
    rw [chars.eq_def] at h
    simp only at h
    split at h
    · rename_i hc
      obtain ⟨rfl,rfl⟩ := Prod.mk.inj (Except.ok.inj h)
      exact .inl ⟨by rw [hc],rfl⟩
    · rename_i hmark
      refine .inr ?_
      split at h
      · rename_i hc
        subst hc
        split at h
        · rename_i s'
          split at h
          · rename_i d t hnumber
            obtain ⟨u,rfl,-,hu⟩ := numbered?_eq_some hnumber
            obtain ⟨more,ht,hcs⟩ := hmore t d h
            exact ⟨'\\' :: 'u' :: u,t,d,more,rfl,ht,hcs,.inr ⟨'u' :: u,rfl,by simp,.inl (by simp [hu])⟩⟩
          · contradiction
        · rename_i e s' _
          split at h
          · rename_i d _
            obtain ⟨more,ht,hcs⟩ := hmore s' d h
            refine ⟨['\\',e],s',d,more,rfl,ht,hcs,.inr ⟨[e],rfl,by simp,?_⟩⟩
            by_cases he : e = '"'
            · exact .inr (by rw [he])
            · exact .inl (by simpa using Ne.symm he)
          · contradiction
        · contradiction
      · rename_i hback
        split at h
        · contradiction
        · rename_i hcontrol
          obtain ⟨more,ht,hcs⟩ := hmore s c h
          exact ⟨[c],s,c,more,rfl,ht,hcs,.inl ⟨c,rfl,hmark,hback,by omega⟩⟩

/-- A string that is read takes its closing quotation mark. -/
theorem quotes_chars (h : chars fuel s = .ok (cs,r)) : quotes r < quotes s := by
  induction fuel generalizing s cs with
  | zero => contradiction
  | succ fuel ih =>
    rcases chars_cases h with ⟨rfl,-⟩ | ⟨u,t,d,more,rfl,ht,-,-⟩
    · simp
    · have := ih ht
      rw [quotes_append]
      omega

theorem length_lt_append (s t : List Char) : s.length < (s ++ t).length + 1 := by
  rw [List.length_append]
  omega

theorem chars_of_plain (hs : IsPlain s) (hmark : '"' ∉ s) (hfuel : s.length < fuel) :
    chars fuel (s ++ '"' :: r) = .ok (s,r) := by
  induction s generalizing fuel with
  | nil =>
    obtain ⟨fuel,rfl⟩ := Nat.exists_eq_succ_of_ne_zero (Nat.ne_of_gt hfuel)
    rfl
  | cons c s ih =>
    obtain ⟨fuel,rfl⟩ := Nat.exists_eq_succ_of_ne_zero (Nat.ne_of_gt (Nat.zero_lt_of_lt hfuel))
    obtain ⟨hc,hs⟩ := List.forall_mem_cons.mp hs
    simp only [List.mem_cons,not_or] at hmark
    have hrest : chars fuel (s ++ '"' :: r) = .ok (s,r) := ih hs hmark.2 (by simpa using hfuel)
    rw [List.cons_append,chars.eq_def]
    simp only [if_neg (Ne.symm hmark.1),if_neg hc.1,if_neg (Nat.not_lt.mpr hc.2),hrest]
    rfl

theorem exists_of_append_mark (hu : '"' ∉ u) (h : s ++ '"' :: rest = u ++ t) :
    ∃ a, s = u ++ a ∧ t = a ++ '"' :: rest := by
  rcases List.append_eq_append_iff.mp h with ⟨a,rfl,hrest⟩ | ⟨a,rfl,ht⟩
  · cases a with
    | nil => exact ⟨[],by simp,hrest.symm⟩
    | cons x a =>
      obtain rfl : '"' = x := (List.cons.inj hrest).1
      simp at hu
  · exact ⟨a,rfl,ht⟩

/-- A text without quotation marks is read up to the one after it, and as it is only if it is plain; or this
mark is taken away by a backslash. -/
theorem chars_of_noMark (hmark : '"' ∉ s) (h : chars fuel (s ++ '"' :: rest) = .ok (cs,r)) :
    (r = rest ∧ cs.length ≤ s.length ∧ (cs.length = s.length → IsPlain s)) ∨ quotes r < quotes rest := by
  induction fuel generalizing s cs with
  | zero => contradiction
  | succ fuel ih =>
    rcases chars_cases h with ⟨hend,rfl⟩ | ⟨u,t,d,more,hsplit,ht,rfl,hu⟩
    · cases s with
      | nil =>
        obtain rfl : rest = r := (List.cons.inj hend).2
        exact .inl ⟨rfl,le_rfl,fun _ => by simp [IsPlain]⟩
      | cons c s =>
        obtain rfl : c = '"' := (List.cons.inj hend).1
        simp at hmark
    · rcases hu with ⟨c,rfl,hc,hback,hcontrol⟩ | ⟨w,rfl,hne,hw | rfl⟩
      · obtain ⟨a,rfl,rfl⟩ := exists_of_append_mark (by simpa using Ne.symm hc) hsplit
        have ha : '"' ∉ a := fun h => hmark (by simp [h])
        rcases ih ha ht with ⟨rfl,hle,hplain⟩ | hshort
        · refine .inl ⟨rfl,by simpa using hle,fun hlen => ?_⟩
          exact List.forall_mem_cons.mpr ⟨⟨hback,hcontrol⟩,hplain (by simpa using hlen)⟩
        · exact .inr hshort
      · obtain ⟨a,rfl,rfl⟩ := exists_of_append_mark (by simpa using hw) hsplit
        have ha : '"' ∉ a := fun h => hmark (by simp [h])
        rcases ih ha ht with ⟨rfl,hle,-⟩ | hshort
        · have hpos := List.length_pos_iff.mpr hne
          have hless : (d :: more).length < ('\\' :: w ++ a).length := by
            simp only [List.length_cons,List.length_append]
            omega
          exact .inl ⟨rfl,hless.le,fun hlen => absurd hlen hless.ne⟩
        · exact .inr hshort
      · -- The backslash is the last character of the text, and what is read goes on behind the mark.
        match s with
        | [] => exact absurd (List.cons.inj hsplit).1 (by decide)
        | [x] =>
          obtain rfl : rest = t := (List.cons.inj (List.cons.inj hsplit).2).2
          exact .inr (quotes_chars ht)
        | x :: y :: s =>
          obtain rfl : y = '"' := (List.cons.inj (List.cons.inj hsplit).2).1
          simp at hmark

/-! ### Numbers and words -/

theorem after?_suffix {word : String} (h : after? word s = some r) : r <:+ s := by
  unfold after? at h
  split at h
  · exact Option.some.inj h ▸ List.drop_suffix _ _
  · contradiction

theorem word?_eq_some (h : word? s = some (v,r)) : r <:+ s ∧ v ∈ words.map Prod.snd := by
  obtain ⟨w,hw,hafter⟩ := List.exists_of_findSome?_eq_some h
  obtain ⟨r',hr,hpair⟩ := Option.map_eq_some_iff.mp hafter
  obtain ⟨rfl,rfl⟩ := Prod.mk.inj hpair
  exact ⟨after?_suffix hr,List.mem_map_of_mem hw⟩

theorem whole_suffix (s : List Char) : (whole s).2 <:+ s := by
  unfold whole
  split
  · exact List.suffix_cons _ _
  · exact List.dropWhile_suffix _

theorem fraction_suffix (s : List Char) : (fraction s).2 <:+ s := by
  unfold fraction
  split
  · simp only
    split
    · exact List.suffix_rfl
    · exact (List.drop_suffix _ _).trans (List.suffix_cons _ _)
  · exact List.suffix_rfl

theorem sign_suffix (s : List Char) : (Decimal.sign s).2 <:+ s := by
  unfold Decimal.sign
  split
  · exact List.suffix_cons _ _
  · exact List.suffix_cons _ _
  · exact List.suffix_rfl

theorem exponent?_suffix {e : Int} (h : exponent? s = some (e,r)) : r <:+ s := by
  unfold exponent? at h
  split at h
  · rename_i c r'
    split at h
    · simp only at h
      split at h
      · contradiction
      · obtain ⟨-,rfl⟩ := Prod.mk.inj (Option.some.inj h)
        exact (List.drop_suffix _ _).trans ((sign_suffix r').trans (List.suffix_cons _ _))
    · contradiction
  · contradiction

/-- A number is no text and no array. -/
theorem number_eq_ok (h : number s = .ok (v,r)) :
    r <:+ s ∧ ((∃ n, v = .int n) ∨ ∃ x, v = .float x) := by
  unfold number at h
  split at h
  rename_i negative u hu
  split at h
  rename_i ds r₁ hwhole
  split at h
  · contradiction
  split at h
  rename_i part r₂ hpart
  have hu' : u <:+ s := by
    split at hu
    · exact (Prod.mk.inj hu).2 ▸ List.suffix_cons _ _
    · exact (Prod.mk.inj hu).2 ▸ List.suffix_rfl
  have hpart' : r₂ <:+ s := by
    have hfraction := fraction_suffix r₁
    have hwhole' := whole_suffix u
    rw [hpart] at hfraction
    rw [hwhole] at hwhole'
    exact hfraction.trans (hwhole'.trans hu')
  split at h
  · split at h
    · contradiction
    · obtain ⟨rfl,rfl⟩ := Prod.mk.inj (Except.ok.inj h)
      exact ⟨hpart',.inl ⟨_,rfl⟩⟩
  · split at h
    rename_i power r₃ hpower
    obtain ⟨rfl,rfl⟩ := Prod.mk.inj (Except.ok.inj h)
    refine ⟨?_,.inr ⟨_,rfl⟩⟩
    cases he : exponent? r₂ with
    | none =>
      rw [he] at hpower
      exact (Prod.mk.inj hpower).2 ▸ hpart'
    | some x =>
      rw [he] at hpower
      obtain rfl : x = (power,r₃) := hpower
      exact (exponent?_suffix he).trans hpart'

/-! ### Values -/

/-- What a value is read from. -/
theorem value_cases (h : value (fuel + 1) s = .ok (v,r)) :
    (∃ t cs, s = '"' :: t ∧ chars (t.length + 1) t = .ok (cs,r) ∧ v = .str (String.ofList cs)) ∨
    (∃ t vs, s = '[' :: t ∧ v = .list vs ∧
      ((skipBlanks t = ']' :: r ∧ vs = []) ∨ items fuel (skipBlanks t) = .ok (vs,r))) ∨
    (∃ t es, s = '\x7b' :: t ∧ v = .map (Entries.ofList es) ∧
      ((skipBlanks t = '\x7d' :: r ∧ es = []) ∨ members fuel (skipBlanks t) = .ok (es,r))) ∨
    (r <:+ s ∧ (∀ x, v ≠ .str x) ∧ ∀ vs, v ≠ .list vs) := by
  rw [value.eq_def] at h
  simp only at h
  split at h
  · rename_i t
    obtain ⟨⟨cs,r'⟩,hchars,h⟩ := exists_of_bind_eq_ok h
    obtain ⟨rfl,rfl⟩ := Prod.mk.inj (Except.ok.inj h)
    exact .inl ⟨t,cs,rfl,hchars,rfl⟩
  · rename_i t
    refine .inr (.inl ?_)
    split at h
    · rename_i r' hend
      obtain ⟨rfl,rfl⟩ := Prod.mk.inj (Except.ok.inj h)
      exact ⟨t,[],rfl,rfl,.inl ⟨hend,rfl⟩⟩
    · obtain ⟨⟨vs,r'⟩,hitems,h⟩ := exists_of_bind_eq_ok h
      obtain ⟨rfl,rfl⟩ := Prod.mk.inj (Except.ok.inj h)
      exact ⟨t,vs,rfl,rfl,.inr hitems⟩
  · rename_i t
    refine .inr (.inr (.inl ?_))
    split at h
    · rename_i r' hend
      obtain ⟨rfl,rfl⟩ := Prod.mk.inj (Except.ok.inj h)
      exact ⟨t,[],rfl,rfl,.inl ⟨hend,rfl⟩⟩
    · obtain ⟨⟨es,r'⟩,hmembers,h⟩ := exists_of_bind_eq_ok h
      obtain ⟨rfl,rfl⟩ := Prod.mk.inj (Except.ok.inj h)
      exact ⟨t,es,rfl,rfl,.inr hmembers⟩
  · refine .inr (.inr (.inr ?_))
    split at h
    · rename_i found hword
      obtain rfl := Except.ok.inj h
      obtain ⟨hsuffix,hmem⟩ := word?_eq_some hword
      refine ⟨hsuffix,?_⟩
      simp only [words,List.map_cons,List.map_nil,List.mem_cons,List.not_mem_nil,or_false] at hmem
      rcases hmem with rfl | rfl | rfl | rfl | rfl | rfl <;> simp
    · obtain ⟨hsuffix,⟨n,rfl⟩ | ⟨x,rfl⟩⟩ := number_eq_ok h
      · exact ⟨hsuffix,by simp,by simp⟩
      · exact ⟨hsuffix,by simp,by simp⟩

/-- What the items of an array are read from, with `t` after the first of them. -/
inductive ItemsRest (fuel : Nat) (v : Value) (t : List Char) : List Value → List Char → Prop
  | last {r : List Char} (hend : skipBlanks t = ']' :: r) : ItemsRest fuel v t [v] r
  | next {u r : List Char} {more : List Value} (hcomma : skipBlanks t = ',' :: u)
    (hmore : items fuel (skipBlanks u) = .ok (more,r)) : ItemsRest fuel v t (v :: more) r

theorem items_cases (h : items (fuel + 1) s = .ok (vs,r)) :
    ∃ v t, value fuel s = .ok (v,t) ∧ ItemsRest fuel v t vs r := by
  rw [items.eq_2] at h
  obtain ⟨⟨v,t⟩,hvalue,h⟩ := exists_of_bind_eq_ok h
  refine ⟨v,t,hvalue,?_⟩
  simp only at h
  split at h
  · rename_i r' hend
    obtain ⟨rfl,rfl⟩ := Prod.mk.inj (Except.ok.inj h)
    exact .last hend
  · rename_i t' hcomma
    obtain ⟨⟨more,r'⟩,hitems,h⟩ := exists_of_bind_eq_ok h
    obtain ⟨rfl,rfl⟩ := Prod.mk.inj (Except.ok.inj h)
    exact .next hcomma hitems
  · contradiction

/-- What the members of an object are read from, with `t` after the first of them. -/
inductive MembersRest (fuel : Nat) (e : Value × Value) (t : List Char) :
    List (Value × Value) → List Char → Prop
  | last {r : List Char} (hend : skipBlanks t = '\x7d' :: r) : MembersRest fuel e t [e] r
  | next {u r : List Char} {more : List (Value × Value)} (hcomma : skipBlanks t = ',' :: u)
    (hmore : members fuel (skipBlanks u) = .ok (more,r)) : MembersRest fuel e t (e :: more) r

theorem members_cases {es : List (Value × Value)} (h : members (fuel + 1) s = .ok (es,r)) :
    ∃ t key t₁ t₂ v t₃, s = '"' :: t ∧ chars (t.length + 1) t = .ok (key,t₁) ∧ skipBlanks t₁ = ':' :: t₂ ∧
      value fuel (skipBlanks t₂) = .ok (v,t₃) ∧
      MembersRest fuel (.str (String.ofList key),v) t₃ es r := by
  rw [members.eq_def] at h
  simp only at h
  split at h
  · rename_i t
    obtain ⟨⟨key,t₁⟩,hchars,h⟩ := exists_of_bind_eq_ok h
    simp only at h
    split at h
    · rename_i t₂ hcolon
      obtain ⟨⟨v,t₃⟩,hvalue,h⟩ := exists_of_bind_eq_ok h
      refine ⟨t,key,t₁,t₂,v,t₃,rfl,hchars,hcolon,hvalue,?_⟩
      simp only at h
      split at h
      · rename_i r' hend
        obtain ⟨rfl,rfl⟩ := Prod.mk.inj (Except.ok.inj h)
        exact .last hend
      · rename_i t₄ hcomma
        obtain ⟨⟨more,r'⟩,hmembers,h⟩ := exists_of_bind_eq_ok h
        obtain ⟨rfl,rfl⟩ := Prod.mk.inj (Except.ok.inj h)
        exact .next hcomma hmembers
      · contradiction
    · contradiction
  · contradiction

/-! ### Quotation marks -/

def isText : Value → Bool
  | .str _ => true
  | _ => false

/-- The texts of a value, as far as it is a text or a list of them. -/
def texts : Value → Nat
  | .str _ => 1
  | .list vs => vs.countP isText
  | _ => 0

/-- The texts of members with their keys. -/
def weight {κ : Type} (es : List (κ × Value)) : Nat := (es.map fun e => texts e.2 + 1).sum

@[simp] theorem weight_nil {κ : Type} : weight ([] : List (κ × Value)) = 0 := rfl

@[simp] theorem weight_cons {κ : Type} (k : κ) (v : Value) (es : List (κ × Value)) :
    weight ((k,v) :: es) = texts v + 1 + weight es := by
  simp [weight]

theorem countP_isText_cons_le (v : Value) (vs : List Value) :
    (v :: vs).countP isText ≤ texts v + vs.countP isText := by
  rw [List.countP_cons]
  cases v <;> simp [isText,texts,Nat.add_comm]

theorem ItemsRest.quotes_le (h : ItemsRest fuel v t vs r)
    (hitems : ∀ s vs r, items fuel s = .ok (vs,r) → quotes r + 2 * vs.countP isText ≤ quotes s) :
    quotes r + 2 * vs.countP isText ≤ quotes t + 2 * texts v := by
  have hblanks := quotes_skipBlanks t
  cases h with
  | last hend =>
    have hcount := countP_isText_cons_le v []
    rw [hend,quotes_cons_of_ne (by decide)] at hblanks
    simp only [List.countP_nil] at hcount
    omega
  | @next u r more hcomma hmore =>
    have hcount := countP_isText_cons_le v more
    have htail := hitems _ _ _ hmore
    have hblanks' := quotes_skipBlanks u
    rw [hcomma,quotes_cons_of_ne (by decide)] at hblanks
    omega

theorem MembersRest.quotes_le {k : Value} {es : List (Value × Value)} (h : MembersRest fuel (k,v) t es r)
    (hmembers : ∀ s es r, members fuel s = .ok (es,r) → quotes r + 2 * weight es ≤ quotes s) :
    quotes r + 2 * weight es ≤ quotes t + 2 * (texts v + 1) := by
  have hblanks := quotes_skipBlanks t
  cases h with
  | last hend =>
    rw [hend,quotes_cons_of_ne (by decide)] at hblanks
    rw [weight_cons,weight_nil]
    omega
  | @next u r more hcomma hmore =>
    have htail := hmembers _ _ _ hmore
    have hblanks' := quotes_skipBlanks u
    rw [hcomma,quotes_cons_of_ne (by decide)] at hblanks
    rw [weight_cons]
    omega

/-- Every text that is read takes two quotation marks. -/
theorem quotes_read (fuel : Nat) :
    (∀ s v r, value fuel s = .ok (v,r) → quotes r + 2 * texts v ≤ quotes s) ∧
    (∀ s vs r, items fuel s = .ok (vs,r) → quotes r + 2 * vs.countP isText ≤ quotes s) ∧
    (∀ s es r, members fuel s = .ok (es,r) → quotes r + 2 * weight es ≤ quotes s) := by
  induction fuel with
  | zero =>
    refine ⟨fun s v r h => ?_,fun s vs r h => ?_,fun s es r h => ?_⟩
    · rw [value.eq_def] at h
      contradiction
    · rw [items.eq_def] at h
      contradiction
    · rw [members.eq_def] at h
      contradiction
  | succ fuel ih =>
    obtain ⟨hvalue,hitems,hmembers⟩ := ih
    refine ⟨fun s v r h => ?_,fun s vs r h => ?_,fun s es r h => ?_⟩
    · rcases value_cases h with ⟨t,cs,rfl,hchars,rfl⟩ | ⟨t,vs,rfl,rfl,hvs⟩ | ⟨t,es,rfl,rfl,hes⟩ |
        ⟨hsuffix,hstr,hlist⟩
      · have := quotes_chars hchars
        rw [quotes_mark,texts]
        omega
      · have hblanks := quotes_skipBlanks t
        rw [quotes_cons_of_ne (by decide),texts]
        rcases hvs with ⟨hend,rfl⟩ | hvs
        · rw [hend,quotes_cons_of_ne (by decide)] at hblanks
          simpa using hblanks
        · exact (hitems _ _ _ hvs).trans hblanks
      · have hblanks := quotes_skipBlanks t
        have hnone : texts (.map (Entries.ofList es)) = 0 := rfl
        rw [quotes_cons_of_ne (by decide),hnone]
        rcases hes with ⟨hend,rfl⟩ | hes
        · rw [hend,quotes_cons_of_ne (by decide)] at hblanks
          simpa using hblanks
        · have := hmembers _ _ _ hes
          omega
      · have hnone : texts v = 0 := by
          cases v with
          | str x => exact absurd rfl (hstr x)
          | list vs => exact absurd rfl (hlist vs)
          | _ => rfl
        rw [hnone]
        exact quotes_le hsuffix
    · obtain ⟨v,t,hv,hrest⟩ := items_cases h
      have hhead := hvalue _ _ _ hv
      have htail := hrest.quotes_le hitems
      omega
    · obtain ⟨t,key,t₁,t₂,v,t₃,rfl,hkey,hcolon,hv,hrest⟩ := members_cases h
      have hname := quotes_chars hkey
      have hblanks₁ := quotes_skipBlanks t₁
      have hblanks₂ := quotes_skipBlanks t₂
      have hmember := hvalue _ _ _ hv
      have htail := hrest.quotes_le hmembers
      rw [hcolon,quotes_cons_of_ne (by decide)] at hblanks₁
      rw [quotes_mark]
      omega

/-! ### Members by their keys -/

/-- Entries with texts as keys. -/
def named (pairs : List (String × Value)) : Entries := pairs.map fun e => (.str e.1,e.2)

theorem find?_named (pairs : List (String × Value)) (key : String) :
    Entries.find? (.str key) (named pairs) = pairs.lookup key := by
  induction pairs with
  | nil => rfl
  | cons e pairs ih =>
    change (if (Value.str e.1).same (.str key) then some e.2 else Entries.find? (.str key) (named pairs)) = _
    rw [Table.lookup_cons_eq,ih]
    by_cases hkey : key = e.1
    · simp [Value.same,hkey]
    · simp [Value.same,hkey,Ne.symm hkey]

theorem put_named (key : String) (v : Value) (pairs : List (String × Value)) :
    (named pairs).put (.str key) v = named (Table.put key v pairs) := by
  induction pairs with
  | nil => rfl
  | cons e pairs ih =>
    change (if (Value.str e.1).same (.str key) then _ else _) = _
    rw [Table.put]
    by_cases hkey : e.1 = key
    · rw [if_pos hkey,if_pos (by simp [Value.same,hkey])]
      rfl
    · rw [if_neg hkey,if_neg (by simp [Value.same,hkey])]
      exact congrArg ((.str e.1,e.2) :: ·) ih

theorem ofList_named (pairs : List (String × Value)) :
    Entries.ofList (named pairs) = named (Table.ofPairs pairs) := by
  have hfold : ∀ done : List (String × Value), (named done).update (named pairs) =
      named (pairs.foldl (fun rows p => Table.put p.1 p.2 rows) done) := by
    induction pairs with
    | nil => exact fun _ => rfl
    | cons e pairs ih =>
      intro done
      rw [List.foldl_cons,← ih,← put_named]
      rfl
  exact hfold []

theorem exists_named {es : List (Value × Value)} (h : members fuel s = .ok (es,r)) :
    ∃ pairs, es = named pairs := by
  induction fuel generalizing s es with
  | zero =>
    rw [members.eq_def] at h
    contradiction
  | succ fuel ih =>
    obtain ⟨_,key,_,_,v,_,-,-,-,-,hrest⟩ := members_cases h
    cases hrest with
    | last hend => exact ⟨[(String.ofList key,v)],rfl⟩
    | next hcomma hmore =>
      obtain ⟨pairs,rfl⟩ := ih hmore
      exact ⟨(String.ofList key,v) :: pairs,rfl⟩

/-! ### Texts in quotation marks -/

/-- A text in quotation marks, as it is. -/
def inMarks (s : List Char) : List Char := '"' :: s ++ ['"']

/-- Texts in quotation marks, one after the other. -/
def listed (ss : List (List Char)) : List Char := joinWith [',',' '] (ss.map inMarks)

/-- A member of an object, with what follows its key. -/
def member (key s : List Char) : List Char := inMarks key ++ ':' :: ' ' :: s

/-- Some texts as values. -/
def textValues (ss : List (List Char)) : List Value := ss.map fun s => .str (String.ofList s)

variable {key : List Char} {ss : List (List Char)}

theorem skipBlanks_of_not (h : isBlank c = false) (s : List Char) : skipBlanks (c :: s) = c :: s := by
  simp [skipBlanks,h]

theorem skipBlanks_blank (s : List Char) : skipBlanks (' ' :: s) = skipBlanks s := rfl

theorem inMarks_append (s t : List Char) : inMarks s ++ t = '"' :: (s ++ '"' :: t) := by
  simp [inMarks]

theorem skipBlanks_inMarks (s t : List Char) : skipBlanks (inMarks s ++ t) = inMarks s ++ t := rfl

theorem quotes_inMarks (h : '"' ∉ s) : quotes (inMarks s) = 2 := by
  rw [inMarks,List.cons_append,quotes_mark,quotes_append,quotes_of_notMem h]
  rfl

theorem quotes_member (h : '"' ∉ key) (s : List Char) : quotes (member key s) = quotes s + 2 := by
  rw [member,quotes_append,quotes_inMarks h,quotes_cons_of_ne (by decide),quotes_cons_of_ne (by decide),
    Nat.add_comm]

theorem listed_cons_cons (s t : List Char) (ss : List (List Char)) :
    listed (s :: t :: ss) = inMarks s ++ ',' :: ' ' :: listed (t :: ss) := by
  simp [listed,joinWith]

theorem quotes_listed (h : ∀ s ∈ ss, '"' ∉ s) : quotes (listed ss) = 2 * ss.length := by
  induction ss with
  | nil => rfl
  | cons s ss ih =>
    obtain ⟨hs,hss⟩ := List.forall_mem_cons.mp h
    cases ss with
    | nil => simpa [listed,joinWith] using quotes_inMarks hs
    | cons t ss =>
      rw [listed_cons_cons,quotes_append,quotes_inMarks hs,quotes_cons_of_ne (by decide),
        quotes_cons_of_ne (by decide),ih hss]
      simp only [List.length_cons]
      omega

/-- Beside the texts there are only quotation marks, commas and blanks. -/
theorem notMem_listed (hc : c ∉ ['"',',',' ']) (h : ∀ s ∈ ss, c ∉ s) : c ∉ listed ss := by
  simp only [List.mem_cons,List.not_mem_nil,or_false,not_or] at hc
  induction ss with
  | nil => exact List.not_mem_nil
  | cons s ss ih =>
    obtain ⟨hs,hss⟩ := List.forall_mem_cons.mp h
    have hmarks : c ∉ inMarks s := by simp [inMarks,hc.1,hs]
    cases ss with
    | nil => exact hmarks
    | cons t ss =>
      rw [listed_cons_cons]
      simp [hmarks,hc.2.1,hc.2.2,ih hss]

theorem exists_listed_cons (s : List Char) (ss : List (List Char)) (t : List Char) :
    ∃ u, listed (s :: ss) ++ t = '"' :: u := by
  cases ss with
  | nil => exact ⟨_,inMarks_append s t⟩
  | cons s' ss => exact ⟨_,by rw [listed_cons_cons,List.append_assoc,inMarks_append]⟩

@[simp] theorem countP_textValues (ss : List (List Char)) :
    (textValues ss).countP isText = ss.length := by
  induction ss with
  | nil => rfl
  | cons s ss ih =>
    rw [textValues] at ih ⊢
    rw [List.map_cons,List.countP_cons,ih]
    rfl

/-! ### Reading plain texts -/

theorem value_of_plain (hs : IsPlain s) (hmark : '"' ∉ s) :
    value (fuel + 1) (inMarks s ++ t) = .ok (.str (String.ofList s),t) := by
  rw [inMarks_append,value.eq_2,chars_of_plain hs hmark (length_lt_append s _)]
  rfl

theorem items_last (hv : value fuel s = .ok (v,t)) (hend : skipBlanks t = ']' :: r) :
    items (fuel + 1) s = .ok ([v],r) := by
  rw [items.eq_2,hv]
  simp only [bind,Except.bind,hend]

theorem items_next {more : List Value} (hv : value fuel s = .ok (v,t)) (hcomma : skipBlanks t = ',' :: u)
    (hmore : items fuel (skipBlanks u) = .ok (more,r)) : items (fuel + 1) s = .ok (v :: more,r) := by
  rw [items.eq_2,hv]
  simp only [bind,Except.bind,hcomma,hmore]

theorem items_of_plain (hne : ss ≠ []) (hss : ∀ s ∈ ss, IsPlain s ∧ '"' ∉ s) :
    items (fuel + 1 + ss.length) (listed ss ++ ']' :: t) = .ok (textValues ss,t) := by
  induction ss with
  | nil => exact absurd rfl hne
  | cons s ss ih =>
    obtain ⟨⟨hs,hmark⟩,hss⟩ := List.forall_mem_cons.mp hss
    rw [List.length_cons,← Nat.add_assoc]
    cases ss with
    | nil => exact items_last (value_of_plain hs hmark) rfl
    | cons s' ss =>
      obtain ⟨u,hu⟩ := exists_listed_cons s' ss (']' :: t)
      have hrest := ih (by simp) hss
      rw [hu,List.length_cons,← Nat.add_assoc] at hrest
      rw [listed_cons_cons,List.append_assoc,List.cons_append,List.cons_append,hu,List.length_cons,
        ← Nat.add_assoc]
      exact items_next (value_of_plain hs hmark) rfl hrest

theorem value_list_of_plain (hss : ∀ s ∈ ss, IsPlain s ∧ '"' ∉ s) :
    value (fuel + 2 + ss.length) ('[' :: (listed ss ++ ']' :: t)) = .ok (.list (textValues ss),t) := by
  cases ss with
  | nil => rfl
  | cons s ss =>
    obtain ⟨u,hu⟩ := exists_listed_cons s ss (']' :: t)
    have hitems : items (fuel + 1 + (s :: ss).length) (listed (s :: ss) ++ ']' :: t) = _ :=
      items_of_plain (by simp) hss
    rw [show fuel + 2 + (s :: ss).length = (fuel + 1 + (s :: ss).length) + 1 by omega,value.eq_3]
    rw [hu] at hitems ⊢
    rw [skipBlanks_of_not (by decide),hitems]
    rfl

/-- A member whose value is read, as the last one of its object. -/
theorem members_last (hkey : IsPlain key) (hmark : '"' ∉ key) (hv : value fuel (skipBlanks s) = .ok (v,t))
    (hend : skipBlanks t = '\x7d' :: r) :
    members (fuel + 1) (member key s) = .ok ([(.str (String.ofList key),v)],r) := by
  rw [member,inMarks_append,members.eq_2,chars_of_plain hkey hmark (length_lt_append key _)]
  simp only [bind,Except.bind,skipBlanks_of_not (show isBlank ':' = false by decide),skipBlanks_blank,hv,hend]

theorem members_next {more : List (Value × Value)} (hkey : IsPlain key) (hmark : '"' ∉ key)
    (hv : value fuel (skipBlanks s) = .ok (v,t)) (hcomma : skipBlanks t = ',' :: u)
    (hmore : members fuel (skipBlanks u) = .ok (more,r)) :
    members (fuel + 1) (member key s) = .ok ((.str (String.ofList key),v) :: more,r) := by
  rw [member,inMarks_append,members.eq_2,chars_of_plain hkey hmark (length_lt_append key _)]
  simp only [bind,Except.bind,skipBlanks_of_not (show isBlank ':' = false by decide),skipBlanks_blank,hv,hcomma,
    hmore]

/-! ### Reading that takes no quotation mark away -/

/-- Where all quotation marks of a text are its own, it is read up to its end, and as it is only if it is
plain. -/
theorem value_inMarks_tight (hmark : '"' ∉ s) (h : value fuel (inMarks s ++ rest) = .ok (v,r))
    (htight : quotes rest + 2 ≤ quotes r + 2 * texts v) :
    ∃ cs, v = .str (String.ofList cs) ∧ r = rest ∧ (cs = s → IsPlain s) := by
  cases fuel with
  | zero =>
    rw [value.eq_def] at h
    contradiction
  | succ fuel =>
    rw [inMarks_append,value.eq_2] at h
    obtain ⟨⟨cs,r'⟩,hchars,h⟩ := exists_of_bind_eq_ok h
    obtain ⟨rfl,rfl⟩ := Prod.mk.inj (Except.ok.inj h)
    rcases chars_of_noMark hmark hchars with ⟨hr,-,hplain⟩ | hshort
    · exact ⟨cs,rfl,hr,fun hcs => hplain (by rw [hcs])⟩
    · rw [texts] at htight
      omega

theorem items_listed_tight (hne : ss ≠ []) (hss : ∀ s ∈ ss, '"' ∉ s)
    (h : items fuel (listed ss ++ ']' :: rest) = .ok (vs,r))
    (htight : quotes rest + 2 * ss.length ≤ quotes r + 2 * vs.countP isText) :
    r = rest ∧ (vs = textValues ss → ∀ s ∈ ss, IsPlain s) := by
  induction ss generalizing fuel vs with
  | nil => exact absurd rfl hne
  | cons s ss ih =>
    obtain ⟨hs,hss⟩ := List.forall_mem_cons.mp hss
    cases fuel with
    | zero =>
      rw [items.eq_def] at h
      contradiction
    | succ fuel =>
      obtain ⟨v,t,hv,hrest⟩ := items_cases h
      have htail := hrest.quotes_le (quotes_read fuel).2.1
      cases ss with
      | nil =>
        obtain ⟨cs,rfl,rfl,hplain⟩ := value_inMarks_tight hs hv (by
          rw [quotes_cons_of_ne (by decide)]
          simp only [List.length_singleton] at htight
          omega)
        cases hrest with
        | last hend =>
          obtain rfl := (List.cons.inj hend).2
          refine ⟨rfl,fun hvs => ?_⟩
          simpa using hplain (by simpa [textValues,String.ofList_inj] using hvs)
        | next hcomma hmore => exact absurd (List.cons.inj hcomma).1 (by decide)
      | cons s' ss =>
        obtain ⟨w,hw⟩ := exists_listed_cons s' ss (']' :: rest)
        have hquotes : quotes (listed (s' :: ss) ++ ']' :: rest) = quotes rest + 2 * (s' :: ss).length := by
          rw [quotes_append,quotes_listed hss,quotes_cons_of_ne (by decide),Nat.add_comm]
        rw [listed_cons_cons,List.append_assoc,List.cons_append,List.cons_append] at hv
        obtain ⟨cs,rfl,rfl,hplain⟩ := value_inMarks_tight hs hv (by
          rw [quotes_cons_of_ne (by decide),quotes_cons_of_ne (by decide),hquotes]
          simp only [List.length_cons] at htight ⊢
          omega)
        cases hrest with
        | last hend => exact absurd (List.cons.inj hend).1 (by decide)
        | @next u r more hcomma hmore =>
          obtain rfl := (List.cons.inj hcomma).2
          have hskip : skipBlanks (' ' :: (listed (s' :: ss) ++ ']' :: rest)) =
              listed (s' :: ss) ++ ']' :: rest := by
            rw [hw]
            rfl
          have hcount : (Value.str (String.ofList cs) :: more).countP isText = more.countP isText + 1 :=
            List.countP_cons_of_pos rfl
          rw [hskip] at hmore
          obtain ⟨hr,hmore'⟩ := ih (by simp) hss hmore (by
            simp only [List.length_cons] at htight ⊢
            omega)
          refine ⟨hr,fun hvs => List.forall_mem_cons.mpr ⟨hplain ?_,hmore' (List.cons.inj hvs).2⟩⟩
          exact String.ofList_injective (Value.str.inj (List.cons.inj hvs).1)

theorem value_listed_tight (hss : ∀ s ∈ ss, '"' ∉ s)
    (h : value fuel ('[' :: (listed ss ++ ']' :: rest)) = .ok (v,r))
    (htight : quotes rest + 2 * ss.length ≤ quotes r + 2 * texts v) :
    ∃ vs, v = .list vs ∧ r = rest ∧ (vs = textValues ss → ∀ s ∈ ss, IsPlain s) := by
  cases fuel with
  | zero =>
    rw [value.eq_def] at h
    contradiction
  | succ fuel =>
    cases ss with
    | nil =>
      obtain ⟨rfl,rfl⟩ := Prod.mk.inj (Except.ok.inj h)
      exact ⟨[],rfl,rfl,by simp⟩
    | cons s ss =>
      obtain ⟨u,hu⟩ := exists_listed_cons s ss (']' :: rest)
      rw [hu,value.eq_3,skipBlanks_of_not (by decide)] at h
      obtain ⟨⟨vs,r'⟩,hitems,h⟩ := exists_of_bind_eq_ok h
      obtain ⟨rfl,rfl⟩ := Prod.mk.inj (Except.ok.inj h)
      rw [← hu] at hitems
      exact ⟨vs,rfl,items_listed_tight (by simp) hss hitems htight⟩

variable {es : List (Value × Value)}

/-- A member is read with its value, and what follows the value is the rest of the object. -/
theorem members_member (hkey : IsPlain key) (hmark : '"' ∉ key)
    (h : members fuel (member key s) = .ok (es,r)) : ∃ fuel' v t,
      value fuel' (skipBlanks s) = .ok (v,t) ∧ MembersRest fuel' (.str (String.ofList key),v) t es r := by
  cases fuel with
  | zero =>
    rw [members.eq_def] at h
    contradiction
  | succ fuel =>
    obtain ⟨t,key',t₁,t₂,v,t₃,hstart,hchars,hcolon,hv,hrest⟩ := members_cases h
    rw [member,inMarks_append] at hstart
    obtain rfl := (List.cons.inj hstart).2
    rw [chars_of_plain hkey hmark (length_lt_append key _)] at hchars
    obtain ⟨rfl,rfl⟩ := Prod.mk.inj (Except.ok.inj hchars)
    obtain rfl := (List.cons.inj hcolon).2
    exact ⟨fuel,v,t₃,hv,hrest⟩

/-- A member with a text, and the next one after it. -/
theorem members_text_tight (hkey : IsPlain key) (hmark : '"' ∉ key) (hs : '"' ∉ s)
    (h : members fuel (member key (inMarks s ++ ',' :: ' ' :: u)) = .ok (es,r)) (hu : skipBlanks u = u)
    (htight : quotes u + 4 ≤ quotes r + 2 * weight es) :
    ∃ fuel' cs more, es = (.str (String.ofList key),.str (String.ofList cs)) :: more ∧
      (cs = s → IsPlain s) ∧ members fuel' u = .ok (more,r) ∧ quotes u ≤ quotes r + 2 * weight more := by
  obtain ⟨fuel',v,t,hv,hrest⟩ := members_member hkey hmark h
  have htail := hrest.quotes_le (quotes_read fuel').2.2
  rw [skipBlanks_inMarks] at hv
  obtain ⟨cs,rfl,rfl,hplain⟩ := value_inMarks_tight hs hv (by
    rw [quotes_cons_of_ne (by decide),quotes_cons_of_ne (by decide)]
    omega)
  cases hrest with
  | last hend => exact absurd (List.cons.inj hend).1 (by decide)
  | @next w r more hcomma hmore =>
    obtain rfl := (List.cons.inj hcomma).2
    rw [skipBlanks_blank,hu] at hmore
    rw [weight_cons,texts] at htight
    exact ⟨fuel',cs,more,rfl,hplain,hmore,by omega⟩

/-- A member with a list of texts, as the last one. -/
theorem members_listed_tight (hkey : IsPlain key) (hmark : '"' ∉ key) (hss : ∀ s ∈ ss, '"' ∉ s)
    (h : members fuel (member key ('[' :: (listed ss ++ ']' :: '\x7d' :: rest))) = .ok (es,r))
    (htight : quotes rest + 2 * ss.length + 2 ≤ quotes r + 2 * weight es) :
    ∃ vs, es = [(.str (String.ofList key),.list vs)] ∧ (vs = textValues ss → ∀ s ∈ ss, IsPlain s) := by
  obtain ⟨fuel',v,t,hv,hrest⟩ := members_member hkey hmark h
  have htail := hrest.quotes_le (quotes_read fuel').2.2
  rw [skipBlanks_of_not (by decide)] at hv
  obtain ⟨vs,rfl,rfl,hplain⟩ := value_listed_tight hss hv (by
    rw [quotes_cons_of_ne (by decide)]
    omega)
  cases hrest with
  | last hend => exact ⟨vs,rfl,hplain⟩
  | next hcomma hmore => exact absurd (List.cons.inj hcomma).1 (by decide)

/-! ### Fields -/

variable {pairs some : List (String × Value)}

/-- A field that is there was read as a member. -/
theorem mem_of_field {key : String} (h : Entries.field (Entries.ofList (named pairs)) key = v)
    (hv : v ≠ .null) : (key,v) ∈ pairs := by
  rw [ofList_named,Entries.field,find?_named,Table.lookup_ofPairs] at h
  cases hfind : pairs.reverse.lookup key with
  | none =>
    rw [hfind] at h
    exact absurd h.symm hv
  | some w =>
    obtain ⟨before,after,hsplit,-⟩ := List.lookup_eq_some_iff.mp hfind
    rw [hfind] at h
    obtain rfl : w = v := h
    exact List.mem_reverse.mp (hsplit ▸ by simp)

@[simp] theorem weight_named (pairs : List (String × Value)) : weight (named pairs) = weight pairs := by
  rw [weight,named,List.map_map]
  rfl

theorem weight_le_of_subset (hnodup : (some.map Prod.fst).Nodup) (h : some ⊆ pairs) :
    weight some ≤ weight pairs := by
  obtain ⟨l,hperm,hsub⟩ := List.subperm_of_subset (List.Nodup.of_map _ hnodup) h
  have hweight : weight l = weight some := (hperm.map _).sum_eq
  rw [← hweight]
  exact List.Sublist.sum_le_sum (hsub.map _) (by simp)

end BlogSite.Json
