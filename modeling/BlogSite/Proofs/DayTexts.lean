import BlogSite.Calendar.Moment
import BlogSite.Proofs.TextParts
import Mathlib.Algebra.Group.Nat.Defs
import Mathlib.Data.List.Basic
import Mathlib.Data.Nat.Basic

/-!
The texts of days. Year, month and day written with four, two and two digits are read back as the day
that they were written for, and their order as texts is the order of the days in the calendar.
-/

namespace BlogSite

namespace Text

/-- Texts of one length come before what follows them. -/
theorem append_lt_append_iff {a a' b b' : List Char} (h : a.length = a'.length) :
    a ++ b < a' ++ b' ↔ a < a' ∨ a = a' ∧ b < b' := by
  induction a generalizing a' with
  | nil =>
    obtain rfl := List.length_eq_zero_iff.mp h.symm
    simp
  | cons c a ih =>
    cases a' with
    | nil => simp at h
    | cons c' a' =>
      rw [List.cons_append,List.cons_append,List.cons_lt_cons_iff,List.cons_lt_cons_iff,
        ih (by simpa using h)]
      constructor
      · rintro (hc | ⟨rfl,ha | ⟨rfl,hb⟩⟩)
        · exact Or.inl (Or.inl hc)
        · exact Or.inl (Or.inr ⟨rfl,ha⟩)
        · exact Or.inr ⟨rfl,hb⟩
      · rintro ((hc | ⟨rfl,ha⟩) | ⟨hcons,hb⟩)
        · exact Or.inl hc
        · exact Or.inr ⟨rfl,Or.inl ha⟩
        · obtain ⟨rfl,rfl⟩ := List.cons.inj hcons
          exact Or.inr ⟨rfl,Or.inr ⟨rfl,hb⟩⟩

/-! ### Padded numbers -/

theorem padded_one {n : Nat} (h : n < 10) : padded 1 n = [Nat.digitChar n] := by
  simp [padded,Nat.toDigits_of_lt_base h]

/-- The last digit of a padded number stands after the number without it. -/
theorem padded_succ {w n : Nat} (hw : 0 < w) :
    padded (w + 1) n = padded w (n / 10) ++ [Nat.digitChar (n % 10)] := by
  have hlast : Nat.toDigits 10 (n % 10) = [Nat.digitChar (n % 10)] :=
    Nat.toDigits_of_lt_base (Nat.mod_lt n (by decide))
  by_cases hn : n < 10
  · have hdiv : n / 10 = 0 := Nat.div_eq_of_lt hn
    have hmod : n % 10 = n := Nat.mod_eq_of_lt hn
    have hzero : Nat.toDigits 10 0 = ['0'] := by decide
    rw [hmod] at hlast
    obtain ⟨v,rfl⟩ : ∃ v, w = v + 1 := ⟨w - 1,by omega⟩
    simp [padded,hdiv,hmod,hlast,hzero,List.replicate_succ']
  · have hsplit : Nat.toDigits 10 n = Nat.toDigits 10 (n / 10) ++ [Nat.digitChar (n % 10)] := by
      have happend := Nat.toDigits_append_toDigits (b := 10) (n := n / 10) (d := n % 10) (by decide)
        (by omega) (Nat.mod_lt n (by decide))
      rw [Nat.div_add_mod] at happend
      rw [← happend,hlast]
    simp [padded,hsplit]

theorem length_padded {w n : Nat} (hw : 0 < w) (hn : n < 10 ^ w) : (padded w n).length = w := by
  have hlen := (Nat.length_toDigits_le_iff (b := 10) (by decide) hw).mpr hn
  simp [padded,hlen]

theorem digitChar_lt_iff {m n : Nat} (hm : m < 10) (hn : n < 10) :
    Nat.digitChar m < Nat.digitChar n ↔ m < n := by
  have hall : ∀ m < 10, ∀ n < 10, (Nat.digitChar m < Nat.digitChar n ↔ m < n) := by decide
  exact hall m hm n hn

theorem digitChar_inj {m n : Nat} (hm : m < 10) (hn : n < 10)
    (h : Nat.digitChar m = Nat.digitChar n) : m = n := by
  have hall : ∀ m < 10, ∀ n < 10, Nat.digitChar m = Nat.digitChar n → m = n := by decide
  exact hall m hm n hn h

theorem padded_inj {w m n : Nat} (hw : 0 < w) (hm : m < 10 ^ w) (hn : n < 10 ^ w)
    (h : padded w m = padded w n) : m = n := by
  induction w,hw using Nat.le_induction generalizing m n with
  | base =>
    rw [padded_one hm,padded_one hn,List.singleton_inj] at h
    exact digitChar_inj hm hn h
  | succ w hw ih =>
    have hm' : m / 10 < 10 ^ w := by rw [Nat.pow_succ] at hm; omega
    have hn' : n / 10 < 10 ^ w := by rw [Nat.pow_succ] at hn; omega
    rw [padded_succ hw,padded_succ hw] at h
    obtain ⟨hfirst,hlast⟩ := List.append_inj' h rfl
    have hdiv := ih hm' hn' hfirst
    have hmod := digitChar_inj (Nat.mod_lt m (by decide)) (Nat.mod_lt n (by decide))
      (List.singleton_inj.mp hlast)
    omega

/-- Numbers padded to one width have the order of the numbers. -/
theorem padded_lt_iff {w m n : Nat} (hw : 0 < w) (hm : m < 10 ^ w) (hn : n < 10 ^ w) :
    padded w m < padded w n ↔ m < n := by
  induction w,hw using Nat.le_induction generalizing m n with
  | base =>
    rw [padded_one hm,padded_one hn,List.cons_lt_cons_iff,digitChar_lt_iff hm hn]
    simp
  | succ w hw ih =>
    have hm' : m / 10 < 10 ^ w := by rw [Nat.pow_succ] at hm; omega
    have hn' : n / 10 < 10 ^ w := by rw [Nat.pow_succ] at hn; omega
    have hlen := (length_padded hw hm').trans (length_padded hw hn').symm
    have hlast := digitChar_lt_iff (Nat.mod_lt m (by decide)) (Nat.mod_lt n (by decide))
    have heq : padded w (m / 10) = padded w (n / 10) ↔ m / 10 = n / 10 :=
      ⟨padded_inj hw hm' hn',congrArg _⟩
    rw [padded_succ hw,padded_succ hw,append_lt_append_iff hlen,ih hm' hn',heq,
      List.cons_lt_cons_iff,hlast]
    simp only [List.lt_irrefl,and_false,or_false]
    omega

end Text

namespace Calendar.Date

open Text

/-! ### The order of days -/

/-- A day comes before another by year, month and day. -/
def Before (d e : Date) : Prop :=
  d.year < e.year ∨ d.year = e.year ∧ (d.month < e.month ∨ d.month = e.month ∧ d.day < e.day)

theorem eq_of_numbers {d e : Date} (hyear : d.year = e.year) (hmonth : d.month = e.month)
    (hday : d.day = e.day) : d = e := by
  cases d
  cases e
  simp_all

theorem before_or_eq_or_before (d e : Date) : d.Before e ∨ d = e ∨ e.Before d := by
  have hnumbers : d.Before e ∨ (d.year = e.year ∧ d.month = e.month ∧ d.day = e.day) ∨ e.Before d := by
    unfold Before
    omega
  rcases hnumbers with h | ⟨hyear,hmonth,hday⟩ | h
  · exact Or.inl h
  · exact Or.inr (Or.inl (eq_of_numbers hyear hmonth hday))
  · exact Or.inr (Or.inr h)

/-- The number of days of a year. -/
def daysOf (year : Nat) : Nat := if isLeap year then 366 else 365

theorem daysBeforeYear_succ {year : Nat} (h : 1 ≤ year) :
    daysBeforeYear (year + 1) = daysBeforeYear year + daysOf year := by
  obtain ⟨y,rfl⟩ : ∃ y, year = y + 1 := ⟨year - 1,by omega⟩
  have hleap : isLeap (y + 1) = true ↔ 4 ∣ y + 1 ∧ (¬ 100 ∣ y + 1 ∨ 400 ∣ y + 1) := by
    simp [isLeap,Nat.dvd_iff_mod_eq_zero]
  have hhundred : 100 ∣ y + 1 → 4 ∣ y + 1 := Nat.dvd_trans (by decide)
  have hfour : 400 ∣ y + 1 → 100 ∣ y + 1 := Nat.dvd_trans (by decide)
  have hle : y / 100 ≤ y := Nat.div_le_self y 100
  simp only [daysBeforeYear,daysOf,hleap,Nat.add_sub_cancel,Nat.succ_div]
  grind

theorem daysBeforeMonth_succ (year : Nat) {month : Nat} (h : 1 ≤ month) :
    daysBeforeMonth year (month + 1) = daysBeforeMonth year month + daysIn year month := by
  obtain ⟨m,rfl⟩ : ∃ m, month = m + 1 := ⟨month - 1,by omega⟩
  have hmonths : 1 + m = m + 1 := Nat.add_comm 1 m
  simp [daysBeforeMonth,List.range'_concat,hmonths]

theorem daysBeforeMonth_thirteen (year : Nat) : daysBeforeMonth year 13 = daysOf year := by
  unfold daysOf
  cases hleap : isLeap year <;> simp [daysBeforeMonth,daysIn,hleap,List.range']

theorem daysBeforeMonth_add_le (year : Nat) {month later : Nat} (h : 1 ≤ month)
    (hlater : month < later) :
    daysBeforeMonth year month + daysIn year month ≤ daysBeforeMonth year later := by
  induction later,hlater using Nat.le_induction with
  | base => exact Nat.le_of_eq (daysBeforeMonth_succ year h).symm
  | succ later hlater ih =>
    have hnext := daysBeforeMonth_succ year (Nat.le_trans h (Nat.le_of_lt hlater))
    omega

theorem daysBeforeYear_add_le {year later : Nat} (h : 1 ≤ year) (hlater : year < later) :
    daysBeforeYear year + daysOf year ≤ daysBeforeYear later := by
  induction later,hlater using Nat.le_induction with
  | base => exact Nat.le_of_eq (daysBeforeYear_succ h).symm
  | succ later hlater ih =>
    have hnext := daysBeforeYear_succ (Nat.le_trans h (Nat.le_of_lt hlater))
    omega

/-- A day is one of the days of its year. -/
theorem daysBeforeMonth_add_day_le (d : Date) :
    daysBeforeMonth d.year d.month + d.day ≤ daysOf d.year := by
  have hlast : d.month < 13 := Nat.lt_succ_of_le d.month_le
  have hmonth := daysBeforeMonth_add_le d.year d.month_pos hlast
  have hyear := daysBeforeMonth_thirteen d.year
  have hday := d.day_le
  omega

theorem Before.ordinal_lt {d e : Date} (h : d.Before e) : d.ordinal < e.ordinal := by
  unfold ordinal
  have hday := e.day_pos
  rcases h with hyear | ⟨hyear,hmonth | ⟨hmonth,hday⟩⟩
  · have hyears := daysBeforeYear_add_le d.year_pos hyear
    have hdays := d.daysBeforeMonth_add_day_le
    omega
  · have hmonths := daysBeforeMonth_add_le d.year d.month_pos hmonth
    have hdays := d.day_le
    rw [← hyear]
    omega
  · rw [← hyear,← hmonth]
    omega

/-- The numbers of days have the order of the calendar. -/
theorem ordinal_lt_iff {d e : Date} : d.ordinal < e.ordinal ↔ d.Before e := by
  refine ⟨fun h => ?_,Before.ordinal_lt⟩
  rcases before_or_eq_or_before d e with hbefore | rfl | hbefore
  · exact hbefore
  · exact absurd h (Nat.lt_irrefl _)
  · exact absurd (Nat.lt_trans h hbefore.ordinal_lt) (Nat.lt_irrefl _)

/-! ### The order of texts -/

theorem day_le_thirtyOne (d : Date) : d.day ≤ 31 := by
  refine Nat.le_trans d.day_le ?_
  unfold daysIn
  split
  · split <;> decide
  · split <;> decide

theorem numbers_lt (d : Date) : d.year < 10 ^ 4 ∧ d.month < 10 ^ 2 ∧ d.day < 10 ^ 2 := by
  have hyear := d.year_le
  have hmonth := d.month_le
  have hday := d.day_le_thirtyOne
  omega

theorem length_iso (d : Date) : d.iso.length = 10 := by
  obtain ⟨hyear,hmonth,hday⟩ := d.numbers_lt
  simp [iso,length_padded (w := 4) (by decide) hyear,length_padded (w := 2) (by decide) hmonth,
    length_padded (w := 2) (by decide) hday]

/-- The texts of days have the order of the calendar. -/
theorem iso_lt_iff {d e : Date} : d.iso < e.iso ↔ d.Before e := by
  obtain ⟨hdyear,hdmonth,hdday⟩ := d.numbers_lt
  obtain ⟨heyear,hemonth,heday⟩ := e.numbers_lt
  have hyears := (length_padded (by decide) hdyear).trans (length_padded (by decide) heyear).symm
  have hmonths := (length_padded (by decide) hdmonth).trans (length_padded (by decide) hemonth).symm
  have hyear : padded 4 d.year = padded 4 e.year ↔ d.year = e.year :=
    ⟨padded_inj (by decide) hdyear heyear,congrArg _⟩
  have hmonth : padded 2 d.month = padded 2 e.month ↔ d.month = e.month :=
    ⟨padded_inj (by decide) hdmonth hemonth,congrArg _⟩
  have hfirst : (padded 4 d.year ++ '-' :: padded 2 d.month = padded 4 e.year ++ '-' :: padded 2 e.month) ↔
      d.year = e.year ∧ d.month = e.month := by
    rw [List.append_eq_append_iff_of_size_eq_left hyears]
    simp [hyear,hmonth]
  unfold iso Before
  rw [append_lt_append_iff (by simp [hyears,hmonths]),append_lt_append_iff hyears,hfirst,
    List.cons_lt_cons_iff,List.cons_lt_cons_iff,padded_lt_iff (by decide) hdyear heyear,hyear,
    padded_lt_iff (by decide) hdmonth hemonth,padded_lt_iff (by decide) hdday heday]
  simp only [Char.lt_irrefl,false_or,true_and]
  constructor
  · rintro ((h | ⟨h,h'⟩) | ⟨⟨h,h'⟩,h''⟩)
    · exact Or.inl h
    · exact Or.inr ⟨h,Or.inl h'⟩
    · exact Or.inr ⟨h,Or.inr ⟨h',h''⟩⟩
  · rintro (h | ⟨h,h' | ⟨h',h''⟩⟩)
    · exact Or.inl (Or.inl h)
    · exact Or.inl (Or.inr ⟨h,h'⟩)
    · exact Or.inr ⟨⟨h,h'⟩,h''⟩

/-! ### Reading -/

theorem digitValue?_digitChar {n : Nat} (h : n < 10) : digitValue? (Nat.digitChar n) = some n := by
  have hall : ∀ n < 10, digitValue? (Nat.digitChar n) = some n := by decide
  exact hall n h

theorem yearOf?_padded {n : Nat} (h : n < 10 ^ 4) : yearOf? (padded 4 n) = some n := by
  have hfirst : n / 10 / 10 / 10 < 10 := by omega
  have hdigits : padded 4 n = [n / 10 / 10 / 10,n / 10 / 10 % 10,n / 10 % 10,n % 10].map Nat.digitChar := by
    rw [padded_succ (by decide),padded_succ (by decide),padded_succ (by decide),padded_one hfirst]
    rfl
  have hvalue : ofDigits 10 [n / 10 / 10 / 10,n / 10 / 10 % 10,n / 10 % 10,n % 10] = n := by
    simp only [ofDigits,List.foldl_cons,List.foldl_nil]
    omega
  rw [hdigits]
  simp only [yearOf?,List.map_cons,List.map_nil,digitValue?_digitChar hfirst,
    digitValue?_digitChar (Nat.mod_lt _ (show 10 > 0 by decide)),hvalue]

theorem monthOf?_padded {n : Nat} (h : 1 ≤ n) (h' : n ≤ 12) : monthOf? (padded 2 n) = some n := by
  have hall : ∀ n < 13, 1 ≤ n → monthOf? (padded 2 n) = some n := by decide
  exact hall n (by omega) h

theorem dayOf?_padded {n : Nat} (h : 1 ≤ n) (h' : n ≤ 31) : dayOf? (padded 2 n) = some n := by
  have hall : ∀ n < 32, 1 ≤ n → dayOf? (padded 2 n) = some n := by decide
  exact hall n (by omega) h

theorem hyphen_notMem_padded {w n : Nat} (hw : 0 < w) (h : n < 10 ^ w) : '-' ∉ padded w n := by
  have hdigit : ∀ n < 10, '-' ≠ Nat.digitChar n := by decide
  induction w,hw using Nat.le_induction generalizing n with
  | base =>
    rw [padded_one h,List.mem_singleton]
    exact hdigit n h
  | succ w hw ih =>
    have hinit := ih (n := n / 10) (by rw [Nat.pow_succ] at h; omega)
    rw [padded_succ hw,List.mem_append,List.mem_singleton,not_or]
    exact ⟨hinit,hdigit _ (Nat.mod_lt n (by decide))⟩

/-- A day is read from its text. -/
theorem parse?_iso (d : Date) : parse? d.iso = some d := by
  obtain ⟨hyear,hmonth,hday⟩ := d.numbers_lt
  have hsplit : splitOn '-' d.iso = [padded 4 d.year,padded 2 d.month,padded 2 d.day] := by
    unfold iso
    rw [splitOn_append_cons,splitOn_append_cons,
      splitOn_of_notMem (hyphen_notMem_padded (by decide) hyear),
      splitOn_of_notMem (hyphen_notMem_padded (by decide) hmonth),
      splitOn_of_notMem (hyphen_notMem_padded (by decide) hday)]
    rfl
  simp only [parse?,hsplit,yearOf?_padded hyear,monthOf?_padded d.month_pos d.month_le,
    dayOf?_padded d.day_pos d.day_le_thirtyOne,Option.bind_eq_bind,Option.bind_some,of?_eq_some]

/-- The day of the sample runs. -/
def sample : Date where
  year := 2024
  month := 3
  day := 5

end Calendar.Date

end BlogSite
