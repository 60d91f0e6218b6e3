import BlogSite.Page
import BlogSite.Proofs.DayTexts

/-!
Days one after the other. From a day the calendar goes on to the next day of its month, or else to the first
day of the next month, or else to the first day of the next year. The numbers of days count these steps, so
that going back by some days is a subtraction; and what is dated counts as recent just when fewer than seven
steps lead back to its day from today.
-/

namespace BlogSite

namespace Calendar.Date

open Text

variable {d e : Date} {year month day : Nat}

theorem of?_eq_some_iff :
    of? year month day = some d ↔ d.year = year ∧ d.month = month ∧ d.day = day := by
  constructor
  · intro h
    unfold of? at h
    split at h
    · obtain rfl := Option.some.inj h
      exact ⟨rfl,rfl,rfl⟩
    · exact absurd h (by simp)
  · rintro ⟨rfl,rfl,rfl⟩
    exact of?_eq_some

theorem exists_of?_iff : (∃ d, of? year month day = some d) ↔
    (1 ≤ year ∧ year ≤ 9999) ∧ (1 ≤ month ∧ month ≤ 12) ∧ 1 ≤ day ∧ day ≤ daysIn year month := by
  rw [← Option.isSome_iff_exists]
  unfold of?
  split <;> simp_all

theorem ordinal_inj (h : d.ordinal = e.ordinal) : d = e := by
  rcases before_or_eq_or_before d e with hbefore | heq | hbefore
  · exact absurd h (Nat.ne_of_lt hbefore.ordinal_lt)
  · exact heq
  · exact absurd h.symm (Nat.ne_of_lt hbefore.ordinal_lt)

/-! ### From day to day -/

/-- The day after a day. The last day of the calendar has none. -/
def next? (d : Date) : Option Date :=
  if d.day < daysIn d.year d.month then of? d.year d.month (d.day + 1)
  else if d.month < 12 then of? d.year (d.month + 1) 1
  else of? (d.year + 1) 1 1

/-- The day before a day. The first day of the calendar has none. -/
def previous? (d : Date) : Option Date :=
  if 1 < d.day then of? d.year d.month (d.day - 1)
  else if 1 < d.month then of? d.year (d.month - 1) (daysIn d.year (d.month - 1))
  else of? (d.year - 1) 12 31

theorem daysIn_pos (year month : Nat) : 1 ≤ daysIn year month := by
  unfold daysIn
  split
  · split <;> decide
  · split <;> decide

theorem daysBeforeMonth_one (year : Nat) : daysBeforeMonth year 1 = 0 := rfl

/-- The last month of every year has 31 days. -/
theorem daysBeforeMonth_twelve (year : Nat) : daysBeforeMonth year 12 + 31 = daysOf year := by
  have hlast := daysBeforeMonth_succ year (show 1 ≤ 12 by decide)
  have hdays : daysIn year 12 = 31 := by simp [daysIn]
  rw [daysBeforeMonth_thirteen,hdays] at hlast
  exact hlast.symm

theorem ordinal_of_next? (h : d.next? = some e) : e.ordinal = d.ordinal + 1 := by
  have hday := d.day_le
  have hmonth := d.month_le
  unfold next? at h
  unfold ordinal
  split at h
  · obtain ⟨hy,hm,hd⟩ := of?_eq_some_iff.mp h
    rw [hy,hm,hd]
    omega
  · split at h
    · obtain ⟨hy,hm,hd⟩ := of?_eq_some_iff.mp h
      have hmonths := daysBeforeMonth_succ d.year d.month_pos
      rw [hy,hm,hd]
      omega
    · obtain ⟨hy,hm,hd⟩ := of?_eq_some_iff.mp h
      have hlast : d.month = 12 := by omega
      have hyears := daysBeforeYear_succ d.year_pos
      have hmonths := daysBeforeMonth_succ d.year d.month_pos
      rw [hlast,daysBeforeMonth_thirteen] at hmonths
      rw [hlast] at hday
      rw [hy,hm,hd,daysBeforeMonth_one,hlast]
      simp_all only [not_lt]
      omega

theorem ordinal_of_previous? (h : d.previous? = some e) : e.ordinal + 1 = d.ordinal := by
  have hday := d.day_pos
  have hmonth := d.month_pos
  unfold previous? at h
  unfold ordinal
  split at h
  · obtain ⟨hy,hm,hd⟩ := of?_eq_some_iff.mp h
    rw [hy,hm,hd]
    omega
  · split at h
    · obtain ⟨hy,hm,hd⟩ := of?_eq_some_iff.mp h
      obtain ⟨m,hnext⟩ : ∃ m, d.month = m + 1 := ⟨d.month - 1,by omega⟩
      have hmonths := daysBeforeMonth_succ d.year (show 1 ≤ m by omega)
      rw [hnext,Nat.add_sub_cancel] at hm hd
      rw [hy,hm,hd,hnext]
      omega
    · obtain ⟨hy,hm,hd⟩ := of?_eq_some_iff.mp h
      have hfirst : d.month = 1 := by omega
      have hyear := d.year_pos
      have hpos := e.year_pos
      obtain ⟨y,hnext⟩ : ∃ y, d.year = y + 1 := ⟨d.year - 1,by omega⟩
      rw [hnext,Nat.add_sub_cancel] at hy
      have hyears := daysBeforeYear_succ (show 1 ≤ y by omega)
      have hmonths := daysBeforeMonth_twelve y
      rw [hy,hm,hd,hnext,hfirst,daysBeforeMonth_one]
      omega

/-- Before a later day there is a next one. -/
theorem Before.exists_next? (h : d.Before e) : ∃ c, d.next? = some c := by
  have hyear := d.year_pos
  have hlast := d.year_le
  have hmonth := d.month_pos
  have hmonths := d.month_le
  have hpos := daysIn_pos d.year (d.month + 1)
  unfold next?
  split
  · exact exists_of?_iff.mpr (by omega)
  · split
    · exact exists_of?_iff.mpr (by omega)
    · rename_i hday hend
      have hfirst := daysIn_pos (d.year + 1) 1
      have hyears : d.year < e.year := by
        have heday := e.day_le
        have hemonth := e.month_le
        have hlastDay := d.day_le
        rcases h with hlt | ⟨hy,hlt | ⟨hm,hlt⟩⟩
        · exact hlt
        · omega
        · rw [← hy,← hm] at heday
          omega
      have heyear := e.year_le
      exact exists_of?_iff.mpr (by omega)

/-- After an earlier day there is a previous one. -/
theorem Before.exists_previous? (h : d.Before e) : ∃ c, e.previous? = some c := by
  have hyear := e.year_pos
  have hlast := e.year_le
  have hmonths := e.month_le
  have hdays := e.day_le
  unfold previous?
  split
  · exact exists_of?_iff.mpr (by have := e.month_pos; omega)
  · split
    · have hpos := daysIn_pos e.year (e.month - 1)
      exact exists_of?_iff.mpr (by omega)
    · rename_i hday hfirst
      have hyears : d.year < e.year := by
        have hdday := d.day_pos
        have hdmonth := d.month_pos
        rcases h with hlt | ⟨hy,hlt | ⟨hm,hlt⟩⟩
        · exact hlt
        · omega
        · omega
      have hdyear := d.year_pos
      have hend : daysIn (e.year - 1) 12 = 31 := by simp [daysIn]
      exact exists_of?_iff.mpr (by omega)

theorem next?_eq_some_iff : d.next? = some e ↔ e.ordinal = d.ordinal + 1 := by
  refine ⟨ordinal_of_next?,fun h => ?_⟩
  obtain ⟨c,hc⟩ := (ordinal_lt_iff.mp (by omega : d.ordinal < e.ordinal)).exists_next?
  rw [hc,ordinal_inj ((ordinal_of_next? hc).trans h.symm)]

theorem previous?_eq_some_iff : d.previous? = some e ↔ e.ordinal + 1 = d.ordinal := by
  refine ⟨ordinal_of_previous?,fun h => ?_⟩
  obtain ⟨c,hc⟩ := (ordinal_lt_iff.mp (by omega : e.ordinal < d.ordinal)).exists_previous?
  have hc' := ordinal_of_previous? hc
  rw [hc,ordinal_inj (by omega : c.ordinal = e.ordinal)]

/-! ### Going back by some days -/

/-- Goes from day to day a number of times. -/
def steps? (step : Date → Option Date) : Nat → Date → Option Date
  | 0, d => some d
  | n + 1, d => (step d).bind (steps? step n)

/-- The day that is some days before a day; a negative number of days leads on. -/
def minus? (d : Date) : Int → Option Date
  | .ofNat n => steps? previous? n d
  | .negSucc n => steps? next? (n + 1) d

theorem steps?_previous_eq_some_iff {n : Nat} :
    steps? previous? n d = some e ↔ e.ordinal + n = d.ordinal := by
  induction n generalizing d with
  | zero => exact ⟨fun h => by rw [Option.some.inj h]; rfl,fun h => congrArg some (ordinal_inj h.symm)⟩
  | succ n ih =>
    simp only [steps?,Option.bind_eq_some_iff,ih,previous?_eq_some_iff]
    constructor
    · rintro ⟨c,hc,he⟩
      omega
    · intro h
      obtain ⟨c,hc⟩ := (ordinal_lt_iff.mp (by omega : e.ordinal < d.ordinal)).exists_previous?
      have hc' := previous?_eq_some_iff.mp hc
      exact ⟨c,hc',by omega⟩

theorem steps?_next_eq_some_iff {n : Nat} :
    steps? next? n d = some e ↔ e.ordinal = d.ordinal + n := by
  induction n generalizing d with
  | zero => exact ⟨fun h => by rw [Option.some.inj h]; rfl,fun h => congrArg some (ordinal_inj h.symm)⟩
  | succ n ih =>
    simp only [steps?,Option.bind_eq_some_iff,ih,next?_eq_some_iff]
    constructor
    · rintro ⟨c,hc,he⟩
      omega
    · intro h
      obtain ⟨c,hc⟩ := (ordinal_lt_iff.mp (by omega : d.ordinal < e.ordinal)).exists_next?
      have hc' := next?_eq_some_iff.mp hc
      exact ⟨c,hc',by omega⟩

/-- Steps from day to day are counted by the numbers of the days. -/
theorem minus?_eq_some_iff {k : Int} : d.minus? k = some e ↔ (e.ordinal : Int) = d.ordinal - k := by
  cases k with
  | ofNat n =>
    rw [minus?,steps?_previous_eq_some_iff,Int.ofNat_eq_natCast]
    omega
  | negSucc n =>
    rw [minus?,steps?_next_eq_some_iff]
    omega

/-- The first day of the calendar. -/
def first : Date := (of? 1 1 1).get (by decide)

/-- The last day of the calendar. -/
def last : Date := (of? 9999 12 31).get (by decide)

theorem first_ordinal_le (d : Date) : first.ordinal ≤ d.ordinal := by
  by_contra hlt
  have hbefore := ordinal_lt_iff.mp (Nat.lt_of_not_le hlt)
  have hyear := d.year_pos
  have hmonth := d.month_pos
  have hday := d.day_pos
  have hfirst : first.year = 1 ∧ first.month = 1 ∧ first.day = 1 := by decide
  simp only [Before,hfirst] at hbefore
  omega

theorem ordinal_le_last (d : Date) : d.ordinal ≤ last.ordinal := by
  by_contra hlt
  have hbefore := ordinal_lt_iff.mp (Nat.lt_of_not_le hlt)
  have hyear := d.year_le
  have hmonth := d.month_le
  have hday := d.day_le_thirtyOne
  have hlast : last.year = 9999 ∧ last.month = 12 ∧ last.day = 31 := by decide
  simp only [Before,hlast] at hbefore
  omega

/-- Every number from that of the first day to that of the last one is the number of a day. -/
theorem exists_ordinal_eq {n : Nat} (hfirst : first.ordinal ≤ n) (hlast : n ≤ last.ordinal) :
    ∃ d : Date, d.ordinal = n := by
  induction n,hfirst using Nat.le_induction with
  | base => exact ⟨first,rfl⟩
  | succ n hn ih =>
    obtain ⟨d,rfl⟩ := ih (Nat.le_of_succ_le hlast)
    obtain ⟨e,he⟩ := (ordinal_lt_iff.mp (Nat.lt_of_succ_le hlast)).exists_next?
    exact ⟨e,ordinal_of_next? he⟩

/-- One can go back to the first day and on to the last one. -/
theorem exists_minus?_iff {k : Int} : (∃ e, d.minus? k = some e) ↔
    (first.ordinal : Int) ≤ d.ordinal - k ∧ (d.ordinal : Int) - k ≤ last.ordinal := by
  simp only [minus?_eq_some_iff]
  constructor
  · rintro ⟨e,he⟩
    have hfirst := e.first_ordinal_le
    have hlast := e.ordinal_le_last
    omega
  · rintro ⟨hfirst,hlast⟩
    obtain ⟨e,he⟩ := exists_ordinal_eq (n := ((d.ordinal : Int) - k).toNat) (by omega) (by omega)
    exact ⟨e,by omega⟩

/-! ### Texts of days -/

/-- The numbers of a day of the Gregorian calendar, told month by month. -/
def IsDay (year month day : Nat) : Prop :=
  1 ≤ day ∧
    (month ∈ [1,3,5,7,8,10,12] ∧ day ≤ 31 ∨ month ∈ [4,6,9,11] ∧ day ≤ 30 ∨
      month = 2 ∧ (day ≤ 28 ∨ day = 29 ∧ 4 ∣ year ∧ (100 ∣ year → 400 ∣ year)))

theorem isLeap_iff : isLeap year = true ↔ 4 ∣ year ∧ (100 ∣ year → 400 ∣ year) := by
  simp only [isLeap,Bool.and_eq_true,Bool.or_eq_true,beq_iff_eq,bne_iff_ne,Nat.dvd_iff_mod_eq_zero]
  omega

/-- The lengths of the months are those of the calendar. -/
theorem isDay_iff : IsDay year month day ↔
    (1 ≤ month ∧ month ≤ 12) ∧ 1 ≤ day ∧ day ≤ daysIn year month := by
  unfold IsDay daysIn
  simp only [List.mem_cons,List.not_mem_nil,or_false,← isLeap_iff]
  constructor
  · rintro ⟨hday,⟨hm,hd⟩ | ⟨hm,hd⟩ | ⟨rfl,hd⟩⟩
    · rcases hm with rfl | rfl | rfl | rfl | rfl | rfl | rfl <;> simp <;> omega
    · rcases hm with rfl | rfl | rfl | rfl <;> simp <;> omega
    · cases hleap : isLeap year <;> simp [hleap] at hd ⊢ <;> omega
  · rintro ⟨hmonth,hday,hd⟩
    refine ⟨hday,?_⟩
    split at hd
    · rename_i hm
      refine Or.inr (Or.inr ⟨hm,?_⟩)
      cases hleap : isLeap year <;> simp [hleap] at hd ⊢ <;> omega
    · split at hd
      · rename_i hm
        simp only [Bool.or_eq_true,decide_eq_true_eq] at hm
        exact Or.inr (Or.inl ⟨by omega,hd⟩)
      · rename_i hm
        simp only [Bool.or_eq_true,decide_eq_true_eq,not_or] at hm
        exact Or.inl ⟨by omega,hd⟩

/-- A text is made of a year, a month and a day with hyphens between them. -/
def Spells (s : List Char) (year month day : Nat) : Prop :=
  ∃ y m n, splitOn '-' s = [y,m,n] ∧ yearOf? y = some year ∧ monthOf? m = some month ∧
    dayOf? n = some day

theorem yearOf?_le {s : List Char} (h : yearOf? s = some year) : year ≤ 9999 := by
  unfold yearOf? at h
  split at h
  · rename_i a b c d hdigits
    have hlt : ∀ n, some n ∈ s.map digitValue? → n < 10 := by
      intro n hn
      obtain ⟨x,-,hx⟩ := List.mem_map.mp hn
      exact digitValue?_lt hx
    rw [hdigits] at hlt
    have ha := hlt a (by simp)
    have hb := hlt b (by simp)
    have hc := hlt c (by simp)
    have hd := hlt d (by simp)
    have hyear := Option.some.inj h
    simp only [ofDigits,List.foldl_cons,List.foldl_nil] at hyear
    omega
  · exact absurd h (by simp)

/-- A text that is made so is read as the day with its numbers, if there is one. -/
theorem Spells.parse?_eq {s : List Char} (h : Spells s year month day) :
    parse? s = of? year month day := by
  obtain ⟨y,m,n,hsplit,hyear,hmonth,hday⟩ := h
  simp [parse?,hsplit,hyear,hmonth,hday]

theorem parse?_eq_some_iff {s : List Char} : parse? s = some d ↔ Spells s d.year d.month d.day := by
  constructor
  · intro h
    unfold parse? at h
    split at h
    · rename_i y m n hsplit
      simp only [Option.bind_eq_bind,Option.bind_eq_some_iff] at h
      obtain ⟨year,hyear,month,hmonth,day,hday,hd⟩ := h
      obtain ⟨rfl,rfl,rfl⟩ := of?_eq_some_iff.mp hd
      exact ⟨y,m,n,hsplit,hyear,hmonth,hday⟩
    · exact absurd h (by simp)
  · intro h
    rw [h.parse?_eq,of?_eq_some]

/-- A text of this form is read just when its numbers are those of a day. -/
theorem Spells.exists_parse?_iff {s : List Char} (h : Spells s year month day) :
    (∃ d, parse? s = some d) ↔ 1 ≤ year ∧ IsDay year month day := by
  obtain ⟨y,m,n,-,hyear,-⟩ := id h
  have hle := yearOf?_le hyear
  rw [h.parse?_eq,exists_of?_iff,isDay_iff]
  tauto

/-- The first day with a whole window before it. -/
def eighth : Date := (of? 1 1 8).get (by decide)

theorem before_eighth_iff : d.Before eighth ↔ d.ordinal ≤ recentDays := by
  have heighth : eighth.ordinal = recentDays + 1 := by decide
  rw [← ordinal_lt_iff,heighth,Nat.lt_succ_iff]

end Calendar.Date

namespace HomePage

open Calendar

/-- The window is seven days long. Whatever day is today, but for the first days of the calendar, a text of the
day that is a number of days before today is recent just when that number is less than seven; one can go back
to the first day of the calendar and on to the last one. A text that names no day is not recent, and one that
names a day is as recent as every other text for it. Before the eighth day of the calendar there is no telling,
just for texts that name a day. A text names a day just when it is made of the numbers of one. -/
theorem isRecent?_window (today : Date) :
    (¬ today.Before .eighth → ∀ k e, today.minus? k = some e →
      isRecent? (String.ofList e.iso) today = some (decide (k < 7))) ∧
    (∀ k, (∃ e, today.minus? k = some e) ↔ (Date.first.ordinal : Int) ≤ today.ordinal - k ∧
      (today.ordinal : Int) - k ≤ Date.last.ordinal) ∧
    (∀ s, Date.parse? s.toList = none → isRecent? s today = some false) ∧
    (∀ s e, Date.parse? s.toList = some e → isRecent? s today = isRecent? (String.ofList e.iso) today) ∧
    (today.Before .eighth → ∀ s, isRecent? s today = none ↔ ∃ e, Date.parse? s.toList = some e) ∧
    (∀ s e, Date.parse? s = some e ↔ Date.Spells s e.year e.month e.day) ∧
    ∀ s year month day, Date.Spells s year month day →
      ((∃ e, Date.parse? s = some e) ↔ 1 ≤ year ∧ Date.IsDay year month day) := by
  have hread : ∀ (s : String) (e : Date), Date.parse? s.toList = some e →
      isRecent? s today = e.isRecent? today := by
    intro s e he
    simp [isRecent?,he]
  have hiso : ∀ e : Date, isRecent? (String.ofList e.iso) today = e.isRecent? today := fun e =>
    hread _ e (by simpa using e.parse?_iso)
  have hunread : ∀ s, Date.parse? s.toList = none → isRecent? s today = some false := by
    intro s hs
    simp [isRecent?,hs]
  refine ⟨?_,fun k => Date.exists_minus?_iff,hunread,?_,?_,fun s e => Date.parse?_eq_some_iff,
    fun s year month day h => h.exists_parse?_iff⟩
  · intro hlate k e he
    rw [Date.before_eighth_iff] at hlate
    have hnumber := Date.minus?_eq_some_iff.mp he
    rw [hiso,Date.isRecent?,if_neg hlate,Option.some.injEq,decide_eq_decide]
    have hwindow : Date.recentDays = 7 := rfl
    omega
  · intro s e he
    rw [hread s e he,hiso]
  · intro hearly s
    cases hs : Date.parse? s.toList with
    | none => simp [hunread s hs]
    | some e =>
      rw [Date.before_eighth_iff] at hearly
      rw [hread s e hs,Date.isRecent?,if_pos hearly]
      simp

/-- The window around the end of a February with 29 days, and a text of a day that there is not. -/
theorem isRecent?_window_sample :
    (¬ Date.sample.Before .eighth ∧
      Date.sample.minus? 5 = some { year := 2024, month := 2, day := 29 } ∧
      Date.sample.minus? 7 = some { year := 2024, month := 2, day := 27 } ∧
      Date.parse? "2024-2-27".toList = some { year := 2024, month := 2, day := 27 } ∧
      Date.first.Before .eighth ∧ Date.Spells "2023-2-29".toList 2023 2 29) ∧
    isRecent? (String.ofList (Date.iso { year := 2024, month := 2, day := 29 })) .sample = some true ∧
    isRecent? (String.ofList (Date.iso { year := 2024, month := 2, day := 27 })) .sample = some false ∧
    isRecent? "2024-2-27" .sample = some false ∧ isRecent? "2024-2-27" .first = none ∧
    Date.parse? "2023-2-29".toList = none ∧ isRecent? "2023-2-29" .sample = some false := by
  obtain ⟨hwindow,-,hunread,hspelling,-,-,hdays⟩ := isRecent?_window .sample
  obtain ⟨-,-,-,-,hearly,-⟩ := isRecent?_window .first
  have hlate : ¬ Date.sample.Before .eighth := Date.before_eighth_iff.not.mpr (by decide)
  have hfirst : Date.first.Before .eighth := Date.before_eighth_iff.mpr (by decide)
  have hleap : Date.sample.minus? 5 = some { year := 2024, month := 2, day := 29 } := by decide
  have hweek : Date.sample.minus? 7 = some { year := 2024, month := 2, day := 27 } := by decide
  have hshort : Date.parse? "2024-2-27".toList = some { year := 2024, month := 2, day := 27 } := by decide
  have hspells : Date.Spells "2023-2-29".toList 2023 2 29 :=
    ⟨"2023".toList,"2".toList,"29".toList,by decide,by decide,by decide,by decide⟩
  have hnone : Date.parse? "2023-2-29".toList = none := by
    refine Option.eq_none_iff_forall_ne_some.mpr fun e he => ?_
    obtain ⟨-,-,hday⟩ := (hdays _ _ _ _ hspells).mp ⟨e,he⟩
    simp at hday
  have hlast := hwindow hlate 7 _ hweek
  exact ⟨⟨hlate,hleap,hweek,hshort,hfirst,hspells⟩,hwindow hlate 5 _ hleap,hlast,
    (hspelling _ _ hshort).trans hlast,(hearly hfirst _).mpr ⟨_,hshort⟩,hnone,hunread _ hnone⟩

end HomePage

end BlogSite
