import Mathlib

/-! # Civil calendars

  A calendar whose years have twelve months is determined by the length
  of each month. This module numbers its days by counting them one month
  and one year at a time from the first day of an epoch year, forwards
  and backwards, and shows that the numbering is the order of dates:

  * `dayNumber_lt_iff` compares two dates by their numbers;
  * `dayNumber_inj` recovers a date from its number;
  * `daysBeforeYear_eq` recognises a closed formula for the year starts;
  * `dayNumber_follows` numbers the day after a date by one more.

  Adding months moves a date along the sequence of all months and cuts its
  day to the length of the month it arrives in; up to day 28 nothing is
  cut, and the months add up (`shift_add`).
-/

/-- A calendar of twelve months, given by the month lengths. Months are
    numbered from one. -/
structure CivilCalendar where
  monthLength : Int → Int → Int
  monthLength_pos : ∀ y m, 0 < monthLength y m

namespace CivilCalendar

variable (c : CivilCalendar)

/-- Days of year `y` before its month `m`. -/
noncomputable def daysBeforeMonth (y m : Int) : Int := ∑ k ∈ Finset.Ico 1 m, c.monthLength y k

noncomputable def yearLength (y : Int) : Int := c.daysBeforeMonth y 13

/-- Days from the start of year `e` to the start of year `y`, negative when
    `y` comes first. -/
noncomputable def daysBeforeYear (e y : Int) : Int :=
  ∑ k ∈ Finset.Ico e y, c.yearLength k - ∑ k ∈ Finset.Ico y e, c.yearLength k

/-- The number of a date, counted from the first day of year `e`. -/
noncomputable def dayNumber (e y m d : Int) : Int :=
  c.daysBeforeYear e y + c.daysBeforeMonth y m + (d - 1)

/-- The dates of the calendar. -/
def IsDate (y m d : Int) : Prop :=
  (1 ≤ m ∧ m ≤ 12) ∧ 1 ≤ d ∧ d ≤ c.monthLength y m

/-! ### Counting month by month and year by year -/

variable {c}

@[simp] theorem daysBeforeMonth_one (y : Int) : c.daysBeforeMonth y 1 = 0 := by
  simp [daysBeforeMonth]

theorem daysBeforeMonth_succ (y : Int) {m : Int} (hm : 1 ≤ m) :
    c.daysBeforeMonth y (m + 1) = c.daysBeforeMonth y m + c.monthLength y m := by
  unfold daysBeforeMonth
  rw [← Finset.insert_Ico_right_eq_Ico_add_one hm, Finset.sum_insert (by simp), add_comm]

theorem daysBeforeMonth_mono (y : Int) {m m' : Int} (h : m ≤ m') :
    c.daysBeforeMonth y m ≤ c.daysBeforeMonth y m' := by
  unfold daysBeforeMonth
  apply Finset.sum_le_sum_of_subset_of_nonneg (Finset.Ico_subset_Ico_right h)
  intro k _ _
  exact (c.monthLength_pos y k).le

@[simp] theorem daysBeforeYear_self (e : Int) : c.daysBeforeYear e e = 0 := by
  simp [daysBeforeYear]

theorem daysBeforeYear_succ (e y : Int) :
    c.daysBeforeYear e (y + 1) = c.daysBeforeYear e y + c.yearLength y := by
  unfold daysBeforeYear
  by_cases hy : e ≤ y
  · -- at or after the epoch the first sum gains a year
    rw [← Finset.insert_Ico_right_eq_Ico_add_one hy, Finset.sum_insert (by simp),
      Finset.Ico_eq_empty (show ¬ y < e by omega),
      Finset.Ico_eq_empty (show ¬ y + 1 < e by omega)]
    simp only [Finset.sum_empty, sub_zero]
    ring
  · -- before the epoch the second sum loses one
    rw [← Finset.insert_Ico_add_one_left_eq_Ico (show y < e by omega),
      Finset.sum_insert (by simp), Finset.Ico_eq_empty (show ¬ e < y by omega),
      Finset.Ico_eq_empty (show ¬ e < y + 1 by omega)]
    simp only [Finset.sum_empty, zero_sub]
    ring

theorem daysBeforeYear_eq {e : Int} {f : Int → Int} (h0 : f e = 0)
    (hf : ∀ y, f (y + 1) = f y + c.yearLength y) (y : Int) :
    c.daysBeforeYear e y = f y := by
  induction y using Int.inductionOn' (b := e) with
  | zero => rw [daysBeforeYear_self, h0]
  | succ k _ ih => rw [daysBeforeYear_succ, hf, ih]
  | pred k _ ih =>
    have hstep := daysBeforeYear_succ (c := c) e (k - 1)
    have hfk := hf (k - 1)
    rw [sub_add_cancel] at hstep hfk
    omega

theorem yearLength_nonneg (y : Int) : 0 ≤ c.yearLength y := by
  unfold yearLength daysBeforeMonth
  apply Finset.sum_nonneg
  intro k _
  exact (c.monthLength_pos y k).le

theorem daysBeforeYear_mono (e : Int) {y y' : Int} (h : y ≤ y') :
    c.daysBeforeYear e y ≤ c.daysBeforeYear e y' := by
  induction y', h using Int.leInduction with
  | base => exact le_rfl
  | succ k _ ih =>
    rw [daysBeforeYear_succ]
    have := c.yearLength_nonneg k
    omega

/-! ### The numbering is the order of dates -/

theorem IsDate.lt_month {y m d : Int} (h : c.IsDate y m d) :
    c.daysBeforeMonth y m + (d - 1) < c.daysBeforeMonth y (m + 1) := by
  obtain ⟨⟨hm, _⟩, _, hd⟩ := h
  rw [daysBeforeMonth_succ y hm]
  omega

theorem IsDate.lt_year {y m d : Int} (e : Int) (h : c.IsDate y m d) :
    c.dayNumber e y m d < c.daysBeforeYear e (y + 1) := by
  have hmonth := h.lt_month
  have hyear : c.daysBeforeMonth y (m + 1) ≤ c.yearLength y :=
    daysBeforeMonth_mono y (by have := h.1.2; omega)
  rw [daysBeforeYear_succ]
  unfold dayNumber
  omega

theorem IsDate.daysBeforeMonth_nonneg {y m d : Int} (h : c.IsDate y m d) :
    0 ≤ c.daysBeforeMonth y m := by
  have := daysBeforeMonth_mono (c := c) y h.1.1
  rwa [daysBeforeMonth_one] at this

/-- `(y, m, d)` comes before `(y', m', d')`. -/
def Before (y m d y' m' d' : Int) : Prop :=
  y < y' ∨ y = y' ∧ (m < m' ∨ m = m' ∧ d < d')

theorem IsDate.dayNumber_lt {y m d y' m' d' : Int} (e : Int)
    (h : c.IsDate y m d) (h' : c.IsDate y' m' d') (hlt : Before y m d y' m' d') :
    c.dayNumber e y m d < c.dayNumber e y' m' d' := by
  obtain hy | ⟨rfl, hm | ⟨rfl, hd⟩⟩ := hlt
  · -- a whole year separates the two dates
    have h1 := h.lt_year e
    have h2 := daysBeforeYear_mono (c := c) e (show y + 1 ≤ y' by omega)
    have h3 := h'.daysBeforeMonth_nonneg
    have h4 := h'.2.1
    unfold dayNumber at *
    omega
  · -- a whole month separates them
    have h1 := h.lt_month
    have h2 := daysBeforeMonth_mono (c := c) y (show m + 1 ≤ m' by omega)
    have h3 := h'.2.1
    unfold dayNumber
    omega
  · unfold dayNumber
    omega

theorem before_trichotomy (y m d y' m' d' : Int) :
    Before y m d y' m' d' ∨ (y = y' ∧ m = m' ∧ d = d') ∨ Before y' m' d' y m d := by
  unfold Before
  omega

theorem IsDate.dayNumber_lt_iff {y m d y' m' d' : Int} (e : Int)
    (h : c.IsDate y m d) (h' : c.IsDate y' m' d') :
    c.dayNumber e y m d < c.dayNumber e y' m' d' ↔ Before y m d y' m' d' := by
  constructor
  · intro hlt
    obtain hb | ⟨rfl, rfl, rfl⟩ | hb := before_trichotomy y m d y' m' d'
    · exact hb
    · exact absurd hlt (lt_irrefl _)
    · have := h'.dayNumber_lt e h hb
      omega
  · exact h.dayNumber_lt e h'

theorem IsDate.dayNumber_inj {y m d y' m' d' : Int} (e : Int)
    (h : c.IsDate y m d) (h' : c.IsDate y' m' d')
    (heq : c.dayNumber e y m d = c.dayNumber e y' m' d') :
    y = y' ∧ m = m' ∧ d = d' := by
  obtain hb | hb | hb := before_trichotomy y m d y' m' d'
  · have := h.dayNumber_lt e h' hb
    omega
  · exact hb
  · have := h'.dayNumber_lt e h hb
    omega

/-! ### The day after -/

/-- `(y', m', d')` is the day after `(y, m, d)`: the next day of the month,
    or the first day of the next month, after December of the next year. -/
def Follows (c : CivilCalendar) (y m d y' m' d' : Int) : Prop :=
  d < c.monthLength y m ∧ y' = y ∧ m' = m ∧ d' = d + 1 ∨
  d = c.monthLength y m ∧ d' = 1 ∧
    (m < 12 ∧ y' = y ∧ m' = m + 1 ∨ m = 12 ∧ y' = y + 1 ∧ m' = 1)

theorem IsDate.of_follows {y m d y' m' d' : Int} (h : c.IsDate y m d)
    (hnext : c.Follows y m d y' m' d') : c.IsDate y' m' d' := by
  obtain ⟨hm, hd, _⟩ := h
  rcases hnext with ⟨hlt, rfl, rfl, rfl⟩ | ⟨_, rfl, ⟨hlt, rfl, rfl⟩ | ⟨_, rfl, rfl⟩⟩
  · exact ⟨hm, by omega, by omega⟩
  · exact ⟨by omega, le_rfl, c.monthLength_pos _ _⟩
  · exact ⟨by omega, le_rfl, c.monthLength_pos _ _⟩

/-- **The day after** has the next number. -/
theorem dayNumber_follows (e : Int) {y m d y' m' d' : Int} (hm : 1 ≤ m)
    (hnext : c.Follows y m d y' m' d') :
    c.dayNumber e y' m' d' = c.dayNumber e y m d + 1 := by
  unfold dayNumber
  rcases hnext with ⟨_, rfl, rfl, rfl⟩ | ⟨rfl, rfl, ⟨_, rfl, rfl⟩ | ⟨rfl, rfl, rfl⟩⟩
  · ring
  · rw [daysBeforeMonth_succ y' hm]
    ring
  · -- the days before month 13 are those of the year
    have hyear := daysBeforeMonth_succ (c := c) y (show (1 : Int) ≤ 12 by omega)
    have hlength : c.yearLength y = c.daysBeforeMonth y (12 + 1) := rfl
    rw [daysBeforeYear_succ, daysBeforeMonth_one, hlength, hyear]
    ring

/-! ### Months later -/

/-- The year of the month that comes `k` months after month `m` of year `y`. -/
def shiftYear (y m k : Int) : Int := (12 * y + (m - 1) + k) / 12

/-- The month that comes `k` months after month `m` of year `y`. -/
def shiftMonth (y m k : Int) : Int := (12 * y + (m - 1) + k) % 12 + 1

/-- The day that a date takes `k` months later. -/
def shiftDay (c : CivilCalendar) (y m d k : Int) : Int :=
  min d (c.monthLength (shiftYear y m k) (shiftMonth y m k))

theorem shiftMonth_range (y m k : Int) : 1 ≤ shiftMonth y m k ∧ shiftMonth y m k ≤ 12 := by
  unfold shiftMonth
  omega

theorem IsDate.shift {y m d : Int} (h : c.IsDate y m d) (k : Int) :
    c.IsDate (shiftYear y m k) (shiftMonth y m k) (c.shiftDay y m d k) := by
  refine ⟨shiftMonth_range y m k, ?_, min_le_right _ _⟩
  have hlength := c.monthLength_pos (shiftYear y m k) (shiftMonth y m k)
  exact le_min h.2.1 hlength

theorem shift_add (y m a b : Int) :
    shiftYear (shiftYear y m a) (shiftMonth y m a) b = shiftYear y m (a + b) ∧
      shiftMonth (shiftYear y m a) (shiftMonth y m a) b = shiftMonth y m (a + b) := by
  unfold shiftYear shiftMonth
  omega

theorem shift_zero (y : Int) {m : Int} (hm : 1 ≤ m ∧ m ≤ 12) :
    shiftYear y m 0 = y ∧ shiftMonth y m 0 = m := by
  unfold shiftYear shiftMonth
  omega

theorem shiftDay_of_le {n : Int} (hn : ∀ y m, n ≤ c.monthLength y m) (y m : Int) {d : Int}
    (hd : d ≤ n) (k : Int) : c.shiftDay y m d k = d :=
  min_eq_left (hd.trans (hn _ _))

end CivilCalendar
