import Mathlib.Algebra.Ring.Nat
import Mathlib.Data.List.Lex
import Mathlib.Order.Lattice
import Mathlib.Tactic.Common

/-!
# The Gregorian Calendar

Dates and times of day in the proleptic Gregorian calendar, and the seconds
they stand for, counted from the start of 1970.

Nothing here counts years off a number of days. `daysBeforeYear` is the closed
form, one leap year in four less one in a hundred plus one in four hundred, and
`daysBeforeYear_succ` recovers from it what a loop over the years adds at each
step. So a program that does count years off can be held against it.

A `DateTime` carries its own validity, so a month outside the year or a day
outside its month cannot be written down. The seconds it stands for are then
ordered as its fields are, read from the year down to the second, and that is
the whole of `unixSeconds_lt_iff`. Each step of its proof is that a unit is
over before the next of its kind begins.

## Main definitions

* `IsLeap`, `yearDays`, `monthDays`: The lengths of years and months.
* `daysBeforeYear`, `daysBeforeMonth`: What lies before one.
* `DateTime`: A valid date and time.
* `DateTime.fields`: Its numbers, from the year down.
* `DateTime.dayNumber`, `DateTime.unixSeconds`: What it stands for.

## Theorems

* `daysBeforeYear_succ`: A year is as long as it is.
* `daysBeforeMonth_thirteen`: The months are the year.
* `dayNumber_lt`: A date lies before the next year.
* `unixSeconds_lt`, `unixSeconds_lt_iff`: The order of dates.
-/

namespace Calendar

/-- Every fourth year, but of the full centuries only every fourth. -/
def IsLeap (y : Nat) : Prop :=
  4 ∣ y ∧ (100 ∣ y → 400 ∣ y)

instance (y : Nat) : Decidable (IsLeap y) :=
  inferInstanceAs (Decidable (4 ∣ y ∧ (100 ∣ y → 400 ∣ y)))

/-- The days of a year. -/
def yearDays (y : Nat) : Nat :=
  if IsLeap y then 366 else 365

/-- The days of a month, January being the first. -/
def monthDays (y : Nat) : Nat → Nat
  | 2 => if IsLeap y then 29 else 28
  | 4 | 6 | 9 | 11 => 30
  | _ => 31

/-- The days before a year, from the start of the year one. -/
def daysBeforeYear (y : Nat) : Nat :=
  365 * (y - 1) + (y - 1) / 4 - (y - 1) / 100 + (y - 1) / 400

/-- The days of a year before its month `m`. -/
def daysBeforeMonth (y m : Nat) : Nat :=
  ((List.range (m - 1)).map (fun k => monthDays y (k + 1))).sum

/-- A valid date and time of day. -/
structure DateTime where
  year : Nat
  month : Nat
  day : Nat
  hour : Nat
  minute : Nat
  second : Nat
  year_pos : 1 ≤ year
  month_mem : 1 ≤ month ∧ month ≤ 12
  day_mem : 1 ≤ day ∧ day ≤ monthDays year month
  hour_lt : hour < 24
  minute_lt : minute < 60
  second_lt : second < 60

/-! ## Years and months -/

/-- A year is as long as it is. -/
theorem daysBeforeYear_succ {y : Nat} (hy : 1 ≤ y) :
    daysBeforeYear (y + 1) = daysBeforeYear y + yearDays y := by
  rcases Nat.exists_eq_add_of_le' hy with ⟨x, rfl⟩
  have hle : x / 100 ≤ x / 4 := Nat.div_le_div_left (by decide) (by decide)
  -- A quotient of the count goes up in the years its divisor divides.
  have h4 : (x + 1) / 4 = x / 4 + if 4 ∣ x + 1 then 1 else 0 := Nat.succ_div
  have h100 : (x + 1) / 100 = x / 100 + if 100 ∣ x + 1 then 1 else 0 := Nat.succ_div
  have h400 : (x + 1) / 400 = x / 400 + if 400 ∣ x + 1 then 1 else 0 := Nat.succ_div
  unfold daysBeforeYear yearDays IsLeap
  rw [Nat.add_sub_cancel, Nat.add_sub_cancel, h4, h100, h400]
  by_cases hd4 : 4 ∣ x + 1
  · by_cases hd100 : 100 ∣ x + 1
    · by_cases hd400 : 400 ∣ x + 1
      · simp only [hd4, hd100, hd400, if_true, and_self, implies_true]
        omega
      · simp only [hd4, hd100, hd400, if_true, if_false, true_imp_iff, and_false]
        omega
    · have hd400 : ¬ 400 ∣ x + 1 := fun h => hd100 (Nat.dvd_trans (by decide) h)
      simp only [hd4, hd100, hd400, if_true, if_false, false_imp_iff, and_self]
      omega
  · have hd100 : ¬ 100 ∣ x + 1 := fun h => hd4 (Nat.dvd_trans (by decide) h)
    have hd400 : ¬ 400 ∣ x + 1 := fun h => hd100 (Nat.dvd_trans (by decide) h)
    simp only [hd4, hd100, hd400, if_false, false_and]
    omega

theorem daysBeforeYear_mono {a b : Nat} (ha : 1 ≤ a) (h : a ≤ b) :
    daysBeforeYear a ≤ daysBeforeYear b := by
  induction h with
  | refl => exact Nat.le_refl _
  | step hab ih =>
      rw [daysBeforeYear_succ (Nat.le_trans ha hab)]
      exact Nat.le_trans ih (Nat.le_add_right _ _)

theorem daysBeforeMonth_succ (y : Nat) {m : Nat} (hm : 1 ≤ m) :
    daysBeforeMonth y (m + 1) = daysBeforeMonth y m + monthDays y m := by
  rcases Nat.exists_eq_add_of_le hm with ⟨k, rfl⟩
  unfold daysBeforeMonth
  rw [Nat.add_sub_cancel, Nat.add_sub_cancel_left, Nat.add_comm 1 k, List.range_succ,
    List.map_append, List.sum_append, List.map_singleton, List.sum_singleton]

theorem daysBeforeMonth_mono (y : Nat) {a b : Nat} (ha : 1 ≤ a) (h : a ≤ b) :
    daysBeforeMonth y a ≤ daysBeforeMonth y b := by
  induction h with
  | refl => exact Nat.le_refl _
  | step hab ih =>
      rw [daysBeforeMonth_succ y (Nat.le_trans ha hab)]
      exact Nat.le_trans ih (Nat.le_add_right _ _)

/-- The months are the year. -/
theorem daysBeforeMonth_thirteen (y : Nat) : daysBeforeMonth y 13 = yearDays y := by
  unfold daysBeforeMonth yearDays
  by_cases hleap : IsLeap y
  · simp only [List.range, List.range.loop, List.map, monthDays, hleap, if_true]
    rfl
  · simp only [List.range, List.range.loop, List.map, monthDays, hleap, if_false]
    rfl

/-! ## Dates -/

namespace DateTime

/-- The numbers of a date, from the year down. -/
def fields (t : DateTime) : List Nat :=
  [t.year, t.month, t.day, t.hour, t.minute, t.second]

/-- The days before a date within its year. -/
def dayOfYear (t : DateTime) : Nat :=
  daysBeforeMonth t.year t.month + (t.day - 1)

/-- The days before a date, from the start of the year one. -/
def dayNumber (t : DateTime) : Nat :=
  daysBeforeYear t.year + t.dayOfYear

/-- The seconds before it on its day. -/
def secondOfDay (t : DateTime) : Nat :=
  t.hour * 3600 + t.minute * 60 + t.second

/-- The seconds from the start of 1970. -/
def unixSeconds (t : DateTime) : Int :=
  ((t.dayNumber : Int) - daysBeforeYear 1970) * 86400 + t.secondOfDay

theorem secondOfDay_lt (t : DateTime) : t.secondOfDay < 86400 := by
  have hh := t.hour_lt
  have hm := t.minute_lt
  have hs := t.second_lt
  unfold secondOfDay
  omega

/-- A date lies before the next month. -/
theorem dayOfYear_lt_month (t : DateTime) :
    t.dayOfYear < daysBeforeMonth t.year (t.month + 1) := by
  have hday := t.day_mem
  rw [daysBeforeMonth_succ t.year t.month_mem.1, dayOfYear]
  omega

/-- A date lies before the next year. -/
theorem dayNumber_lt (t : DateTime) : t.dayNumber < daysBeforeYear (t.year + 1) := by
  have hmonth := t.dayOfYear_lt_month
  have hyear := daysBeforeMonth_mono t.year (Nat.le_add_left 1 t.month)
    (Nat.succ_le_succ t.month_mem.2)
  rw [daysBeforeMonth_thirteen] at hyear
  rw [daysBeforeYear_succ t.year_pos, dayNumber]
  omega

/-- A smaller day is earlier. -/
theorem unixSeconds_lt_of_day {a b : DateTime} (h : a.dayNumber < b.dayNumber) :
    a.unixSeconds < b.unixSeconds := by
  have ha := a.secondOfDay_lt
  unfold unixSeconds
  omega

/-- Dates whose fields are smaller are earlier. -/
theorem unixSeconds_lt {a b : DateTime} (h : a.fields < b.fields) :
    a.unixSeconds < b.unixSeconds := by
  unfold fields at h
  simp only [List.cons_lt_cons_iff, List.not_lt_nil, and_false, or_false] at h
  rcases h with hy | ⟨hy, hm | ⟨hm, hd | ⟨hd, ht⟩⟩⟩
  · -- The year of the first is over before that of the second begins.
    refine unixSeconds_lt_of_day (Nat.lt_of_lt_of_le a.dayNumber_lt ?_)
    exact Nat.le_trans (daysBeforeYear_mono (Nat.le_add_left 1 _) hy) (Nat.le_add_right _ _)
  · -- So is the month.
    refine unixSeconds_lt_of_day ?_
    have hover := a.dayOfYear_lt_month
    have hmonth := daysBeforeMonth_mono a.year (Nat.le_add_left 1 a.month) hm
    unfold dayNumber dayOfYear at *
    rw [hy] at hover hmonth ⊢
    omega
  · refine unixSeconds_lt_of_day ?_
    have ha := a.day_mem.1
    unfold dayNumber dayOfYear
    rw [hy, hm]
    omega
  · -- On one day, the time of day decides.
    have hnumber : a.dayNumber = b.dayNumber := by
      unfold dayNumber dayOfYear
      rw [hy, hm, hd]
    have hlt : a.secondOfDay < b.secondOfDay := by
      have ham := a.minute_lt
      have has := a.second_lt
      unfold secondOfDay
      omega
    unfold unixSeconds
    rw [hnumber]
    omega

/-- The seconds are ordered as the fields are. -/
theorem unixSeconds_lt_iff {a b : DateTime} :
    a.unixSeconds < b.unixSeconds ↔ a.fields < b.fields := by
  constructor
  · intro h
    rcases lt_trichotomy a.fields b.fields with hlt | heq | hgt
    · exact hlt
    · -- The fields are all there is to a date.
      unfold fields at heq
      simp only [List.cons.injEq, and_true] at heq
      rcases heq with ⟨hy, hm, hd, hh, hmin, hs⟩
      unfold unixSeconds dayNumber dayOfYear secondOfDay at h
      rw [hy, hm, hd, hh, hmin, hs] at h
      exact absurd h (lt_irrefl _)
    · exact absurd h (not_lt_of_gt (unixSeconds_lt hgt))
  · exact unixSeconds_lt

end DateTime

end Calendar
