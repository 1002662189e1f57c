import Zeroboot.Lib.Calendar
import Zeroboot.Lib.Decimal
import Zeroboot.Core.Boot

/-!
# The Clock on a Claim

A claim carries the time it was made, so that a disk with two histories can be
read in order. `nowRfc3339` computes that time with two loops and no library,
and this file says that it is the right one.

The year loop takes a year's days off for as long as a whole year is left. What
it keeps is that the days before the year it has reached and the days it has
left add up to what it started from (`yearLoop_spec`), in the closed form of
the calendar, which has no loop in it. The month loop keeps the same sum over
the table of month lengths, for any table with more days than there are left
(`monthLoop_spec`). The days of a year are fewer than the table holds, so the
index stays in the table, on the last day of a leap year as on any other.

`dateTimeOf` is the date the loops arrive at. That it can be written down at all
says that the month is one of twelve and the day one of its month, since a
`Calendar.DateTime` is valid by construction.

In four digits a year can be compared as text. From the year 10000 on it has
five, and a later claim sorts before an earlier one; the statement about the
order stops there.

## Main definitions

* `dateTimeOf`: The date and time the loops arrive at.
* `rfc3339Fields`: The widths of the fields, and what stands behind each.

## Theorems

* `yearLoop_spec`, `monthLoop_spec`: What the loops keep.
* `unixSeconds_dateTimeOf`: The date is the right one.
* `nowRfc3339_eq`: The text is the date.
* `nowRfc3339_right`: The time on a claim is the right one, and times before
  the year 10000 are ordered as their texts are.
-/

namespace Zeroboot

open Calendar Decimal

/-! ## The loops -/

theorem isLeap_iff (y : Nat) : isLeap y = true ↔ IsLeap y := by
  unfold isLeap IsLeap
  simp only [Bool.or_eq_true, Bool.and_eq_true, beq_iff_eq, bne_iff_ne, ne_eq]
  omega

theorem yearLength_eq (y : Nat) : yearLength y = yearDays y := by
  unfold yearLength yearDays
  simp only [isLeap_iff]

/-- The year loop keeps the days, and stops inside the year it has reached. -/
theorem yearLoop_spec {y d : Nat} (hy : 1 ≤ y) :
    y ≤ (yearLoop y d).1 ∧ (yearLoop y d).1 ≤ y + d ∧
      (yearLoop y d).2 < yearDays (yearLoop y d).1 ∧
      daysBeforeYear (yearLoop y d).1 + (yearLoop y d).2 = daysBeforeYear y + d := by
  -- As the loop goes, one year at a time.
  induction y, d using yearLoop.induct with
  | case1 y d hlt =>
      rw [yearLoop, if_pos hlt]
      rw [yearLength_eq] at hlt
      exact ⟨Nat.le_refl _, Nat.le_add_right _ _, hlt, rfl⟩
  | case2 y d hge ih =>
      rw [yearLoop, if_neg hge]
      have hlen := yearLength_eq y
      have hpos := yearLength_pos y
      have hnext := daysBeforeYear_succ hy
      rcases ih (Nat.le_add_left 1 y) with ⟨hle, hbound, hlt, hsum⟩
      exact ⟨by omega, by omega, hlt, by omega⟩

/-- The month loop keeps the days, and stops inside the table when the table
    holds more of them. -/
theorem monthLoop_spec {lens : List Nat} {m d : Nat} (h : d < lens.sum) :
    ∃ k, k < lens.length ∧ (monthLoop lens m d).1 = m + k ∧
      (monthLoop lens m d).2 < lens[k]?.getD 0 ∧
      (lens.take k).sum + (monthLoop lens m d).2 = d := by
  induction lens generalizing m d with
  | nil =>
      rw [List.sum_nil] at h
      omega
  | cons len rest ih =>
      rw [List.sum_cons] at h
      by_cases hle : len ≤ d
      · rw [monthLoop, if_pos hle]
        have hrest : d - len < rest.sum := by omega
        rcases ih (m := m + 1) hrest with ⟨k, hk, hmonth, hday, hsum⟩
        refine ⟨k + 1, Nat.succ_lt_succ hk, by omega, ?_, ?_⟩
        · rw [List.getElem?_cons_succ]
          exact hday
        · rw [List.take_succ_cons, List.sum_cons]
          omega
      · rw [monthLoop, if_neg hle]
        refine ⟨0, Nat.zero_lt_succ _, rfl, ?_, ?_⟩
        · exact Nat.lt_of_not_le hle
        · rw [List.take_zero, List.sum_nil, Nat.zero_add]

/-- The table of the source is the calendar's. -/
theorem monthLengths_eq (y : Nat) :
    monthLengths y = (List.range 12).map (fun k => monthDays y (k + 1)) := by
  unfold monthLengths
  simp only [isLeap_iff]
  rfl

theorem sum_monthLengths (y : Nat) : (monthLengths y).sum = yearDays y := by
  rw [monthLengths_eq, ← daysBeforeMonth_thirteen]
  rfl

theorem sum_take_monthLengths (y : Nat) {k : Nat} (hk : k ≤ 12) :
    ((monthLengths y).take k).sum = daysBeforeMonth y (k + 1) := by
  rw [monthLengths_eq, ← List.map_take, List.take_range, Nat.min_eq_left hk, daysBeforeMonth,
    Nat.add_sub_cancel]

/-- On a day of the year, the month loop stops at its month and its day. -/
theorem monthLoop_day {y d : Nat} (h : d < yearDays y) :
    (monthLoop (monthLengths y) 0 d).1 < 12 ∧
      (monthLoop (monthLengths y) 0 d).2 <
        monthDays y ((monthLoop (monthLengths y) 0 d).1 + 1) ∧
      daysBeforeMonth y ((monthLoop (monthLengths y) 0 d).1 + 1) +
        (monthLoop (monthLengths y) 0 d).2 = d := by
  rw [← sum_monthLengths] at h
  rcases monthLoop_spec (m := 0) h with ⟨k, hk, hmonth, hday, hsum⟩
  rw [Nat.zero_add] at hmonth
  have hlt : k < 12 := by
    rw [monthLengths_eq, List.length_map, List.length_range] at hk
    exact hk
  rw [hmonth]
  refine ⟨hlt, ?_, ?_⟩
  · rw [monthLengths_eq, List.getElem?_map, List.getElem?_range hlt, Option.map_some,
      Option.getD_some] at hday
    rw [monthLengths_eq] at hmonth ⊢
    exact hday
  · rw [← sum_take_monthLengths y (Nat.le_of_lt hlt)]
    exact hsum

/-! ## The date -/

/-- Where the year loop stops. -/
def yearAndDay (secs : Nat) : Nat × Nat :=
  yearLoop 1970 (secs / 86400)

/-- Where the month loop stops. -/
def monthAndDay (secs : Nat) : Nat × Nat :=
  monthLoop (monthLengths (yearAndDay secs).1) 0 (yearAndDay secs).2

theorem yearAndDay_spec (secs : Nat) :
    1970 ≤ (yearAndDay secs).1 ∧ (yearAndDay secs).1 ≤ 1970 + secs / 86400 ∧
      (yearAndDay secs).2 < yearDays (yearAndDay secs).1 ∧
      daysBeforeYear (yearAndDay secs).1 + (yearAndDay secs).2 =
        daysBeforeYear 1970 + secs / 86400 :=
  yearLoop_spec (by decide)

theorem monthAndDay_spec (secs : Nat) :
    (monthAndDay secs).1 < 12 ∧
      (monthAndDay secs).2 < monthDays (yearAndDay secs).1 ((monthAndDay secs).1 + 1) ∧
      daysBeforeMonth (yearAndDay secs).1 ((monthAndDay secs).1 + 1) + (monthAndDay secs).2 =
        (yearAndDay secs).2 :=
  monthLoop_day (yearAndDay_spec secs).2.2.1

/-- The date and time the loops arrive at. -/
def dateTimeOf (secs : Nat) : DateTime where
  year := (yearAndDay secs).1
  month := (monthAndDay secs).1 + 1
  day := (monthAndDay secs).2 + 1
  hour := secs % 86400 / 3600
  minute := secs % 86400 % 3600 / 60
  second := secs % 86400 % 60
  year_pos := by
    have hyear := (yearAndDay_spec secs).1
    omega
  month_mem := ⟨Nat.le_add_left 1 _, (monthAndDay_spec secs).1⟩
  day_mem := ⟨Nat.le_add_left 1 _, (monthAndDay_spec secs).2.1⟩
  hour_lt := by omega
  minute_lt := by omega
  second_lt := by omega

/-- The date is the right one. -/
theorem unixSeconds_dateTimeOf (secs : Nat) : (dateTimeOf secs).unixSeconds = secs := by
  rcases yearAndDay_spec secs with ⟨-, -, -, hdays⟩
  rcases monthAndDay_spec secs with ⟨-, -, hmonth⟩
  have hnumber : (dateTimeOf secs).dayNumber = daysBeforeYear 1970 + secs / 86400 := by
    show daysBeforeYear (yearAndDay secs).1 + (daysBeforeMonth (yearAndDay secs).1
      ((monthAndDay secs).1 + 1) + ((monthAndDay secs).2 + 1 - 1)) = _
    rw [Nat.add_sub_cancel, hmonth, hdays]
  have htime : (dateTimeOf secs).secondOfDay = secs % 86400 := by
    show secs % 86400 / 3600 * 3600 + secs % 86400 % 3600 / 60 * 60 + secs % 86400 % 60 = _
    omega
  unfold DateTime.unixSeconds
  rw [hnumber, htime]
  omega

/-! ## The text -/

/-- A date and time as RFC 3339 writes it. -/
def rfc3339 (t : DateTime) : String :=
  padded 4 t.year ++ "-" ++ padded 2 t.month ++ "-" ++ padded 2 t.day ++ "T" ++
    padded 2 t.hour ++ ":" ++ padded 2 t.minute ++ ":" ++ padded 2 t.second ++ "Z"

/-- The width of each field, and what stands behind it. -/
def rfc3339Fields : List (Nat × Char) :=
  [(4, '-'), (2, '-'), (2, 'T'), (2, ':'), (2, ':'), (2, 'Z')]

/-- The text is the date. -/
theorem nowRfc3339_eq (secs : Nat) : nowRfc3339 secs = rfc3339 (dateTimeOf secs) :=
  rfl

theorem toList_padded {w n : Nat} (hw : 0 < w) (hn : n < 10 ^ w) :
    (padded w n).toList = fixed w n := by
  rw [padded, String.toList_ofList, replicate_append_toDigits hw hn]

/-- A valid date fits its fields, but for a year of five digits. -/
theorem fits_fields {t : DateTime} (hyear : t.year < 10000) : Fits rfc3339Fields t.fields := by
  have hmonth := t.month_mem
  have hday := t.day_mem
  have hlen : monthDays t.year t.month ≤ 31 := by
    unfold monthDays
    split
    · split_ifs <;> omega
    all_goals omega
  have hhour := t.hour_lt
  have hminute := t.minute_lt
  have hsecond := t.second_lt
  refine Fits.cons hyear (Fits.cons ?_ (Fits.cons ?_ (Fits.cons ?_ (Fits.cons ?_
    (Fits.cons ?_ Fits.nil)))))
  all_goals omega

theorem toList_rfc3339 {t : DateTime} (hyear : t.year < 10000) :
    (rfc3339 t).toList = writeFields rfc3339Fields t.fields := by
  have hfits := fits_fields hyear
  unfold rfc3339Fields DateTime.fields at *
  rcases hfits with _ | ⟨hy, _ | ⟨hm, _ | ⟨hd, _ | ⟨hh, _ | ⟨hmin, _ | ⟨hs, _⟩⟩⟩⟩⟩⟩
  have h2 : 0 < 2 := by decide
  simp only [rfc3339, String.toList_append, toList_padded (by decide : 0 < 4) hy,
    toList_padded h2 hm, toList_padded h2 hd, toList_padded h2 hh, toList_padded h2 hmin,
    toList_padded h2 hs, writeFields, List.append_assoc]
  rfl

/-- Dates of four-digit years are ordered as their texts are. -/
theorem rfc3339_lt_iff {a b : DateTime} (ha : a.year < 10000) (hb : b.year < 10000) :
    rfc3339 a < rfc3339 b ↔ a.unixSeconds < b.unixSeconds := by
  rw [String.lt_iff, toList_rfc3339 ha, toList_rfc3339 hb,
    writeFields_lt_iff (fits_fields ha) (fits_fields hb), DateTime.unixSeconds_lt_iff]

/-- The time on a claim is the right one: for any clock the loops stop with the
    month index in its table and the year in its word, and the text is that of
    a valid date which stands for the seconds it was given. Before the year
    10000 texts are ordered as the clocks are. -/
theorem nowRfc3339_right :
    (∀ secs : UInt64, (monthAndDay secs.toNat).1 < 12 ∧ (yearAndDay secs.toNat).1 < 2 ^ 63 ∧
      nowRfc3339 secs.toNat = rfc3339 (dateTimeOf secs.toNat) ∧
      (dateTimeOf secs.toNat).unixSeconds = secs.toNat) ∧
    ∀ s t : UInt64, (yearAndDay s.toNat).1 < 10000 → (yearAndDay t.toNat).1 < 10000 →
      (nowRfc3339 s.toNat < nowRfc3339 t.toNat ↔ s < t) := by
  refine ⟨fun secs => ?_, fun s t hs ht => ?_⟩
  · have hlt := secs.toNat_lt
    have hyear := (yearAndDay_spec secs.toNat).2.1
    exact ⟨(monthAndDay_spec secs.toNat).1, by omega, nowRfc3339_eq _,
      unixSeconds_dateTimeOf _⟩
  · rw [nowRfc3339_eq, nowRfc3339_eq, rfc3339_lt_iff hs ht, unixSeconds_dateTimeOf,
      unixSeconds_dateTimeOf, Int.ofNat_lt, UInt64.lt_iff_toNat_lt]

/-- The first two seconds of the epoch. -/
theorem nowRfc3339_first :
    (nowRfc3339 (0 : UInt64).toNat < nowRfc3339 (1 : UInt64).toNat ↔ (0 : UInt64) < 1) := by
  have hyear : yearAndDay 0 = (1970, 0) := by
    rw [yearAndDay, yearLoop, if_pos (by decide)]
  have hnext : yearAndDay 1 = (1970, 0) := by
    rw [yearAndDay, yearLoop, if_pos (by decide)]
  exact nowRfc3339_right.2 0 1 (by rw [UInt64.toNat_zero, hyear]; decide)
    (by rw [UInt64.toNat_one, hnext]; decide)

end Zeroboot
