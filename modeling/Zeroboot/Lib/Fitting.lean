import Mathlib.Algebra.BigOperators.Ring.List
import Mathlib.Algebra.Ring.Nat
import Mathlib.Order.Bounds.Basic
import Mathlib.Order.Nat
import Zeroboot.Lib.Layout

/-!
# First Fit, on a Medium

An allocator is asked for so many units, starting on a multiple of some unit,
in a range of which parts are taken. It answers with the lowest place there is.
What a caller wants to know is where that is, and for one who only ever adds to
an empty range the answer is easy: as long as every request is a whole number
of units, each lies right behind the one before.

The lowest place is the least element of the set of places. `search` finds it
by going through the multiples in order.

## Main definitions

* `Fits`: A place for a request.
* `stack`: Spans back to back.
* `search`: The lowest place, by trying them in order.

## Theorems

* `isLeast_fits_stack`: The first fit behind a stack is right on top of it.
* `search_eq_some_iff`: What is found is the lowest place.
-/

namespace Layout

variable {unit lo hi n a b : Nat} {used : List Span}

/-- There is a place at `a` for `n`, in the range from `lo` to `hi`, apart from
    what is used. -/
structure Fits (unit lo hi : Nat) (used : List Span) (n a : Nat) : Prop where
  aligned : unit ∣ a
  above : lo ≤ a
  below : a + n ≤ hi
  apart : ∀ s ∈ used, Span.Apart ⟨a, a + n⟩ s

/-! ## Back to back -/

/-- Spans of these lengths, one behind the other from `a` on. -/
def stack (a : Nat) : List Nat → List Span
  | [] => []
  | n :: ns => ⟨a, a + n⟩ :: stack (a + n) ns

/-- A stack ends where its lengths add up to. -/
theorem stop_le_of_mem_stack {ns : List Nat} {s : Span} (h : s ∈ stack a ns) :
    s.stop ≤ a + ns.sum := by
  induction ns generalizing a with
  | nil => exact absurd h List.not_mem_nil
  | cons n ns ih =>
      rw [List.sum_cons]
      rcases List.mem_cons.mp h with rfl | h
      · simp only
        omega
      · have hle := ih h
        omega

/-- There are no gaps in a stack. -/
theorem exists_mem_stack {ns : List Nat} (hle : a ≤ b) (hlt : b < a + ns.sum) :
    ∃ s ∈ stack a ns, s.start ≤ b ∧ b < s.stop := by
  induction ns generalizing a with
  | nil =>
      rw [List.sum_nil] at hlt
      omega
  | cons n ns ih =>
      rw [List.sum_cons] at hlt
      by_cases hb : b < a + n
      · exact ⟨⟨a, a + n⟩, List.mem_cons_self, hle, hb⟩
      · rcases ih (a := a + n) (by omega) (by omega) with ⟨s, hs, hin⟩
        exact ⟨s, List.mem_cons_of_mem _ hs, hin⟩

/-- Of the multiples at or above `lo`, the one less than a unit away is the
    lowest. -/
theorem le_of_dvd_of_lt_add (ha : unit ∣ a) (hb : unit ∣ b) (hlt : a < lo + unit)
    (hle : lo ≤ b) : a ≤ b := by
  by_contra hc
  -- The difference would be a multiple short of one unit.
  have hsub : a - b = 0 := Nat.eq_zero_of_dvd_of_lt (Nat.dvd_sub ha hb) (by omega)
  omega

/-- The first fit behind a stack that starts as low as it can is right on top
    of it. -/
theorem isLeast_fits_stack {ns : List Nat} (hused : ∀ s, s ∈ used ↔ s ∈ stack a ns)
    (ha : unit ∣ a) (hlo : lo ≤ a) (hlt : a < lo + unit) (hunit : ∀ m ∈ ns, unit ∣ m)
    (hn : 0 < n) (hroom : a + ns.sum + n ≤ hi) :
    IsLeast {b | Fits unit lo hi used n b} (a + ns.sum) := by
  have hsum : unit ∣ ns.sum := List.dvd_sum hunit
  constructor
  · exact
      { aligned := Nat.dvd_add ha hsum
        above := by omega
        below := hroom
        apart := fun s hs => Or.inr (stop_le_of_mem_stack ((hused s).mp hs)) }
  · intro b hb
    by_contra hc
    -- Anything lower starts within the stack.
    have hle : a ≤ b := le_of_dvd_of_lt_add ha hb.aligned hlt hb.above
    rcases exists_mem_stack hle (Nat.lt_of_not_le hc) with ⟨s, hs, hstart, hstop⟩
    rcases hb.apart s ((hused s).mpr hs) with hbefore | hbehind
    · simp only at hbefore
      omega
    · simp only at hbehind
      omega

/-! ## Found by trying -/

instance : Decidable (Fits unit lo hi used n a) :=
  decidable_of_iff (unit ∣ a ∧ lo ≤ a ∧ a + n ≤ hi ∧
      ∀ s ∈ used, a + n ≤ s.start ∨ s.stop ≤ a)
    ⟨fun h => ⟨h.1, h.2.1, h.2.2.1, h.2.2.2⟩, fun h => ⟨h.aligned, h.above, h.below, h.apart⟩⟩

/-- The lowest place, by trying the multiples of the unit in order. -/
def search (unit lo hi : Nat) (used : List Span) (n : Nat) : Option Nat :=
  ((List.range (hi / unit + 1)).find? (fun k => decide (Fits unit lo hi used n (unit * k)))).map
    (unit * ·)

/-- What is found is the lowest place. -/
theorem search_eq_some_iff :
    search unit lo hi used n = some a ↔ IsLeast {b | Fits unit lo hi used n b} a := by
  unfold search
  simp only [Option.map_eq_some_iff, List.find?_range_eq_some, decide_eq_true_eq,
    Bool.not_eq_true', decide_eq_false_iff_not, List.mem_range]
  constructor
  · rintro ⟨k, ⟨hfits, _, hnone⟩, rfl⟩
    refine ⟨hfits, fun b hb => ?_⟩
    rcases hb.aligned with ⟨j, rfl⟩
    -- A lower one would have been tried before.
    by_contra hc
    exact hnone j (Nat.lt_of_mul_lt_mul_left (Nat.lt_of_not_le hc)) hb
  · rintro ⟨hfits, hleast⟩
    rcases Nat.eq_zero_or_pos unit with rfl | hunit
    · -- The only multiple there is to try.
      have ha : a = 0 := Nat.eq_zero_of_zero_dvd hfits.aligned
      rw [ha] at hfits
      exact ⟨0, ⟨by rwa [Nat.zero_mul], Nat.succ_pos _, fun j hj => absurd hj (Nat.not_lt_zero j)⟩,
        ha.symm⟩
    · rcases hfits.aligned with ⟨k, rfl⟩
      have hbelow := hfits.below
      have hle : k ≤ hi / unit := by
        rw [Nat.le_div_iff_mul_le hunit, Nat.mul_comm]
        omega
      refine ⟨k, ⟨hfits, Nat.lt_succ_of_le hle, fun j hj hfit => ?_⟩, rfl⟩
      exact absurd (hleast hfit) (Nat.not_le_of_lt (Nat.mul_lt_mul_of_pos_left hj hunit))

/-- Where there is a place, one is found. -/
theorem exists_search_eq_some (h : Fits unit lo hi used n a) :
    ∃ b, search unit lo hi used n = some b :=
  ⟨_, search_eq_some_iff.mpr (Nat.isLeast_find ⟨a, h⟩)⟩

end Layout
