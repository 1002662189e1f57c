import Mathlib.Algebra.Ring.Nat
import Mathlib.Tactic.Common

/-!
# Decimals of a Fixed Width

Numbers written with as many digits as a format gives them, and what comparing
such texts character by character compares.

`fixed` is the digits of a number, the last one split off first. It agrees with
padding the shortest form with zeros (`replicate_append_toDigits`), which is how
a formatter computes it, and unlike that form it has a length that does not
depend on the number. Comparing two of one width is therefore comparing the
numbers, and a record of several fields, each with its width and a character
behind it, is compared field by field: `writeFields_lt_iff`.

A field that outgrows its width loses both. That is why every statement about
the order asks for `Fits`.

## Main definitions

* `fixed`: The digits of a number, to a width.
* `writeFields`: Several numbers, each to a width and with a character behind.
* `Fits`: Every number is within its width.

## Theorems

* `append_lt_append_iff`: Texts with first parts of one length are compared
  there first.
* `replicate_append_toDigits`: Padding the shortest form gives the digits.
* `fixed_lt_iff`, `fixed_inj`: The digits are ordered as the numbers are.
* `writeFields_lt_iff`: So are records of them.
-/

namespace Decimal

/-- The digits of a number, most significant first, to a width. -/
def fixed : Nat → Nat → List Char
  | 0, _ => []
  | w + 1, n => fixed w (n / 10) ++ [Nat.digitChar (n % 10)]

theorem length_fixed (w n : Nat) : (fixed w n).length = w := by
  induction w generalizing n with
  | zero => rfl
  | succ w ih => rw [fixed, List.length_append, ih, List.length_singleton]

theorem fixed_zero (w : Nat) : fixed w 0 = List.replicate w '0' := by
  induction w with
  | zero => rfl
  | succ w ih =>
      rw [fixed, Nat.zero_div, ih, List.replicate_succ']
      rfl

/-- Padding the shortest form gives the digits. -/
theorem replicate_append_toDigits {w n : Nat} (hw : 0 < w) (hn : n < 10 ^ w) :
    List.replicate (w - (Nat.toDigits 10 n).length) '0' ++ Nat.toDigits 10 n = fixed w n := by
  -- The last digit is split off both forms.
  induction w generalizing n with
  | zero => exact absurd hw (Nat.lt_irrefl 0)
  | succ w ih =>
      by_cases hsmall : n < 10
      · rw [Nat.toDigits_of_lt_base hsmall, List.length_singleton, Nat.add_sub_cancel, fixed,
          Nat.div_eq_of_lt hsmall, Nat.mod_eq_of_lt hsmall, fixed_zero]
      · have hbig : 10 ≤ n := by omega
        have hpos : 0 < w := by
          by_contra hzero
          rw [show w = 0 by omega, Nat.zero_add, Nat.pow_one] at hn
          omega
        have hdiv : n / 10 < 10 ^ w := by
          rw [Nat.pow_succ] at hn
          omega
        rw [Nat.toDigits_of_base_le (by decide) hbig, List.length_append, List.length_singleton,
          Nat.add_sub_add_right, ← List.append_assoc, ih hpos hdiv, fixed]

/-! ## The order -/

/-- Texts with first parts of one length are compared there first. -/
theorem append_lt_append_iff {α : Type} [LT α] {a b x y : List α} (h : a.length = b.length) :
    a ++ x < b ++ y ↔ a < b ∨ a = b ∧ x < y := by
  induction a generalizing b with
  | nil =>
      rw [List.length_nil, eq_comm, List.length_eq_zero_iff] at h
      rw [h, List.nil_append, List.nil_append]
      simp only [List.not_lt_nil, false_or, true_and]
  | cons c cs ih =>
      cases b with
      | nil => exact absurd h (Nat.succ_ne_zero _)
      | cons d ds =>
          rw [List.length_cons, List.length_cons] at h
          rw [List.cons_append, List.cons_append, List.cons_lt_cons_iff, List.cons_lt_cons_iff,
            ih (Nat.succ_inj.mp h), List.cons.injEq]
          constructor
          · rintro (hc | ⟨hc, hl | ⟨hl, hx⟩⟩)
            · exact Or.inl (Or.inl hc)
            · exact Or.inl (Or.inr ⟨hc, hl⟩)
            · exact Or.inr ⟨⟨hc, hl⟩, hx⟩
          · rintro ((hc | ⟨hc, hl⟩) | ⟨⟨hc, hl⟩, hx⟩)
            · exact Or.inl hc
            · exact Or.inr ⟨hc, Or.inl hl⟩
            · exact Or.inr ⟨hc, Or.inr ⟨hl, hx⟩⟩

theorem digitChar_lt_iff {a b : Nat} (ha : a < 10) (hb : b < 10) :
    [Nat.digitChar a] < [Nat.digitChar b] ↔ a < b := by
  have hlt : Nat.digitChar a < Nat.digitChar b ↔ a < b := by
    have hval : Nat.digitChar a < Nat.digitChar b ↔
        (Nat.digitChar a).toNat < (Nat.digitChar b).toNat := by
      rw [Char.lt_def, UInt32.lt_iff_toNat_lt]
      rfl
    rw [hval, Nat.toNat_digitChar_of_lt_ten ha, Nat.toNat_digitChar_of_lt_ten hb]
    omega
  rw [List.cons_lt_cons_iff, hlt]
  simp only [List.not_lt_nil, and_false, or_false]

theorem fixed_inj {w n m : Nat} (hn : n < 10 ^ w) (hm : m < 10 ^ w) :
    fixed w n = fixed w m ↔ n = m := by
  constructor
  · intro h
    induction w generalizing n m with
    | zero =>
        rw [Nat.pow_zero] at hn hm
        omega
    | succ w ih =>
        rw [Nat.pow_succ] at hn hm
        rw [fixed, fixed] at h
        rcases List.append_inj h (by rw [length_fixed, length_fixed]) with ⟨hfront, hlast⟩
        have hdiv := ih (by omega) (by omega) hfront
        -- The last digits are equal as characters, so as numbers.
        have hnot (a b : Nat) (ha : a < 10) (hb : b < 10)
            (hab : [Nat.digitChar a] = [Nat.digitChar b]) : ¬ a < b := by
          intro hlt
          rw [← digitChar_lt_iff ha hb, hab] at hlt
          exact List.lt_irrefl _ hlt
        have hlo := hnot (n % 10) (m % 10) (by omega) (by omega) hlast
        have hhi := hnot (m % 10) (n % 10) (by omega) (by omega) hlast.symm
        omega
  · intro h
    rw [h]

/-- Digits to one width are ordered as the numbers are. -/
theorem fixed_lt_iff {w n m : Nat} (hn : n < 10 ^ w) (hm : m < 10 ^ w) :
    fixed w n < fixed w m ↔ n < m := by
  induction w generalizing n m with
  | zero =>
      rw [Nat.pow_zero] at hn hm
      rw [fixed, fixed]
      simp only [List.not_lt_nil, false_iff]
      omega
  | succ w ih =>
      rw [Nat.pow_succ] at hn hm
      have hn' : n / 10 < 10 ^ w := by omega
      have hm' : m / 10 < 10 ^ w := by omega
      rw [fixed, fixed, append_lt_append_iff (by rw [length_fixed, length_fixed]), ih hn' hm',
        fixed_inj hn' hm', digitChar_lt_iff (by omega) (by omega)]
      omega

/-! ## Records -/

/-- Several numbers, each to its width and with its character behind it. -/
def writeFields : List (Nat × Char) → List Nat → List Char
  | (w, c) :: fs, n :: ns => fixed w n ++ c :: writeFields fs ns
  | _, _ => []

/-- As many numbers as there are fields, and each within its width. -/
inductive Fits : List (Nat × Char) → List Nat → Prop
  | nil : Fits [] []
  | cons {w n : Nat} {c : Char} {fs : List (Nat × Char)} {ns : List Nat} (lt : n < 10 ^ w)
      (rest : Fits fs ns) : Fits ((w, c) :: fs) (n :: ns)

/-- Records of one format are ordered as the lists of their numbers are. -/
theorem writeFields_lt_iff {fs : List (Nat × Char)} {ns ms : List Nat} (hn : Fits fs ns)
    (hm : Fits fs ms) : writeFields fs ns < writeFields fs ms ↔ ns < ms := by
  induction hn generalizing ms with
  | nil =>
      cases hm
      rw [writeFields]
      · exact ⟨fun h => absurd h (List.not_lt_nil _), fun h => absurd h (List.not_lt_nil _)⟩
      · intro w c fs n ns hfs
        exact absurd hfs (List.cons_ne_nil _ _).symm
  | @cons w n c fs ns lt _ ih =>
      cases hm with
      | @cons _ m _ _ ms lt' rest' =>
          have hc : ¬ c < c := Char.lt_irrefl c
          rw [writeFields, writeFields, append_lt_append_iff (by rw [length_fixed, length_fixed]),
            fixed_lt_iff lt lt', fixed_inj lt lt', List.cons_lt_cons_iff, ih rest',
            List.cons_lt_cons_iff]
          simp only [hc, true_and, false_or]

end Decimal
