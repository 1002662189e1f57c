import Mathlib.Algebra.Ring.Nat
import Mathlib.Tactic.Common

/-!
# Checked Arithmetic

Sums, differences and products of unsigned 64-bit numbers that say when they
do not fit. A computation written with them has a result exactly when none of
its steps wraps around or underflows, and its result is then the one of the
natural numbers.

## Main definitions

* `add`, `sub`, `mul`: The operations, each with the result it fits in.

## Theorems

* `add_of_lt`, `sub_of_le`, `mul_of_lt`: When an operation has its result.
* `add_eq_some_iff`, `sub_eq_some_iff`, `mul_eq_some_iff`: What it is then.
* `mapM_eq_some_map`, `eq_some_of_mapM`: A computation on each of a list.
-/

namespace Checked

def add (a b : Nat) : Option Nat :=
  -- Turned around in the test, which is else counted down from a constant `b`.
  if b + a < 2 ^ 64 then some (a + b) else none

def sub (a b : Nat) : Option Nat :=
  if b ≤ a then some (a - b) else none

def mul (a b : Nat) : Option Nat :=
  if a * b < 2 ^ 64 then some (a * b) else none

variable {a b c : Nat}

theorem add_of_lt (h : a + b < 2 ^ 64) : add a b = some (a + b) := by
  rw [add, Nat.add_comm b, if_pos h]

theorem sub_of_le (h : b ≤ a) : sub a b = some (a - b) := by
  rw [sub, if_pos h]

theorem mul_of_lt (h : a * b < 2 ^ 64) : mul a b = some (a * b) := by
  rw [mul, if_pos h]

theorem add_eq_some_iff : add a b = some c ↔ a + b < 2 ^ 64 ∧ a + b = c := by
  rw [add, Nat.add_comm b, Option.ite_none_right_eq_some, Option.some_inj]

theorem sub_eq_some_iff : sub a b = some c ↔ b ≤ a ∧ a - b = c := by
  rw [sub, Option.ite_none_right_eq_some, Option.some_inj]

theorem mul_eq_some_iff : mul a b = some c ↔ a * b < 2 ^ 64 ∧ a * b = c := by
  rw [mul, Option.ite_none_right_eq_some, Option.some_inj]

/-! ## Many at once -/

variable {α β : Type} {f : α → Option β} {l : List α}

theorem mapM_eq_some_map {g : α → β} (h : ∀ x ∈ l, f x = some (g x)) :
    l.mapM f = some (l.map g) := by
  induction l with
  | nil => rfl
  | cons x l ih =>
      rw [List.mapM_cons, h x List.mem_cons_self, ih fun y hy => h y (List.mem_cons_of_mem x hy)]
      rfl

/-- Where all of them have a result each one has. -/
theorem eq_some_of_mapM {r : List β} (h : l.mapM f = some r) : ∀ x ∈ l, ∃ y, f x = some y := by
  induction l generalizing r with
  | nil => exact fun x hx => absurd hx List.not_mem_nil
  | cons a l ih =>
      rw [List.mapM_cons] at h
      rcases Option.bind_eq_some_iff.mp h with ⟨b, hb, hrest⟩
      rcases Option.bind_eq_some_iff.mp hrest with ⟨bs, hbs, _⟩
      intro x hx
      rcases List.mem_cons.mp hx with rfl | hx
      · exact ⟨b, hb⟩
      · exact ih hbs x hx

end Checked
