import Mathlib.Data.List.Sort

/-!
# Stable Sorting

What somebody who takes the front of a sorted list gets, told without the
sort. Under a total order that comes with ties, the front is the least element
of the list, and of equals the one that came first. A key of two values does
no more than put one group before the other.

## Main definitions

* `Least`: The least element of a list, and of equals the first.

## Theorems

* `Least.unique`: There is one.
* `head?_insertionSort`: The front of a sorted list is the least of the list.
* `insertionSort_two`: Sorting by a key of two values.
* `insertionSort_eq_of_perm`: A sorted list is what any order of it sorts to.
-/

namespace Sorting

variable {α : Type} {r : α → α → Prop}

/-- The least element of a list, and of equals the first: what came before it
    was worse, and what came behind it is no better. -/
def Least (r : α → α → Prop) (x : α) (l : List α) : Prop :=
  ∃ before behind, l = before ++ x :: behind ∧ (∀ y ∈ before, ¬ r y x) ∧ ∀ y ∈ behind, r x y

theorem Least.mem {x : α} {l : List α} (h : Least r x l) : x ∈ l := by
  rcases h with ⟨before, behind, rfl, _, _⟩
  exact List.mem_append_right before List.mem_cons_self

theorem least_singleton (x : α) : Least r x [x] :=
  ⟨[], [], rfl, fun _ hy => absurd hy List.not_mem_nil, fun _ hy => absurd hy List.not_mem_nil⟩

/-- There is one least element of a list. -/
theorem Least.unique {x y : α} {l : List α} (hx : Least r x l) (hy : Least r y l) : x = y := by
  rcases hx with ⟨before, behind, rfl, hbefore, hbehind⟩
  rcases hy with ⟨before', behind', heq, hbefore', hbehind'⟩
  -- Of two different ones, one would stand before the other and be both worse and no worse.
  rcases List.append_eq_append_iff.mp heq with ⟨mid, rfl, hmid⟩ | ⟨mid, rfl, hmid⟩
  · cases mid with
    | nil => exact (List.cons.inj hmid).1
    | cons z mid =>
        rcases List.cons.inj hmid with ⟨rfl, rfl⟩
        exact absurd (hbehind y (List.mem_append_right mid List.mem_cons_self))
          (hbefore' x (List.mem_append_right before List.mem_cons_self))
  · cases mid with
    | nil => exact (List.cons.inj hmid).1.symm
    | cons z mid =>
        rcases List.cons.inj hmid with ⟨rfl, rfl⟩
        exact absurd (hbehind' x (List.mem_append_right mid List.mem_cons_self))
          (hbefore y (List.mem_append_right before' List.mem_cons_self))

section Front

variable [DecidableRel r]

/-- One more element takes the front of a sorted list unless the one that is
    there is strictly better. -/
theorem head?_orderedInsert (a : α) (l : List α) :
    (l.orderedInsert r a).head? =
      match l.head? with
      | none => some a
      | some b => if r a b then some a else some b := by
  cases l with
  | nil => rfl
  | cons b l =>
      by_cases hab : r a b
      · simp only [List.orderedInsert_cons, List.head?_cons, if_pos hab]
      · simp only [List.orderedInsert_cons, List.head?_cons, if_neg hab]

variable [Std.Total r] [IsTrans α r]

/-- The least of a list stays the least behind an element that is strictly
    worse, and gives way to any other. -/
theorem Least.cons {b : α} {l : List α} (h : Least r b l) (a : α) :
    Least r (if r a b then a else b) (a :: l) := by
  rcases h with ⟨before, behind, rfl, hbefore, hbehind⟩
  split_ifs with hab
  · refine ⟨[], before ++ b :: behind, rfl, fun _ hy => absurd hy List.not_mem_nil, ?_⟩
    intro y hy
    rcases List.mem_append.mp hy with hy | hy
    · -- What was worse than `b` is worse than `a`.
      rcases Std.Total.total (r := r) b y with hby | hyb
      · exact IsTrans.trans _ _ _ hab hby
      · exact absurd hyb (hbefore y hy)
    · rcases List.mem_cons.mp hy with rfl | hy
      · exact hab
      · exact IsTrans.trans _ _ _ hab (hbehind y hy)
  · refine ⟨a :: before, behind, rfl, ?_, hbehind⟩
    intro y hy
    rcases List.mem_cons.mp hy with rfl | hy
    · exact hab
    · exact hbefore y hy

theorem least_of_head? {l : List α} {x : α} (h : (l.insertionSort r).head? = some x) :
    Least r x l := by
  induction l generalizing x with
  | nil =>
      exact absurd h (by
        simp only [List.insertionSort_nil, List.head?_nil, reduceCtorEq, not_false_eq_true])
  | cons a l ih =>
      rw [List.insertionSort_cons, head?_orderedInsert] at h
      rcases hhead : (l.insertionSort r).head? with _ | b
      · rw [hhead, Option.some.injEq] at h
        have hl : l = [] := by
          rw [← List.length_eq_zero_iff, ← List.length_insertionSort r,
            List.head?_eq_none_iff.mp hhead]
          rfl
        rw [hl, h]
        exact least_singleton x
      · have hfront : x = if r a b then a else b := by
          rw [hhead] at h
          simp only at h
          split_ifs at h ⊢
          · exact (Option.some.inj h).symm
          · exact (Option.some.inj h).symm
        rw [hfront]
        exact (ih hhead).cons a

/-- The front of a sorted list is the least of the list. -/
theorem head?_insertionSort {l : List α} {x : α} :
    (l.insertionSort r).head? = some x ↔ Least r x l := by
  constructor
  · exact least_of_head?
  · intro h
    rcases hhead : (l.insertionSort r).head? with _ | y
    · have hmem := (List.mem_insertionSort r).mpr h.mem
      rw [List.head?_eq_none_iff.mp hhead] at hmem
      exact absurd hmem List.not_mem_nil
    · rw [(least_of_head? hhead).unique h]

end Front

section Two

variable [DecidableRel r] {p : α → Bool}

/-- Sorting by a key of two values puts one group before the other and leaves
    the order within each as it is. -/
theorem insertionSort_two (h : ∀ a b, r a b ↔ (p b = true → p a = true)) (l : List α) :
    l.insertionSort r = l.filter p ++ l.filter (fun x => !p x) := by
  induction l with
  | nil => rfl
  | cons a l ih =>
      rw [List.insertionSort_cons, ih]
      rcases hp : p a with _ | _
      · -- It passes the first group and stays in front of the second.
        have hfirst : ∀ b ∈ l.filter p, decide (¬ r a b) = true := by
          intro b hb
          rw [decide_eq_true_iff, h, hp]
          exact fun hr => absurd (hr (List.mem_filter.mp hb).2) Bool.false_ne_true
        have hsecond : ∀ b ∈ l.filter (fun x => !p x), r a b := by
          intro b hb
          have hpb := (List.mem_filter.mp hb).2
          rw [Bool.not_eq_true'] at hpb
          exact (h a b).mpr fun hb' => absurd (hb'.symm.trans hpb) Bool.noConfusion
        rw [List.orderedInsert_eq_take_drop, List.takeWhile_append_of_pos hfirst,
          List.dropWhile_append_of_pos hfirst, List.filter_cons_of_neg (by rw [hp]; decide),
          List.filter_cons_of_pos (by rw [hp]; rfl)]
        rcases hrest : l.filter (fun x => !p x) with _ | ⟨b, rest⟩
        · rw [List.takeWhile_nil, List.dropWhile_nil, List.append_nil]
        · have hb := hsecond b (by rw [hrest]; exact List.mem_cons_self)
          simp only [List.takeWhile_cons, List.dropWhile_cons, hb, not_true_eq_false,
            decide_false, Bool.false_eq_true, if_false, List.append_nil]
      · -- Nothing is strictly better.
        rw [List.filter_cons_of_pos hp, List.filter_cons_of_neg (by rw [hp]; decide)]
        rcases hrest : l.filter p ++ l.filter (fun x => !p x) with _ | ⟨b, rest⟩
        · rw [List.cons_append, hrest]
          rfl
        · rw [List.orderedInsert_cons_of_le _ _ ((h a b).mpr fun _ => hp), List.cons_append, hrest]

end Two

/-- A sorted list is what any order of it sorts to. -/
theorem insertionSort_eq_of_perm [DecidableRel r] [Std.Antisymm r] [Std.Total r] [IsTrans α r]
    {l c : List α} (hs : c.Pairwise r) (hp : l.Perm c) : l.insertionSort r = c := by
  have hsub : c.Sublist (l.insertionSort r) := List.sublist_insertionSort' hs hp.symm.subperm
  refine (hsub.eq_of_length ?_).symm
  rw [List.length_insertionSort, hp.length_eq]

end Sorting
