import Mathlib.Data.List.Basic
import Mathlib.Logic.Function.Iterate

/-!
# Traces

Runs of a labelled transition system, with their labels.

A run that is only known to get from one state to another has no history. A
`Trace` carries the labels it saw, in order, so it can be said of a run what
was done in it, and the same labels can be read by a second, simpler system.
`Trace.simulates` is how the two are held together: where a relation between
their states is kept by every step, a run of the one is a run of the other
with the same labels.

`Trace.first_change` takes a run apart where something it started with is
given up for the first time. `Trace.iterates` is for what every step does the
same thing to.

## Main definitions

* `Trace`: A run and its labels.

## Theorems

* `Trace.simulates`: A run of a system is a run of what it simulates.
* `Trace.keeps`: What every step keeps, and what it is labelled with.
* `Trace.first_change`: Where a run leaves off what it started with.
* `Trace.iterates`: What a run makes of something, when every step does the
  same to it.
-/

variable {S A B L : Type} {step : S → L → S → Prop} {s s' s'' : S} {ls : List L}

/-- A run of a system, and the labels of its steps. -/
inductive Trace (step : S → L → S → Prop) : S → List L → S → Prop where
  | done (s : S) : Trace step s [] s
  | next {s s' s'' : S} {l : L} {ls : List L} (first : step s l s') (rest : Trace step s' ls s'') :
      Trace step s (l :: ls) s''

namespace Trace

theorem single {l : L} (h : step s l s') : Trace step s [l] s' :=
  .next h (.done s')

theorem append {ls' : List L} (h : Trace step s ls s') (h' : Trace step s' ls' s'') :
    Trace step s (ls ++ ls') s'' := by
  induction h with
  | done s => exact h'
  | next first _ ih => exact .next first (ih h')

/-- A run with a label in front has a step with that label. -/
theorem uncons {l : L} (h : Trace step s (l :: ls) s'') :
    ∃ s', step s l s' ∧ Trace step s' ls s'' := by
  cases h with
  | next first rest => exact ⟨_, first, rest⟩

/-- A run whose labels come in two parts is two runs. -/
theorem split {ls' : List L} (h : Trace step s (ls ++ ls') s'') :
    ∃ s', Trace step s ls s' ∧ Trace step s' ls' s'' := by
  -- On the labels of the first part.
  induction ls generalizing s with
  | nil => exact ⟨s, .done s, h⟩
  | cons l ls ih =>
      rcases h.uncons with ⟨s1, first, rest⟩
      rcases ih rest with ⟨s', hfront, hback⟩
      exact ⟨s', .next first hfront, hback⟩

/-- A run of a system is a run of every system that follows its steps, as long
    as its labels are ones that are followed. -/
theorem simulates {follow : A → L → A → Prop} {R : S → A → Prop} {Q : L → Prop}
    (hstep : ∀ {s s' l a}, R s a → Q l → step s l s' → ∃ a', follow a l a' ∧ R s' a')
    (h : Trace step s ls s') (hQ : ∀ l ∈ ls, Q l) {a : A} (hR : R s a) :
    ∃ a', Trace follow a ls a' ∧ R s' a' := by
  induction h generalizing a with
  | done s => exact ⟨a, .done a, hR⟩
  | next first _ ih =>
      rcases hstep hR (hQ _ List.mem_cons_self) first with ⟨a1, hfollow, hR1⟩
      rcases ih (fun l hl => hQ l (List.mem_cons_of_mem _ hl)) hR1 with ⟨a2, hrest, hR2⟩
      exact ⟨a2, .next hfollow hrest, hR2⟩

/-- What every step keeps is kept by a run, and what every step from there is
    labelled with, every label of the run is. -/
theorem keeps {P : S → Prop} {Q : L → Prop}
    (hstep : ∀ {s s' l}, P s → step s l s' → Q l ∧ P s') (h : Trace step s ls s') (hP : P s) :
    (∀ l ∈ ls, Q l) ∧ P s' := by
  induction h with
  | done s => exact ⟨fun l hl => absurd hl List.not_mem_nil, hP⟩
  | next first _ ih =>
      rcases hstep hP first with ⟨hl, hP'⟩
      rcases ih hP' with ⟨hls, hlast⟩
      exact ⟨List.forall_mem_cons.mpr ⟨hl, hls⟩, hlast⟩

/-- A run that ends with another value than it started with has a first step
    that gave it up. -/
theorem first_change (f : S → B) (h : Trace step s ls s') (hne : f s' ≠ f s) :
    ∃ before l behind s1 s2, ls = before ++ l :: behind ∧ Trace step s before s1 ∧
      step s1 l s2 ∧ Trace step s2 behind s' ∧ f s1 = f s ∧ f s2 ≠ f s := by
  induction h with
  | done s => exact absurd rfl hne
  | @next s s1 s' l ls first rest ih =>
      by_cases hsame : f s1 = f s
      · rw [← hsame] at hne ⊢
        rcases ih hne with ⟨before, l', behind, s2, s3, rfl, hb, hl, ha, h2, h3⟩
        exact ⟨l :: before, l', behind, s2, s3, rfl, .next first hb, hl, ha, h2, h3⟩
      · exact ⟨[], l, ls, s, s1, rfl, .done s, first, rest, rfl, hsame⟩

/-- What every step does the same to, a run does that to as often as it has
    steps. -/
theorem iterates {f : S → B} {g : B → B} (hstep : ∀ {s s' l}, step s l s' → f s' = g (f s))
    (h : Trace step s ls s') : f s' = g^[ls.length] (f s) := by
  induction h with
  | done s => rfl
  | next first _ ih => rw [ih, List.length_cons, Function.iterate_succ_apply, hstep first]

end Trace
