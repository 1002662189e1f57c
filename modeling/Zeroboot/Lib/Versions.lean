import Zeroboot.Lib.Trace

/-!
# Versions

A store that gives every object a version, and a new one with every change.

Whoever has read an object with its version can have it replaced on condition
that it still has that version. The condition is only worth something if a
version that was given out is never given out again. `Versions.Lawful` says so
of a step, and `Versions.unchanged` draws the conclusion for a run: where an
object has the same version at both ends, it was the same object all along. So
it was not changed and changed back, and not removed and made again.

## Main definitions

* `Versions`: How a store is read.
* `Versions.Lawful`: A step that gives out no version twice.

## Theorems

* `Versions.gone_for_good`: A version that is gone does not come back.
* `Versions.unchanged`: The same version, and so the same object all along.
-/

variable {S K O W L : Type}

/-- What is in a store, and the versions it has given out so far. -/
structure Versions (S K O W : Type) where
  live : S → K → Option (W × O)
  used : S → W → Prop

namespace Versions

/-- A step that remembers the versions given out, and that leaves an object as
    it is or gives it one that was not given out yet. -/
structure Lawful (V : Versions S K O W) (step : S → L → S → Prop) : Prop where
  remembered : ∀ {s s' l w}, step s l s' → V.used s w → V.used s' w
  fresh : ∀ {s s' l k w o}, step s l s' → V.live s' k = some (w, o) →
    V.live s k = some (w, o) ∨ ¬ V.used s w

variable {V : Versions S K O W} {step : S → L → S → Prop} {s s' : S} {ls : List L} {k : K} {w : W}
  {o o' : O}

theorem gone_for_good (hV : V.Lawful step) (h : Trace step s ls s') (hused : V.used s w)
    (hgone : ∀ o, V.live s k ≠ some (w, o)) : V.live s' k ≠ some (w, o) := by
  -- No step brings back a version that was given out.
  induction h with
  | done s => exact hgone o
  | @next s s1 s' l ls first rest ih =>
      refine ih (hV.remembered first hused) ?_
      intro o1 hlive
      rcases hV.fresh first hlive with hsame | hnew
      · exact hgone o1 hsame
      · exact hnew hused

/-- An object that has the version it had was never anything else in
    between. -/
theorem unchanged (hV : V.Lawful step) (h : Trace step s ls s') (hused : V.used s w)
    (hlive : V.live s k = some (w, o)) (hlive' : V.live s' k = some (w, o')) :
    o' = o ∧ Trace (fun a l b => step a l b ∧ V.live b k = V.live a k) s ls s' := by
  induction h with
  | done s =>
      rw [hlive] at hlive'
      exact ⟨(Prod.mk.inj (Option.some.inj hlive')).2.symm, .done s⟩
  | @next s s1 s' l ls first rest ih =>
      by_cases hsame : V.live s1 k = some (w, o)
      · rcases ih (hV.remembered first hused) hsame hlive' with ⟨ho, hrest⟩
        exact ⟨ho, .next ⟨first, hsame.trans hlive.symm⟩ hrest⟩
      · -- Once another object is there, the version is gone.
        refine absurd hlive' (gone_for_good hV rest (hV.remembered first hused) ?_)
        intro o1 hlive1
        rcases hV.fresh first hlive1 with hold | hnew
        · exact hsame (hlive1.trans (hold.symm.trans hlive))
        · exact hnew hused

end Versions
