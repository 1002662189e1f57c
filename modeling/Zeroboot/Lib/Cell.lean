import Zeroboot.Lib.Trace
import Mathlib.Data.List.Induction
import Mathlib.Logic.Function.Basic

/-!
# A Cell Without a Lock

Processes that share one value, look at it, and write it later.

What a process writes it decides by the value it saw, and between its look and
its write any other process may write. Nothing keeps them apart: `Step` has no
lock in it. Three things hold all the same. The value is always the one written
last, whoever wrote it: `value_eq`. A write that no other write came in between
is one that the value before it allows: `allowed_of_undisturbed`. And a run in
which every write is like that is a run of the cell that looks and writes in
one step: `serial`. So a write that should not be there takes another one at
the wrong time.

## Main definitions

* `Rules`: What may be written over what.
* `Event`, `Step`: Looks and writes, in any order.
* `Atomic`: Both in one step.
* `Undisturbed`, `Serial`: A write without another in between.

## Theorems

* `value_eq`: The last writer wins.
* `allowed_of_undisturbed`: What an undisturbed write wrote over.
* `serial`: A serial run is an atomic one.
-/

namespace Cell

/-- Which decisions a value allows, and what a record that carries out a
    decision makes of the cell. -/
structure Rules (C D R : Type) where
  allows : C → D → Prop
  decision : R → D
  put : R → C

/-- A process looks and decides, or gives up, or writes. -/
inductive Event (P R : Type) where
  | reads (p : P)
  | drops (p : P)
  | writes (p : P) (r : R)

/-- The value, and what each process is going to write. -/
structure State (C D P : Type) where
  value : C
  going : P → Option D

variable {C D R P : Type}

def Event.record : Event P R → Option R
  | writes _ r => some r
  | _ => none

inductive Step [DecidableEq P] (rules : Rules C D R) :
    State C D P → Event P R → State C D P → Prop where
  | reads (st : State C D P) (p : P) (d : D) (idle : st.going p = none)
      (allowed : rules.allows st.value d) :
      Step rules st (.reads p) { st with going := Function.update st.going p (some d) }
  | drops (st : State C D P) (p : P) :
      Step rules st (.drops p) { st with going := Function.update st.going p none }
  | writes (st : State C D P) (p : P) (r : R) (going : st.going p = some (rules.decision r)) :
      Step rules st (.writes p r)
        { value := rules.put r, going := Function.update st.going p none }

/-- The cell with a look and a write in one step. -/
inductive Atomic (rules : Rules C D R) : C → Option R → C → Prop where
  | idle (value : C) : Atomic rules value none value
  | enter {value : C} {r : R} (allowed : rules.allows value (rules.decision r)) :
      Atomic rules value (some r) (rules.put r)

/-- The value that some events leave behind. -/
def after (rules : Rules C D R) (value : C) (events : List (Event P R)) : C :=
  ((events.filterMap Event.record).getLast?.map rules.put).getD value

/-- Between the last look of a process and its write nobody writes. -/
def Undisturbed (p : P) (between : List (Event P R)) : Prop :=
  .reads p ∉ between ∧ ∀ q r, .writes q r ∉ between

/-- Nobody writes between the last look and the write of another. -/
def Serial (events : List (Event P R)) : Prop :=
  ∀ b1 p b2 r behind, events = b1 ++ .reads p :: (b2 ++ .writes p r :: behind) →
    .reads p ∉ b2 → Undisturbed p b2

theorem Serial.front {events events' : List (Event P R)} (h : Serial (events ++ events')) :
    Serial events := by
  rintro b1 p b2 r behind rfl
  refine h b1 p b2 r (behind ++ events') ?_
  simp only [List.append_assoc, List.cons_append]

section Steps

variable [DecidableEq P] {rules : Rules C D R} {st st' : State C D P} {events : List (Event P R)}
  {p : P} {r : R}

/-- A process that looked is going to write what the value allows. -/
theorem Step.looked (h : Step rules st (.reads p) st') :
    st'.value = st.value ∧ ∃ d, st'.going p = some d ∧ rules.allows st.value d := by
  cases h with
  | reads _ d _ allowed => exact ⟨rfl, d, Function.update_self p (some d) st.going, allowed⟩

/-- A process writes what it was going to write. -/
theorem Step.wrote (h : Step rules st (.writes p r) st') :
    st.going p = some (rules.decision r) ∧ st'.value = rules.put r := by
  cases h with
  | writes _ _ going => exact ⟨going, rfl⟩

/-- The value is the one that was written last, or the first one. -/
theorem value_eq (h : Trace (Step rules) st events st') :
    st'.value = after rules st.value events := by
  induction h with
  | done st => rfl
  | @next st mid st' e es first _ ih =>
      rw [ih]
      unfold after
      cases first with
      | reads => rfl
      | drops => rfl
      | writes p r =>
          rw [List.filterMap_cons_some (rfl : Event.record (.writes p r) = some r),
            List.getLast?_cons]
          cases (es.filterMap Event.record).getLast? with
          | none => rfl
          | some last => rfl

/-- A process that has not looked has nothing to write. -/
theorem going_eq_none (h : Trace (Step rules) st events st') (hidle : st.going p = none)
    (hnever : .reads p ∉ events) : st'.going p = none := by
  induction h with
  | done st => exact hidle
  | @next st mid st' e es first _ ih =>
      refine ih ?_ fun hmem => hnever (List.mem_cons_of_mem _ hmem)
      -- Only its own look gives it something.
      cases first with
      | reads q =>
          by_cases hq : p = q
          · rw [hq] at hnever
            exact absurd List.mem_cons_self hnever
          · exact (Function.update_of_ne hq _ _).trans hidle
      | drops q =>
          by_cases hq : p = q
          · rw [hq]
            exact Function.update_self q none st.going
          · exact (Function.update_of_ne hq _ _).trans hidle
      | writes q =>
          by_cases hq : p = q
          · rw [hq]
            exact Function.update_self q none st.going
          · exact (Function.update_of_ne hq _ _).trans hidle

/-- As long as nobody writes and it does not look again, a process keeps to what
    it decided, or drops it. -/
theorem undisturbed (h : Trace (Step rules) st events st') (hquiet : Undisturbed p events) :
    st'.value = st.value ∧ (st'.going p = st.going p ∨ st'.going p = none) := by
  induction h with
  | done st => exact ⟨rfl, Or.inl rfl⟩
  | @next st mid st' e es first rest ih =>
      have hes : Undisturbed p es :=
        ⟨fun hmem => hquiet.1 (List.mem_cons_of_mem _ hmem),
          fun q r hmem => hquiet.2 q r (List.mem_cons_of_mem _ hmem)⟩
      rcases ih hes with ⟨hvalue, hgoing⟩
      cases first with
      | reads q =>
          have hq : p ≠ q := fun hq => hquiet.1 (hq ▸ List.mem_cons_self)
          exact ⟨hvalue, hgoing.imp_left fun h => h.trans (Function.update_of_ne hq _ _)⟩
      | drops q =>
          refine ⟨hvalue, ?_⟩
          by_cases hq : p = q
          · -- What was dropped stays dropped.
            refine Or.inr (going_eq_none rest ?_ hes.1)
            rw [hq]
            exact Function.update_self q none st.going
          · exact hgoing.imp_left fun h => h.trans (Function.update_of_ne hq _ _)
      | writes q r => exact absurd List.mem_cons_self (hquiet.2 q r)

/-- A write that was not disturbed wrote over the value its process saw, and the
    value allows it. -/
theorem overwritten {b1 b2 : List (Event P R)}
    (h : Trace (Step rules) st (b1 ++ .reads p :: b2) st') (hquiet : Undisturbed p b2)
    (hgoing : st'.going p = some (rules.decision r)) :
    st'.value = after rules st.value b1 ∧ rules.allows st'.value (rules.decision r) := by
  rcases h.split with ⟨sa, hfront, hrest⟩
  rcases hrest.uncons with ⟨sb, hlook, hbetween⟩
  rcases hlook.looked with ⟨hsame, d, hd, hallows⟩
  rcases undisturbed hbetween hquiet with ⟨hvalue, hkept⟩
  rw [hvalue, hsame]
  refine ⟨value_eq hfront, ?_⟩
  -- It writes what it decided when it looked.
  rw [hgoing, hd] at hkept
  rcases hkept with hsame | hnone
  · rw [Option.some.inj hsame]
    exact hallows
  · exact absurd hnone (Option.some_ne_none _)

/-- An undisturbed write is one that the value it wrote over allows. -/
theorem allowed_of_undisturbed {b1 b2 behind : List (Event P R)}
    (h : Trace (Step rules) st (b1 ++ .reads p :: (b2 ++ .writes p r :: behind)) st')
    (hquiet : Undisturbed p b2) :
    rules.allows (after rules st.value b1) (rules.decision r) := by
  rw [← List.cons_append, ← List.append_assoc] at h
  rcases h.split with ⟨mid, hfront, hrest⟩
  rcases hrest.uncons with ⟨_, hwrite, _⟩
  rcases overwritten hfront hquiet hwrite.wrote.1 with ⟨hvalue, hallows⟩
  rw [← hvalue]
  exact hallows

/-- Whoever is going to write has looked. -/
theorem exists_look {d : D} (h : Trace (Step rules) st events st') (hidle : st.going p = none)
    (hgoing : st'.going p = some d) :
    ∃ b1 b2, events = b1 ++ .reads p :: b2 ∧ .reads p ∉ b2 := by
  have hlooked : .reads p ∈ events.reverse := by
    by_contra hnever
    rw [List.mem_reverse] at hnever
    rw [going_eq_none h hidle hnever] at hgoing
    exact absurd hgoing.symm (Option.some_ne_none d)
  -- The first look from behind is the last one.
  rcases List.eq_append_cons_of_mem hlooked with ⟨as, bs, hsplit, hfirst⟩
  refine ⟨bs.reverse, as.reverse, ?_, fun hmem => hfirst (List.mem_reverse.mp hmem)⟩
  have hback := congrArg List.reverse hsplit
  rw [List.reverse_reverse, List.reverse_append, List.reverse_cons, List.append_assoc,
    List.singleton_append] at hback
  exact hback

/-- A run in which no write is disturbed is a run of the atomic cell, by
    induction on its events from the end. -/
theorem serial (hidle : ∀ p, st.going p = none) (h : Trace (Step rules) st events st')
    (hserial : Serial events) :
    Trace (Atomic rules) st.value (events.map Event.record) st'.value := by
  induction events using List.reverseRecOn generalizing st' with
  | nil =>
      cases h with
      | done => exact .done st.value
  | append_singleton es e ih =>
      rcases h.split with ⟨mid, hfront, hlast⟩
      rcases hlast.uncons with ⟨_, hstep, hdone⟩
      cases hdone
      rw [List.map_append, List.map_singleton]
      refine (ih hfront hserial.front).append (.single ?_)
      cases hstep with
      | reads => exact .idle mid.value
      | drops => exact .idle mid.value
      | writes p r going =>
          rcases exists_look hfront (hidle p) going with ⟨b1, b2, rfl, hlook⟩
          have hquiet := hserial b1 p b2 r []
            (by simp only [List.append_assoc, List.cons_append]) hlook
          exact .enter (overwritten hfront hquiet going).2

end Steps

end Cell
