/-!
# Runs That May Fail Half-Way

A step that changes a state as it goes and may stop with an error. The state
it reached is there either way, so what a failing run leaves behind can be
asked for: a run answers with the state first and its result second.

`Ends` is the part of it a result is read from. A sequence ends well exactly
when each of its parts does, one from where the other left off, so a program
written with `do` comes apart at its own seams. `Leaves` looks at both ends of
a run: what holds of the state it ends well in, and of the one it stops in.

## Main definitions

* `Run`: A step on a state, with an answer or an error.
* `Run.ofExcept`, `Run.ensure`, `Run.get`, `Run.put`: The steps that are not calls.
* `Ends`: A run that ends well.
* `Leaves`: What a run leaves behind, finished or not.

## Theorems

* `ends_bind_iff`: A sequence ends well when its parts do.
* `leaves_bind`: What a sequence leaves behind, part by part.
-/

/-- A step on a state, with an answer or an error. -/
def Run (σ α : Type) : Type :=
  σ → σ × Except String α

namespace Run

variable {σ α β : Type}

instance : Monad (Run σ) where
  pure a := fun s => (s, .ok a)
  bind x f := fun s => match x s with
    | (s', .ok a) => f a s'
    | (s', .error e) => (s', .error e)

/-- An answer that was there without touching the state. -/
def ofExcept (r : Except String α) : Run σ α :=
  fun s => (s, r)

/-- Go on if the condition holds, stop with the error otherwise. -/
def ensure (c : Prop) [Decidable c] (e : String) : Run σ Unit :=
  ofExcept (if c then .ok () else .error e)

/-- The state as it is. -/
def get : Run σ σ :=
  fun s => (s, .ok s)

/-- Another state, whatever it was before. -/
def put (s : σ) : Run σ Unit :=
  fun _ => (s, .ok ())

/-- A run from `s` that ends well in `s'`, with the answer `a`. -/
def Ends (x : Run σ α) (s s' : σ) (a : α) : Prop :=
  x s = (s', .ok a)

section Ends

variable {x : Run σ α} {f : α → Run σ β} {s s' s'' : σ} {a : α} {b : β}

theorem ends_pure_iff {c : α} : Ends (pure a : Run σ α) s s' c ↔ s = s' ∧ a = c := by
  unfold Ends
  constructor
  · intro h
    rcases Prod.mk.inj h with ⟨hs, ha⟩
    exact ⟨hs, Except.ok.inj ha⟩
  · rintro ⟨rfl, rfl⟩
    rfl

/-- A sequence goes on from where its first part ends. -/
theorem bind_of_ends (h : Ends x s s' a) : (x >>= f) s = f a s' := by
  have hx : x s = (s', .ok a) := h
  show (match x s with
    | (s', .ok a) => f a s'
    | (s', .error e) => (s', .error e)) = f a s'
  rw [hx]

theorem bind_of_stops {e : String} (h : x s = (s', .error e)) :
    (x >>= f) s = (s', .error e) := by
  show (match x s with
    | (s', .ok a) => f a s'
    | (s', .error e) => (s', .error e)) = (s', .error e)
  rw [h]

/-- A sequence ends well when its parts do, one from where the other left
    off. -/
theorem ends_bind_iff :
    Ends (x >>= f) s s'' b ↔ ∃ a s', Ends x s s' a ∧ Ends (f a) s' s'' b := by
  rcases hx : x s with ⟨s1, e | a⟩
  -- The first part failed, so neither side holds.
  · constructor
    · intro h
      exact absurd (Prod.mk.inj ((bind_of_stops hx).symm.trans h)).2
        (by simp only [reduceCtorEq, not_false_eq_true])
    · rintro ⟨a, s', h, _⟩
      exact absurd (Prod.mk.inj (hx.symm.trans h)).2
        (by simp only [reduceCtorEq, not_false_eq_true])
  · constructor
    · intro h
      exact ⟨a, s1, hx, (bind_of_ends hx).symm.trans h⟩
    · rintro ⟨a', s', h, hf⟩
      exact (bind_of_ends h).trans hf

theorem ends_ofExcept_iff {r : Except String α} :
    Ends (ofExcept r) s s' a ↔ s = s' ∧ r = .ok a := by
  unfold Ends ofExcept
  rw [Prod.mk.injEq]

end Ends

/-! ## What a run leaves behind -/

/-- Whatever a run from `s` leaves behind: `Q` with its answer if it ends well,
    `E` if it stops. -/
structure Leaves (x : Run σ α) (s : σ) (Q : σ → α → Prop) (E : σ → Prop) : Prop where
  ends : ∀ {s' a}, Ends x s s' a → Q s' a
  stops : ∀ {s' e}, x s = (s', .error e) → E s'

section Leaves

variable {x : Run σ α} {f : α → Run σ β} {s : σ} {Q : σ → α → Prop} {R : σ → β → Prop}
  {E : σ → Prop}

/-- A sequence stops where one of its parts does. -/
theorem leaves_bind (hx : Leaves x s Q E) (hf : ∀ s' a, Q s' a → Leaves (f a) s' R E) :
    Leaves (x >>= f) s R E where
  ends := by
    intro s' b h
    rcases ends_bind_iff.mp h with ⟨a, s1, h1, h2⟩
    exact (hf s1 a (hx.ends h1)).ends h2
  stops := by
    intro s' e h
    rcases hs : x s with ⟨s1, e' | a⟩
    · rw [← (Prod.mk.inj ((bind_of_stops hs).symm.trans h)).1]
      exact hx.stops hs
    · exact (hf s1 a (hx.ends hs)).stops ((bind_of_ends hs).symm.trans h)

theorem Leaves.mono {Q' : σ → α → Prop} {E' : σ → Prop} (h : Leaves x s Q E)
    (hQ : ∀ s' a, Q s' a → Q' s' a) (hE : ∀ s', E s' → E' s') : Leaves x s Q' E' where
  ends := fun hx => hQ _ _ (h.ends hx)
  stops := fun hx => hE _ (h.stops hx)

/-- A run that is known to end well leaves what it ends in. -/
theorem leaves_of_ends {s' : σ} {a : α} (h : Ends x s s' a) (hQ : Q s' a) : Leaves x s Q E where
  ends := by
    intro s1 a1 h1
    rcases Prod.mk.inj (h1.symm.trans h) with ⟨hs, ha⟩
    rw [hs, Except.ok.inj ha]
    exact hQ
  stops := fun h1 => absurd (Prod.mk.inj (h1.symm.trans h)).2
    (by simp only [reduceCtorEq, not_false_eq_true])

theorem leaves_pure {a : α} (h : Q s a) : Leaves (pure a) s Q E :=
  leaves_of_ends rfl h

theorem leaves_bind_ends {t : σ} {a : α} (h : Ends x s t a) (hf : Leaves (f a) t R E) :
    Leaves (x >>= f) s R E := by
  refine leaves_bind (leaves_of_ends h (Q := fun s' a' => s' = t ∧ a' = a) ⟨rfl, rfl⟩) ?_
  intro s' a' h'
  rw [h'.1, h'.2]
  exact hf

/-- Where an answer stops a run, it is an error. -/
theorem leaves_ofExcept_error {r : Except String α} (hE : ∀ e, r = .error e → E s)
    (h : ∀ a, r = .ok a → Q s a) : Leaves (ofExcept r) s Q E where
  ends := by
    intro s' a ha
    rcases ends_ofExcept_iff.mp ha with ⟨rfl, hr⟩
    exact h a hr
  stops := by
    intro s' e he
    rcases Prod.mk.inj he with ⟨hs, hr⟩
    rw [← hs]
    exact hE e hr

theorem leaves_ofExcept {r : Except String α} (hE : E s) (h : ∀ a, r = .ok a → Q s a) :
    Leaves (ofExcept r) s Q E :=
  leaves_ofExcept_error (fun _ _ => hE) h

theorem leaves_bind_ofExcept_error {r : Except String α} (hE : ∀ e, r = .error e → E s)
    (hf : ∀ a, r = .ok a → Leaves (f a) s R E) : Leaves (ofExcept r >>= f) s R E := by
  refine leaves_bind (leaves_ofExcept_error hE (Q := fun s' a => s' = s ∧ r = .ok a)
    fun a hr => ⟨rfl, hr⟩) ?_
  intro s' a h
  rw [h.1]
  exact hf a h.2

theorem leaves_bind_ofExcept {r : Except String α} (hE : E s)
    (hf : ∀ a, r = .ok a → Leaves (f a) s R E) : Leaves (ofExcept r >>= f) s R E :=
  leaves_bind_ofExcept_error (fun _ _ => hE) hf

/-- Where a condition stops a run, it does not hold. -/
theorem leaves_ensure_not {c : Prop} [Decidable c] {e : String} {Q : σ → Unit → Prop}
    (hE : ¬ c → E s) (h : c → Q s ()) : Leaves (ensure c e) s Q E := by
  refine leaves_ofExcept_error ?_ ?_
  · intro e' he
    by_cases hc : c
    · rw [if_pos hc] at he
      exact absurd he (by simp only [reduceCtorEq, not_false_eq_true])
    · exact hE hc
  · intro u hu
    by_cases hc : c
    · exact h hc
    · rw [if_neg hc] at hu
      exact absurd hu (by simp only [reduceCtorEq, not_false_eq_true])

theorem leaves_bind_ensure_not {c : Prop} [Decidable c] {e : String} {f : Unit → Run σ β}
    (hE : ¬ c → E s) (hf : c → Leaves (f ()) s R E) : Leaves (ensure c e >>= f) s R E := by
  refine leaves_bind (leaves_ensure_not hE (Q := fun s' _ => s' = s ∧ c)
    fun hc => ⟨rfl, hc⟩) ?_
  intro s' _ h
  rw [h.1]
  exact hf h.2

theorem leaves_bind_ensure {c : Prop} [Decidable c] {e : String} {f : Unit → Run σ β} (hE : E s)
    (hf : c → Leaves (f ()) s R E) : Leaves (ensure c e >>= f) s R E :=
  leaves_bind_ensure_not (fun _ => hE) hf

end Leaves

end Run
