import Zeroboot.Lib.Trace

/-!
# Clients of a Server

A program that asks a server one thing after the other, while others ask it
too.

A `Client` is what is left of the program: it is done, or it has a question
and goes on with the answer. What it does to the server is up to the server,
and between any two of its questions the others may have done anything to it
that they can do. So a run is a `Trace` of the server and the client side by
side, with a label for each question that was answered and an empty one for
each step of the others.

A run is taken apart from its front. `Client.asked` finds the answer to the
first question, if the run got that far, and `Client.bound` finds where the
first of two programs was done, if it was.

## Main definitions

* `Client`: A program that asks.
* `Client.Acts`, `Client.Idle`: A step of the server and its clients, and one of
  the others.

## Theorems

* `Client.asked`: A run from a question on.
* `Client.bound`: A run of one program after another.
* `Client.finished`: A program that is done stays so.
-/

/-- A program that asks a server: it is done, or it goes on with the answer. -/
inductive Client (Q R A : Type) where
  | done (a : A)
  | ask (q : Q) (next : R → Client Q R A)

namespace Client

variable {Q R A B S : Type} {serves : S → Q → R → S → Prop} {others : S → S → Prop} {s s' : S}
  {ls : List (Option (Q × R))}

/-- One program, and then another that goes on with its result. -/
def bind : Client Q R A → (A → Client Q R B) → Client Q R B
  | .done a, f => f a
  | .ask q next, f => .ask q fun r => (next r).bind f

/-- One step: the others have done something, or an answer came. -/
inductive Acts (serves : S → Q → R → S → Prop) (others : S → S → Prop) :
    S × Client Q R A → Option (Q × R) → S × Client Q R A → Prop where
  | other {s s' : S} {p : Client Q R A} (h : others s s') : Acts serves others (s, p) none (s', p)
  | answer {s s' : S} {q : Q} {r : R} {next : R → Client Q R A} (h : serves s q r s') :
      Acts serves others (s, .ask q next) (some (q, r)) (s', next r)

/-- What goes on while a program waits for its answer. -/
def Idle (others : S → S → Prop) (s : S) (l : Option (Q × R)) (s' : S) : Prop :=
  l = none ∧ others s s'

/-- Whatever the program, it can wait. -/
theorem waits (h : Trace (Idle others) s ls s') (p : Client Q R A) :
    Trace (Acts serves others) (s, p) ls (s', p) := by
  induction h with
  | done s => exact .done (s, p)
  | next first _ ih =>
      rcases first with ⟨rfl, hother⟩
      exact .next (.other hother) ih

/-- A run from a question on waits for the answer, and goes on from there if it
    came. -/
theorem asked {q : Q} {next : R → Client Q R A} {p' : Client Q R A}
    (h : Trace (Acts serves others) (s, .ask q next) ls (s', p')) :
    (p' = .ask q next ∧ Trace (Idle others) s ls s') ∨
      ∃ quiet r s1 s2 ls', ls = quiet ++ some (q, r) :: ls' ∧
        Trace (Idle others) s quiet s1 ∧ serves s1 q r s2 ∧
        Trace (Acts serves others) (s2, next r) ls' (s', p') := by
  -- The program is a component of the state, so the run is generalised over both
  -- of its ends before the induction.
  generalize hx : (s, Client.ask q next) = x at h
  generalize hy : (s', p') = y at h
  induction h generalizing s with
  | done x =>
      rcases Prod.mk.inj (hx.trans hy.symm) with ⟨rfl, rfl⟩
      exact Or.inl ⟨rfl, .done s⟩
  | next first rest ih =>
      cases first with
      | other hother =>
          rcases Prod.mk.inj hx with ⟨rfl, rfl⟩
          rcases ih rfl hy with ⟨rfl, hw⟩ | ⟨quiet, r, s1, s2, ls', rfl, hw, hr, hrest⟩
          · exact Or.inl ⟨rfl, .next ⟨rfl, hother⟩ hw⟩
          · exact Or.inr ⟨none :: quiet, r, s1, s2, ls', rfl, .next ⟨rfl, hother⟩ hw, hr, hrest⟩
      | answer hanswer =>
          -- The first answer there is, is the answer to this question.
          rcases Prod.mk.inj hx with ⟨rfl, hask⟩
          rcases Client.ask.inj hask with ⟨rfl, rfl⟩
          subst hy
          exact Or.inr ⟨[], _, s, _, _, rfl, .done s, hanswer, rest⟩

/-- A program that is done asks nothing more. -/
theorem finished {a : A} {p' : Client Q R A}
    (h : Trace (Acts serves others) (s, .done a) ls (s', p')) :
    p' = .done a ∧ Trace (Idle others) s ls s' := by
  generalize hx : (s, (Client.done a : Client Q R A)) = x at h
  generalize hy : (s', p') = y at h
  induction h generalizing s with
  | done x =>
      rcases Prod.mk.inj (hx.trans hy.symm) with ⟨rfl, rfl⟩
      exact ⟨rfl, .done s⟩
  | next first rest ih =>
      cases first with
      | other hother =>
          rcases Prod.mk.inj hx with ⟨rfl, rfl⟩
          rcases ih rfl hy with ⟨rfl, hw⟩
          exact ⟨rfl, .next ⟨rfl, hother⟩ hw⟩
      | answer hanswer =>
          -- Nobody answers a program that is done.
          exact absurd (Prod.mk.inj hx).2 (by simp only [reduceCtorEq, not_false_eq_true])

/-- A run of a program is one of the program with another behind it. -/
theorem bind_run {p p' : Client Q R A} (h : Trace (Acts serves others) (s, p) ls (s', p'))
    (f : A → Client Q R B) : Trace (Acts serves others) (s, p.bind f) ls (s', p'.bind f) := by
  have hstep : ∀ {x x' : S × Client Q R A} {l : Option (Q × R)} {y : S × Client Q R B},
      y = (x.1, x.2.bind f) → True → Acts serves others x l x' →
        ∃ y', Acts serves others y l y' ∧ y' = (x'.1, x'.2.bind f) := by
    rintro x x' l y rfl - hacts
    cases hacts with
    | other hother => exact ⟨_, .other hother, rfl⟩
    | answer hanswer => exact ⟨_, .answer hanswer, rfl⟩
  rcases Trace.simulates (Q := fun _ => True) (R := fun x y => y = (x.1, x.2.bind f)) hstep h
    (fun _ _ => trivial) rfl with ⟨y', htrace, rfl⟩
  exact htrace

/-- A run of one program after another is not done with the first, or was done
    with it somewhere. -/
theorem bound {f : A → Client Q R B} {p : Client Q R A} {p' : Client Q R B}
    (h : Trace (Acts serves others) (s, p.bind f) ls (s', p')) :
    (∃ q next, p' = (Client.ask q next).bind f ∧
        Trace (Acts serves others) (s, p) ls (s', .ask q next)) ∨
      ∃ ls1 ls2 s1 a, ls = ls1 ++ ls2 ∧ Trace (Acts serves others) (s, p) ls1 (s1, .done a) ∧
        Trace (Acts serves others) (s1, f a) ls2 (s', p') := by
  -- On the program, which ends or asks and goes on.
  induction p generalizing s ls with
  | done a => exact Or.inr ⟨[], ls, s, a, rfl, .done _, h⟩
  | ask q next ih =>
      rcases asked h with ⟨rfl, hw⟩ | ⟨quiet, r, s1, s2, ls', rfl, hw, hr, hrest⟩
      · exact Or.inl ⟨q, next, rfl, waits hw _⟩
      · -- The answer came, and the run is one of what follows it.
        have hfront : ∀ {l x}, Trace (Acts serves others) (s2, next r) l x →
            Trace (Acts serves others) (s, .ask q next) (quiet ++ some (q, r) :: l) x :=
          fun ht => (waits hw _).append (.next (.answer hr) ht)
        rcases ih r hrest with ⟨q', next', rfl, hp⟩ | ⟨ls1, ls2, s3, a, rfl, hdone, hafter⟩
        · exact Or.inl ⟨q', next', rfl, hfront hp⟩
        · refine Or.inr ⟨quiet ++ some (q, r) :: ls1, ls2, s3, a, ?_, hfront hdone, hafter⟩
          rw [List.append_assoc, List.cons_append]

end Client
