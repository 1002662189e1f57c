import Mathlib.Order.Basic

/-!
# Writes Laid Out on a Medium

Several writers share one medium, each with spans of its own: a partition
table at both ends, a filesystem in a range, a payload behind it. A log keeps
what was written, newest first, and each entry knows its spans. Somebody who
reads a span gets back what was written there as long as nothing newer meets
it, so what is left to show is that spans lie apart.

## Main definitions

* `Span`: A range of offsets, the stop excluded.
* `Span.meets`, `Span.Apart`: Whether two spans share an offset.
* `latest`: The newest write that meets one of the spans.
* `Separate`, `Clean`: Writes that share no offset.

## Theorems

* `latest_cons_apart`: A write that lies apart is not seen.
* `latest_cons_self`: A write is seen where it was made.
* `latest_of_clean`: In a clean log that is so for every write.
-/

namespace Layout

/-- A range of offsets, the stop excluded. -/
structure Span where
  start : Nat
  stop : Nat
  deriving DecidableEq

namespace Span

/-- The spans share an offset. -/
def meets (a b : Span) : Bool :=
  decide (max a.start b.start < min a.stop b.stop)

/-- One span ends before the other starts. -/
def Apart (a b : Span) : Prop :=
  a.stop ≤ b.start ∨ b.stop ≤ a.start

theorem Apart.symm {a b : Span} (h : a.Apart b) : b.Apart a :=
  Or.symm h

theorem Apart.not_meets {a b : Span} (h : a.Apart b) : a.meets b = false := by
  unfold meets
  unfold Apart at h
  rw [decide_eq_false_iff_not]
  omega

theorem meets_self {a : Span} (h : a.start < a.stop) : a.meets a = true := by
  unfold meets
  rw [decide_eq_true_iff]
  omega

end Span

variable {α : Type}

/-- The newest of the writes, newest first, that meets one of the spans. -/
def latest (spans : α → List Span) (log : List α) (there : List Span) : Option α :=
  log.find? (fun w => (spans w).any (fun a => there.any a.meets))

variable {spans : α → List Span} {log : List α} {there : List Span} {w : α}

/-- A write that lies apart is not seen. -/
theorem latest_cons_apart (h : ∀ a ∈ spans w, ∀ b ∈ there, a.Apart b) :
    latest spans (w :: log) there = latest spans log there := by
  unfold latest
  rw [List.find?_cons_of_neg]
  -- The search passes the newest entry over: no span of it meets one of the reader's.
  rw [List.any_eq_true]
  rintro ⟨a, ha, hany⟩
  rcases List.any_eq_true.mp hany with ⟨b, hb, hmeets⟩
  rw [(h a ha b hb).not_meets] at hmeets
  exact absurd hmeets (by decide)

/-- A write is seen where it was made. -/
theorem latest_cons_self {a : Span} (h : a ∈ spans w) (hthere : a ∈ there)
    (hne : a.start < a.stop) : latest spans (w :: log) there = some w := by
  unfold latest
  rw [List.find?_cons_of_pos]
  exact List.any_eq_true.mpr ⟨a, h, List.any_eq_true.mpr ⟨a, hthere, Span.meets_self hne⟩⟩

/-! ## Logs without overlap -/

/-- The two writes share no offset. -/
def Separate (spans : α → List Span) (w x : α) : Prop :=
  ∀ a ∈ spans w, ∀ b ∈ spans x, a.Apart b

/-- No two writes of the log share an offset. -/
def Clean (spans : α → List Span) (log : List α) : Prop :=
  log.Pairwise (Separate spans)

/-- In a clean log a write is seen where it was made, however many came after
    it. -/
theorem latest_of_clean (h : Clean spans log) (hw : w ∈ log) {a : Span} (ha : a ∈ spans w)
    (hthere : a ∈ there) (hsub : ∀ b ∈ there, b ∈ spans w) (hne : a.start < a.stop) :
    latest spans log there = some w := by
  induction log with
  | nil => exact absurd hw List.not_mem_nil
  | cons x log ih =>
      rcases List.pairwise_cons.mp h with ⟨hx, hlog⟩
      rcases List.mem_cons.mp hw with rfl | hw
      · exact latest_cons_self ha hthere hne
      · rw [latest_cons_apart fun c hc b hb => hx w hw c hc b (hsub b hb)]
        exact ih hlog hw

end Layout
