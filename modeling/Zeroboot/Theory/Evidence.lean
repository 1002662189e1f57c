import Zeroboot.Core.Bytes

/-!
# The Evidence Behind the Scan

What the reads of `region` and of the scan leave behind. Each loop extends the
log of its handle by some calls, and is characterised by what those calls
asked for, what they handed over, and what they left out.

A region comes back short exactly when its last call came back empty, and then
that call asked for all that is missing. The whole read passes a short region
over and goes on behind it, so it makes good what the region missed, until a
region is empty from the start: then it stops, and the offset it stopped at is
never handed over. The grain and the tail take a short region as it is.

## Main definitions

* `Filled`: What `fill` leaves in the log.
* `Phase`: What a phase of the scan leaves in the log.
* `Abandoned`: The whole read stopped before its end.
* `Examined`: The offsets the scan is there to examine.

## Theorems

* `fill_spec`: The evidence behind a region.
* `wholeLoop_spec`, `sampleLoop_spec`, `tailScan_spec`: The evidence behind
  each phase of the scan.
* `firstNonzero_spec`: The scan asks for what it examines only, finds nothing
  exactly when it is quiet, and was handed every offset it examines when it
  finds nothing and is made good.
-/

namespace Zeroboot

open Medium

/-! ## One region -/

/-- What reading a region leaves in the log: the calls stay inside it, they
    fail exactly when it fails, and they hand over the bytes it answers with.
    Where it is short, one call came back empty and had asked for the rest. -/
structure Filled (h : Handle) (off want : Nat) (answer : Except String (List UInt8))
    (calls : List ReadCall) : Prop where
  answered : Answered h calls
  within : Within (fun o => off ≤ o ∧ o < off + want) calls
  failed : ∀ e, answer = .error e → ¬ Succeeded calls
  succeeded : ∀ chunk, answer = .ok chunk → Succeeded calls
  gave : ∀ chunk, answer = .ok chunk → ∀ o b, Gave calls o b ↔ off ≤ o ∧ chunk[o - off]? = some b
  length_le : ∀ chunk, answer = .ok chunk → chunk.length ≤ want
  short : ∀ chunk, answer = .ok chunk → ∀ o, off + chunk.length ≤ o → o < off + want →
    LeftOut calls o

theorem not_succeeded_error (o n : Nat) (e : String) : ¬ Succeeded [⟨o, n, .error e⟩] := by
  intro hs
  rcases hs _ (List.mem_singleton.mpr rfl) with ⟨bs, hbs⟩
  exact absurd hbs (by simp only [reduceCtorEq, not_false_eq_true])

theorem succeeded_ok (o n : Nat) (bs : List UInt8) : Succeeded [⟨o, n, .ok bs⟩] := by
  intro c hc
  rw [List.mem_singleton.mp hc]
  exact ⟨bs, rfl⟩

theorem gave_single (o n i : Nat) (b : UInt8) (bs : List UInt8) :
    Gave [⟨o, n, .ok bs⟩] i b ↔ o ≤ i ∧ bs[i - o]? = some b := by
  constructor
  · rintro ⟨c, hc, bs', hbs, hlo, hb⟩
    rw [List.mem_singleton.mp hc] at hbs hlo hb
    rw [← Except.ok.inj hbs] at hb
    exact ⟨hlo, hb⟩
  · rintro ⟨hlo, hb⟩
    exact ⟨_, List.mem_singleton.mpr rfl, bs, rfl, hlo, hb⟩

theorem within_single (o n : Nat) (a : Except String (List UInt8)) :
    Within (fun i => o ≤ i ∧ i < o + n) [⟨o, n, a⟩] := by
  intro c hc i hlo hhi
  rw [List.mem_singleton.mp hc] at hlo hhi
  exact ⟨hlo, hhi⟩

section Fill

variable {h : Handle} {off want : Nat} {log : List ReadCall}

theorem answered_single (hw : want ≠ 0) {a : Except String (List UInt8)}
    (ha : h.read log off want = a) : Answered h [⟨off, want, a⟩] := by
  intro c hc
  rw [List.mem_singleton.mp hc]
  exact ⟨Nat.pos_of_ne_zero hw, log, ha.symm⟩

theorem filled_nothing (h : Handle) (off : Nat) : Filled h off 0 (.ok []) [] := by
  have hnone : ∀ c : ReadCall, c ∉ [] := fun _ => List.not_mem_nil
  refine ⟨fun c hc => absurd hc (hnone c), fun c hc => absurd hc (hnone c), ?_,
    fun _ _ c hc => absurd hc (hnone c), ?_, ?_, ?_⟩
  · intro e he
    exact absurd he (by simp only [reduceCtorEq, not_false_eq_true])
  · intro chunk hc o b
    rw [← Except.ok.inj hc, List.getElem?_nil]
    simp only [Gave, List.not_mem_nil, false_and, exists_false, reduceCtorEq, and_false]
  · intro chunk hc
    rw [← Except.ok.inj hc, List.length_nil]
  · intro chunk _ o hlo hhi
    exact absurd hhi (by omega)

theorem filled_error (hw : want ≠ 0) {e : String} (ha : h.read log off want = .error e) :
    Filled h off want (.error e) [⟨off, want, .error e⟩] := by
  refine ⟨answered_single hw ha, within_single _ _ _, fun _ _ => not_succeeded_error _ _ _,
    ?_, ?_, ?_, ?_⟩
  all_goals
    intro chunk hc
    exact absurd hc (by simp only [reduceCtorEq, not_false_eq_true])

theorem filled_empty (hw : want ≠ 0) (ha : h.read log off want = .ok []) :
    Filled h off want (.ok []) [⟨off, want, .ok []⟩] := by
  refine ⟨answered_single hw ha, within_single _ _ _, ?_, fun _ _ => succeeded_ok _ _ _,
    ?_, ?_, ?_⟩
  · intro e he
    exact absurd he (by simp only [reduceCtorEq, not_false_eq_true])
  · intro chunk hc o b
    rw [← Except.ok.inj hc, gave_single]
  · intro chunk hc
    rw [← Except.ok.inj hc]
    exact Nat.zero_le _
  · intro chunk hc o hlo hhi
    rw [← Except.ok.inj hc, List.length_nil] at hlo
    exact ⟨_, List.mem_singleton.mpr rfl, rfl, hlo, hhi⟩

/-- A piece, and then the rest of the region behind it. -/
theorem Filled.cons (hw : want ≠ 0) {bs : List UInt8} (ha : h.read log off want = .ok bs)
    {answer : Except String (List UInt8)} {calls : List ReadCall}
    (hrest : Filled h (off + bs.length) (want - bs.length) answer calls) :
    Filled h off want (answer.map (bs ++ ·)) ([⟨off, want, .ok bs⟩] ++ calls) := by
  have hlen : bs.length ≤ want := h.read_le log off want bs ha
  -- The whole succeeds only if the rest does, with the piece in front.
  have hmap : ∀ chunk, answer.map (bs ++ ·) = .ok chunk → ∃ rest, answer = .ok rest ∧
      bs ++ rest = chunk := by
    intro chunk hc
    cases answer with
    | error e => exact absurd hc (by simp only [Except.map, reduceCtorEq, not_false_eq_true])
    | ok rest => exact ⟨rest, rfl, Except.ok.inj hc⟩
  refine ⟨answered_append.mpr ⟨answered_single hw ha, hrest.answered⟩,
    within_append.mpr ⟨within_single _ _ _, hrest.within.mono (fun o ho => by omega)⟩,
    ?_, ?_, ?_, ?_, ?_⟩
  · intro e he hs
    cases answer with
    | error e' => exact hrest.failed e' rfl (succeeded_append.mp hs).2
    | ok rest => exact absurd he (by simp only [Except.map, reduceCtorEq, not_false_eq_true])
  all_goals
    intro chunk hc
    rcases hmap chunk hc with ⟨rest, rfl, rfl⟩
  · exact succeeded_append.mpr ⟨succeeded_ok _ _ _, hrest.succeeded rest rfl⟩
  · intro o b
    rw [gave_append, gave_single, hrest.gave rest rfl]
    -- An offset lies in the piece or in the rest, never in both.
    by_cases hlt : o - off < bs.length
    · rw [List.getElem?_append_left hlt]
      constructor
      · rintro (hl | ⟨hr, hb⟩)
        · exact hl
        · exact absurd hlt (by omega)
      · exact Or.inl
    · rw [List.getElem?_append_right (by omega), List.getElem?_eq_none (by omega), Nat.sub_sub]
      constructor
      · rintro (⟨_, hl⟩ | ⟨hr, hb⟩)
        · exact absurd hl (by simp only [reduceCtorEq, not_false_eq_true])
        · exact ⟨by omega, hb⟩
      · rintro ⟨hlo, hb⟩
        exact Or.inr ⟨by omega, hb⟩
  · have hle := hrest.length_le rest rfl
    rw [List.length_append]
    omega
  · intro o hlo hhi
    -- What is missing at the end is missing from the rest.
    rw [List.length_append] at hlo
    exact (leftOut_append o).mpr (Or.inr (hrest.short rest rfl o (by omega) (by omega)))

end Fill

theorem fill_cons {h : Handle} {off want : Nat} {log : List ReadCall} {b : UInt8} {bs : List UInt8}
    (hw : want ≠ 0) (ha : h.read log off want = .ok (b :: bs)) :
    fill h off want log =
      ((fill h (off + (b :: bs).length) (want - (b :: bs).length)
          (log ++ [⟨off, want, .ok (b :: bs)⟩])).1.map (b :: bs ++ ·),
        (fill h (off + (b :: bs).length) (want - (b :: bs).length)
          (log ++ [⟨off, want, .ok (b :: bs)⟩])).2) := by
  rw [fill, if_neg hw, ha]
  simp only [List.length_cons]
  generalize fill h _ _ _ = filled
  rcases filled with ⟨_ | _, _⟩
  · rfl
  · rfl

/-- The evidence behind a region, by induction on what is still wanted. -/
theorem fill_spec (h : Handle) (want : Nat) : ∀ off log, ∃ calls,
    (fill h off want log).2 = log ++ calls ∧ Filled h off want (fill h off want log).1 calls := by
  induction want using Nat.strong_induction_on with
  | _ want ih =>
      intro off log
      by_cases hw : want = 0
      · rw [fill, if_pos hw, hw]
        exact ⟨[], (List.append_nil log).symm, filled_nothing h off⟩
      · rcases ha : h.read log off want with e | bs
        · rw [fill, if_neg hw, ha]
          exact ⟨_, rfl, filled_error hw ha⟩
        · cases bs with
          | nil =>
              rw [fill, if_neg hw, ha]
              exact ⟨_, rfl, filled_empty hw ha⟩
          | cons b bs =>
              -- A piece that is not empty leaves less to be read.
              have hless : want - (b :: bs).length < want := by
                rw [List.length_cons]
                omega
              rcases ih _ hless (off + (b :: bs).length)
                (log ++ [⟨off, want, .ok (b :: bs)⟩]) with ⟨calls, hlog, hrest⟩
              rw [fill_cons hw ha]
              exact ⟨_, by rw [hlog, List.append_assoc], hrest.cons hw ha⟩

theorem region_spec (h : Handle) (off want : Nat) (log : List ReadCall) : ∃ calls,
    (region h off want log).2 = log ++ calls ∧
      Filled h off want (region h off want log).1 calls :=
  fill_spec h want off log

theorem position_eq_none_iff (chunk : List UInt8) : position chunk = none ↔ ∀ b ∈ chunk, b = 0 := by
  simp only [position, List.findIdx?_eq_none_iff, bne_eq_false_iff_eq]

theorem Filled.gave_zero {h : Handle} {off want : Nat} {chunk : List UInt8}
    {calls : List ReadCall} (hf : Filled h off want (.ok chunk) calls) :
    (∀ o b, Gave calls o b → b = 0) ↔ position chunk = none := by
  rw [position_eq_none_iff]
  constructor
  · intro hz b hb
    rcases List.getElem?_of_mem hb with ⟨i, hi⟩
    refine hz (off + i) b ((hf.gave chunk rfl (off + i) b).mpr ⟨Nat.le_add_right _ _, ?_⟩)
    rwa [Nat.add_sub_cancel_left]
  · intro hz o b hg
    exact hz b (List.mem_of_getElem? ((hf.gave chunk rfl o b).mp hg).2)

theorem Filled.quiet {h : Handle} {off want : Nat} {chunk : List UInt8}
    {calls : List ReadCall} (hf : Filled h off want (.ok chunk) calls) :
    Quiet calls ↔ position chunk = none := by
  rw [quiet_iff, hf.gave_zero]
  exact and_iff_right (hf.succeeded chunk rfl)

/-! ## The three phases -/

/-- What a phase of the scan leaves in the log: it asks for its own area only,
    and finds nothing exactly when it is quiet. -/
structure Phase (h : Handle) (area : Nat → Prop) (answer : Except String (Option Nat))
    (calls : List ReadCall) : Prop where
  answered : Answered h calls
  within : Within area calls
  quiet : answer = .ok none ↔ Quiet calls

/-- Every offset of an area was handed over, or an empty answer withheld it. -/
def Covered (area : Nat → Prop) (calls : List ReadCall) : Prop :=
  ∀ o, area o → (∃ b, Gave calls o b) ∨ LeftOut calls o

section Phases

variable {h : Handle} {off want : Nat} {area : Nat → Prop} {calls rest : List ReadCall}

theorem phase_nothing (h : Handle) (area : Nat → Prop) : Phase h area (.ok none) [] := by
  refine ⟨?_, ?_, iff_of_true rfl ?_⟩
  all_goals exact fun c hc => absurd hc List.not_mem_nil

theorem Phase.mono {area' : Nat → Prop} {answer : Except String (Option Nat)}
    (hp : Phase h area answer calls) (hsub : ∀ o, area o → area' o) :
    Phase h area' answer calls :=
  ⟨hp.answered, hp.within.mono hsub, hp.quiet⟩

theorem Filled.phase_error {e : String} (hf : Filled h off want (.error e) calls) :
    Phase h (fun o => off ≤ o ∧ o < off + want) (.error e) calls := by
  refine ⟨hf.answered, hf.within, iff_of_false ?_ ?_⟩
  · simp only [reduceCtorEq, not_false_eq_true]
  · intro hq
    exact hf.failed e rfl (quiet_iff.mp hq).1

theorem Filled.phase_some {chunk : List UInt8} {i : Nat} (j : Nat)
    (hf : Filled h off want (.ok chunk) calls) (hi : position chunk = some i) :
    Phase h (fun o => off ≤ o ∧ o < off + want) (.ok (some j)) calls := by
  refine ⟨hf.answered, hf.within, iff_of_false ?_ ?_⟩
  · simp only [Except.ok.injEq, reduceCtorEq, not_false_eq_true]
  · rw [hf.quiet, hi]
    simp only [reduceCtorEq, not_false_eq_true]

theorem Filled.phase_none {chunk : List UInt8} (hf : Filled h off want (.ok chunk) calls)
    (hi : position chunk = none) :
    Phase h (fun o => off ≤ o ∧ o < off + want) (.ok none) calls :=
  ⟨hf.answered, hf.within, iff_of_true rfl (hf.quiet.mpr hi)⟩

/-- A quiet phase followed by another one. -/
theorem Phase.append {answer : Except String (Option Nat)} (hp : Phase h area (.ok none) calls)
    (hr : Phase h area answer rest) : Phase h area answer (calls ++ rest) := by
  refine ⟨answered_append.mpr ⟨hp.answered, hr.answered⟩,
    within_append.mpr ⟨hp.within, hr.within⟩, ?_⟩
  rw [quiet_append, hr.quiet]
  exact (and_iff_right (hp.quiet.mp rfl)).symm

theorem Filled.covered {chunk : List UInt8} (hf : Filled h off want (.ok chunk) calls) :
    Covered (fun o => off ≤ o ∧ o < off + want) calls := by
  rintro o ⟨hlo, hhi⟩
  -- In front of where the region ends it was handed over, and behind that left out.
  by_cases hlt : o - off < chunk.length
  · exact Or.inl ⟨chunk[o - off], (hf.gave chunk rfl o _).mpr
      ⟨hlo, List.getElem?_eq_getElem hlt⟩⟩
  · exact Or.inr (hf.short chunk rfl o (by omega) hhi)

theorem Covered.append_left (hc : Covered area calls) : Covered area (calls ++ rest) := by
  intro o ho
  rcases hc o ho with ⟨b, hb⟩ | hl
  · exact Or.inl ⟨b, (gave_append o b).mpr (Or.inl hb)⟩
  · exact Or.inr ((leftOut_append o).mpr (Or.inl hl))

theorem Covered.append_right (hc : Covered area rest) : Covered area (calls ++ rest) := by
  intro o ho
  rcases hc o ho with ⟨b, hb⟩ | hl
  · exact Or.inl ⟨b, (gave_append o b).mpr (Or.inr hb)⟩
  · exact Or.inr ((leftOut_append o).mpr (Or.inr hl))

end Phases

section WholeLoop

variable {h : Handle} {off whole : Nat} {log log' : List ReadCall}

theorem wholeLoop_done (hlt : ¬ off < whole) : wholeLoop h off whole log = (.ok none, log) := by
  rw [wholeLoop, dif_neg hlt]

theorem wholeLoop_error {e : String} (hlt : off < whole)
    (hreg : region h off (min (2 ^ 20) (whole - off)) log = (.error e, log')) :
    wholeLoop h off whole log = (.error e, log') := by
  rw [wholeLoop, dif_pos hlt, hreg]

theorem wholeLoop_empty (hlt : off < whole)
    (hreg : region h off (min (2 ^ 20) (whole - off)) log = (.ok [], log')) :
    wholeLoop h off whole log = (.ok none, log') := by
  rw [wholeLoop, dif_pos hlt, hreg]
  rfl

theorem wholeLoop_found {chunk : List UInt8} {i : Nat} (hlt : off < whole)
    (hreg : region h off (min (2 ^ 20) (whole - off)) log = (.ok chunk, log'))
    (hpos : position chunk = some i) :
    wholeLoop h off whole log = (.ok (some (off + i)), log') := by
  have hne : chunk ≠ [] := by
    rintro rfl
    exact absurd hpos (by decide +revert)
  rw [wholeLoop, dif_pos hlt, hreg]
  simp only [dif_neg hne, hpos]

theorem wholeLoop_next {chunk : List UInt8} (hlt : off < whole)
    (hreg : region h off (min (2 ^ 20) (whole - off)) log = (.ok chunk, log'))
    (hne : chunk ≠ []) (hpos : position chunk = none) :
    wholeLoop h off whole log = wholeLoop h (off + chunk.length) whole log' := by
  rw [wholeLoop, dif_pos hlt, hreg]
  simp only [dif_neg hne, hpos]

end WholeLoop

/-- The whole read stopped at an offset that no read hands over, and that it
    had asked for. -/
def Abandoned (off whole : Nat) (calls : List ReadCall) : Prop :=
  ∃ e, off ≤ e ∧ e < whole ∧ LeftOut calls e ∧ ∀ b, ¬ Gave calls e b

/-- A region in front of the rest of the whole read: what it handed over lies
    before everything the rest is about. -/
theorem whole_next {h : Handle} {off whole want : Nat} {chunk : List UInt8}
    {calls rest : List ReadCall} (hf : Filled h off want (.ok chunk) calls)
    (hdone : (∀ o, off + chunk.length ≤ o → o < whole → ∃ b, Gave rest o b) ∨
      Abandoned (off + chunk.length) whole rest) :
    (∀ o, off ≤ o → o < whole → ∃ b, Gave (calls ++ rest) o b) ∨
      Abandoned off whole (calls ++ rest) := by
  rcases hdone with hall | ⟨e, hlo, hhi, hleft, hnot⟩
  · refine Or.inl ?_
    intro o hlo hhi
    by_cases hin : o - off < chunk.length
    · exact ⟨chunk[o - off], (gave_append o _).mpr (Or.inl
        ((hf.gave chunk rfl o _).mpr ⟨hlo, List.getElem?_eq_getElem hin⟩))⟩
    · rcases hall o (by omega) hhi with ⟨b, hb⟩
      exact ⟨b, (gave_append o b).mpr (Or.inr hb)⟩
  · refine Or.inr ⟨e, by omega, hhi, (leftOut_append e).mpr (Or.inr hleft), ?_⟩
    intro b hg
    rcases (gave_append e b).mp hg with hg | hg
    · rcases (hf.gave chunk rfl e b).mp hg with ⟨_, hb⟩
      have hlt := (List.getElem?_eq_some_iff.mp hb).1
      omega
    · exact hnot b hg

/-- The evidence behind the whole read, by induction on what is left of it. -/
theorem wholeLoop_spec (h : Handle) (whole n : Nat) : ∀ off log, whole - off = n → ∃ calls,
    (wholeLoop h off whole log).2 = log ++ calls ∧
      Phase h (fun o => off ≤ o ∧ o < whole) (wholeLoop h off whole log).1 calls ∧
      ((wholeLoop h off whole log).1 = .ok none →
        (∀ o, off ≤ o → o < whole → ∃ b, Gave calls o b) ∨ Abandoned off whole calls) := by
  induction n using Nat.strong_induction_on with
  | _ n ih =>
      intro off log hn
      by_cases hlt : off < whole
      · rcases region_spec h off (min (2 ^ 20) (whole - off)) log with ⟨calls, hlog, hf⟩
        rcases hreg : region h off (min (2 ^ 20) (whole - off)) log with ⟨answer, log'⟩
        rw [hreg] at hlog hf
        simp only at hlog hf
        have hsub : ∀ o, off ≤ o ∧ o < off + min (2 ^ 20) (whole - off) →
            off ≤ o ∧ o < whole := by
          intro o ho
          omega
        cases answer with
        | error e =>
            rw [wholeLoop_error hlt hreg]
            refine ⟨calls, hlog, hf.phase_error.mono hsub, ?_⟩
            intro hc
            exact absurd hc (by simp only [reduceCtorEq, not_false_eq_true])
        | ok chunk =>
            by_cases hne : chunk = []
            · -- Nothing came back for the offset the loop stands at.
              subst hne
              rw [wholeLoop_empty hlt hreg]
              refine ⟨calls, hlog, (hf.phase_none rfl).mono hsub, fun _ => Or.inr ?_⟩
              refine ⟨off, Nat.le_refl _, hlt, hf.short [] rfl off (Nat.le_refl _) (by omega), ?_⟩
              intro b hg
              have hb := ((hf.gave [] rfl off b).mp hg).2
              rw [List.getElem?_nil] at hb
              exact absurd hb (by simp only [reduceCtorEq, not_false_eq_true])
            · rcases hpos : position chunk with _ | i
              · -- A chunk of zeros, perhaps a short one: the loop goes on right behind it.
                have hlen := List.length_pos_iff.mpr hne
                rcases ih (whole - (off + chunk.length)) (by omega) (off + chunk.length) log' rfl
                  with ⟨rest, hlog2, hphase, hdone⟩
                rw [wholeLoop_next hlt hreg hne hpos]
                have hlater : ∀ o, off + chunk.length ≤ o ∧ o < whole → off ≤ o ∧ o < whole := by
                  intro o ho
                  omega
                exact ⟨calls ++ rest, by rw [hlog2, hlog, List.append_assoc],
                  ((hf.phase_none hpos).mono hsub).append (hphase.mono hlater),
                  fun hc => whole_next hf (hdone hc)⟩
              · -- A byte that is not zero ends the search.
                rw [wholeLoop_found hlt hreg hpos]
                refine ⟨calls, hlog, (hf.phase_some _ hpos).mono hsub, ?_⟩
                intro hc
                exact absurd hc (by simp only [Except.ok.injEq, reduceCtorEq, not_false_eq_true])
      · rw [wholeLoop_done hlt]
        refine ⟨[], (List.append_nil log).symm, phase_nothing h _, fun _ => Or.inl ?_⟩
        intro o hlo hhi
        omega

/-- The samples of the grain, from one position on. -/
def InGrain (pos len o : Nat) : Prop :=
  ∃ k, pos + k * STRIDE + SAMPLE ≤ len ∧ pos + k * STRIDE ≤ o ∧ o < pos + k * STRIDE + SAMPLE

theorem inGrain_here {pos len o : Nat} (hle : pos + SAMPLE ≤ len)
    (ho : pos ≤ o ∧ o < pos + SAMPLE) : InGrain pos len o :=
  ⟨0, by omega, by omega, by omega⟩

theorem inGrain_next {pos len o : Nat} (hg : InGrain (pos + STRIDE) len o) : InGrain pos len o := by
  rcases hg with ⟨k, h1, h2, h3⟩
  refine ⟨k + 1, ?_, ?_, ?_⟩
  -- The samples from the next position on are those from here, less the first.
  all_goals rw [Nat.succ_mul]
  all_goals omega

theorem inGrain_cases {pos len o : Nat} (hg : InGrain pos len o) :
    (pos ≤ o ∧ o < pos + SAMPLE) ∨ InGrain (pos + STRIDE) len o := by
  rcases hg with ⟨k, h1, h2, h3⟩
  cases k with
  | zero => exact Or.inl ⟨by omega, by omega⟩
  | succ k =>
      rw [Nat.succ_mul] at h1 h2 h3
      exact Or.inr ⟨k, by omega, by omega, by omega⟩

section SampleLoop

variable {h : Handle} {pos len : Nat} {log log' : List ReadCall}

theorem sampleLoop_done (hle : ¬ pos + SAMPLE ≤ len) :
    sampleLoop h pos len log = (.ok none, log) := by
  rw [sampleLoop, dif_neg hle]

theorem sampleLoop_error {e : String} (hle : pos + SAMPLE ≤ len)
    (hreg : region h pos SAMPLE log = (.error e, log')) :
    sampleLoop h pos len log = (.error e, log') := by
  rw [sampleLoop, dif_pos hle, hreg]

theorem sampleLoop_found {chunk : List UInt8} {i : Nat} (hle : pos + SAMPLE ≤ len)
    (hreg : region h pos SAMPLE log = (.ok chunk, log')) (hpos : position chunk = some i) :
    sampleLoop h pos len log = (.ok (some (pos + i)), log') := by
  rw [sampleLoop, dif_pos hle, hreg]
  simp only [hpos]

theorem sampleLoop_next {chunk : List UInt8} (hle : pos + SAMPLE ≤ len)
    (hreg : region h pos SAMPLE log = (.ok chunk, log')) (hpos : position chunk = none) :
    sampleLoop h pos len log = sampleLoop h (pos + STRIDE) len log' := by
  rw [sampleLoop, dif_pos hle, hreg]
  simp only [hpos]

end SampleLoop

/-- The evidence behind the grain, by induction on what is left of the
    drive. -/
theorem sampleLoop_spec (h : Handle) (len n : Nat) : ∀ pos log, len - pos = n → ∃ calls,
    (sampleLoop h pos len log).2 = log ++ calls ∧
      Phase h (InGrain pos len) (sampleLoop h pos len log).1 calls ∧
      ((sampleLoop h pos len log).1 = .ok none → Covered (InGrain pos len) calls) := by
  induction n using Nat.strong_induction_on with
  | _ n ih =>
      intro pos log hn
      by_cases hle : pos + SAMPLE ≤ len
      · rcases region_spec h pos SAMPLE log with ⟨calls, hlog, hf⟩
        rcases hreg : region h pos SAMPLE log with ⟨answer, log'⟩
        rw [hreg] at hlog hf
        simp only at hlog hf
        have hsub : ∀ o, pos ≤ o ∧ o < pos + SAMPLE → InGrain pos len o := fun _ ho =>
          inGrain_here hle ho
        cases answer with
        | error e =>
            rw [sampleLoop_error hle hreg]
            refine ⟨calls, hlog, hf.phase_error.mono hsub, ?_⟩
            intro hc
            exact absurd hc (by simp only [reduceCtorEq, not_false_eq_true])
        | ok chunk =>
            rcases hpos : position chunk with _ | i
            · -- A quiet sample: on to the next one, a stride further.
              have hless : len - (pos + STRIDE) < n := by
                simp only [SAMPLE, STRIDE] at hle ⊢
                omega
              rcases ih _ hless (pos + STRIDE) log' rfl with ⟨rest, hlog2, hphase, hdone⟩
              rw [sampleLoop_next hle hreg hpos]
              refine ⟨calls ++ rest, by rw [hlog2, hlog, List.append_assoc],
                ((hf.phase_none hpos).mono hsub).append (hphase.mono fun _ => inGrain_next), ?_⟩
              intro hc o ho
              rcases inGrain_cases ho with hhere | hnext
              · exact hf.covered.append_left o hhere
              · exact (hdone hc).append_right o hnext
            · rw [sampleLoop_found hle hreg hpos]
              refine ⟨calls, hlog, (hf.phase_some _ hpos).mono hsub, ?_⟩
              intro hc
              exact absurd hc (by simp only [Except.ok.injEq, reduceCtorEq, not_false_eq_true])
      · rw [sampleLoop_done hle]
        refine ⟨[], (List.append_nil log).symm, phase_nothing h _, ?_⟩
        -- No sample fits any more.
        rintro _ o ⟨k, h1, _, _⟩
        omega

/-- The last megabyte. -/
def InTail (len o : Nat) : Prop :=
  len - TAIL ≤ o ∧ o < len

theorem tailScan_spec (h : Handle) (whole len : Nat) (log : List ReadCall) : ∃ calls,
    (tailScan h whole len log).2 = log ++ calls ∧
      Phase h (InTail len) (tailScan h whole len log).1 calls ∧
      (whole + TAIL < len → (tailScan h whole len log).1 = .ok none →
        Covered (InTail len) calls) := by
  unfold tailScan
  by_cases hlt : whole + TAIL < len
  · rw [if_pos hlt]
    rcases region_spec h (len - TAIL) TAIL log with ⟨calls, hlog, hf⟩
    rcases hreg : region h (len - TAIL) TAIL log with ⟨answer, log'⟩
    rw [hreg] at hlog hf
    have hsub : ∀ o, len - TAIL ≤ o ∧ o < len - TAIL + TAIL ↔ InTail len o := by
      intro o
      rw [Nat.sub_add_cancel (by omega)]
      rfl
    cases answer with
    | error e =>
        refine ⟨calls, hlog, hf.phase_error.mono fun o => (hsub o).mp, ?_⟩
        intro _ hc
        exact absurd hc (by simp only [reduceCtorEq, not_false_eq_true])
    | ok chunk =>
        rcases hpos : position chunk with _ | i
        · simp only [hpos]
          exact ⟨calls, hlog, (hf.phase_none hpos).mono fun o => (hsub o).mp,
            fun _ _ o ho => hf.covered o ((hsub o).mpr ho)⟩
        · simp only [hpos]
          refine ⟨calls, hlog, (hf.phase_some _ hpos).mono fun o => (hsub o).mp, ?_⟩
          intro _ hc
          exact absurd hc (by simp only [Except.ok.injEq, reduceCtorEq, not_false_eq_true])
  · rw [if_neg hlt]
    exact ⟨[], (List.append_nil log).symm, phase_nothing h _, fun hc => absurd hc hlt⟩

/-- The tail is read behind the whole read, or not at all. -/
theorem tailScan_behind {h : Handle} {whole len : Nat} {log calls : List ReadCall}
    (hlog : (tailScan h whole len log).2 = log ++ calls)
    (hp : Phase h (InTail len) (tailScan h whole len log).1 calls) :
    Within (whole ≤ ·) calls := by
  by_cases hlt : whole + TAIL < len
  · refine hp.within.mono ?_
    -- The read of the tail starts behind the whole read by its own condition.
    rintro o ⟨hlo, _⟩
    omega
  · unfold tailScan at hlog
    rw [if_neg hlt] at hlog
    rw [List.self_eq_append_right.mp hlog]
    exact fun c hc => absurd hc List.not_mem_nil

/-! ## The scan -/

/-- The offsets the scan is there to examine: what is read whole, every sample
    of the grain, and the last megabyte. -/
def Examined (len o : Nat) : Prop :=
  o < wholeOf len ∨ InGrain (wholeOf len) len o ∨ InTail len o

theorem wholeOf_le (len : Nat) : wholeOf len ≤ len := by
  unfold wholeOf
  split_ifs with hlt
  · exact Nat.le_refl _
  · -- A drive this long has more than the part that is read whole.
    simp only [STRIDE, DEEP] at hlt ⊢
    omega

theorem examined_lt {len o : Nat} (he : Examined len o) : o < len := by
  have hle := wholeOf_le len
  rcases he with hw | ⟨k, h1, _, h3⟩ | ⟨_, ht⟩
  · omega
  · omega
  · exact ht

/-- Where the last megabyte is not read by itself, it was read whole. -/
theorem inTail_whole {len o : Nat} (hshort : ¬ wholeOf len + TAIL < len) (ht : InTail len o) :
    o < wholeOf len := by
  rcases ht with ⟨_, hhi⟩
  unfold wholeOf at hshort ⊢
  by_cases hlt : len < STRIDE
  · rwa [if_pos hlt]
  · rw [if_neg hlt] at hshort
    simp only [STRIDE, DEEP, TAIL] at hlt hshort
    omega

section Scan

variable {h : Handle} {len : Nat} {answer : Except String (Option Nat)} {lw lg : List ReadCall}

theorem firstNonzero_whole (hlen : h.seekEnd = .ok len)
    (hw : wholeLoop h 0 (wholeOf len) [] = (answer, lw)) (hne : answer ≠ .ok none) :
    firstNonzero h = (answer, lw) := by
  unfold firstNonzero
  rw [hlen]
  simp only [hw]
  rcases answer with e | _ | i
  · rfl
  · exact absurd rfl hne
  · rfl

theorem firstNonzero_grain (hlen : h.seekEnd = .ok len)
    (hw : wholeLoop h 0 (wholeOf len) [] = (.ok none, lw))
    (hg : sampleLoop h (wholeOf len) len lw = (answer, lg)) (hne : answer ≠ .ok none) :
    firstNonzero h = (answer, lg) := by
  unfold firstNonzero
  rw [hlen]
  simp only [hw, hg]
  rcases answer with e | _ | i
  · rfl
  · exact absurd rfl hne
  · rfl

theorem firstNonzero_tail (hlen : h.seekEnd = .ok len)
    (hw : wholeLoop h 0 (wholeOf len) [] = (.ok none, lw))
    (hg : sampleLoop h (wholeOf len) len lw = (.ok none, lg)) :
    firstNonzero h = tailScan h (wholeOf len) len lg := by
  unfold firstNonzero
  rw [hlen]
  simp only [hw, hg]

/-- Where the whole read stopped, nothing behind it could have made it good. -/
theorem not_abandoned {whole : Nat} {cw rest : List ReadCall} (ha : Answered h rest)
    (hbehind : Within (whole ≤ ·) rest) (hgood : MadeGood (cw ++ rest)) :
    ¬ Abandoned 0 whole cw := by
  rintro ⟨e, _, hhi, hleft, hnot⟩
  rcases hgood e ((leftOut_append e).mpr (Or.inl hleft)) with ⟨b, hb⟩
  -- The stopping point was not handed over, and the later phases ask beyond it.
  rcases (gave_append e b).mp hb with hb | hb
  · exact hnot b hb
  · have := ha.gave_within hbehind hb
    omega

/-- The three phases of a scan, one after the other. -/
theorem firstNonzero_spec (h : Handle) {len : Nat} (hlen : h.seekEnd = .ok len) :
    Phase h (Examined len) (firstNonzero h).1 (firstNonzero h).2 ∧
      ((firstNonzero h).1 = .ok none → MadeGood (firstNonzero h).2 →
        ∀ o, Examined len o → ∃ b, Gave (firstNonzero h).2 o b) := by
  rcases wholeLoop_spec h (wholeOf len) (wholeOf len - 0) 0 [] rfl with ⟨cw, hlogw, hpw, hdw⟩
  rcases hw : wholeLoop h 0 (wholeOf len) [] with ⟨aw, lw⟩
  rw [hw] at hlogw hpw hdw
  simp only [List.nil_append] at hlogw hpw hdw
  subst hlogw
  have hpw' := hpw.mono (fun o ho => (Or.inl ho.2 : Examined len o))
  -- A phase that found something, or failed, is the last one.
  by_cases haw : aw = .ok none
  · subst haw
    rcases sampleLoop_spec h len (len - wholeOf len) (wholeOf len) lw rfl with ⟨cg, hlogg, hpg, hdg⟩
    rcases hg : sampleLoop h (wholeOf len) len lw with ⟨ag, lg⟩
    rw [hg] at hlogg hpg hdg
    simp only at hlogg hpg hdg
    subst hlogg
    have hpg' := hpw'.append (hpg.mono fun o ho => Or.inr (Or.inl ho))
    by_cases hag : ag = .ok none
    · subst hag
      rcases tailScan_spec h (wholeOf len) len (lw ++ cg) with ⟨ct, hlogt, hpt, hdt⟩
      rw [firstNonzero_tail hlen hw hg, hlogt]
      refine ⟨hpg'.append (hpt.mono fun o ho => Or.inr (Or.inr ho)), ?_⟩
      intro hnone hgood o ho
      -- The grain and the tail start where the whole read was to end.
      have hbehind : Within (wholeOf len ≤ ·) (cg ++ ct) := by
        refine within_append.mpr ⟨hpg.within.mono ?_, tailScan_behind hlogt hpt⟩
        rintro o ⟨k, _, hlo, _⟩
        omega
      have hwhole : o < wholeOf len → ∃ b, Gave (lw ++ cg ++ ct) o b := by
        intro hlt
        rw [List.append_assoc] at hgood ⊢
        rcases hdw rfl with hall | hleft
        · rcases hall o (Nat.zero_le _) hlt with ⟨b, hb⟩
          exact ⟨b, (gave_append o b).mpr (Or.inl hb)⟩
        · exact absurd hleft (not_abandoned
            (answered_append.mpr ⟨hpg.answered, hpt.answered⟩) hbehind hgood)
      -- Elsewhere the area was covered, so what was left out has been made good.
      have hcovers : ∀ {area}, Covered area (lw ++ cg ++ ct) → area o →
          ∃ b, Gave (lw ++ cg ++ ct) o b := fun hc harea =>
        (hc o harea).elim id (hgood o)
      rcases ho with hlt | hin | hin
      · exact hwhole hlt
      · exact hcovers (hdg rfl).append_right.append_left hin
      · by_cases hcond : wholeOf len + TAIL < len
        · exact hcovers (hdt hcond hnone).append_right hin
        · exact hwhole (inTail_whole hcond hin)
    · rw [firstNonzero_grain hlen hw hg hag]
      exact ⟨hpg', fun hc => absurd hc hag⟩
  · rw [firstNonzero_whole hlen hw haw]
    exact ⟨hpw', fun hc => absurd hc haw⟩

end Scan

end Zeroboot
