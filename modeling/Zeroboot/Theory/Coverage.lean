import Zeroboot.Core.Checked
import Zeroboot.Theory.Reading

/-!
# What the Scan Covers

The offsets the scan promises to look at, in plain numbers, and that it looks
at these and no others: it finds nothing exactly when all of them are zero,
and what it finds is one of them and not zero. No stretch longer than the gap
between two samples escapes it.

The scan is written down with natural numbers. None of its sums and
differences leaves 64 bits on a device a file position can address, so the
program computes the same.

## Main definitions

* `Promised`: The offsets the scan promises to look at.
* `Shown`: What an answer of the scan says about its reads.

## Theorems

* `examined_iff_promised`: The three phases examine what is promised.
* `shown_firstNonzero`: A byte that was found had been read, and an error had
  been met.
* `firstNonzeroChecked_eq`: No step of the scan leaves 64 bits.
* `promised_of_run`: A long run meets what is promised.
* `firstNonzero_coverage`: The coverage of the scan.
-/

namespace Zeroboot

open Medium

/-- The offsets the scan promises to look at: all of a short device, and of a
    long one the front, the samples that fit, and the last megabyte. -/
def Promised (len o : Nat) : Prop :=
  if len < STRIDE then o < len
  else
    o < DEEP ∨
      (∃ k, DEEP + k * STRIDE + SAMPLE ≤ len ∧ DEEP + k * STRIDE ≤ o ∧
        o < DEEP + k * STRIDE + SAMPLE) ∨
      (len - TAIL ≤ o ∧ o < len)

theorem examined_iff_promised (len o : Nat) : Examined len o ↔ Promised len o := by
  unfold Examined Promised wholeOf InGrain InTail
  by_cases hlt : len < STRIDE
  · rw [if_pos hlt, if_pos hlt]
    constructor
    · rintro (hw | ⟨k, hk, _, _⟩ | ⟨_, ht⟩)
      · exact hw
      · -- No sample fits behind the end.
        simp only [SAMPLE] at hk
        omega
      · exact ht
    · exact Or.inl
  · rw [if_neg hlt, if_neg hlt]

/-! ## Long runs -/

theorem promised_short {len o : Nat} (hshort : len < STRIDE) : Promised len o ↔ o < len := by
  rw [Promised, if_pos hshort]

theorem promised_long {len o : Nat} (hlong : ¬ len < STRIDE) :
    Promised len o ↔ o < DEEP ∨
      (∃ k, DEEP + k * STRIDE + SAMPLE ≤ len ∧ DEEP + k * STRIDE ≤ o ∧
        o < DEEP + k * STRIDE + SAMPLE) ∨
      (len - TAIL ≤ o ∧ o < len) := by
  rw [Promised, if_neg hlong]

/-- A run of offsets longer than the gap between two samples meets what is
    promised. -/
theorem promised_of_run {len a n : Nat} (hn : STRIDE - SAMPLE < n) (hfit : a + n ≤ len) :
    ∃ o, a ≤ o ∧ o < a + n ∧ Promised len o := by
  by_cases hshort : len < STRIDE
  · exact ⟨a, le_refl a, by omega, (promised_short hshort).mpr (by omega)⟩
  by_cases hfront : a < DEEP
  · exact ⟨a, le_refl a, by omega, (promised_long hshort).mpr (Or.inl hfront)⟩
  -- Where the run starts, counted from the last sample that starts in front of it.
  have hsplit := Nat.div_add_mod (a - DEEP) STRIDE
  have hmod := Nat.mod_lt (a - DEEP) (show 0 < STRIDE by decide)
  have hgap : SAMPLE + TAIL ≤ STRIDE - SAMPLE := by decide
  have hgrain : 0 < SAMPLE ∧ SAMPLE ≤ STRIDE ∧ SAMPLE ≤ TAIL := by decide
  rw [Nat.mul_comm] at hsplit
  by_cases hinside : (a - DEEP) % STRIDE < SAMPLE
  · -- It starts inside that sample, which fits because the run does.
    exact ⟨a, le_refl a, by omega, (promised_long hshort).mpr
      (Or.inr (Or.inl ⟨(a - DEEP) / STRIDE, by omega, by omega, by omega⟩))⟩
  · have hnext := Nat.add_one_mul ((a - DEEP) / STRIDE) STRIDE
    by_cases hfits : DEEP + ((a - DEEP) / STRIDE + 1) * STRIDE + SAMPLE ≤ len
    · -- It reaches the next sample.
      exact ⟨DEEP + ((a - DEEP) / STRIDE + 1) * STRIDE, by omega, by omega,
        (promised_long hshort).mpr
          (Or.inr (Or.inl ⟨(a - DEEP) / STRIDE + 1, hfits, le_refl _, by omega⟩))⟩
    · -- The next sample would not fit, so the run ends in the last megabyte.
      exact ⟨a + n - 1, by omega, by omega, (promised_long hshort).mpr
        (Or.inr (Or.inr ⟨by omega, by omega⟩))⟩

/-! ## What was found -/

/-- What an answer of the scan says about its reads: the byte at the offset it
    found was handed over and is not zero, and an error was met. -/
structure Shown (scanned : Scanned (Option Nat)) : Prop where
  found : ∀ o, scanned.1 = .ok (some o) → ∃ b, b ≠ 0 ∧ Gave scanned.2 o b
  failed : ∀ e, scanned.1 = .error e → ¬ Succeeded scanned.2

section Shown

variable {h : Handle} {off want : Nat} {log log' : List ReadCall}

theorem shown_none (log : List ReadCall) : Shown (.ok none, log) where
  found := fun _ ho => absurd ho (by simp only [Except.ok.injEq, reduceCtorEq, not_false_eq_true])
  failed := fun _ he => absurd he (by simp only [reduceCtorEq, not_false_eq_true])

theorem shown_error {e : String} (hreg : region h off want log = (.error e, log')) :
    Shown (.error e, log') where
  found := fun _ ho => absurd ho (by simp only [reduceCtorEq, not_false_eq_true])
  failed := by
    rintro e' - hs
    rcases region_spec h off want log with ⟨calls, hlog, hf⟩
    rw [hreg] at hlog hf
    simp only at hlog hf
    rw [hlog] at hs
    exact hf.failed e rfl (succeeded_append.mp hs).2

theorem shown_some {chunk : List UInt8} {i : Nat}
    (hreg : region h off want log = (.ok chunk, log')) (hpos : position chunk = some i) :
    Shown (.ok (some (off + i)), log') where
  failed := fun _ he => absurd he (by simp only [reduceCtorEq, not_false_eq_true])
  found := by
    intro o ho
    simp only [Except.ok.injEq, Option.some.injEq] at ho
    rcases region_spec h off want log with ⟨calls, hlog, hf⟩
    rw [hreg] at hlog hf
    simp only at hlog hf
    rcases List.findIdx?_eq_some_iff_getElem.mp hpos with ⟨hi, hne, _⟩
    refine ⟨chunk[i], by rwa [bne_iff_ne] at hne, ?_⟩
    rw [hlog, gave_append]
    exact Or.inr ((hf.gave chunk rfl o _).mpr
      ⟨by omega, by rw [← ho, Nat.add_sub_cancel_left, List.getElem?_eq_getElem hi]⟩)

end Shown

/-- By induction on what is left of the part that is read whole. -/
theorem shown_wholeLoop (h : Handle) (whole n : Nat) :
    ∀ off log, whole - off = n → Shown (wholeLoop h off whole log) := by
  induction n using Nat.strong_induction_on with
  | _ n ih =>
      intro off log hn
      by_cases hlt : off < whole
      · rcases hreg : region h off (min (2 ^ 20) (whole - off)) log with ⟨e | chunk, log'⟩
        · rw [wholeLoop_error hlt hreg]
          exact shown_error hreg
        · by_cases hne : chunk = []
          · subst hne
            rw [wholeLoop_empty hlt hreg]
            exact shown_none log'
          · rcases hpos : position chunk with _ | i
            · rw [wholeLoop_next hlt hreg hne hpos]
              have hlen := List.length_pos_iff.mpr hne
              exact ih (whole - (off + chunk.length)) (by omega) _ _ rfl
            · rw [wholeLoop_found hlt hreg hpos]
              exact shown_some hreg hpos
      · rw [wholeLoop_done hlt]
        exact shown_none log

theorem shown_sampleLoop (h : Handle) (len n : Nat) :
    ∀ pos log, len - pos = n → Shown (sampleLoop h pos len log) := by
  induction n using Nat.strong_induction_on with
  | _ n ih =>
      intro pos log hn
      by_cases hle : pos + SAMPLE ≤ len
      · rcases hreg : region h pos SAMPLE log with ⟨e | chunk, log'⟩
        · rw [sampleLoop_error hle hreg]
          exact shown_error hreg
        · rcases hpos : position chunk with _ | i
          · rw [sampleLoop_next hle hreg hpos]
            have hless : len - (pos + STRIDE) < n := by
              simp only [SAMPLE, STRIDE] at hle ⊢
              omega
            exact ih _ hless _ _ rfl
          · rw [sampleLoop_found hle hreg hpos]
            exact shown_some hreg hpos
      · rw [sampleLoop_done hle]
        exact shown_none log

theorem shown_tailScan (h : Handle) (whole len : Nat) (log : List ReadCall) :
    Shown (tailScan h whole len log) := by
  unfold tailScan
  by_cases hlt : whole + TAIL < len
  · rw [if_pos hlt]
    rcases hreg : region h (len - TAIL) TAIL log with ⟨e | chunk, log'⟩
    · exact shown_error hreg
    · rcases hpos : position chunk with _ | i
      · simp only [hpos]
        exact shown_none log'
      · simp only [hpos]
        exact shown_some hreg hpos
  · rw [if_neg hlt]
    exact shown_none log

/-- A byte the scan found had been read, and an error had been met. -/
theorem shown_firstNonzero (h : Handle) {len : Nat} (hlen : h.seekEnd = .ok len) :
    Shown (firstNonzero h) := by
  have hw := shown_wholeLoop h (wholeOf len) _ 0 [] rfl
  rcases hwhole : wholeLoop h 0 (wholeOf len) [] with ⟨aw, lw⟩
  rw [hwhole] at hw
  by_cases haw : aw = .ok none
  · subst haw
    have hg := shown_sampleLoop h len _ (wholeOf len) lw rfl
    rcases hgrain : sampleLoop h (wholeOf len) len lw with ⟨ag, lg⟩
    rw [hgrain] at hg
    by_cases hag : ag = .ok none
    · subst hag
      rw [firstNonzero_tail hlen hwhole hgrain]
      exact shown_tailScan h _ _ _
    · rw [firstNonzero_grain hlen hwhole hgrain hag]
      exact hg
  · rw [firstNonzero_whole hlen hwhole haw]
    exact hw

/-! ## No step leaves 64 bits -/

section Arithmetic

variable (h : Handle)

/-- By induction on what is still wanted of the buffer. -/
theorem fillChecked_eq (off n : Nat) {len : Nat} (hlen : len < 2 ^ 64) : ∀ got log,
    len - got = n → fillChecked h off got len log = some (fill h (off + got) (len - got) log) := by
  induction n using Nat.strong_induction_on with
  | _ n ih =>
      intro got log hn
      by_cases hlt : got < len
      · have hsub := Checked.sub_of_le (Nat.le_of_lt hlt)
        rw [fillChecked, dif_pos hlt, fill, if_neg (by omega)]
        simp only [hsub]
        rcases hread : h.read log (off + got) (len - got) with e | ⟨_ | ⟨b, bs⟩⟩
        · rfl
        · rfl
        · have hle := h.read_le _ _ _ _ hread
          rw [List.length_cons] at hle
          have hadd := Checked.add_of_lt (show got + (b :: bs).length < 2 ^ 64 by
            rw [List.length_cons]
            omega)
          dsimp only
          split
          · rename_i hnone
            exact absurd (hadd.symm.trans hnone) (by simp only [reduceCtorEq, not_false_eq_true])
          · rename_i got' hsome
            have hgot : got' = got + (bs.length + 1) :=
              (Option.some.inj (hadd.symm.trans hsome)).symm
            rw [ih (len - got') (by omega) got' _ rfl, hgot, ← Nat.add_assoc, Nat.sub_add_eq]
            rcases fill h (off + got + bs.length + 1) (len - got - bs.length - 1) _ with
              ⟨e | rest, log'⟩
            · rfl
            · rfl
      · rw [fillChecked, dif_neg hlt, fill, if_pos (by omega)]

theorem regionChecked_eq (off : Nat) {len : Nat} (hlen : len < 2 ^ 64) (log : List ReadCall) :
    regionChecked h off len log = some (region h off len log) := by
  rw [regionChecked, fillChecked_eq h off len hlen 0 log rfl]
  rfl

theorem region_length {off want : Nat} {log log' : List ReadCall} {chunk : List UInt8}
    (hreg : region h off want log = (.ok chunk, log')) : chunk.length ≤ want := by
  rcases region_spec h off want log with ⟨calls, _, hf⟩
  rw [hreg] at hf
  exact hf.length_le chunk rfl

theorem position_lt {chunk : List UInt8} {i : Nat} (hpos : position chunk = some i) :
    i < chunk.length := by
  rcases List.findIdx?_eq_some_iff_getElem.mp hpos with ⟨hi, _⟩
  exact hi

/-- By induction on what is left of the part that is read whole. -/
theorem wholeLoopChecked_eq {whole : Nat} (hwhole : whole < 2 ^ 63) (n : Nat) : ∀ off log,
    whole - off = n → wholeLoopChecked h off whole log = some (wholeLoop h off whole log) := by
  induction n using Nat.strong_induction_on with
  | _ n ih =>
      intro off log hn
      by_cases hlt : off < whole
      · have hsub := Checked.sub_of_le (Nat.le_of_lt hlt)
        rw [wholeLoopChecked, dif_pos hlt]
        simp only [hsub, regionChecked_eq h off (show min (2 ^ 20) (whole - off) < 2 ^ 64 by omega)]
        rcases hreg : region h off (min (2 ^ 20) (whole - off)) log with ⟨e | chunk, log'⟩
        · rw [wholeLoop_error hlt hreg]
        · have hle := region_length h hreg
          by_cases hne : chunk = []
          · subst hne
            rw [wholeLoop_empty hlt hreg]
            rfl
          · dsimp only
            rw [dif_neg hne]
            rcases hpos : position chunk with _ | i
            · have hadd := Checked.add_of_lt (show off + chunk.length < 2 ^ 64 by omega)
              have hlen := List.length_pos_iff.mpr hne
              rw [wholeLoop_next hlt hreg hne hpos]
              dsimp only
              split
              · rename_i hnone
                exact absurd (hadd.symm.trans hnone)
                  (by simp only [reduceCtorEq, not_false_eq_true])
              · rename_i off' hsome
                have hoff : off' = off + chunk.length :=
                  (Option.some.inj (hadd.symm.trans hsome)).symm
                rw [hoff]
                exact ih (whole - (off + chunk.length)) (by omega) _ _ rfl
            · have hi := position_lt hpos
              rw [wholeLoop_found hlt hreg hpos]
              simp only [Checked.add_of_lt (show off + i < 2 ^ 64 by omega), Option.map_some]
      · rw [wholeLoopChecked, dif_neg hlt, wholeLoop_done hlt]

/-- By induction on what is left of the drive. The position may be a stride
    behind its end. -/
theorem sampleLoopChecked_eq {len : Nat} (hlen : len < 2 ^ 63) (n : Nat) : ∀ pos log,
    len - pos = n → pos ≤ len + STRIDE →
      sampleLoopChecked h pos len log = some (sampleLoop h pos len log) := by
  have hstride : STRIDE + STRIDE + SAMPLE < 2 ^ 63 := by decide
  have hgrain : 0 < STRIDE ∧ 0 < SAMPLE := by decide
  induction n using Nat.strong_induction_on with
  | _ n ih =>
      intro pos log hn hpos
      have hend := Checked.add_of_lt (show pos + SAMPLE < 2 ^ 64 by omega)
      rw [sampleLoopChecked]
      split
      · rename_i hnone
        exact absurd (hend.symm.trans hnone) (by simp only [reduceCtorEq, not_false_eq_true])
      · rename_i stop hstop
        obtain rfl : pos + SAMPLE = stop := Option.some.inj (hend.symm.trans hstop)
        by_cases hle : pos + SAMPLE ≤ len
        · rw [dif_pos hle, regionChecked_eq h pos (by decide)]
          rcases hreg : region h pos SAMPLE log with ⟨e | chunk, log'⟩
          · rw [sampleLoop_error hle hreg]
          · have hchunk := region_length h hreg
            dsimp only
            rcases hfound : position chunk with _ | i
            · have hadd := Checked.add_of_lt (show pos + STRIDE < 2 ^ 64 by omega)
              rw [sampleLoop_next hle hreg hfound]
              dsimp only
              split
              · rename_i hnone
                exact absurd (hadd.symm.trans hnone)
                  (by simp only [reduceCtorEq, not_false_eq_true])
              · rename_i pos' hsome
                obtain rfl : pos + STRIDE = pos' := Option.some.inj (hadd.symm.trans hsome)
                exact ih (len - (pos + STRIDE)) (by omega) _ _ rfl (by omega)
            · have hi := position_lt hfound
              rw [sampleLoop_found hle hreg hfound]
              simp only [Checked.add_of_lt (show pos + i < 2 ^ 64 by omega), Option.map_some]
        · rw [dif_neg hle, sampleLoop_done hle]

theorem tailScanChecked_eq {whole len : Nat} (hle : whole ≤ len) (hlen : len < 2 ^ 63)
    (log : List ReadCall) : tailScanChecked h whole len log = some (tailScan h whole len log) := by
  have htail : TAIL < 2 ^ 63 := by decide
  unfold tailScanChecked tailScan
  rw [Checked.add_of_lt (show whole + TAIL < 2 ^ 64 by omega)]
  by_cases hlt : whole + TAIL < len
  · have hsub := Checked.sub_of_le (show TAIL ≤ len by omega)
    simp only [if_pos hlt, hsub, regionChecked_eq h (len - TAIL) (show TAIL < 2 ^ 64 by omega)]
    rcases hreg : region h (len - TAIL) TAIL log with ⟨e | chunk, log'⟩
    · rfl
    · have hchunk := region_length h hreg
      rcases hfound : position chunk with _ | i
      · simp only [hfound]
      · have hi := position_lt hfound
        simp only [hfound, Checked.add_of_lt (show len - TAIL + i < 2 ^ 64 by omega),
          Option.map_some]
  · simp only [if_neg hlt]

/-- No step of the scan leaves 64 bits. -/
theorem firstNonzeroChecked_eq : firstNonzeroChecked h = some (firstNonzero h) := by
  unfold firstNonzeroChecked firstNonzero
  rcases hend : h.seekEnd with e | len
  · rfl
  · have hlen := h.seekEnd_lt len hend
    have hle := wholeOf_le len
    simp only [wholeLoopChecked_eq h (show wholeOf len < 2 ^ 63 by omega) _ 0 [] rfl]
    rcases wholeLoop h 0 (wholeOf len) [] with ⟨e | _ | o, lw⟩
    · rfl
    · simp only [sampleLoopChecked_eq h hlen _ (wholeOf len) lw rfl (by omega)]
      rcases sampleLoop h (wholeOf len) len lw with ⟨e | _ | o, lg⟩
      · rfl
      · exact tailScanChecked_eq h hle hlen lg
      · rfl
    · rfl

end Arithmetic

/-- A scan of a device that delivers its content has no error to meet. -/
theorem firstNonzero_ok {h : Handle} {c : Content} (hd : Delivers h c) :
    ∃ answer, (firstNonzero h).1 = .ok answer := by
  rcases firstNonzero_spec h hd.seekEnd with ⟨hphase, _⟩
  rcases hans : (firstNonzero h).1 with e | answer
  · exact absurd (hd.succeeded hphase.answered) ((shown_firstNonzero h hd.seekEnd).failed e hans)
  · exact ⟨answer, rfl⟩

/-- The coverage of the scan on a device that delivers its content: which
    answer it gives, what it found, that no step leaves 64 bits, and that no
    long stretch escapes. -/
theorem firstNonzero_coverage (h : Handle) (c : Content) (hd : Delivers h c) :
    (∃ answer, (firstNonzero h).1 = .ok answer) ∧
      ((firstNonzero h).1 = .ok none ↔ ∀ o, Promised c.len o → c.byte o = 0) ∧
      (∀ o, (firstNonzero h).1 = .ok (some o) → Promised c.len o ∧ c.byte o ≠ 0) ∧
      firstNonzeroChecked h = some (firstNonzero h) ∧
      ∀ a n, STRIDE - SAMPLE < n → a + n ≤ c.len →
        (∃ o, a ≤ o ∧ o < a + n ∧ Promised c.len o) ∧
        ((firstNonzero h).1 = .ok none → ¬ ∀ o, a ≤ o → o < a + n → c.byte o ≠ 0) := by
  rcases firstNonzero_spec h hd.seekEnd with ⟨hphase, _⟩
  have hshown := shown_firstNonzero h hd.seekEnd
  have hzero : (firstNonzero h).1 = .ok none ↔ ∀ o, Promised c.len o → c.byte o = 0 := by
    simp only [firstNonzero_delivers hd, examined_iff_promised]
  refine ⟨firstNonzero_ok hd, hzero, ?_, firstNonzeroChecked_eq h, ?_⟩
  · intro o hfound
    rcases hshown.found o hfound with ⟨b, hb, hgave⟩
    refine ⟨(examined_iff_promised _ _).mp
      (hphase.answered.gave_within hphase.within hgave), ?_⟩
    rw [← (hd.gave hphase.answered hgave).2]
    exact hb
  · intro a n hn hfit
    have hrun := promised_of_run hn hfit
    refine ⟨hrun, fun hnone hall => ?_⟩
    rcases hrun with ⟨o, hlo, hhi, ho⟩
    exact hall o hlo hhi (hzero.mp hnone o ho)

theorem firstNonzero_coverage_zeros :
    (firstNonzero (steady ⟨STRIDE, fun _ => 0, by decide⟩)).1 = .ok none :=
  (firstNonzero_coverage _ _ (steady_delivers ⟨STRIDE, fun _ => 0, by decide⟩)).2.1.mpr
    fun _ _ => rfl

end Zeroboot
