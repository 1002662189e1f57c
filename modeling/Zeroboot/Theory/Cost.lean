import Zeroboot.Theory.Evidence
import Zeroboot.Theory.Ladder

/-!
# What a Verdict Costs

How much of a drive is read before it is judged.

The log of a run of reads has a price, the bytes it handed over. Each loop of
the scan extends its log by calls whose price is bounded by what the loop is
about: the part that is read whole, the samples that still fit, the last
megabyte. However short the reads come back, nothing is paid for twice, as what
was handed over is not asked for again.

The logs of a verdict are those of `judgeLogged`. With them it can be said that
the scan is run down one branch only, and that every other verdict is reached
for two megabytes a device and two more for the drive.

## Main definitions

* `handed`: The price of a log.
* `scanPrice`: What the scan of a drive costs at most.
* `Scannable`: What a drive has to be to be scanned.

## Theorems

* `firstNonzero_price`: The price of a scan.
* `sniff_price`: The price of a first look.
* `judge_price`: The price of a verdict, and which verdicts are scanned for.
-/

namespace Zeroboot

open Medium

/-! ## The price of a log -/

/-- How many bytes a call handed over. -/
def callBytes (c : ReadCall) : Nat :=
  match c.answer with
  | .ok bs => bs.length
  | .error _ => 0

/-- How many bytes were handed over. -/
def handed (log : List ReadCall) : Nat :=
  (log.map callBytes).sum

@[simp] theorem handed_append (l₁ l₂ : List ReadCall) :
    handed (l₁ ++ l₂) = handed l₁ + handed l₂ := by
  unfold handed
  rw [List.map_append, List.sum_append]

@[simp] theorem handed_single (c : ReadCall) : handed [c] = callBytes c := by
  unfold handed
  rw [List.map_singleton, List.sum_singleton]

/-- A run of reads put calls of at most this price behind its log. -/
def Priced {α : Type} (log : List ReadCall) (price : Nat) (scanned : Scanned α) : Prop :=
  ∃ calls, scanned.2 = log ++ calls ∧ handed calls ≤ price

section Priced

variable {α β : Type} {log log' : List ReadCall} {price price' : Nat} {scanned : Scanned α}

theorem Priced.free (answer : Except String α) (log : List ReadCall) (price : Nat) :
    Priced log price (answer, log) :=
  ⟨[], (List.append_nil log).symm, Nat.zero_le price⟩

theorem Priced.mono (h : Priced log price scanned) (hle : price ≤ price') :
    Priced log price' scanned := by
  rcases h with ⟨calls, hlog, hprice⟩
  exact ⟨calls, hlog, Nat.le_trans hprice hle⟩

/-- What comes behind a first run is paid for on top. -/
theorem Priced.then {answer : Except String β} (h : Priced log price (answer, log'))
    (hrest : Priced log' price' scanned) : Priced log (price + price') scanned := by
  rcases h with ⟨calls, hlog, hprice⟩
  rcases hrest with ⟨more, hmore, hprice'⟩
  simp only at hlog
  refine ⟨calls ++ more, ?_, ?_⟩
  · rw [hmore, hlog, List.append_assoc]
  · rw [handed_append]
    omega

theorem Priced.handed_le (h : Priced [] price scanned) : handed scanned.2 ≤ price := by
  rcases h with ⟨calls, hlog, hprice⟩
  rw [hlog, List.nil_append]
  exact hprice

end Priced

/-! ## A region -/

/-- A region costs the bytes it comes back with, and one that fails costs no
    more than was wanted. By induction on what is still wanted. -/
theorem fill_price (h : Handle) (want : Nat) : ∀ off log, ∃ calls,
    (fill h off want log).2 = log ++ calls ∧ handed calls ≤ want ∧
      ∀ chunk, (fill h off want log).1 = .ok chunk → handed calls = chunk.length := by
  -- Every read that hands something over leaves less to be wanted.
  induction want using Nat.strong_induction_on with
  | _ want ih =>
      intro off log
      by_cases hw : want = 0
      · rw [fill, if_pos hw]
        refine ⟨[], (List.append_nil log).symm, Nat.zero_le want, ?_⟩
        intro chunk hchunk
        rw [← Except.ok.inj hchunk]
        rfl
      · rcases ha : h.read log off want with e | bs
        · rw [fill, if_neg hw, ha]
          refine ⟨[⟨off, want, .error e⟩], rfl, Nat.zero_le want, ?_⟩
          intro chunk hchunk
          exact absurd hchunk (by simp only [reduceCtorEq, not_false_eq_true])
        · cases bs with
          | nil =>
              rw [fill, if_neg hw, ha]
              refine ⟨[⟨off, want, .ok []⟩], rfl, Nat.zero_le want, ?_⟩
              intro chunk hchunk
              rw [← Except.ok.inj hchunk]
              rfl
          | cons b bs =>
              have hle := h.read_le log off want (b :: bs) ha
              have hlen : (b :: bs).length = bs.length + 1 := List.length_cons
              have hless : want - (b :: bs).length < want := by omega
              rcases ih _ hless (off + (b :: bs).length) (log ++ [⟨off, want, .ok (b :: bs)⟩]) with
                ⟨calls, hlog, hprice, hexact⟩
              rw [fill_cons hw ha]
              refine ⟨⟨off, want, .ok (b :: bs)⟩ :: calls, ?_, ?_, ?_⟩
              · rw [hlog, List.append_assoc, List.singleton_append]
              · rw [← List.singleton_append, handed_append, handed_single]
                simp only [callBytes]
                omega
              · intro chunk hchunk
                -- What the rest came back with stands behind this piece.
                rcases hrest : (fill h (off + (b :: bs).length) (want - (b :: bs).length)
                    (log ++ [⟨off, want, .ok (b :: bs)⟩])).1 with e | rest
                · rw [hrest] at hchunk
                  exact absurd hchunk (by simp only [Except.map, reduceCtorEq, not_false_eq_true])
                · rw [hrest] at hchunk
                  rw [← List.singleton_append, handed_append, handed_single, hexact rest hrest,
                    ← Except.ok.inj hchunk, List.length_append]
                  rfl

theorem region_price (h : Handle) (off want : Nat) (log : List ReadCall) :
    Priced log want (region h off want log) := by
  rcases fill_price h want off log with ⟨calls, hlog, hprice, _⟩
  exact ⟨calls, hlog, hprice⟩

/-- A region that came back costs what it came back with. -/
theorem region_ok_price {h : Handle} {off want : Nat} {log log' : List ReadCall}
    {chunk : List UInt8} (hreg : region h off want log = (.ok chunk, log')) :
    Priced log chunk.length ((.ok chunk, log') : Scanned (List UInt8)) ∧ chunk.length ≤ want := by
  rcases fill_price h want off log with ⟨calls, hlog, hprice, hexact⟩
  have hfill : fill h off want log = (.ok chunk, log') := hreg
  rw [hfill] at hlog hexact
  have hsame := hexact chunk rfl
  exact ⟨⟨calls, hlog, Nat.le_of_eq hsame⟩, by omega⟩

/-! ## The scan -/

/-- By induction on what is left of the part that is read whole. -/
theorem wholeLoop_price (h : Handle) (whole n : Nat) : ∀ off log, whole - off = n →
    Priced log (whole - off) (wholeLoop h off whole log) := by
  induction n using Nat.strong_induction_on with
  | _ n ih =>
      intro off log hn
      by_cases hlt : off < whole
      · rcases hreg : region h off (min (2 ^ 20) (whole - off)) log with ⟨e | chunk, log'⟩
        · rw [wholeLoop_error hlt hreg]
          have hprice := region_price h off (min (2 ^ 20) (whole - off)) log
          rw [hreg] at hprice
          exact hprice.mono (Nat.min_le_right _ _)
        · rcases region_ok_price hreg with ⟨hprice, hle⟩
          have hfits : chunk.length ≤ whole - off := Nat.le_trans hle (Nat.min_le_right _ _)
          by_cases hne : chunk = []
          · -- The loop ends where the drive has nothing more to give.
            subst hne
            rw [wholeLoop_empty hlt hreg]
            exact hprice.mono (Nat.zero_le _)
          · rcases hpos : position chunk with _ | i
            · -- What is left is paid for behind the chunk.
              rw [wholeLoop_next hlt hreg hne hpos]
              have hlen := List.length_pos_iff.mpr hne
              have hrest := ih (whole - (off + chunk.length)) (by omega) _ log' rfl
              exact (hprice.then hrest).mono (by omega)
            · rw [wholeLoop_found hlt hreg hpos]
              exact hprice.mono hfits
      · rw [wholeLoop_done hlt]
        exact Priced.free _ log _

/-- How many samples fit from this offset on. -/
def samples (pos len : Nat) : Nat :=
  if pos + SAMPLE ≤ len then (len - SAMPLE - pos) / STRIDE + 1 else 0

theorem samples_next {pos len : Nat} (hle : pos + SAMPLE ≤ len) :
    samples (pos + STRIDE) len + 1 = samples pos len := by
  unfold samples
  rw [if_pos hle]
  by_cases hnext : pos + STRIDE + SAMPLE ≤ len
  · have hsub : len - SAMPLE - pos = len - SAMPLE - (pos + STRIDE) + STRIDE := by omega
    rw [if_pos hnext, hsub, Nat.add_div_right _ (by decide)]
  · rw [if_neg hnext, Nat.div_eq_of_lt (by omega)]

/-- By induction on what is left of the drive. -/
theorem sampleLoop_price (h : Handle) (len n : Nat) : ∀ pos log, len - pos = n →
    Priced log (samples pos len * SAMPLE) (sampleLoop h pos len log) := by
  induction n using Nat.strong_induction_on with
  | _ n ih =>
      intro pos log hn
      by_cases hle : pos + SAMPLE ≤ len
      · -- One sample is read here, and the others are those from a stride on.
        have hsamples := samples_next hle
        have hone : samples pos len * SAMPLE = SAMPLE + samples (pos + STRIDE) len * SAMPLE := by
          rw [← hsamples, Nat.add_mul, Nat.one_mul, Nat.add_comm]
        rw [hone]
        have hprice := region_price h pos SAMPLE log
        rcases hreg : region h pos SAMPLE log with ⟨e | chunk, log'⟩
        · rw [sampleLoop_error hle hreg]
          rw [hreg] at hprice
          exact hprice.mono (Nat.le_add_right _ _)
        · rw [hreg] at hprice
          rcases hpos : position chunk with _ | i
          · rw [sampleLoop_next hle hreg hpos]
            have hless : len - (pos + STRIDE) < n := by
              simp only [SAMPLE, STRIDE] at hle ⊢
              omega
            exact hprice.then (ih _ hless _ log' rfl)
          · rw [sampleLoop_found hle hreg hpos]
            exact hprice.mono (Nat.le_add_right _ _)
      · rw [sampleLoop_done hle]
        exact Priced.free _ log _

theorem tailScan_price (h : Handle) (whole len : Nat) (log : List ReadCall) :
    Priced log (if whole + TAIL < len then TAIL else 0) (tailScan h whole len log) := by
  unfold tailScan
  by_cases hlt : whole + TAIL < len
  · rw [if_pos hlt, if_pos hlt]
    have hprice := region_price h (len - TAIL) TAIL log
    rcases hreg : region h (len - TAIL) TAIL log with ⟨e | chunk, log'⟩
    · rw [hreg] at hprice
      exact hprice
    · rw [hreg] at hprice
      rcases hpos : position chunk with _ | i
      · simp only [hpos]
        exact hprice
      · simp only [hpos]
        exact hprice
  · rw [if_neg hlt, if_neg hlt]
    exact Priced.free _ log _

/-- What the scan of a drive of this length costs at most. -/
def scanPrice (len : Nat) : Nat :=
  wholeOf len + samples (wholeOf len) len * SAMPLE + if wholeOf len + TAIL < len then TAIL else 0

theorem firstNonzero_price {h : Handle} {len : Nat} (hlen : h.seekEnd = .ok len) :
    handed (firstNonzero h).2 ≤ scanPrice len := by
  refine Priced.handed_le ?_
  have hw := wholeLoop_price h (wholeOf len) _ 0 [] rfl
  rw [Nat.sub_zero] at hw
  unfold scanPrice
  -- Each phase is only entered when the one before it found nothing.
  rcases hwhole : wholeLoop h 0 (wholeOf len) [] with ⟨aw, lw⟩
  rw [hwhole] at hw
  by_cases haw : aw = .ok none
  · subst haw
    have hg := sampleLoop_price h len _ (wholeOf len) lw rfl
    rcases hgrain : sampleLoop h (wholeOf len) len lw with ⟨ag, lg⟩
    rw [hgrain] at hg
    by_cases hag : ag = .ok none
    · subst hag
      rw [firstNonzero_tail hlen hwhole hgrain]
      exact (hw.then hg).then (tailScan_price h _ _ _)
    · rw [firstNonzero_grain hlen hwhole hgrain hag]
      exact (hw.then hg).mono (Nat.le_add_right _ _)
  · rw [firstNonzero_whole hlen hwhole haw]
    exact hw.mono (by omega)

/-- The samples are a sixteen-thousandth of a drive, and the rest is the same
    for every drive that is sampled. -/
theorem scanPrice_le (len : Nat) :
    scanPrice len ≤ if len < STRIDE then len else DEEP + SAMPLE + TAIL + len / 2 ^ 14 := by
  unfold scanPrice wholeOf samples
  split_ifs <;> simp only [STRIDE, DEEP, SAMPLE, TAIL] at * <;> omega

theorem sniff_price (h : Handle) : handed (sniff h).2 ≤ HEAD + TAIL := by
  refine Priced.handed_le ?_
  unfold sniff
  rcases h.seekEnd with e | len
  · exact Priced.free _ [] _
  · have hhead := (region_price h 0 (min HEAD len) []).mono (Nat.min_le_left HEAD len)
    rcases hreg : region h 0 (min HEAD len) [] with ⟨e | head, log⟩
    · simp only [hreg]
      rw [hreg] at hhead
      exact hhead.mono (Nat.le_add_right _ _)
    · simp only [hreg]
      rw [hreg] at hhead
      by_cases hempty : head = []
      · rw [if_pos hempty]
        exact hhead.mono (Nat.le_add_right _ _)
      · rw [if_neg hempty]
        by_cases hlong : HEAD + TAIL < len
        · rw [if_pos hlong]
          have htail := region_price h (len - TAIL) TAIL log
          rcases hreg' : region h (len - TAIL) TAIL log with ⟨e | tail, log'⟩
          · rw [hreg'] at htail
            exact hhead.then htail
          · rw [hreg'] at htail
            exact hhead.then htail
        · rw [if_neg hlong]
          exact hhead.mono (Nat.le_add_right _ _)

/-! ## The verdict -/

variable {V : Type}

section Judge

variable {os : Os V} {m : Machine} {sys name path : String} {sizeBytes : UInt64} {removable : Bool}
  {me : Option String} {found : Option Esp}

theorem sniffed_price (os : Os V) (path : String) (k : Nat) :
    handed (sniffed os path k) ≤ HEAD + TAIL := by
  unfold sniffed
  rcases (os.node path).opened k with e | h
  · exact Nat.zero_le _
  · exact sniff_price h

theorem probeLogged_price {remote : Option String} (ps : List String) :
    handed (probeLogged os m path remote me found ps).2 ≤ ps.length * (HEAD + TAIL) := by
  induction ps with
  | nil => exact Nat.zero_le _
  | cons probe rest ih =>
      unfold probeLogged
      have hone := sniffed_price os probe 0
      rw [List.length_cons, Nat.add_mul, Nat.one_mul]
      rcases judgeProbe os m path remote me found probe with _ | verdict
      · simp only [handed_append]
        omega
      · simp only
        omega

theorem scanned_price {h : Handle} {len k : Nat} (hopened : (os.node path).opened k = .ok h)
    (hlen : h.seekEnd = .ok len) : handed (scanned os path k) ≤ scanPrice len := by
  unfold scanned
  rw [hopened]
  exact firstNonzero_price hlen

/-- What a drive has to be to be scanned: nobody's as far as anybody can
    tell. -/
structure Scannable (os : Os V) (m : Machine) (sys name path : String) (me : Option String)
    (found : Option Esp) : Prop where
  unsettled : ∀ probe ∈ probes os sys name path,
    judgeProbe os m path (remoteTransport os sys) me found probe = none
  localOnly : remoteTransport os sys = none
  unparted : partitions os sys name = []
  unnamed : ∃ s, sniffNode os path 1 = .ok s ∧ signature s = none ∧ s.tailSignature = none

/-- The verdicts that a scan leads to. -/
def OfScan (v : Verdict) : Prop :=
  v = .blank ∨ (∃ off : Nat, v = .foreign ("unrecognised data at offset " ++ toString off)) ∨
    ∃ e, v = .unreadable e

/-- What is read for a verdict: nothing, the probes, or the probes and the drive
    once more, and then the scan or not. -/
theorem judgeLogged_reads {judged : Judged}
    (hjudged : judged = judgeLogged namedSignatures tailChecks os m sys name path sizeBytes
      removable me found) :
    (judged.sniffed = [] ∨
      judged.sniffed = (probeLogged os m path (remoteTransport os sys) me found
        (probes os sys name path)).2 ∨
      judged.sniffed = (probeLogged os m path (remoteTransport os sys) me found
        (probes os sys name path)).2 ++ sniffed os path 1) ∧
    (judged.scanned = [] ∨
      judged.scanned = scanned os path 2 ∧ Scannable os m sys name path me found ∧
        OfScan judged.verdict) := by
  subst hjudged
  unfold judgeLogged
  simp only [← signature_eq, ← tailSignature_eq]
  by_cases hsize : sizeBytes = 0
  · simp only [if_pos hsize, true_or, and_self]
  simp only [if_neg hsize]
  by_cases hremovable : removable = true
  · simp only [if_pos hremovable]
    rcases (readTrimmed os (pathJoin sys "device/model")).filter (· ≠ "") with _ | model
    · simp only [true_or, and_self]
    · simp only [true_or, and_self]
  simp only [if_neg hremovable]
  rcases hprobed : (probeLogged os m path (remoteTransport os sys) me found
    (probes os sys name path)).1 with _ | verdict
  · rcases hremote : remoteTransport os sys with _ | via
    · rcases hs : sniffNode os path 1 with e | s
      · simp only [true_or, or_true, and_self]
      · by_cases hparts : partitions os sys name ≠ []
        · simp only [if_pos hparts, true_or, or_true, and_self]
        · simp only [if_neg hparts]
          rcases hname : (signature s).or s.tailSignature with _ | what
          · -- No slab, no network, no partitions and no signature: this is the branch.
            rw [probeLogged_fst, List.findSome?_eq_none_iff] at hprobed
            rw [Option.or_eq_none_iff] at hname
            have hscannable : Scannable os m sys name path me found :=
              ⟨hprobed, hremote, not_not.mp hparts, s, hs, hname⟩
            rcases firstNonzeroNode os path 2 with e | _ | off
            · exact ⟨Or.inr (Or.inr rfl), Or.inr ⟨rfl, hscannable, Or.inr (Or.inr ⟨e, rfl⟩)⟩⟩
            · exact ⟨Or.inr (Or.inr rfl), Or.inr ⟨rfl, hscannable, Or.inl rfl⟩⟩
            · exact ⟨Or.inr (Or.inr rfl), Or.inr ⟨rfl, hscannable, Or.inr (Or.inl ⟨off, rfl⟩)⟩⟩
          · simp only [true_or, or_true, and_self]
    · simp only [true_or, or_true, and_self]
  · simp only [true_or, or_true, and_self]

/-- A verdict costs two megabytes for every device of the drive and two more
    for the drive. The scan costs a drive of less than a gigabyte its length
    and a longer one a sixteen-thousandth of it and 66 megabytes, and it is run
    for drives that nothing else is known about, and for the verdicts that it
    decides. -/
theorem judge_price (os : Os V) (m : Machine) (sys name path : String) (sizeBytes : UInt64)
    (removable : Bool) (me : Option String) (found : Option Esp) :
    ∃ judged : Judged,
      judged = judgeLogged namedSignatures tailChecks os m sys name path sizeBytes removable me
        found ∧
      judged.verdict = judge os m sys name path sizeBytes removable me found ∧
      handed judged.sniffed ≤ ((probes os sys name path).length + 1) * (HEAD + TAIL) ∧
      (∀ h len, (os.node path).opened 2 = .ok h → h.seekEnd = .ok len →
        handed judged.scanned ≤
          if len < STRIDE then len else DEEP + SAMPLE + TAIL + len / 2 ^ 14) ∧
      (judged.scanned ≠ [] →
        Scannable os m sys name path me found ∧ OfScan judged.verdict) := by
  refine ⟨_, rfl, judgeLogged_verdict os m sys name path sizeBytes removable me found, ?_, ?_, ?_⟩
  · have hprobes : handed (probeLogged os m path (remoteTransport os sys) me found
        (probes os sys name path)).2 ≤ (probes os sys name path).length * (HEAD + TAIL) :=
      probeLogged_price _
    have honce := sniffed_price os path 1
    rw [Nat.add_mul, Nat.one_mul]
    -- Nothing, the probes, or the probes and the drive once more.
    rcases (judgeLogged_reads rfl).1 with h | h | h
    · rw [h]
      exact Nat.zero_le _
    · rw [h]
      omega
    · rw [h, handed_append]
      omega
  · intro h len hopened hlen
    rcases (judgeLogged_reads rfl).2 with hs | ⟨hs, _, _⟩
    · rw [hs]
      exact Nat.zero_le _
    · rw [hs]
      exact Nat.le_trans (scanned_price hopened hlen) (scanPrice_le len)
  · intro hne
    rcases (judgeLogged_reads rfl).2 with hs | ⟨_, hscannable, hof⟩
    · exact absurd hs hne
    · exact ⟨hscannable, hof⟩

end Judge

end Zeroboot
