import Zeroboot.Theory.Reading

/-!
# The Offset the Scan Reports

"Unrecognised data at offset N" is the evidence against a drive, and N is meant
to be where the first byte that is not zero lives.

Each phase of the scan finds the least such offset of its own area
(`wholeLoop_finds`, `sampleLoop_finds`, `tailScan_finds`), since each goes
upwards. The phases go in a fixed order, so what is left is whether their areas
do. The whole read lies in front of the rest. The grain and the last megabyte
need not: when a sample still fits behind the start of the last megabyte, it is
read before bytes that stand in front of it.

`Crossed` is that overlap, with something to find on both sides of the sample's
start and nothing before it. It is a condition on the length and the bytes
alone, and the scan reports the least offset exactly when it does not hold.

## Main definitions

* `Finds`: The least hit in an area, or none.
* `Crossed`: A sample stands in the last megabyte, and both have something.

## Theorems

* `finds_slice_none`, `finds_slice_some`: What a chunk finds.
* `Finds.or_of_none`, `Finds.or_of_lt`: Two areas, one after the other.
* `wholeLoop_finds`, `sampleLoop_finds`, `tailScan_finds`: Each phase finds
  the least offset of its area.
* `firstNonzero_least`: Away from the overlap, so does the scan.
* `firstNonzero_crossed`: In it the scan reports a later one.
* `firstNonzero_least_iff`: The scan reports the least offset exactly when
  nothing is crossed.
-/

namespace Zeroboot

open Medium

/-! ## The least hit -/

/-- The least offset of an area with a byte that is not zero, or none. -/
inductive Finds (c : Content) (area : Nat → Prop) : Option Nat → Prop
  | nothing (zero : ∀ o, area o → c.byte o = 0) : Finds c area none
  | first {off : Nat} (mem : area off) (ne : c.byte off ≠ 0)
      (least : ∀ o, area o → c.byte o ≠ 0 → off ≤ o) : Finds c area (some off)

section Finds

variable {c : Content} {area area' : Nat → Prop} {found : Option Nat}

theorem Finds.congr (h : Finds c area found) (hiff : ∀ o, area o ↔ area' o) :
    Finds c area' found := by
  cases h with
  | nothing zero => exact Finds.nothing fun o ho => zero o ((hiff o).mpr ho)
  | first mem ne least =>
      exact Finds.first ((hiff _).mp mem) ne fun o ho => least o ((hiff o).mpr ho)

/-- Where the first area has nothing, the second decides. -/
theorem Finds.or_of_none (h : Finds c area none) (h' : Finds c area' found) :
    Finds c (fun o => area o ∨ area' o) found := by
  cases h with
  | nothing zero =>
      cases h' with
      | nothing zero' => exact Finds.nothing fun o ho => ho.elim (zero o) (zero' o)
      | first mem ne least =>
          refine Finds.first (Or.inr mem) ne ?_
          intro o ho hne
          rcases ho with ho | ho
          · exact absurd (zero o ho) hne
          · exact least o ho hne

/-- What the first area has is the least, when the second lies behind it. -/
theorem Finds.or_of_lt {off : Nat} (h : Finds c area (some off))
    (hbehind : ∀ o, area' o → c.byte o ≠ 0 → off ≤ o) :
    Finds c (fun o => area o ∨ area' o) (some off) := by
  cases h with
  | first mem ne least =>
      exact Finds.first (Or.inl mem) ne fun o ho hne =>
        ho.elim (fun ho => least o ho hne) (fun ho => hbehind o ho hne)

theorem finds_slice_none {off want : Nat} (hpos : position (c.slice off want) = none) :
    Finds c (fun o => off ≤ o ∧ o < off + want) none := by
  rw [position_eq_none_iff, Content.forall_mem_slice] at hpos
  exact Finds.nothing fun o ho => hpos o ho.1 ho.2

theorem finds_slice_some {off want i : Nat} (hpos : position (c.slice off want) = some i) :
    i < want ∧ Finds c (fun o => off ≤ o ∧ o < off + want) (some (off + i)) := by
  rcases List.findIdx?_eq_some_iff_getElem.mp hpos with ⟨hlt, hne, hbefore⟩
  have hlen : (c.slice off want).length = want := Content.length_slice c off want
  have hat (j : Nat) (hj : j < (c.slice off want).length) :
      (c.slice off want)[j] = c.byte (off + j) := by
    have hget := Content.getElem?_slice c off want j (by omega)
    rw [List.getElem?_eq_getElem hj] at hget
    exact Option.some.inj hget
  rw [hat i hlt] at hne
  refine ⟨by omega, Finds.first ⟨by omega, by omega⟩ (bne_iff_ne.mp hne) ?_⟩
  intro o ho hneo
  -- A byte in front of the position is zero.
  by_contra hcon
  have hzero := hbefore (o - off) (by omega)
  rw [hat (o - off) (by omega), Nat.add_sub_cancel' ho.1] at hzero
  exact hzero (bne_iff_ne.mpr hneo)

end Finds

/-! ## The phases -/

section Phases

variable {h : Handle} {c : Content}

theorem region_eq (hd : Delivers h c) (off want : Nat) (log : List ReadCall)
    (hle : off + want ≤ c.len) :
    ∃ log', region h off want log = (.ok (c.slice off want), log') :=
  ⟨(region h off want log).2, Prod.ext (region_delivers hd off want log hle) rfl⟩

/-- The whole read finds the least offset of what is left of it. -/
theorem wholeLoop_finds (hd : Delivers h c) {whole : Nat} (hle : whole ≤ c.len) (n : Nat) :
    ∀ off log, whole - off = n → ∃ found, (wholeLoop h off whole log).1 = .ok found ∧
      Finds c (fun o => off ≤ o ∧ o < whole) found := by
  induction n using Nat.strong_induction_on with
  | _ n ih =>
      intro off log hn
      by_cases hlt : off < whole
      · have hwant : off + min (2 ^ 20) (whole - off) ≤ whole := by omega
        rcases region_eq hd off (min (2 ^ 20) (whole - off)) log (by omega) with ⟨log', hreg⟩
        have hlen := Content.length_slice c off (min (2 ^ 20) (whole - off))
        have hsplit (o : Nat) : (off ≤ o ∧ o < off + min (2 ^ 20) (whole - off)) ∨
            (off + min (2 ^ 20) (whole - off) ≤ o ∧ o < whole) ↔ off ≤ o ∧ o < whole := by
          omega
        rcases hpos : position (c.slice off (min (2 ^ 20) (whole - off))) with _ | i
        · have hne : c.slice off (min (2 ^ 20) (whole - off)) ≠ [] := by
            rw [ne_eq, ← List.length_eq_zero_iff, hlen]
            omega
          rw [wholeLoop_next hlt hreg hne hpos, hlen]
          rcases ih (whole - (off + min (2 ^ 20) (whole - off))) (by omega)
            (off + min (2 ^ 20) (whole - off)) log' rfl with ⟨found, hans, hrest⟩
          exact ⟨found, hans, ((finds_slice_none hpos).or_of_none hrest).congr hsplit⟩
        · rcases finds_slice_some hpos with ⟨hin, hfinds⟩
          rw [wholeLoop_found hlt hreg hpos]
          -- What is behind the chunk is behind what was found in it.
          exact ⟨some (off + i), rfl, (hfinds.or_of_lt fun o ho _ => by omega).congr hsplit⟩
      · rw [wholeLoop_done hlt]
        exact ⟨none, rfl, Finds.nothing fun o ho => absurd ho (by omega)⟩

/-- The grain finds the least offset of its samples from here on. -/
theorem sampleLoop_finds (hd : Delivers h c) (n : Nat) :
    ∀ pos log, c.len - pos = n → ∃ found, (sampleLoop h pos c.len log).1 = .ok found ∧
      Finds c (InGrain pos c.len) found := by
  induction n using Nat.strong_induction_on with
  | _ n ih =>
      intro pos log hn
      by_cases hle : pos + SAMPLE ≤ c.len
      · rcases region_eq hd pos SAMPLE log hle with ⟨log', hreg⟩
        have hsplit (o : Nat) : (pos ≤ o ∧ o < pos + SAMPLE) ∨ InGrain (pos + STRIDE) c.len o ↔
            InGrain pos c.len o :=
          ⟨fun ho => ho.elim (inGrain_here hle) inGrain_next, inGrain_cases⟩
        rcases hpos : position (c.slice pos SAMPLE) with _ | i
        · rw [sampleLoop_next hle hreg hpos]
          have hless : c.len - (pos + STRIDE) < n := by
            simp only [SAMPLE, STRIDE] at hle ⊢
            omega
          rcases ih _ hless (pos + STRIDE) log' rfl with ⟨found, hans, hrest⟩
          exact ⟨found, hans, ((finds_slice_none hpos).or_of_none hrest).congr hsplit⟩
        · rcases finds_slice_some hpos with ⟨hin, hfinds⟩
          rw [sampleLoop_found hle hreg hpos]
          refine ⟨some (pos + i), rfl, (hfinds.or_of_lt ?_).congr hsplit⟩
          -- The next sample starts behind this one.
          rintro o ⟨k, _, hlo, _⟩ _
          simp only [SAMPLE, STRIDE] at hin hlo
          omega
      · rw [sampleLoop_done hle]
        refine ⟨none, rfl, Finds.nothing ?_⟩
        rintro o ⟨k, hfit, _, _⟩
        omega

theorem tailScan_found {whole len i : Nat} {log log' : List ReadCall} {chunk : List UInt8}
    (hlt : whole + TAIL < len) (hreg : region h (len - TAIL) TAIL log = (.ok chunk, log'))
    (hpos : position chunk = some i) :
    tailScan h whole len log = (.ok (some (len - TAIL + i)), log') := by
  rw [tailScan, if_pos hlt, hreg]
  simp only [hpos]

theorem tailScan_nothing {whole len : Nat} {log log' : List ReadCall} {chunk : List UInt8}
    (hlt : whole + TAIL < len) (hreg : region h (len - TAIL) TAIL log = (.ok chunk, log'))
    (hpos : position chunk = none) : tailScan h whole len log = (.ok none, log') := by
  rw [tailScan, if_pos hlt, hreg]
  simp only [hpos]

/-- The tail finds the least offset of the last megabyte. -/
theorem tailScan_finds (hd : Delivers h c) {whole : Nat} (hlt : whole + TAIL < c.len)
    (log : List ReadCall) : ∃ found, (tailScan h whole c.len log).1 = .ok found ∧
      Finds c (InTail c.len) found := by
  rcases region_eq hd (c.len - TAIL) TAIL log (by omega) with ⟨log', hreg⟩
  have htail (o : Nat) : c.len - TAIL ≤ o ∧ o < c.len - TAIL + TAIL ↔ InTail c.len o := by
    unfold InTail
    omega
  rcases hpos : position (c.slice (c.len - TAIL) TAIL) with _ | i
  · rw [tailScan_nothing hlt hreg hpos]
    exact ⟨none, rfl, (finds_slice_none hpos).congr htail⟩
  · rw [tailScan_found hlt hreg hpos]
    exact ⟨_, rfl, (finds_slice_some hpos).2.congr htail⟩

/-- The phase that answers, with nothing in the phases before it. -/
theorem firstNonzero_cases (hd : Delivers h c) :
    (∃ off, (firstNonzero h).1 = .ok (some off) ∧ Finds c (· < wholeOf c.len) (some off)) ∨
    ((∀ o, o < wholeOf c.len → c.byte o = 0) ∧ ∃ off, (firstNonzero h).1 = .ok (some off) ∧
      Finds c (InGrain (wholeOf c.len) c.len) (some off)) ∨
    ((∀ o, o < wholeOf c.len → c.byte o = 0) ∧
      (∀ o, InGrain (wholeOf c.len) c.len o → c.byte o = 0) ∧
      ∃ found, (firstNonzero h).1 = .ok found ∧ Finds c (InTail c.len) found) := by
  have hlen := hd.seekEnd
  rcases wholeLoop_finds hd (wholeOf_le c.len) _ 0 [] rfl with ⟨foundw, hansw, hfindsw⟩
  rcases hw : wholeLoop h 0 (wholeOf c.len) [] with ⟨aw, lw⟩
  rw [hw] at hansw
  subst hansw
  have hwhole := hfindsw.congr (fun o => (and_iff_right (Nat.zero_le o) :
    0 ≤ o ∧ o < wholeOf c.len ↔ o < wholeOf c.len))
  rcases foundw with _ | off
  · have hzerow : ∀ o, o < wholeOf c.len → c.byte o = 0 := by
      cases hwhole with
      | nothing zero => exact zero
    rcases sampleLoop_finds hd _ (wholeOf c.len) lw rfl with ⟨foundg, hansg, hfindsg⟩
    rcases hg : sampleLoop h (wholeOf c.len) c.len lw with ⟨ag, lg⟩
    rw [hg] at hansg
    subst hansg
    rcases foundg with _ | off
    · have hzerog : ∀ o, InGrain (wholeOf c.len) c.len o → c.byte o = 0 := by
        cases hfindsg with
        | nothing zero => exact zero
      refine Or.inr (Or.inr ⟨hzerow, hzerog, ?_⟩)
      rw [firstNonzero_tail hlen hw hg]
      by_cases hlt : wholeOf c.len + TAIL < c.len
      · exact tailScan_finds hd hlt lg
      · -- The last megabyte was read whole, so it is known to be zeros.
        refine ⟨none, ?_, Finds.nothing fun o ho => hzerow o (inTail_whole hlt ho)⟩
        rw [tailScan, if_neg hlt]
    · rw [firstNonzero_grain hlen hw hg (by simp only [ne_eq, Except.ok.injEq, reduceCtorEq,
        not_false_eq_true])]
      exact Or.inr (Or.inl ⟨hzerow, off, rfl, hfindsg⟩)
  · rw [firstNonzero_whole hlen hw (by simp only [ne_eq, Except.ok.injEq, reduceCtorEq,
      not_false_eq_true])]
    exact Or.inl ⟨off, rfl, hwhole⟩

end Phases

/-! ## The overlap -/

/-- A sample of the grain starts inside the last megabyte, there is a byte that
    is not zero in it and one between the start of the last megabyte and its
    own, and everything examined before the last megabyte is zero. -/
def Crossed (c : Content) : Prop :=
  ∃ pos, (∃ k, pos = wholeOf c.len + k * STRIDE) ∧ pos + SAMPLE ≤ c.len ∧ c.len - TAIL < pos ∧
    (∃ o, pos ≤ o ∧ o < pos + SAMPLE ∧ c.byte o ≠ 0) ∧
    (∃ o, c.len - TAIL ≤ o ∧ o < pos ∧ c.byte o ≠ 0) ∧
    ∀ o, Examined c.len o → o < c.len - TAIL → c.byte o = 0

/-- The offset an answer reports is the least one examined. -/
def ReportsLeast (c : Content) (answer : Except String (Option Nat)) : Prop :=
  ∀ off, answer = .ok (some off) → ∀ o, Examined c.len o → c.byte o ≠ 0 → off ≤ o

section Overlap

variable {h : Handle} {c : Content}

/-- Away from the overlap, the scan reports the least offset. -/
theorem firstNonzero_least (hd : Delivers h c) (hcross : ¬ Crossed c) :
    ReportsLeast c (firstNonzero h).1 := by
  intro off hoff o ho hne
  rcases firstNonzero_cases hd with ⟨off', hans, hfinds⟩ | ⟨hzerow, off', hans, hfinds⟩ |
    ⟨hzerow, hzerog, found, hans, hfinds⟩
  · rw [hans, Except.ok.injEq, Option.some.injEq] at hoff
    subst hoff
    cases hfinds with
    | first mem _ least =>
        -- What the whole read does not reach lies behind it.
        by_cases hlt : o < wholeOf c.len
        · exact least o hlt hne
        · omega
  · rw [hans, Except.ok.injEq, Option.some.injEq] at hoff
    subst hoff
    cases hfinds with
    | first mem hne' least =>
        by_contra hcon
        have hnotw : ¬ o < wholeOf c.len := fun hlt => hne (hzerow o hlt)
        have hnotg : ¬ InGrain (wholeOf c.len) c.len o := fun hg => hcon (least o hg hne)
        have htail : InTail c.len o := (ho.resolve_left hnotw).resolve_left hnotg
        rcases mem with ⟨k, hfit, hlo, hhi⟩
        -- In the sample itself the byte would have been found, so it stands before it.
        have hbefore : o < wholeOf c.len + k * STRIDE := by
          by_contra hin
          exact hnotg ⟨k, hfit, by omega, by omega⟩
        refine hcross ⟨_, ⟨k, rfl⟩, hfit, Nat.lt_of_le_of_lt htail.1 hbefore,
          ⟨off', hlo, hhi, hne'⟩, ⟨o, htail.1, hbefore, hne⟩, ?_⟩
        intro o' ho' hlt'
        have htail' := htail.1
        by_contra hne''
        rcases ho' with hw | hg | ht
        · exact hne'' (hzerow o' hw)
        · have hle := least o' hg hne''
          omega
        · have hle := ht.1
          omega
  · rw [hans, Except.ok.injEq] at hoff
    subst hoff
    cases hfinds with
    | first mem _ least =>
        rcases ho with hw | hg | ht
        · exact absurd (hzerow o hw) hne
        · exact absurd (hzerog o hg) hne
        · exact least o ht hne

/-- In the overlap, the scan reports an offset behind one it examines. -/
theorem firstNonzero_crossed (hd : Delivers h c) (hcross : Crossed c) :
    ∃ off o, (firstNonzero h).1 = .ok (some off) ∧ c.byte off ≠ 0 ∧ Examined c.len o ∧
      c.byte o ≠ 0 ∧ o < off := by
  rcases hcross with ⟨pos, ⟨k, rfl⟩, hfit, hstart, ⟨p, hplo, hphi, hpne⟩, ⟨o, holo, hohi, hone⟩,
    hzero⟩
  have hinTail : InTail c.len o := ⟨holo, by omega⟩
  have hgrain : InGrain (wholeOf c.len) c.len p := ⟨k, hfit, hplo, hphi⟩
  -- The sample is not the first, so the whole read ends before the last megabyte.
  have hwhole : wholeOf c.len ≤ c.len - TAIL := by
    unfold wholeOf at hfit hstart ⊢
    by_cases hshort : c.len < STRIDE
    · rw [if_pos hshort] at hfit
      simp only [SAMPLE] at hfit
      omega
    · rw [if_neg hshort]
      simp only [STRIDE, DEEP, TAIL] at hshort ⊢
      omega
  rcases firstNonzero_cases hd with ⟨off, _, hfinds⟩ | ⟨_, off, hans, hfinds⟩ | ⟨_, hzerog, _⟩
  · cases hfinds with
    | first mem ne _ => exact absurd (hzero off (Or.inl mem) (Nat.lt_of_lt_of_le mem hwhole)) ne
  · cases hfinds with
    | first mem ne _ =>
        refine ⟨off, o, hans, ne, Or.inr (Or.inr hinTail), hone, ?_⟩
        rcases mem with ⟨j, hjfit, hjlo, hjhi⟩
        have hbehind : ¬ off < c.len - TAIL := fun hlt =>
          ne (hzero off (Or.inr (Or.inl ⟨j, hjfit, hjlo, hjhi⟩)) hlt)
        -- A sample before this one would end before the last megabyte.
        have hjk : k ≤ j := by
          by_contra hlt
          have hmul : (j + 1) * STRIDE ≤ k * STRIDE := Nat.mul_le_mul_right _ (by omega)
          rw [Nat.succ_mul] at hmul
          simp only [SAMPLE, STRIDE, TAIL] at *
          omega
        have hmul : k * STRIDE ≤ j * STRIDE := Nat.mul_le_mul_right _ hjk
        omega
  · exact absurd (hzerog p hgrain) hpne

end Overlap

/-- On a device that delivers its content, the scan reports the least offset
    it examines exactly when nothing is crossed. -/
theorem firstNonzero_least_iff (h : Handle) (c : Content) (hd : Delivers h c) :
    ReportsLeast c (firstNonzero h).1 ↔ ¬ Crossed c := by
  constructor
  · intro hleast hcross
    rcases firstNonzero_crossed hd hcross with ⟨off, o, hans, -, ho, hne, hlt⟩
    exact absurd (hleast off hans o ho hne) (Nat.not_le_of_lt hlt)
  · exact firstNonzero_least hd

/-- A device as long as one sample behind its second gigabyte, with the last
    byte before that sample and the first byte in it written. -/
def overlapping : Content where
  len := DEEP + STRIDE + SAMPLE
  byte := fun o => if o = DEEP + STRIDE - 1 ∨ o = DEEP + STRIDE then 1 else 0
  len_lt := by decide

/-- A megabyte with everything written but its first five bytes. -/
def written : Content where
  len := TAIL
  byte := fun o => if o < 5 then 0 else 1
  len_lt := by decide

/-- The scan reports the first of many bytes that are not zero. -/
theorem firstNonzero_least_written :
    (firstNonzero (steady written)).1 = .ok (some 5) ∧
      ReportsLeast written (firstNonzero (steady written)).1 := by
  have hd : Delivers (steady written) written := steady_delivers written
  have hwhole : wholeOf written.len = written.len := if_pos (by decide)
  have hfifth : written.byte 5 ≠ 0 := by decide
  have hin : 5 < wholeOf written.len := by
    rw [hwhole]
    decide
  -- There is no sample behind what is read whole.
  have hcross : ¬ Crossed written := by
    rintro ⟨pos, ⟨k, hpos⟩, hfit, _⟩
    rw [hwhole] at hpos
    simp only [SAMPLE] at hfit
    omega
  have hleast := (firstNonzero_least_iff (steady written) written hd).mpr hcross
  refine ⟨?_, hleast⟩
  rcases firstNonzero_cases hd with ⟨off, hans, hfinds⟩ | ⟨hzero, _⟩ | ⟨hzero, _⟩
  · have hle := hleast off hans 5 (Or.inl hin) hfifth
    cases hfinds with
    | first mem ne least =>
        have hge : ¬ off < 5 := fun hlt => ne (if_pos hlt)
        rw [hans, show off = 5 by omega]
  all_goals exact absurd (hzero 5 hin) hfifth

/-- The scan reports the byte in the sample, and not the one in front of it. -/
theorem firstNonzero_overlapping :
    (firstNonzero (steady overlapping)).1 = .ok (some (DEEP + STRIDE)) ∧
      ¬ ReportsLeast overlapping (firstNonzero (steady overlapping)).1 := by
  have hbyte (o : Nat) : overlapping.byte o ≠ 0 ↔ o = DEEP + STRIDE - 1 ∨ o = DEEP + STRIDE := by
    show (if o = DEEP + STRIDE - 1 ∨ o = DEEP + STRIDE then (1 : UInt8) else 0) ≠ 0 ↔ _
    by_cases ho : o = DEEP + STRIDE - 1 ∨ o = DEEP + STRIDE
    · rw [if_pos ho]
      exact iff_of_true (by decide) ho
    · rw [if_neg ho]
      exact iff_of_false (fun h => h rfl) ho
  have hlen : overlapping.len = DEEP + STRIDE + SAMPLE := rfl
  have hwhole : wholeOf overlapping.len = DEEP := if_neg (by decide)
  have hcross : Crossed overlapping := by
    refine ⟨DEEP + STRIDE, ⟨1, by rw [hwhole, Nat.one_mul]⟩, Nat.le_of_eq hlen.symm, by
      rw [hlen]; decide, ⟨DEEP + STRIDE, by decide, by decide, (hbyte _).mpr (Or.inr rfl)⟩,
      ⟨DEEP + STRIDE - 1, by rw [hlen]; decide, by decide, (hbyte _).mpr (Or.inl rfl)⟩, ?_⟩
    intro o _ hlt
    by_contra hne
    rw [hlen] at hlt
    have hor := (hbyte o).mp hne
    simp only [DEEP, STRIDE, SAMPLE, TAIL] at hlt hor
    omega
  rcases firstNonzero_crossed (steady_delivers overlapping) hcross with
    ⟨off, o, hans, hfound, ho, hne, hlt⟩
  -- Of the two bytes written, only the one in the sample has another before it.
  have hoff : off = DEEP + STRIDE := by
    rcases (hbyte off).mp hfound with hoff | hoff
    · rcases (hbyte o).mp hne with ho | ho <;> omega
    · exact hoff
  rw [hoff] at hans hlt
  refine ⟨hans, fun hleast => ?_⟩
  exact absurd (hleast _ hans o ho hne) (Nat.not_le_of_lt hlt)

end Zeroboot
