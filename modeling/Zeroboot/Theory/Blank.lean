import Zeroboot.Theory.Bench

/-!
# Blank Drives

The one verdict that leads to a format. Two questions are asked of it: what is
on a drive that is called blank, and what was seen of it.

On devices that answer in full the first has a plain answer. A drive is blank
exactly when it is there, fixed, local and without partitions, opens, is not
a slab, and every byte the scan examines is zero. Nothing else on the ladder
has to be mentioned: on zeros no signature is named, at either end. What
`boot` offers for taking is then such a drive, and it offers one exactly when
the survey has one and nothing in it is this node's.

On devices that answer as they please the second has a worse one. A read that
comes back empty before the end withholds what it asked for, and neither the
whole read, nor the grain, nor the tail notices. So one offset at which a drive
may fall silent is enough for a blank verdict without evidence, if the scan has
to examine it: a drive of zeros that is silent there and nowhere else is called
blank. Where a drive is silent at no such offset, reads may fail and be as short
as they like, and a blank verdict has seen everything it should have.

## Main definitions

* `Evidenced`: Every offset to be examined was read, and was zero.
* `SilentOnly`: Where a handle may come back empty before its end.
* `StopsAnswering`: A handle that hands over nothing from somewhere before its
  end on.
* `Os.scanning`: A machine whose scan reads this handle.

## Theorems

* `judge_eq_blank_iff_zero`: What is on a blank drive.
* `takeable_iff`, `takeable_blank`: When `boot` offers a drive, and which.
* `blank_iff_empty`: Both together.
* `madeGood_of_silent`: A scan that is silent nowhere it has to look leaves
  nothing out.
* `blank_evidenced_iff`: When a blank verdict has seen what it should.
-/

namespace Zeroboot

open Medium

variable {V N : Type}

/-! ## What is on a blank drive -/

theorem judge_eq_blank_iff_zero {os : Os V} {content : String → Except String Content}
    (hr : os.ReadsAs content) (m : Machine) (sys name path : String) (sizeBytes : UInt64)
    (removable : Bool) (me : Option String) (found : Option Esp) :
    judge os m sys name path sizeBytes removable me found = .blank ↔
      sizeBytes ≠ 0 ∧ removable = false ∧ remoteTransport os sys = none ∧
        partitions os sys name = [] ∧ ∃ c, content path = .ok c ∧ 0 < c.len ∧
          ¬ StartsWith c slabMagic ∧ ∀ o, Examined c.len o → c.byte o = 0 := by
  rw [judge_eq_blank_iff]
  constructor
  · rintro ⟨⟨⟨hsize, hfixed, hlocal⟩, hpassed, hparts, _⟩, hscan⟩
    rcases (passed_iff hr).mp hpassed with ⟨_, ⟨c, hc, hpos⟩ | hne⟩
    · have hz := (firstNonzeroNode_content hr hc 2).mp hscan
      exact ⟨hsize, hfixed, hlocal, hparts, c, hc, hpos, not_startsWith_zero hz, hz⟩
    · exact absurd rfl hne
  · rintro ⟨hsize, hfixed, hlocal, hparts, c, hc, hpos, hnot, hz⟩
    have hpassed : Passed os path path := by
      refine (passed_iff hr).mpr ⟨?_, Or.inl ⟨c, hc, hpos⟩⟩
      rintro ⟨c', hc', hstarts⟩
      rw [hc] at hc'
      rw [← Except.ok.inj hc'] at hstarts
      exact hnot hstarts
    -- Zeros carry no signature, so the rungs about signatures are passed for free.
    rcases ends_zero hz with ⟨hhead, htail⟩
    exact ⟨⟨⟨hsize, hfixed, hlocal⟩, hpassed, hparts, _, sniffNode_content hr hc hpos 1,
      signature_zero hhead, tailSignature_zero htail⟩, (firstNonzeroNode_content hr hc 2).mpr hz⟩

/-! ## What is offered for taking -/

section Takeable

variable (F : Volume.Ops V N) (os : Os V) (m : Machine) (claimIt : Bool)

theorem mem_emitted_takeable {o : Outcome} {p : String} (h : ("ZB_TAKEABLE", p) ∈ o.emitted) :
    ∃ reason, o = .askAppliance reason p := by
  cases o with
  | askAppliance reason takeable =>
      simp only [Outcome.emitted, List.mem_cons, Prod.mk.injEq, List.not_mem_nil, or_false] at h
      rcases h with ⟨h, _⟩ | ⟨h, _⟩ | ⟨_, rfl⟩
      · exact absurd h (by decide)
      · exact absurd h (by decide)
      · exact ⟨reason, rfl⟩
  | bootLocal drive slab slabId volume =>
      simp only [Outcome.emitted, List.mem_cons, Prod.mk.injEq, List.not_mem_nil, or_false] at h
      rcases h with ⟨h, _⟩ | ⟨h, _⟩ | ⟨h, _⟩ | ⟨h, _⟩ | ⟨h, _⟩
      all_goals exact absurd h (by decide)
  | error reason =>
      simp only [Outcome.emitted, List.mem_cons, Prod.mk.injEq, List.not_mem_nil, or_false] at h
      rcases h with ⟨h, _⟩ | ⟨h, _⟩
      all_goals exact absurd h (by decide)

/-- A drive that is offered is a blank drive of a survey with nothing of this
    node's in it. -/
theorem takeable_blank {p : String} (hp : p ≠ "")
    (h : ("ZB_TAKEABLE", p) ∈ (boot F os m claimIt).outcome.emitted) :
    ∃ s, survey F os m = .ok s ∧ (∀ d ∈ s.drives, d.verdict.isMine = false) ∧
      ∃ d ∈ s.drives, d.verdict = .blank ∧ d.path = p := by
  rcases mem_emitted_takeable h with ⟨reason, ho⟩
  rcases boot_cases F os m claimIt with ⟨_, _, _, _, _, _, _, _, _, _, hout, _⟩ |
    ⟨s, path, hs, hi, reason', hboot⟩ | ⟨_, _, _, reason', hboot⟩ | ⟨e, _, hboot⟩
  · rw [ho] at hout
    exact absurd hout (by simp only [reduceCtorEq, not_false_eq_true])
  · rw [hboot] at ho
    rcases Outcome.askAppliance.inj ho with ⟨_, rfl⟩
    rcases takeOver_drive hi with ⟨hmine, hd⟩
    exact ⟨s, hs, mine_eq_nil_iff.mp hmine, hd⟩
  · rw [hboot] at ho
    -- The other questions to the appliance offer nothing.
    exact absurd (Outcome.askAppliance.inj ho).2.symm hp
  · rw [hboot] at ho
    exact absurd ho (by simp only [reduceCtorEq, not_false_eq_true])

theorem takeable_iff :
    (∃ p, p ≠ "" ∧ ("ZB_TAKEABLE", p) ∈ (boot F os m claimIt).outcome.emitted) ↔
      ∃ s, survey F os m = .ok s ∧ (∀ d ∈ s.drives, d.verdict.isMine = false) ∧
        ∃ d ∈ s.drives, d.verdict = .blank := by
  constructor
  · rintro ⟨p, hp, h⟩
    rcases takeable_blank F os m claimIt hp h with ⟨s, hs, hmine, d, hd, hv, _⟩
    exact ⟨s, hs, hmine, d, hd, hv⟩
  · rintro ⟨s, hs, hmine, d, hd, hv⟩
    rcases boot_cases F os m claimIt with ⟨s', d', _, _, _, hs', hd', hv', _⟩ |
      ⟨s', path, hs', hi, reason, hboot⟩ | ⟨s', hs', hnone, _⟩ | ⟨e, hs', _⟩
    all_goals rw [hs] at hs'
    · rw [← Except.ok.inj hs'] at hd'
      -- A boot that goes local boots a drive of this node's.
      have hnot := hmine d' hd'
      rw [hv'] at hnot
      exact absurd hnot (by simp only [Verdict.isMine, Bool.true_eq_false, not_false_eq_true])
    · rw [← Except.ok.inj hs'] at hi
      rcases takeOver_drive hi with ⟨_, b, hb, _, rfl⟩
      refine ⟨b.path, (surveyed_of_mem hs hb).path_ne, ?_⟩
      rw [hboot]
      exact List.mem_cons_of_mem _ (List.mem_cons_of_mem _ List.mem_cons_self)
    · rw [← Except.ok.inj hs'] at hnone
      -- Nothing is this node's, and there is a drive to take.
      rcases hnone with hnone | hnone
      · exact absurd (mine_eq_nil_iff.mpr hmine) hnone
      · have havail := mem_available.mpr ⟨hd, hv⟩
        rw [hnone] at havail
        exact absurd havail List.not_mem_nil
    · exact absurd hs' (by simp only [reduceCtorEq, not_false_eq_true])

end Takeable

/-- A drive is blank exactly when it is there, fixed, local, without
    partitions, readable, no slab, and zero wherever the scan looks; and such
    a drive is offered exactly when there is one and nothing is this node's. -/
theorem blank_iff_empty (F : Volume.Ops V N) {os : Os V}
    {content : String → Except String Content} (hr : os.ReadsAs content) (m : Machine)
    (claimIt : Bool) :
    (∀ sys name path sizeBytes removable me found,
      judge os m sys name path sizeBytes removable me found = .blank ↔
        sizeBytes ≠ 0 ∧ removable = false ∧ remoteTransport os sys = none ∧
          partitions os sys name = [] ∧ ∃ c, content path = .ok c ∧ 0 < c.len ∧
            ¬ StartsWith c slabMagic ∧ ∀ o, Examined c.len o → c.byte o = 0) ∧
    ((∃ p, p ≠ "" ∧ ("ZB_TAKEABLE", p) ∈ (boot F os m claimIt).outcome.emitted) ↔
      ∃ s, survey F os m = .ok s ∧ (∀ d ∈ s.drives, d.verdict.isMine = false) ∧
        ∃ d ∈ s.drives, d.verdict = .blank) ∧
    ∀ p, p ≠ "" → ("ZB_TAKEABLE", p) ∈ (boot F os m claimIt).outcome.emitted →
      ∃ s, survey F os m = .ok s ∧ (∀ d ∈ s.drives, d.verdict.isMine = false) ∧
        ∃ d ∈ s.drives, d.verdict = .blank ∧ d.path = p :=
  ⟨judge_eq_blank_iff_zero hr m, takeable_iff F os m claimIt,
    fun _ => takeable_blank F os m claimIt⟩

/-- A drive of zeros, on a machine with nothing else. -/
def zeroDrive : Bench Volume.Memory :=
  Bench.slabbed [] Bench.bare fun _ => none

/-- It is local, has no partitions, and is zero wherever the scan looks. -/
theorem zeroDrive_zero : remoteTransport zeroDrive.os "/sys/block/sda" = none ∧
    partitions zeroDrive.os "/sys/block/sda" "sda" = [] ∧
    ∃ c, (Except.ok zeros : Except String Content) = .ok c ∧ 0 < c.len ∧
      ¬ StartsWith c slabMagic ∧ ∀ o, Examined c.len o → c.byte o = 0 := by
  have hadm := Bench.admitted zeroDrive none
  rw [Bench.sysOf_sda] at hadm
  refine ⟨hadm.localOnly, ?_, zeros, rfl, by decide, ?_, ?_⟩
  · rw [Bench.partitions_sda]
    decide
  · exact not_startsWith_zero fun _ _ => rfl
  · exact fun _ _ => rfl

theorem blank_iff_empty_zeros :
    judge zeroDrive.os (Bench.machine none) "/sys/block/sda" "sda" "/dev/sda" 2048 false none none =
      .blank := by
  have hr := Bench.slabbed_readsAs (V := Volume.Memory) [] Bench.bare fun _ => none
  exact ((blank_iff_empty Volume.memory hr (Bench.machine none) false).1
    "/sys/block/sda" "sda" "/dev/sda" 2048 false none none).mpr ⟨by decide, rfl, zeroDrive_zero⟩

/-! ## What was seen of it -/

/-- Every offset the scan is there to examine was handed over by one of its
    reads, and was zero. -/
def Evidenced (os : Os V) (path : String) : Prop :=
  ∃ h len, (os.node path).opened 2 = .ok h ∧ h.seekEnd = .ok len ∧
    ∀ o, Examined len o → Gave (firstNonzero h).2 o 0

/-- The only offsets below `len` from which a read of this handle may come back
    empty. It may fail anywhere, and be as short as it likes. -/
def SilentOnly (h : Handle) (len : Nat) (silent : Nat → Prop) : Prop :=
  ∀ log off asked, off < len → 0 < asked → h.read log off asked = .ok [] → silent off

/-- No read of this handle ever hands over what is at `o`. -/
def Withholds (h : Handle) (o : Nat) : Prop :=
  ∀ log off asked bs, h.read log off asked = .ok bs → off ≤ o → bs[o - off]? = none

/-- From some offset before its end on, the handle hands over nothing. -/
def StopsAnswering (h : Handle) (len : Nat) : Prop :=
  ∃ e, e < len ∧ ∀ o, e ≤ o → Withholds h o

/-- The machine, with this handle where the scan opens the device. -/
def Os.scanning (os : Os V) (path : String) (h : Handle) : Os V :=
  { os with
    node p :=
      { os.node p with
        opened k := if p = path ∧ k = 2 then .ok h else (os.node p).opened k } }

section Scanning

variable {os : Os V} {path sys name : String} {sizeBytes : UInt64} {removable : Bool} {h : Handle}

theorem Os.scanning_opened : ((os.scanning path h).node path).opened 2 = .ok h :=
  if_pos ⟨rfl, rfl⟩

theorem Os.scanning_sniff (p : String) {k : Nat} (hk : k ≠ 2) :
    sniffNode (os.scanning path h) p k = sniffNode os p k := by
  unfold sniffNode scanning
  simp only [hk, and_false, if_false]

/-- What stands before the scan does not depend on what the scan opens. -/
theorem Os.scanning_reaches : ReachesScan (os.scanning path h) sys name path sizeBytes removable ↔
    ReachesScan os sys name path sizeBytes removable := by
  have hpassed : Passed (os.scanning path h) path path ↔ Passed os path path := by
    unfold Passed
    rw [scanning_sniff path (by decide)]
  constructor
  · rintro ⟨⟨hsize, hfixed, hlocal⟩, hun, hparts, s, hs, hsig⟩
    rw [scanning_sniff path (by decide)] at hs
    exact ⟨⟨hsize, hfixed, hlocal⟩, hpassed.mp hun, hparts, s, hs, hsig⟩
  · rintro ⟨⟨hsize, hfixed, hlocal⟩, hun, hparts, s, hs, hsig⟩
    rw [← scanning_sniff (h := h) path (by decide)] at hs
    exact ⟨⟨hsize, hfixed, hlocal⟩, hpassed.mpr hun, hparts, s, hs, hsig⟩

end Scanning

theorem firstNonzeroNode_eq_none_iff {os : Os V} {path : String} (k : Nat) :
    firstNonzeroNode os path k = .ok none ↔ ∃ h len, (os.node path).opened k = .ok h ∧
      h.seekEnd = .ok len ∧ Quiet (firstNonzero h).2 := by
  unfold firstNonzeroNode
  rcases hopen : (os.node path).opened k with e | h
  · simp only [reduceCtorEq, false_and, exists_false]
  · simp only [Except.ok.injEq, exists_and_left, exists_eq_left']
    rcases hlen : h.seekEnd with e | len
    · unfold firstNonzero
      rw [hlen]
      simp only [reduceCtorEq, false_and, exists_false]
    · simp only [Except.ok.injEq, exists_eq_left']
      exact (firstNonzero_spec h hlen).1.quiet

/-- The last offset is one of those to be examined. -/
theorem examined_last {len : Nat} (hpos : 0 < len) : Examined len (len - 1) := by
  have htail : 0 < TAIL := by decide
  exact Or.inr (Or.inr ⟨by omega, by omega⟩)

section Evidence

variable {os : Os V} {path : String} {h : Handle} {len o : Nat}

/-- What is withheld is no evidence. -/
theorem Withholds.not_evidenced (hw : Withholds h o) (hopen : (os.node path).opened 2 = .ok h)
    (hlen : h.seekEnd = .ok len) (hexam : Examined len o) : ¬ Evidenced os path := by
  rintro ⟨h', len', hopen', hlen', hgave⟩
  rw [hopen] at hopen'
  rw [← Except.ok.inj hopen'] at hlen' hgave
  rw [hlen] at hlen'
  rw [← Except.ok.inj hlen'] at hgave
  rcases hgave o hexam with ⟨c, hc, bs, hbs, hlo, hb⟩
  rcases (firstNonzero_spec h hlen).1.answered c hc with ⟨_, before, hans⟩
  rw [hans] at hbs
  rw [hw before c.off c.asked bs hbs hlo] at hb
  exact absurd hb (by simp only [reduceCtorEq, not_false_eq_true])

/-- A drive that stops answering withholds its last byte, at the least. -/
theorem StopsAnswering.not_evidenced (hs : StopsAnswering h len)
    (hopen : (os.node path).opened 2 = .ok h) (hlen : h.seekEnd = .ok len) :
    ¬ Evidenced os path := by
  rcases hs with ⟨e, he, hw⟩
  exact (hw (len - 1) (by omega)).not_evidenced hopen hlen (examined_last (by omega))

/-- A scan that is silent nowhere it has to look leaves nothing out. -/
theorem madeGood_of_silent {silent : Nat → Prop} (hlen : h.seekEnd = .ok len)
    (hs : SilentOnly h len silent) (hnone : ∀ o, silent o → ¬ Examined len o) :
    MadeGood (firstNonzero h).2 := by
  rintro o ⟨c, hc, hempty, _, _⟩
  have hphase := (firstNonzero_spec h hlen).1
  rcases hphase.answered c hc with ⟨hpos, before, hans⟩
  -- The scan asks for what it is to examine only, so the empty read was for that.
  have hexam : Examined len c.off := hphase.within c hc c.off (Nat.le_refl _) (by omega)
  exact absurd hexam
    (hnone _ (hs before c.off c.asked (examined_lt hexam) hpos (hans.symm.trans hempty)))

theorem evidenced_of_madeGood (hopen : (os.node path).opened 2 = .ok h)
    (hlen : h.seekEnd = .ok len) (hquiet : Quiet (firstNonzero h).2)
    (hgood : MadeGood (firstNonzero h).2) : Evidenced os path := by
  rcases firstNonzero_spec h hlen with ⟨hphase, hall⟩
  refine ⟨h, len, hopen, hlen, fun o ho => ?_⟩
  -- What was handed over is zero, the scan being quiet.
  rcases hall (hphase.quiet.mpr hquiet) hgood o ho with ⟨b, hb⟩
  rwa [(quiet_iff.mp hquiet).2 o b hb] at hb

end Evidence

/-- A drive of `len` zeros that says nothing when it is asked for what is at
    `gap`, and stops in front of it otherwise. -/
def mutedHandle (len gap : Nat) (hlen : len < 2 ^ 63) : Handle where
  seekEnd := .ok len
  seekEnd_lt := by
    intro n h
    rw [← Except.ok.inj h]
    exact hlen
  read _ off asked :=
    .ok (List.replicate (min asked (if off ≤ gap then gap - off else len - off)) 0)
  read_le := by
    intro log off asked bs h
    rw [← Except.ok.inj h, List.length_replicate]
    exact Nat.min_le_left _ _

section Muted

variable {len gap : Nat} {hlen : len < 2 ^ 63}

theorem mutedHandle_silentOnly : SilentOnly (mutedHandle len gap hlen) len (· = gap) := by
  intro log off asked hoff hasked hempty
  have hnone := congrArg List.length (Except.ok.inj hempty)
  rw [List.length_replicate, List.length_nil] at hnone
  split_ifs at hnone with hle
  · omega
  · omega

theorem mutedHandle_withholds : Withholds (mutedHandle len gap hlen) gap := by
  intro log off asked bs hread hle
  rw [← Except.ok.inj hread, if_pos hle]
  exact List.getElem?_eq_none (by rw [List.length_replicate]; exact Nat.min_le_right _ _)

/-- Whatever is read of it, it is quiet. -/
theorem mutedHandle_quiet {log : List ReadCall} (ha : Answered (mutedHandle len gap hlen) log) :
    Quiet log := by
  intro c hc
  rcases ha c hc with ⟨_, before, hans⟩
  exact ⟨_, hans, fun b hb => List.eq_of_mem_replicate hb⟩

/-- Nothing keeps it from being called blank but what stands before the
    scan. -/
theorem judge_muted {os : Os V} {m : Machine} {sys name path : String} {sizeBytes : UInt64}
    {removable : Bool} {me : Option String} {found : Option Esp}
    (hreach : ReachesScan os sys name path sizeBytes removable) :
    judge (os.scanning path (mutedHandle len gap hlen)) m sys name path sizeBytes removable me
      found = .blank :=
  judge_eq_blank_iff.mpr ⟨Os.scanning_reaches.mpr hreach, (firstNonzeroNode_eq_none_iff 2).mpr
    ⟨_, len, Os.scanning_opened, rfl,
      mutedHandle_quiet (firstNonzero_spec (mutedHandle len gap hlen) rfl).1.answered⟩⟩

end Muted

/-- A drive of `len` bytes that reaches the scan, and that is silent at most
    here, is called blank on evidence only, and never if it stops answering,
    exactly when it is silent at no offset the scan has to examine. -/
theorem blank_evidenced_iff (os : Os V) (m : Machine) (sys name path : String)
    (sizeBytes : UInt64) (removable : Bool) (me : Option String) (found : Option Esp) {len : Nat}
    (hlen : len < 2 ^ 63) (silent : Nat → Prop) :
    (∀ h, h.seekEnd = .ok len → SilentOnly h len silent →
        judge (os.scanning path h) m sys name path sizeBytes removable me found = .blank →
          Evidenced (os.scanning path h) path ∧ ¬ StopsAnswering h len) ↔
      (ReachesScan os sys name path sizeBytes removable → ∀ o, silent o → ¬ Examined len o) := by
  constructor
  · -- A drive of zeros that is silent there, and nowhere else, would be called blank.
    intro hall hreach o hsilent hexam
    have honly : SilentOnly (mutedHandle len o hlen) len silent := by
      intro log off asked hoff hasked hempty
      rw [mutedHandle_silentOnly log off asked hoff hasked hempty]
      exact hsilent
    exact mutedHandle_withholds.not_evidenced Os.scanning_opened rfl hexam
      (hall (mutedHandle len o hlen) rfl honly (judge_muted hreach)).1
  · intro hnone h hend honly hblank
    rw [judge_eq_blank_iff, firstNonzeroNode_eq_none_iff, Os.scanning_reaches] at hblank
    rcases hblank with ⟨hreach, h', _, hopen, _, hquiet⟩
    rw [Os.scanning_opened] at hopen
    rw [← Except.ok.inj hopen] at hquiet
    have hev : Evidenced (os.scanning path h) path :=
      evidenced_of_madeGood Os.scanning_opened hend hquiet
        (madeGood_of_silent hend honly (hnone hreach))
    exact ⟨hev, fun hstops => hstops.not_evidenced Os.scanning_opened hend hev⟩

/-- Nothing is in the way of a scan of the drive of zeros. -/
theorem zeroDrive_reaches :
    ReachesScan zeroDrive.os "/sys/block/sda" "sda" "/dev/sda" 2048 false := by
  have hr := Bench.slabbed_readsAs (V := Volume.Memory) [] Bench.bare fun _ => none
  -- It is blank, so it gets that far.
  have hblank := (judge_eq_blank_iff_zero hr (Bench.machine none) "/sys/block/sda" "sda" "/dev/sda"
    2048 false none none).mpr ⟨by decide, rfl, zeroDrive_zero⟩
  exact (judge_eq_blank_iff.mp hblank).1

/-- Silence between two samples of a drive of two gigabytes does no harm. -/
theorem blank_evidenced_iff_gap :
    Evidenced (zeroDrive.os.scanning "/dev/sda"
        (mutedHandle (2 * STRIDE) (DEEP + SAMPLE) (by decide))) "/dev/sda" ∧
      ¬ StopsAnswering (mutedHandle (2 * STRIDE) (DEEP + SAMPLE) (by decide)) (2 * STRIDE) := by
  have hwhole : wholeOf (2 * STRIDE) = DEEP := by decide
  refine (blank_evidenced_iff zeroDrive.os (Bench.machine none) "/sys/block/sda" "sda" "/dev/sda"
    2048 false none none (by decide) (· = DEEP + SAMPLE)).mpr ?_ _ rfl mutedHandle_silentOnly
      (judge_muted zeroDrive_reaches)
  -- It lies right behind the first sample, and far from the next one and the end.
  rintro _ _ rfl (hlt | ⟨k, _, hlo, hhi⟩ | ⟨hlo, _⟩)
  all_goals
    simp only [DEEP, SAMPLE, STRIDE, TAIL] at *
    omega

/-- A drive of two bytes that answers for the first one only. -/
def falteringDrive : Bench Volume.Memory where
  parts := []
  opened _ _ := .ok (mutedHandle 2 1 (by decide))
  disk := Bench.bare
  slabs _ := none

theorem falteringDrive_sniff :
    (sniff (mutedHandle 2 1 (by decide))).1 = .ok { head := [0], tail := [] } := by
  have hfirst : (mutedHandle 2 1 (by decide)).read [] 0 2 = .ok [0] := rfl
  have hrest : ∀ log, (fill (mutedHandle 2 1 (by decide)) 1 1 log).1 = .ok [] := by
    intro log
    rw [fill]
    rfl
  have hhead : (region (mutedHandle 2 1 (by decide)) 0 2 []).1 = .ok [0] := by
    unfold region
    rw [fill_cons (by decide) hfirst]
    simp only [List.length_singleton, Nat.zero_add, Nat.add_one_sub_one, hrest, Except.map,
      List.append_nil]
  -- The head is the one byte it answers for, and it is too short for a tail.
  unfold sniff
  have hlen : (mutedHandle 2 1 (by decide)).seekEnd = .ok 2 := rfl
  rw [hlen]
  simp only [(by decide : min HEAD 2 = 2)]
  rcases hreg : region (mutedHandle 2 1 (by decide)) 0 2 [] with ⟨answer, log⟩
  rw [hreg] at hhead
  subst hhead
  rfl

/-- Offset 1 of that drive is to be examined, no opening of it ever hands it
    over or anything behind it, and the drive is blank. -/
theorem blank_of_silence :
    judge falteringDrive.os (Bench.machine none) "/sys/block/sda" "sda" "/dev/sda" 2048 false
        none none = .blank ∧
      Examined 2 1 ∧ ¬ Evidenced falteringDrive.os "/dev/sda" ∧
      ∀ k h, (falteringDrive.os.node "/dev/sda").opened k = .ok h →
        h.seekEnd = .ok 2 ∧ StopsAnswering h 2 := by
  have hexam : Examined 2 1 := Or.inl (by decide)
  refine ⟨?_, hexam, mutedHandle_withholds.not_evidenced rfl rfl hexam, ?_⟩
  · have hs : ∀ k, sniffNode falteringDrive.os "/dev/sda" k = .ok { head := [0], tail := [] } :=
      fun _ => falteringDrive_sniff
    have hadm := Bench.admitted falteringDrive none
    rw [Bench.sysOf_sda] at hadm
    refine judge_eq_blank_iff.mpr ⟨⟨⟨by decide, rfl, hadm.localOnly⟩, ?_, ?_, ?_⟩, ?_⟩
    · exact Or.inr ⟨_, hs 0, by decide⟩
    · rw [Bench.partitions_sda]
      decide
    · exact ⟨_, hs 1, by decide, tailSignature_zero fun b hb => absurd hb List.not_mem_nil⟩
    · exact (firstNonzeroNode_eq_none_iff 2).mpr
        ⟨_, 2, rfl, rfl, mutedHandle_quiet (firstNonzero_spec _ rfl).1.answered⟩
  · intro k h hopen
    rw [← Except.ok.inj hopen]
    refine ⟨rfl, 1, by decide, fun o ho log off asked bs hread hle => ?_⟩
    -- What it hands over lies in front of offset 1.
    rw [← Except.ok.inj hread]
    refine List.getElem?_eq_none ?_
    rw [List.length_replicate]
    split_ifs with hfirst
    · omega
    · omega

end Zeroboot
