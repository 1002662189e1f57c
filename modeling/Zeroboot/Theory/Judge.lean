import Zeroboot.Core.Probe
import Zeroboot.Theory.Reading

/-!
# What a Verdict Rests On

`judge` is a ladder of early returns with a loop in the middle. Each verdict
that matters is characterised here by everything that has to hold for it,
guards included, so that nothing after this unfolds the ladder again.

One turn of the loop goes on exactly when its device cannot be read and is not
the whole drive, or was read and is no slab. So the slab of a `Mine` verdict
is the first probe that carries the magic, and what comes behind it is never
looked at. No turn of the loop can say `Blank`: that takes the whole ladder,
and the scan at the end of it.

The same two verdicts are then put in terms of what is on the drive, for a
machine whose device nodes answer with an unchanging content.

## Main definitions

* `Carries`: A device that opens and starts with the slab magic.
* `Passed`: A device the loop goes on from.
* `Admitted`: A drive that is there, fixed, and local.
* `Unclaimed`: No claim on the drive speaks against this machine.
* `ReachesScan`: Everything before the scan.
* `Os.ReadsAs`: The device nodes answer with these contents.

## Theorems

* `judgeProbe_eq_none_iff`, `judgeProbe_eq_mine_iff`: One turn of the loop.
* `judge_eq_mine_iff`: What a `Mine` verdict rests on.
* `judge_eq_blank_iff`: What a `Blank` verdict rests on.
* `judge_of_named`, `judge_of_found`: What a drive without partitions is
  called.
* `carries_iff`, `passed_iff`: The same of an unchanging content.
* `signature_zero`, `tailSignature_zero`: Nothing is named on zeros.
-/

namespace Zeroboot

open Medium

variable {V N : Type}

/-! ## One turn of the loop -/

/-- The device opens and starts with the slab magic. -/
def Carries (os : Os V) (probe : String) : Prop :=
  ∃ s, sniffNode os probe 0 = .ok s ∧ s.starts 0 slabMagic = true

/-- The loop goes on from this device. -/
def Passed (os : Os V) (path probe : String) : Prop :=
  (∃ e, sniffNode os probe 0 = .error e ∧ probe ≠ path) ∨
    ∃ s, sniffNode os probe 0 = .ok s ∧ s.starts 0 slabMagic = false

/-- No claim on the drive names another node than this one. -/
def Unclaimed (me : Option String) (found : Option Esp) : Prop :=
  ∀ c, found.bind Esp.claim = some c → ∀ node, me = some node → c.node = node

/-- Which slab stormblock says is on a device, when there is a stormblock to
    ask. -/
def identified (os : Os V) (m : Machine) (probe : String) : Option (String × String) :=
  m.stormblock.bind (fun bin => identifySlab os bin probe)

section Probe

variable {os : Os V} {m : Machine} {path probe slab slabId role : String}
  {remote me : Option String} {found : Option Esp}

theorem Carries.not_passed (hc : Carries os probe) : ¬ Passed os path probe := by
  rcases hc with ⟨s, hs, hstarts⟩
  rintro (⟨e, he, _⟩ | ⟨s', hs', hnot⟩)
  · rw [hs] at he
    exact absurd he (by simp only [reduceCtorEq, not_false_eq_true])
  · rw [hs] at hs'
    rw [← Except.ok.inj hs', hstarts] at hnot
    exact absurd hnot (by decide)

theorem ownerOf_eq_mine_iff (slab' : String) :
    ownerOf remote me found slabId role probe = .mine slabId role slab' ↔
      remote = none ∧ Unclaimed me found ∧ slab' = probe := by
  unfold ownerOf Unclaimed
  rcases remote with _ | via
  · rcases hf : found.bind Esp.claim with _ | c
    · simp only [Verdict.mine.injEq, true_and, reduceCtorEq, false_implies, implies_true]
      exact eq_comm
    · rcases me with _ | node
      · simp only [Verdict.mine.injEq, true_and, reduceCtorEq, false_implies, implies_true]
        exact eq_comm
      · by_cases hne : c.node = node
        · simp only [hne, ne_eq, not_true_eq_false, if_false, Verdict.mine.injEq, true_and,
            Option.some.injEq, forall_eq']
          exact eq_comm
        · simp only [hne, ne_eq, not_false_eq_true, if_true, reduceCtorEq, true_and,
            Option.some.injEq, forall_eq', false_and]
  · simp only [reduceCtorEq, false_and]

theorem ownerOf_ids {slabId' role' : String}
    (h : ownerOf remote me found slabId' role' probe = .mine slabId role slab) :
    slabId' = slabId ∧ role' = role := by
  unfold ownerOf at h
  split at h
  · exact absurd h (by simp only [reduceCtorEq, not_false_eq_true])
  · split at h
    · split at h
      · exact absurd h (by simp only [reduceCtorEq, not_false_eq_true])
      · exact ⟨(Verdict.mine.inj h).1, (Verdict.mine.inj h).2.1⟩
    · exact ⟨(Verdict.mine.inj h).1, (Verdict.mine.inj h).2.1⟩

theorem ownerOf_ne_blank : ownerOf remote me found slabId role probe ≠ .blank := by
  unfold ownerOf
  split
  · simp only [ne_eq, reduceCtorEq, not_false_eq_true]
  · split
    · split
      · simp only [ne_eq, reduceCtorEq, not_false_eq_true]
      · simp only [ne_eq, reduceCtorEq, not_false_eq_true]
    · simp only [ne_eq, reduceCtorEq, not_false_eq_true]

/-- Everything one turn of the loop can do. -/
theorem judgeProbe_cases (os : Os V) (m : Machine) (path : String) (remote me : Option String)
    (found : Option Esp) (probe : String) :
    (Passed os path probe ∧ judgeProbe os m path remote me found probe = none) ∨
    (¬ Carries os probe ∧ ∃ e, judgeProbe os m path remote me found probe = some (.unreadable e)) ∨
    (Carries os probe ∧ identified os m probe = none ∧
      ∃ what, judgeProbe os m path remote me found probe = some (.foreign what)) ∨
    ∃ slabId role, Carries os probe ∧ identified os m probe = some (slabId, role) ∧
      judgeProbe os m path remote me found probe =
        some (ownerOf remote me found slabId role probe) := by
  unfold judgeProbe Passed Carries identified
  rcases hs : sniffNode os probe 0 with e | s
  · by_cases hp : probe = path
    · -- The whole drive itself could not be read.
      refine Or.inr (Or.inl ⟨?_, e, ?_⟩)
      · simp only [reduceCtorEq, false_and, exists_false, not_false_eq_true]
      · simp only [if_pos hp]
    · exact Or.inl ⟨Or.inl ⟨e, rfl, hp⟩, by simp only [if_neg hp]⟩
  · rcases hstarts : s.starts 0 slabMagic with _ | _
    · refine Or.inl ⟨Or.inr ⟨s, rfl, hstarts⟩, ?_⟩
      simp only [hstarts, Bool.not_false, if_true]
    · -- The magic is there; the rest is up to stormblock.
      refine Or.inr (Or.inr ?_)
      simp only [hstarts, Bool.not_true, Bool.false_eq_true, if_false, Except.ok.injEq,
        exists_eq_left', true_and]
      rcases m.stormblock with _ | bin
      · exact Or.inl ⟨rfl, _, rfl⟩
      · rw [Option.bind_some]
        rcases hid : identifySlab os bin probe with _ | ⟨slabId, role⟩
        · simp only [hid]
          exact Or.inl ⟨trivial, _, rfl⟩
        · exact Or.inr ⟨slabId, role, rfl, by simp only [hid]⟩

theorem judgeProbe_eq_none_iff :
    judgeProbe os m path remote me found probe = none ↔ Passed os path probe := by
  rcases judgeProbe_cases os m path remote me found probe with
    ⟨hp, h⟩ | ⟨hnc, e, h⟩ | ⟨hc, _, what, h⟩ | ⟨slabId, role, hc, _, h⟩
  · exact iff_of_true h hp
  · -- Unreadable is said of the whole drive only, from which the loop does not go on.
    refine iff_of_false (by rw [h]; simp only [reduceCtorEq, not_false_eq_true]) ?_
    intro hp
    unfold judgeProbe at h
    rcases hp with ⟨e', he, hne⟩ | ⟨s, hs, hnot⟩
    · simp only [he, if_neg hne, reduceCtorEq] at h
    · simp only [hs, hnot, Bool.not_false, if_true, reduceCtorEq] at h
  · exact iff_of_false (by rw [h]; simp only [reduceCtorEq, not_false_eq_true]) hc.not_passed
  · exact iff_of_false (by rw [h]; simp only [reduceCtorEq, not_false_eq_true]) hc.not_passed

theorem judgeProbe_eq_mine_iff :
    judgeProbe os m path remote me found probe = some (.mine slabId role slab) ↔
      Carries os probe ∧ identified os m probe = some (slabId, role) ∧ remote = none ∧
        Unclaimed me found ∧ slab = probe := by
  rcases judgeProbe_cases os m path remote me found probe with
    ⟨hp, h⟩ | ⟨hnc, e, h⟩ | ⟨hc, hid, what, h⟩ | ⟨slabId', role', hc, hid, h⟩
  · rw [h]
    refine iff_of_false ?_ fun hall => hall.1.not_passed hp
    simp only [reduceCtorEq, not_false_eq_true]
  · rw [h]
    refine iff_of_false ?_ fun hall => hnc hall.1
    simp only [Option.some.injEq, reduceCtorEq, not_false_eq_true]
  · rw [h, hid]
    simp only [Option.some.injEq, reduceCtorEq, false_and, and_false]
  · rw [h, hid]
    constructor
    · intro hown
      rcases ownerOf_ids (Option.some.inj hown) with ⟨rfl, rfl⟩
      exact ⟨hc, rfl, (ownerOf_eq_mine_iff slab).mp (Option.some.inj hown)⟩
    · rintro ⟨_, hids, hrest⟩
      rcases Prod.mk.inj (Option.some.inj hids) with ⟨rfl, rfl⟩
      rw [(ownerOf_eq_mine_iff slab).mpr hrest]

theorem judgeProbe_ne_blank : judgeProbe os m path remote me found probe ≠ some .blank := by
  rcases judgeProbe_cases os m path remote me found probe with
    ⟨_, h⟩ | ⟨_, e, h⟩ | ⟨_, _, what, h⟩ | ⟨slabId, role, _, _, h⟩
  · rw [h]
    simp only [ne_eq, reduceCtorEq, not_false_eq_true]
  · rw [h]
    simp only [ne_eq, Option.some.injEq, reduceCtorEq, not_false_eq_true]
  · rw [h]
    simp only [ne_eq, Option.some.injEq, reduceCtorEq, not_false_eq_true]
  · rw [h]
    exact fun hb => ownerOf_ne_blank (Option.some.inj hb)

end Probe

/-! ## The ladder -/

/-- The drive is there, it is fixed, and it is local. -/
structure Admitted (os : Os V) (sys : String) (sizeBytes : UInt64) (removable : Bool) : Prop where
  size : sizeBytes ≠ 0
  fixed : removable = false
  localOnly : remoteTransport os sys = none

/-- Everything that stands between a drive and the scan. -/
structure ReachesScan (os : Os V) (sys name path : String) (sizeBytes : UInt64)
    (removable : Bool) : Prop where
  admitted : Admitted os sys sizeBytes removable
  unprobed : Passed os path path
  noParts : partitions os sys name = []
  unnamed : ∃ s, sniffNode os path 1 = .ok s ∧ signature s = none ∧ s.tailSignature = none

/-- A verdict that leaves a drive alone and names no slab. -/
def LeftAlone (v : Verdict) : Prop :=
  (∃ what, v = .foreign what) ∨ ∃ why, v = .unreadable why

theorem not_leftAlone_mine {slabId role slab : String} : ¬ LeftAlone (.mine slabId role slab) := by
  rintro (⟨_, h⟩ | ⟨_, h⟩)
  all_goals exact absurd h (by simp only [reduceCtorEq, not_false_eq_true])

theorem not_leftAlone_blank : ¬ LeftAlone .blank := by
  rintro (⟨_, h⟩ | ⟨_, h⟩)
  all_goals exact absurd h (by simp only [reduceCtorEq, not_false_eq_true])

section Ladder

variable {os : Os V} {m : Machine} {sys name path slab slabId role : String} {sizeBytes : UInt64}
  {removable : Bool} {me : Option String} {found : Option Esp}

/-- A drive that is there and fixed is judged by its probes first. -/
theorem judge_of_probe (hsize : sizeBytes ≠ 0) (hfixed : removable = false) {v : Verdict}
    (hv : (probes os sys name path).findSome?
      (judgeProbe os m path (remoteTransport os sys) me found) = some v) :
    judge os m sys name path sizeBytes removable me found = v := by
  unfold judge
  rw [if_neg hsize, hfixed]
  simp only [Bool.false_eq_true, if_false, hv]

/-- Everything `judge` can do. The rungs around the loop leave a drive alone,
    save for the last one. -/
theorem judge_cases (os : Os V) (m : Machine) (sys name path : String) (sizeBytes : UInt64)
    (removable : Bool) (me : Option String) (found : Option Esp) :
    LeftAlone (judge os m sys name path sizeBytes removable me found) ∨
    (sizeBytes ≠ 0 ∧ removable = false ∧ (probes os sys name path).findSome?
      (judgeProbe os m path (remoteTransport os sys) me found) =
        some (judge os m sys name path sizeBytes removable me found)) ∨
    (judge os m sys name path sizeBytes removable me found = .blank ∧
      ReachesScan os sys name path sizeBytes removable ∧
        firstNonzeroNode os path 2 = .ok none) := by
  unfold judge
  by_cases hsize : sizeBytes = 0
  · rw [if_pos hsize]
    exact Or.inl (Or.inr ⟨_, rfl⟩)
  rw [if_neg hsize]
  rcases hrem : removable with _ | _
  · simp only [Bool.false_eq_true, if_false]
    rcases hv : (probes os sys name path).findSome?
      (judgeProbe os m path (remoteTransport os sys) me found) with _ | v
    · -- No probe decided it, the whole drive being one of them.
      have hpassed : Passed os path path :=
        judgeProbe_eq_none_iff.mp (List.findSome?_eq_none_iff.mp hv path List.mem_cons_self)
      rcases hremote : remoteTransport os sys with _ | via
      · rcases hs : sniffNode os path 1 with e | s
        · exact Or.inl (Or.inr ⟨_, rfl⟩)
        · by_cases hparts : partitions os sys name = []
          · simp only [hparts, ne_eq, not_true_eq_false, if_false]
            rcases hsig : (signature s).or s.tailSignature with _ | what
            · rcases hscan : firstNonzeroNode os path 2 with e | _ | off
              · exact Or.inl (Or.inr ⟨_, rfl⟩)
              · rw [Option.or_eq_none_iff] at hsig
                exact Or.inr (Or.inr
                  ⟨rfl, ⟨⟨hsize, rfl, hremote⟩, hpassed, hparts, s, hs, hsig⟩, rfl⟩)
              · exact Or.inl (Or.inl ⟨_, rfl⟩)
            · exact Or.inl (Or.inl ⟨_, rfl⟩)
          · simp only [ne_eq, hparts, not_false_eq_true, if_true]
            exact Or.inl (Or.inl ⟨_, rfl⟩)
      · exact Or.inl (Or.inl ⟨_, rfl⟩)
    · exact Or.inr (Or.inl ⟨hsize, trivial, rfl⟩)
  · simp only [if_true]
    refine Or.inl (Or.inl ?_)
    split
    · exact ⟨_, rfl⟩
    · exact ⟨_, rfl⟩

theorem judge_eq_mine_iff :
    judge os m sys name path sizeBytes removable me found = .mine slabId role slab ↔
      Admitted os sys sizeBytes removable ∧ Unclaimed me found ∧ Carries os slab ∧
        identified os m slab = some (slabId, role) ∧
        ∃ before behind, probes os sys name path = before ++ slab :: behind ∧
          ∀ p ∈ before, Passed os path p := by
  constructor
  · intro h
    rcases judge_cases os m sys name path sizeBytes removable me found with
      hleft | ⟨hsize, hfixed, hv⟩ | ⟨hblank, _⟩
    · rw [h] at hleft
      exact absurd hleft not_leftAlone_mine
    · rw [h] at hv
      -- The verdict came from the first probe that the loop did not go on from.
      rcases List.findSome?_eq_some_iff.mp hv with ⟨before, probe, behind, hprobes, hprobe, hnone⟩
      rcases judgeProbe_eq_mine_iff.mp hprobe with ⟨hc, hid, hremote, hun, rfl⟩
      exact ⟨⟨hsize, hfixed, hremote⟩, hun, hc, hid, before, behind, hprobes,
        fun p hp => judgeProbe_eq_none_iff.mp (hnone p hp)⟩
    · rw [h] at hblank
      exact absurd hblank (by simp only [reduceCtorEq, not_false_eq_true])
  · rintro ⟨hadm, hun, hc, hid, before, behind, hprobes, hpassed⟩
    refine judge_of_probe hadm.size hadm.fixed (List.findSome?_eq_some_iff.mpr
      ⟨before, slab, behind, hprobes, ?_, fun p hp => judgeProbe_eq_none_iff.mpr (hpassed p hp)⟩)
    exact judgeProbe_eq_mine_iff.mpr ⟨hc, hid, hadm.localOnly, hun, rfl⟩

/-- Without partitions the whole drive is the only probe. -/
theorem probes_passed (m : Machine) (remote me : Option String) (found : Option Esp)
    (hparts : partitions os sys name = []) (hpassed : Passed os path path) :
    (probes os sys name path).findSome? (judgeProbe os m path remote me found) = none := by
  refine List.findSome?_eq_none_iff.mpr ?_
  intro p hp
  unfold probes at hp
  rw [hparts, List.map_nil, List.mem_singleton] at hp
  rw [hp]
  exact judgeProbe_eq_none_iff.mpr hpassed

theorem judge_eq_blank_iff :
    judge os m sys name path sizeBytes removable me found = .blank ↔
      ReachesScan os sys name path sizeBytes removable ∧
        firstNonzeroNode os path 2 = .ok none := by
  constructor
  · intro h
    rcases judge_cases os m sys name path sizeBytes removable me found with
      hleft | ⟨_, _, hv⟩ | ⟨_, hreach⟩
    · rw [h] at hleft
      exact absurd hleft not_leftAlone_blank
    · rw [h] at hv
      rcases List.findSome?_eq_some_iff.mp hv with ⟨_, probe, _, _, hprobe, _⟩
      exact absurd hprobe judgeProbe_ne_blank
    · exact hreach
  · rintro ⟨⟨⟨hsize, hfixed, hremote⟩, hpassed, hparts, s, hs, hsig, htail⟩, hscan⟩
    have hv := probes_passed m none me found hparts hpassed
    unfold judge
    rw [if_neg hsize, hfixed]
    simp only [Bool.false_eq_true, if_false, hremote, hv, hs, hparts, ne_eq, not_true_eq_false,
      hsig, htail, Option.or_none, hscan]

/-- What is named on a drive without partitions is what it is called. -/
theorem judge_of_named {s : Sniff} {what : String} (hadm : Admitted os sys sizeBytes removable)
    (hpassed : Passed os path path) (hparts : partitions os sys name = [])
    (hs : sniffNode os path 1 = .ok s) (hsig : (signature s).or s.tailSignature = some what) :
    judge os m sys name path sizeBytes removable me found = .foreign what := by
  have hv := probes_passed m none me found hparts hpassed
  unfold judge
  rw [if_neg hadm.size, hadm.fixed]
  simp only [Bool.false_eq_true, if_false, hadm.localOnly, hv, hs, hparts, ne_eq,
    not_true_eq_false, hsig]

/-- A drive with partitions and no slab is called by its partitions. -/
theorem judge_of_partitions {s : Sniff} (hadm : Admitted os sys sizeBytes removable)
    (hpassed : ∀ p ∈ probes os sys name path, Passed os path p)
    (hparts : partitions os sys name ≠ []) (hs : sniffNode os path 1 = .ok s) :
    ∃ what, judge os m sys name path sizeBytes removable me found = .foreign what := by
  have hv : (probes os sys name path).findSome? (judgeProbe os m path none me found) = none :=
    List.findSome?_eq_none_iff.mpr fun p hp => judgeProbe_eq_none_iff.mpr (hpassed p hp)
  unfold judge
  rw [if_neg hadm.size, hadm.fixed]
  simp only [Bool.false_eq_true, if_false, hadm.localOnly, hv, hs, ne_eq, hparts,
    not_false_eq_true, if_true]
  exact ⟨_, rfl⟩

/-- Where nothing is named, what the scan found is what it is called. -/
theorem judge_of_found {off : Nat} (hreach : ReachesScan os sys name path sizeBytes removable)
    (hscan : firstNonzeroNode os path 2 = .ok (some off)) :
    judge os m sys name path sizeBytes removable me found =
      .foreign ("unrecognised data at offset " ++ toString off) := by
  rcases hreach with ⟨⟨hsize, hfixed, hremote⟩, hpassed, hparts, s, hs, hsig, htail⟩
  have hv := probes_passed m none me found hparts hpassed
  unfold judge
  rw [if_neg hsize, hfixed]
  simp only [Bool.false_eq_true, if_false, hremote, hv, hs, hparts, ne_eq, not_true_eq_false,
    hsig, htail, Option.or_none, hscan]

end Ladder

/-! ## Devices that do not change -/

/-- Every opening of a device node fails, or answers with the same content in
    full. -/
structure Os.ReadsAs (os : Os V) (content : String → Except String Content) : Prop where
  failed : ∀ path k e, content path = .error e → ∃ e', (os.node path).opened k = .error e'
  opened : ∀ path k c, content path = .ok c → ∃ h, (os.node path).opened k = .ok h ∧ Delivers h c

section ReadsAs

variable {os : Os V} {content : String → Except String Content} {path probe : String} {c : Content}

theorem sniffNode_content (hr : os.ReadsAs content) (hc : content path = .ok c) (hpos : 0 < c.len)
    (k : Nat) : sniffNode os path k = .ok { head := headOf c, tail := tailOf c } := by
  rcases hr.opened path k c hc with ⟨h, hopen, hd⟩
  unfold sniffNode
  rw [hopen]
  exact sniff_delivers hd hpos

/-- The device opens and its head is not empty. -/
def Readable (content : String → Except String Content) (probe : String) : Prop :=
  ∃ c, content probe = .ok c ∧ 0 < c.len

theorem sniffNode_unreadable (hr : os.ReadsAs content) (k : Nat) (hno : ¬ Readable content path) :
    ∃ e, sniffNode os path k = .error e := by
  unfold sniffNode
  rcases hc : content path with e | c
  · rcases hr.failed path k e hc with ⟨e', he⟩
    rw [he]
    exact ⟨e', rfl⟩
  · -- A drive that opens and reads as nothing at all.
    have hzero : c.len = 0 := by
      by_contra hne
      exact hno ⟨c, hc, Nat.pos_of_ne_zero hne⟩
    rcases hr.opened path k c hc with ⟨h, hopen, hd⟩
    rw [hopen]
    exact ⟨_, sniff_empty hd hzero⟩

/-- The content of a device starts with the slab magic. -/
def StartsSlab (content : String → Except String Content) (probe : String) : Prop :=
  ∃ c, content probe = .ok c ∧ StartsWith c slabMagic

theorem StartsSlab.readable (hs : StartsSlab content probe) : Readable content probe := by
  rcases hs with ⟨c, hc, hlen, _⟩
  have hmagic : slabMagic.length = 8 := by decide
  exact ⟨c, hc, by omega⟩

theorem carries_iff (hr : os.ReadsAs content) : Carries os probe ↔ StartsSlab content probe := by
  unfold Carries
  by_cases hread : Readable content probe
  · rcases hread with ⟨c, hc, hpos⟩
    unfold StartsSlab
    rw [sniffNode_content hr hc hpos 0, hc]
    simp only [Except.ok.injEq, exists_eq_left', starts_headOf]
  · refine iff_of_false ?_ fun hs => hread hs.readable
    rcases sniffNode_unreadable hr 0 hread with ⟨e, he⟩
    rw [he]
    simp only [reduceCtorEq, false_and, exists_false, not_false_eq_true]

/-- The loop goes on from a device that could not be read, unless it is the
    whole drive, and from one that is no slab. -/
theorem passed_iff (hr : os.ReadsAs content) :
    Passed os path probe ↔
      ¬ StartsSlab content probe ∧ (Readable content probe ∨ probe ≠ path) := by
  rw [← carries_iff hr]
  by_cases hread : Readable content probe
  · rcases hread with ⟨c, hc, hpos⟩
    have hs := sniffNode_content hr hc hpos 0
    constructor
    · exact fun hp => ⟨fun hcar => hcar.not_passed hp, Or.inl ⟨c, hc, hpos⟩⟩
    · rintro ⟨hnot, _⟩
      refine Or.inr ⟨_, hs, ?_⟩
      rw [Bool.eq_false_iff]
      exact fun hstarts => hnot ⟨_, hs, hstarts⟩
  · rcases sniffNode_unreadable hr 0 hread with ⟨e, he⟩
    unfold Passed Carries
    rw [he]
    simp only [Except.error.injEq, exists_eq_left', reduceCtorEq, false_and, exists_false,
      or_false, not_false_eq_true, true_and]
    exact (or_iff_right hread).symm

theorem firstNonzeroNode_content (hr : os.ReadsAs content) (hc : content path = .ok c) (k : Nat) :
    firstNonzeroNode os path k = .ok none ↔ ∀ o, Examined c.len o → c.byte o = 0 := by
  rcases hr.opened path k c hc with ⟨h, hopen, hd⟩
  unfold firstNonzeroNode
  rw [hopen]
  exact firstNonzero_delivers hd

end ReadsAs

/-! ## Nothing is named on zeros -/

/-- Every signature has a byte that is not zero. -/
theorem namedSignatures_nonzero :
    namedSignatures.all (fun (_, magic, _) => magic.any (· != 0)) = true := by
  decide

theorem signature_zero {s : Sniff} (hz : ∀ b ∈ s.head, b = 0) : signature s = none := by
  unfold signature
  refine List.findSome?_eq_none_iff.mpr ?_
  rintro ⟨off, magic, what⟩ hmem
  have hany := List.all_eq_true.mp namedSignatures_nonzero _ hmem
  rcases List.any_eq_true.mp hany with ⟨b, hb, hne⟩
  simp only [ite_eq_right_iff, reduceCtorEq, imp_false, Bool.not_eq_true]
  rw [Bool.eq_false_iff]
  intro hstarts
  unfold Sniff.starts Sniff.bytesAt at hstarts
  by_cases hfits : off + magic.length ≤ s.head.length
  · rw [if_pos hfits, beq_iff_eq, Option.some_inj] at hstarts
    rw [← hstarts] at hb
    -- The byte of the signature that is not zero would lie in the head.
    have hzero := hz b (List.mem_of_mem_drop (List.mem_of_mem_take hb))
    rw [hzero] at hne
    exact absurd hne (by decide)
  · rw [if_neg hfits] at hstarts
    exact absurd hstarts (by simp only [Option.none_beq_some, Bool.false_eq_true,
      not_false_eq_true])

theorem mdChunk_zero (t : List UInt8) (hz : ∀ b ∈ t, b = 0) : Sniff.mdChunk t = false := by
  induction hn : t.length using Nat.strong_induction_on generalizing t with
  | _ n ih =>
      rw [Sniff.mdChunk]
      by_cases hlong : 4096 ≤ t.length
      · rw [dif_pos hlong, Bool.or_eq_false_iff]
        refine ⟨?_, ?_⟩
        · rw [beq_eq_false_iff_ne]
          intro htake
          -- The magic starts with a byte that is not zero.
          have hmem : (0xfc : UInt8) ∈ t.take 4 := by
            rw [htake]
            decide
          exact absurd (hz _ (List.mem_of_mem_take hmem)) (by decide)
        · have hlen : (t.drop 4096).length < n := by
            rw [List.length_drop]
            omega
          exact ih _ hlen (t.drop 4096) (fun b hb => hz b (List.mem_of_mem_drop hb)) rfl
      · rw [dif_neg hlong]

theorem tailSignature_zero {s : Sniff} (hz : ∀ b ∈ s.tail, b = 0) : s.tailSignature = none := by
  unfold Sniff.tailSignature
  rw [if_neg, if_neg]
  · rw [mdChunk_zero s.tail hz]
    decide
  · rintro ⟨_, htake⟩
    -- Nor is any letter of a GPT header zero.
    have hmem : (0x45 : UInt8) ∈ (s.tail.drop (s.tail.length - 512)).take 8 := by
      rw [htake]
      decide
    exact absurd (hz _ (List.mem_of_mem_drop (List.mem_of_mem_take hmem))) (by decide)

/-- Both ends of a drive are zero when every byte the scan examines is. -/
theorem ends_zero {c : Content} (hz : ∀ o, Examined c.len o → c.byte o = 0) :
    (∀ b ∈ headOf c, b = 0) ∧ ∀ b ∈ tailOf c, b = 0 := by
  constructor
  · refine (Content.forall_mem_slice c 0 _ (· = 0)).mpr fun o _ hhi => hz o (Or.inl ?_)
    -- The head lies in the part that is read whole.
    unfold wholeOf
    split_ifs with hlt
    · omega
    · simp only [HEAD, DEEP] at hhi ⊢
      omega
  · unfold tailOf
    split_ifs with hlong
    · refine (Content.forall_mem_slice c _ _ (· = 0)).mpr fun o hlo hhi => ?_
      exact hz o (Or.inr (Or.inr ⟨hlo, by omega⟩))
    · exact fun b hb => absurd hb List.not_mem_nil

theorem not_startsWith_zero {c : Content} (hz : ∀ o, Examined c.len o → c.byte o = 0) :
    ¬ StartsWith c slabMagic := by
  intro hs
  have hstarts := (starts_headOf c []).mpr hs
  have hmem : (0x53 : UInt8) ∈ headOf c := by
    unfold Sniff.starts Sniff.bytesAt at hstarts
    split_ifs at hstarts with hfits
    · rw [beq_iff_eq, Option.some_inj] at hstarts
      refine List.mem_of_mem_drop (i := 0) (List.mem_of_mem_take (i := slabMagic.length) ?_)
      rw [hstarts]
      decide
    · exact absurd hstarts (by simp only [Option.none_beq_some, Bool.false_eq_true,
        not_false_eq_true])
  exact absurd ((ends_zero hz).1 _ hmem) (by decide)

end Zeroboot
