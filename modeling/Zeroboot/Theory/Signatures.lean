import Zeroboot.Theory.Blank
import Zeroboot.Theory.Coverage
import Zeroboot.Theory.Ladder

/-!
# What the Signatures Are For

The signatures say what is on a drive. They are not what keeps it: wherever a
drive has a name, the scan finds a byte that is not zero, since a signature
has one and both ends of a drive lie in what the scan examines.

So the tables can be cut down as one likes. `judgeWith` is the ladder with
other tables in place of the source's, and with fewer entries it says the same
of every drive, save that what it says of a drive it leaves alone may read
differently.

## Main definitions

* `judgeWith`: The verdict by these tables.

## Theorems

* `found_of_named`: What has a name is found by the scan.
* `judge_blank_iff_scan`: Whether a drive is blank is up to the scan.
* `judgeWith_sublist`: Fewer signatures change the text of a verdict at most.
* `signatures_only_name`: All three.
-/

namespace Zeroboot

open Medium

variable {V N : Type}

/-! ## Fewer signatures -/

/-- The verdict on a drive, with other tables of signatures. -/
def judgeWith (named : List (Nat × List UInt8 × String)) (checks : List (Sniff → Option String))
    (os : Os V) (m : Machine) (sys name path : String) (sizeBytes : UInt64) (removable : Bool)
    (me : Option String) (found : Option Esp) : Verdict :=
  (judgeLogged named checks os m sys name path sizeBytes removable me found).verdict

section Sublists

variable {named : List (Nat × List UInt8 × String)} {checks : List (Sniff → Option String)}
  {s : Sniff}

theorem nameWith_sublist (hsub : named.Sublist namedSignatures) (hs : signature s = none) :
    nameWith named s = none := by
  refine List.findSome?_eq_none_iff.mpr fun entry hentry => ?_
  exact List.findSome?_eq_none_iff.mp hs entry (hsub.subset hentry)

theorem tailWith_sublist (hsub : checks.Sublist tailChecks) (hs : s.tailSignature = none) :
    tailWith checks s = none := by
  rw [tailSignature_eq] at hs
  refine List.findSome?_eq_none_iff.mpr fun check hcheck => ?_
  exact List.findSome?_eq_none_iff.mp hs check (hsub.subset hcheck)

end Sublists

/-! ## The scan finds what has a name -/

section Found

variable {c : Content}

/-- Both readers of a drive: what is named in its ends, the scan finds. -/
theorem not_zero_of_named (hnamed : signature ⟨headOf c, tailOf c⟩ ≠ none ∨
    Sniff.tailSignature ⟨headOf c, tailOf c⟩ ≠ none) :
    ¬ ∀ o, Examined c.len o → c.byte o = 0 := by
  intro hzero
  rcases ends_zero hzero with ⟨hhead, htail⟩
  rcases hnamed with hnamed | hnamed
  · exact hnamed (signature_zero hhead)
  · exact hnamed (tailSignature_zero htail)

theorem found_of_not_zero {h : Handle} (hd : Delivers h c)
    (hnot : ¬ ∀ o, Examined c.len o → c.byte o = 0) : ∃ o, (firstNonzero h).1 = .ok (some o) := by
  rcases firstNonzero_ok hd with ⟨_ | o, hans⟩
  · exact absurd ((firstNonzero_delivers hd).mp hans) hnot
  · exact ⟨o, hans⟩

/-- What has a name is found by the scan. -/
theorem found_of_named {h h' : Handle} {s : Sniff} (hd : Delivers h c) (hd' : Delivers h' c)
    (hs : (sniff h).1 = .ok s) (hnamed : signature s ≠ none ∨ s.tailSignature ≠ none) :
    ∃ o, (firstNonzero h').1 = .ok (some o) := by
  by_cases hpos : 0 < c.len
  · obtain rfl : { head := headOf c, tail := tailOf c } = s :=
      Except.ok.inj ((sniff_delivers hd hpos).symm.trans hs)
    exact found_of_not_zero hd' (not_zero_of_named hnamed)
  · -- A drive without any bytes is not even sniffed.
    rw [sniff_empty hd (by omega)] at hs
    exact absurd hs (by simp only [reduceCtorEq, not_false_eq_true])

end Found

/-! ## The ladder without signatures -/

section Ladder

variable {os : Os V} {content : String → Except String Content}

/-- Whether a drive that comes this far is blank is up to the scan. -/
theorem judge_blank_iff_scan (hr : os.ReadsAs content) (m : Machine) {sys name path : String}
    {sizeBytes : UInt64} (me : Option String) (found : Option Esp) {c : Content}
    (hsize : sizeBytes ≠ 0) (hlocal : remoteTransport os sys = none)
    (hparts : partitions os sys name = []) (hc : content path = .ok c) (hpos : 0 < c.len)
    (hnot : ¬ StartsWith c slabMagic) :
    judge os m sys name path sizeBytes false me found = .blank ↔
      firstNonzeroNode os path 2 = .ok none := by
  rw [judge_eq_blank_iff_zero hr, firstNonzeroNode_content hr hc]
  constructor
  · rintro ⟨_, _, _, _, c', hc', _, _, hzero⟩
    obtain rfl : c = c' := Except.ok.inj (hc.symm.trans hc')
    exact hzero
  · intro hzero
    exact ⟨hsize, rfl, hlocal, hparts, c, hc, hpos, hnot, hzero⟩

/-- What was sniffed has a name, so the scan of the same node finds
    something. -/
theorem firstNonzeroNode_of_named (hr : os.ReadsAs content) {path : String} {s : Sniff}
    (hs : sniffNode os path 1 = .ok s) (hnamed : signature s ≠ none ∨ s.tailSignature ≠ none) :
    ∃ o, firstNonzeroNode os path 2 = .ok (some o) := by
  rcases hc : content path with e | c
  · rcases hr.failed path 1 e hc with ⟨e', he⟩
    unfold sniffNode at hs
    rw [he] at hs
    exact absurd hs (by simp only [reduceCtorEq, not_false_eq_true])
  · rcases hr.opened path 1 c hc with ⟨h, hopen, hd⟩
    rcases hr.opened path 2 c hc with ⟨h', hopen', hd'⟩
    unfold sniffNode at hs
    unfold firstNonzeroNode
    rw [hopen] at hs
    rw [hopen']
    exact found_of_named hd hd' hs hnamed

/-- Fewer signatures change the text of a verdict at most, and only of one
    that leaves the drive alone as not this node's. -/
theorem judgeWith_sublist (hr : os.ReadsAs content) {named : List (Nat × List UInt8 × String)}
    {checks : List (Sniff → Option String)} (hnamed : named.Sublist namedSignatures)
    (hchecks : checks.Sublist tailChecks) (m : Machine) (sys name path : String)
    (sizeBytes : UInt64) (removable : Bool) (me : Option String) (found : Option Esp) :
    judgeWith named checks os m sys name path sizeBytes removable me found =
        judge os m sys name path sizeBytes removable me found ∨
      ∃ what what', judgeWith named checks os m sys name path sizeBytes removable me found =
          .foreign what ∧
        judge os m sys name path sizeBytes removable me found = .foreign what' := by
  unfold judgeWith judgeLogged judge
  simp only [probeLogged_fst]
  by_cases hsize : sizeBytes = 0
  · rw [if_pos hsize, if_pos hsize]
    exact Or.inl rfl
  rw [if_neg hsize, if_neg hsize]
  by_cases hrem : removable = true
  · rw [if_pos hrem, if_pos hrem]
    rcases (readTrimmed os (pathJoin sys "device/model")).filter (· ≠ "") with _ | model
    · exact Or.inl rfl
    · exact Or.inl rfl
  rw [if_neg hrem, if_neg hrem]
  rcases (probes os sys name path).findSome?
    (judgeProbe os m path (remoteTransport os sys) me found) with _ | verdict
  · rcases remoteTransport os sys with _ | via
    · rcases hs : sniffNode os path 1 with e | s
      · exact Or.inl rfl
      · dsimp only
        by_cases hparts : partitions os sys name = []
        · rw [if_neg (not_not.mpr hparts), if_neg (not_not.mpr hparts)]
          rcases hfull : (signature s).or s.tailSignature with _ | what
          · -- What the whole tables do not name, no part of them does.
            rw [Option.or_eq_none_iff] at hfull
            rw [nameWith_sublist hnamed hfull.1, tailWith_sublist hchecks hfull.2, Option.or_none]
            refine Or.inl ?_
            rcases firstNonzeroNode os path 2 with e | _ | off
            · rfl
            · rfl
            · rfl
          · refine Or.inr ?_
            rcases (nameWith named s).or (tailWith checks s) with _ | what'
            · -- Without its name the drive is scanned, and the scan finds something.
              have hsome : signature s ≠ none ∨ s.tailSignature ≠ none := by
                by_contra hnone
                rw [not_or, not_not, not_not] at hnone
                rw [hnone.1, hnone.2] at hfull
                exact absurd hfull (by simp only [Option.or_none, reduceCtorEq, not_false_eq_true])
              rcases firstNonzeroNode_of_named hr hs hsome with ⟨o, ho⟩
              rw [ho]
              exact ⟨_, _, rfl, rfl⟩
            · exact ⟨_, _, rfl, rfl⟩
        · rw [if_pos hparts, if_pos hparts]
          exact Or.inr ⟨_, _, rfl, rfl⟩
    · exact Or.inl rfl
  · exact Or.inl rfl

/-- The signatures only name: what they name the scan finds, whether a drive
    is blank is up to the scan, and without some or all of them a verdict reads
    differently at most where it is the same kind of refusal. -/
theorem signatures_only_name (hr : os.ReadsAs content) (m : Machine) :
    (∀ (c : Content) (h h' : Handle) (s : Sniff), Delivers h c → Delivers h' c →
      (sniff h).1 = .ok s → signature s ≠ none ∨ s.tailSignature ≠ none →
        ∃ o, (firstNonzero h').1 = .ok (some o)) ∧
    (∀ sys name path sizeBytes me found c, sizeBytes ≠ 0 → remoteTransport os sys = none →
      partitions os sys name = [] → content path = .ok c → 0 < c.len → ¬ StartsWith c slabMagic →
        (judge os m sys name path sizeBytes false me found = .blank ↔
          firstNonzeroNode os path 2 = .ok none)) ∧
    (∀ sys name path sizeBytes removable me found,
      judgeWith namedSignatures tailChecks os m sys name path sizeBytes removable me found =
        judge os m sys name path sizeBytes removable me found) ∧
    ∀ named checks, named.Sublist namedSignatures → checks.Sublist tailChecks →
      ∀ sys name path sizeBytes removable me found,
        judgeWith named checks os m sys name path sizeBytes removable me found =
            judge os m sys name path sizeBytes removable me found ∨
          ∃ what what',
            judgeWith named checks os m sys name path sizeBytes removable me found =
                .foreign what ∧
              judge os m sys name path sizeBytes removable me found = .foreign what' := by
  refine ⟨fun _ _ _ _ => found_of_named, ?_, judgeLogged_verdict os m, ?_⟩
  · intro sys name path sizeBytes me found c hsize hlocal hparts hc hpos hnot
    exact judge_blank_iff_scan hr m me found hsize hlocal hparts hc hpos hnot
  · intro named checks hnamed hchecks
    exact judgeWith_sublist hr hnamed hchecks m

end Ladder

/-- A drive of four sectors with the magic of an encrypted one, and nothing
    behind it. -/
def encrypted : Content where
  len := 2048
  byte o := (Text.asBytes "LUKS" ++ [0xba, 0xbe]).getD o 0
  len_lt := by decide

def encryptedDrive : Bench Volume.Memory where
  parts := []
  opened _ _ := .ok (steady encrypted)
  disk := Bench.bare
  slabs _ := none

theorem encryptedDrive_readsAs : encryptedDrive.os.ReadsAs (fun _ => .ok encrypted) where
  failed _ _ _ h := absurd h (by simp only [reduceCtorEq, not_false_eq_true])
  opened _ _ c h := ⟨steady encrypted, rfl, Except.ok.inj h ▸ steady_delivers encrypted⟩

theorem encryptedDrive_sniff (k : Nat) : sniffNode encryptedDrive.os "/dev/sda" k =
    .ok { head := headOf encrypted, tail := tailOf encrypted } :=
  sniffNode_content encryptedDrive_readsAs rfl (by decide) k

/-- An encrypted drive is called that, and without any signature it is still
    left alone. -/
theorem signatures_only_name_luks :
    judge encryptedDrive.os (Bench.machine none) "/sys/block/sda" "sda" "/dev/sda" 2048 false none
        none = .foreign "LUKS" ∧
      (∃ o, (firstNonzero (steady encrypted)).1 = .ok (some o)) ∧
      ∃ what, judgeWith [] [] encryptedDrive.os (Bench.machine none) "/sys/block/sda" "sda"
        "/dev/sda" 2048 false none none = .foreign what := by
  have hadm := Bench.admitted encryptedDrive none
  have hparts : partitions encryptedDrive.os "/sys/block/sda" "sda" = [] := by
    rw [Bench.partitions_sda]
    decide
  have hname : signature ⟨headOf encrypted, tailOf encrypted⟩ = some "LUKS" := by
    decide +kernel
  have hpassed : Passed encryptedDrive.os "/dev/sda" "/dev/sda" :=
    Or.inr ⟨_, encryptedDrive_sniff 0, by decide +kernel⟩
  rw [Bench.sysOf_sda] at hadm
  have hjudge : judge encryptedDrive.os (Bench.machine none) "/sys/block/sda" "sda" "/dev/sda" 2048
      false none none = .foreign "LUKS" :=
    judge_of_named ⟨by decide, rfl, hadm.localOnly⟩ hpassed hparts (encryptedDrive_sniff 1)
      (by rw [hname, Option.some_or])
  rcases signatures_only_name encryptedDrive_readsAs (Bench.machine none) with
    ⟨hfinds, _, _, htables⟩
  have hsniff : (sniff (steady encrypted)).1 =
      .ok { head := headOf encrypted, tail := tailOf encrypted } := encryptedDrive_sniff 0
  refine ⟨hjudge, hfinds encrypted _ _ _ (steady_delivers encrypted) (steady_delivers encrypted)
    hsniff (Or.inl (by rw [hname]; exact Option.some_ne_none _)), ?_⟩
  rcases htables [] [] (List.nil_sublist _) (List.nil_sublist _) "/sys/block/sda" "sda" "/dev/sda"
    2048 false none none with h | ⟨what, _, h, _⟩
  · exact ⟨"LUKS", h.trans hjudge⟩
  · exact ⟨what, h⟩

end Zeroboot
