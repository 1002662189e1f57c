import Zeroboot.Theory.Faults

/-!
# The Claim Command and the Survey

Whose drive the `claim` command takes, and whose the survey says it is.

The two ask different things. The survey wants a drive that is there, fixed and
local, and a slab on it that stormblock names; the claim on the ESP is asked
for last. The command asks for the ESP and the claim on it, and for nothing
else. So what they agree on is the claim: a drive the command writes to is one
no claim speaks against. The rest of the evidence only the survey has.

A device can be reached by more than one path, and the command takes any of
them. `Aliases` says which paths lead to the same device.

## Main definitions

* `claimWrites`: The claim the command goes on to write.
* `Writes`: The command opens the device for writing, or changes something.
* `Aliases`: Which paths lead to one device.
* `JudgedMine`: The survey calls the device this node's.
* `LocalSlab`: What the survey looks for, and the command does not.

## Theorems

* `claim_cases`: The command is that decision, and then the write.
* `writes_iff`: When the command writes.
* `claimWrites_iff`: What the command looks at.
* `judgedMine_iff`: What the survey looks at.
* `claim_only_mine_iff`: When the command keeps to this node's drives.
-/

namespace Zeroboot

open Medium Volume

variable {V N : Type}

/-! ## What the command decides -/

/-- The claim the command goes on to write, if it gets that far. -/
def claimWrites (F : Ops V N) (os : Os V) (device : String) (node : Option String)
    (sysfs : String) (force : Bool) : Option Claim :=
  match node.or (machineIdentity os sysfs) with
  | none => none
  | some me =>
      match Esp.read F (os.node device).disk with
      | .error _ => none
      | .ok none => none
      | .ok (some existing) =>
          match existing.claim with
          | none => some { node := me, claimed := nowRfc3339 os.secs }
          | some held =>
              if held.node ≠ me ∧ force = false then none
              else if held.node = me then none
              else some { node := me, claimed := nowRfc3339 os.secs }

section Decision

variable {F : Ops V N} {os : Os V} {device : String} {node : Option String} {sysfs : String}
  {force : Bool} {c : Claim}

/-- The command is that decision, and then the write, if there is one. -/
theorem claim_cases (F : Ops V N) (os : Os V) (device : String) (node : Option String)
    (sysfs : String) (force : Bool) :
    (claimWrites F os device node sysfs force = none ∧
      (claim F os device node sysfs force).1 = os) ∨
    ∃ c, claimWrites F os device node sysfs force = some c ∧
      claim F os device node sysfs force =
        (os.setDisk device (writeClaim F device (os.node device).disk c).1,
          (writeClaim F device (os.node device).disk c).2.map
            (fun _ => device ++ " claimed by " ++ c.node ++ " at " ++ c.claimed)) := by
  unfold claimWrites claim
  rcases node.or (machineIdentity os sysfs) with _ | me
  · exact Or.inl ⟨rfl, rfl⟩
  · rcases Esp.read F (os.node device).disk with e | _ | existing
    · exact Or.inl ⟨rfl, rfl⟩
    · exact Or.inl ⟨rfl, rfl⟩
    · simp only
      rcases existing.claim with _ | held
      · exact Or.inr ⟨_, rfl, rfl⟩
      · -- A claim that is there stops it, unless it is another's and it is forced.
        by_cases hother : held.node ≠ me ∧ force = false
        · simp only [if_pos hother]
          exact Or.inl ⟨trivial, trivial⟩
        · simp only [if_neg hother]
          by_cases hown : held.node = me
          · simp only [if_pos hown]
            exact Or.inl ⟨trivial, trivial⟩
          · simp only [if_neg hown]
            exact Or.inr ⟨_, rfl, rfl⟩

theorem claim_of_writes (h : claimWrites F os device node sysfs force = some c) :
    claim F os device node sysfs force =
      (os.setDisk device (writeClaim F device (os.node device).disk c).1,
        (writeClaim F device (os.node device).disk c).2.map
          (fun _ => device ++ " claimed by " ++ c.node ++ " at " ++ c.claimed)) := by
  rcases claim_cases F os device node sysfs force with ⟨hnone, _⟩ | ⟨c', hc', hrun⟩
  · rw [hnone] at h
    exact absurd h (by simp only [reduceCtorEq, not_false_eq_true])
  · rw [hc'] at h
    rw [hrun, Option.some.inj h]

/-- Without `--force` a node that knows its name writes to every ESP that can
    be read and that carries no claim. -/
theorem claimWrites_iff : claimWrites F os device node sysfs false = some c ↔
    ∃ me e, node.or (machineIdentity os sysfs) = some me ∧
      Esp.read F (os.node device).disk = .ok (some e) ∧ e.claim = none ∧
      c = { node := me, claimed := nowRfc3339 os.secs } := by
  unfold claimWrites
  rcases node.or (machineIdentity os sysfs) with _ | me
  · simp only [reduceCtorEq, false_and, exists_false]
  · rcases Esp.read F (os.node device).disk with e | _ | existing
    · simp only [reduceCtorEq, false_and, and_false, exists_false]
    · simp only [Except.ok.injEq, reduceCtorEq, false_and, and_false, exists_false]
    · simp only [Option.some.injEq, Except.ok.injEq, ↓existsAndEq, true_and]
      rcases existing.claim with _ | held
      · simp only [true_and, Option.some.injEq]
        exact eq_comm
      · -- A claim that is there is another's or this node's own.
        simp only [and_true, reduceCtorEq, false_and, iff_false]
        by_cases hown : held.node = me
        · simp only [hown, ne_eq, not_true_eq_false, if_false, if_true, reduceCtorEq,
            not_false_eq_true]
        · simp only [ne_eq, hown, not_false_eq_true, if_true, reduceCtorEq]

/-- The command opens the device for writing, or leaves the machine other than
    it was. -/
def Writes (F : Ops V N) (os : Os V) (device : String) (node : Option String) (sysfs : String)
    (force : Bool) : Prop :=
  ((claimWrites F os device node sysfs force).isSome = true ∧
      (os.node device).disk.openWrite = .ok ()) ∨
    (claim F os device node sysfs force).1 ≠ os

/-- It changes nothing that it did not open for writing. -/
theorem writes_iff : Writes F os device node sysfs force ↔
    (claimWrites F os device node sysfs force).isSome = true ∧
      (os.node device).disk.openWrite = .ok () := by
  refine or_iff_left_of_imp fun hne => ?_
  rcases claim_cases F os device node sysfs force with ⟨_, hsame⟩ | ⟨c, hc, hrun⟩
  · exact absurd hsame hne
  · refine ⟨by rw [hc, Option.isSome_some], ?_⟩
    rcases writeClaim_cases F device (os.node device).disk c with ⟨e, herr⟩ |
      ⟨_, _, _, _, hopen, _⟩
    · -- The disk that is put back is the one that was there.
      rw [hrun, herr, setDisk_disk] at hne
      exact absurd rfl hne
    · exact hopen

end Decision

/-! ## What the survey says -/

/-- Which paths lead to one device. The paths of a device have one disk behind
    them. -/
structure Aliases (os : Os V) where
  same : String → String → Prop
  disk : ∀ {p q}, same p q → (os.node p).disk = (os.node q).disk

/-- Every path is a device of its own. -/
def Aliases.plain (os : Os V) : Aliases os where
  same p q := p = q
  disk h := by rw [h]

/-- The survey judges the drive at this device to be this node's. -/
def JudgedMine (F : Ops V N) {os : Os V} (A : Aliases os) (m : Machine) (device : String) : Prop :=
  ∃ s, survey F os m = .ok s ∧ ∃ d ∈ s.drives, A.same d.path device ∧ d.verdict.isMine = true

/-- The device is one of the drives that are looked at; that drive is there,
    fixed and local; and the first of its probes that carries the slab magic is
    a slab stormblock names. -/
def LocalSlab {os : Os V} (A : Aliases os) (m : Machine) (device : String) : Prop :=
  ∃ entries name, os.readDir (pathJoin m.sysfs "block") = .ok entries ∧
    name ∈ driveNames m entries ∧ A.same (pathJoin m.dev name) device ∧
    Admitted os (sysOf m name) (sizeBytesOf os (sysOf m name)) (removableOf os (sysOf m name)) ∧
    ∃ slab slabId role, FirstSlab os m (sysOf m name) name (pathJoin m.dev name) slab slabId role

section Judged

variable {F : Ops V N} {os : Os V} {A : Aliases os} {m : Machine} {device : String}

theorem Aliases.foundOf_eq {p q : String} (h : A.same p q) : foundOf F os p = foundOf F os q := by
  unfold foundOf
  rw [A.disk h]

/-- The survey wants a local slab on the device, and no claim against it. -/
theorem judgedMine_iff : JudgedMine F A m device ↔
    LocalSlab A m device ∧ Unclaimed (identityOf os m) (foundOf F os device) := by
  constructor
  · intro ⟨s, hs, d, hd, hsame, hmine⟩
    rcases mem_survey_iff.mp ⟨s, hs, hd⟩ with ⟨entries, name, hr, hname, rfl⟩
    rcases (isMine_iff _).mp hmine with ⟨slabId, role, slab, hv⟩
    rcases (lookAt_eq_mine_iff F _).mp hv with ⟨hadm, hun, hfirst⟩
    have hpath : A.same (pathJoin m.dev name) device := hsame
    rw [Aliases.foundOf_eq hpath] at hun
    exact ⟨⟨entries, name, hr, hname, hpath, hadm, slab, slabId, role, hfirst⟩, hun⟩
  · intro ⟨⟨entries, name, hr, hname, hsame, hadm, slab, slabId, role, hfirst⟩, hun⟩
    rw [← Aliases.foundOf_eq hsame] at hun
    rcases mem_survey_iff.mpr ⟨entries, name, hr, hname, rfl⟩ with ⟨s, hs, hd⟩
    have hv := (lookAt_eq_mine_iff F (identityOf os m)).mpr ⟨hadm, hun, hfirst⟩
    exact ⟨s, hs, _, hd, hsame, (isMine_iff _).mpr ⟨slabId, role, slab, hv⟩⟩

/-- An ESP the command writes to carries no claim, so none speaks against this
    node. -/
theorem unclaimed_of_writes {c : Claim} {node : Option String} {sysfs : String}
    (h : claimWrites F os device node sysfs false = some c) (me : Option String) :
    Unclaimed me (foundOf F os device) := by
  rcases claimWrites_iff.mp h with ⟨_, e, _, hread, hclaim, _⟩
  rw [foundOf_of_read hread]
  intro held hheld
  rw [Option.bind_some, hclaim] at hheld
  exact absurd hheld (by simp only [reduceCtorEq, not_false_eq_true])

end Judged

/-! ## Where the two agree -/

/-- Without `--force` the command writes only to drives the survey calls this
    node's exactly when it has no name to write, or no ESP without a claim to
    write it to, or a device that does not open for writing, or a drive with a
    local slab before it. -/
theorem claim_only_mine_iff (F : Ops V N) {os : Os V} (A : Aliases os) (m : Machine)
    (device : String) :
    (Writes F os device m.identity m.sysfs false → JudgedMine F A m device) ↔
      identityOf os m = none ∨
        (∀ e, Esp.read F (os.node device).disk = .ok (some e) → e.claim ≠ none) ∨
        (∃ err, (os.node device).disk.openWrite = .error err) ∨
        LocalSlab A m device := by
  rw [writes_iff]
  constructor
  · intro honly
    rcases hopen : (os.node device).disk.openWrite with err | ⟨⟩
    · exact Or.inr (Or.inr (Or.inl ⟨err, rfl⟩))
    rcases hwrites : claimWrites F os device m.identity m.sysfs false with _ | c
    · -- It has no name, or it found no ESP to write to.
      rcases hme : identityOf os m with _ | me
      · exact Or.inl rfl
      · refine Or.inr (Or.inl fun e hread hclaim => ?_)
        rw [claimWrites_iff.mpr ⟨me, e, hme, hread, hclaim, rfl⟩] at hwrites
        exact absurd hwrites (Option.some_ne_none _)
    · have hmine := honly ⟨by rw [hwrites, Option.isSome_some], hopen⟩
      exact Or.inr (Or.inr (Or.inr (judgedMine_iff.mp hmine).1))
  · rintro hcond ⟨hsome, hopen⟩
    rcases Option.isSome_iff_exists.mp hsome with ⟨c, hc⟩
    rcases claimWrites_iff.mp hc with ⟨me, e, hme, hread, hclaim, _⟩
    rcases hcond with hnone | hheld | ⟨err, herr⟩ | hlocal
    · have hme' : identityOf os m = some me := hme
      rw [hnone] at hme'
      exact absurd hme' (Option.some_ne_none me).symm
    · exact absurd hclaim (hheld e hread)
    · rw [herr] at hopen
      exact absurd hopen (by simp only [reduceCtorEq, not_false_eq_true])
    · exact judgedMine_iff.mpr ⟨hlocal, unclaimed_of_writes hc _⟩

/-! ## A drive with an ESP and no slab -/

/-- Four megabytes with the header of a partition table in the second block. -/
def gptContent : Content where
  len := 2 ^ 22
  byte o := if 512 ≤ o then (Text.asBytes "EFI PART").getD (o - 512) 0 else 0
  len_lt := by decide

/-- A boot disk without its slab: the table and the ESP are there, and the
    second partition is zeros. -/
def wipedSlab : Bench Memory where
  parts := [Bench.sda1, Bench.sda2]
  opened path _ := .ok (steady (if path = "/dev/sda" then gptContent else zeros))
  disk := Bench.formatted unclaimedVolume
  slabs _ := none

theorem wipedSlab_readsAs : wipedSlab.os.ReadsAs
    (fun path => .ok (if path = "/dev/sda" then gptContent else zeros)) where
  failed path k e he := absurd he (by simp only [reduceCtorEq, not_false_eq_true])
  opened path k c hc := by
    rw [← Except.ok.inj hc]
    exact ⟨_, rfl, steady_delivers _⟩

/-- None of its nodes is a slab. -/
theorem wipedSlab_passed (probe : String) : Passed wipedSlab.os "/dev/sda" probe := by
  refine (passed_iff wipedSlab_readsAs).mpr ⟨?_, Or.inl ⟨_, rfl, ?_⟩⟩
  · intro ⟨c, hc, hlen, hmagic⟩
    rw [← Except.ok.inj hc] at hmagic
    -- A slab does not start with a zero.
    have hfirst := congrArg List.head? hmagic
    by_cases hprobe : probe = "/dev/sda"
    · rw [if_pos hprobe] at hfirst
      exact absurd hfirst (by decide)
    · rw [if_neg hprobe] at hfirst
      exact absurd hfirst (by decide)
  · by_cases hprobe : probe = "/dev/sda"
    · rw [if_pos hprobe]
      decide
    · rw [if_neg hprobe]
      decide

/-- The survey leaves it alone. -/
theorem wipedSlab_foreign (identity : Option String) : ∃ what,
    (lookAt memory wipedSlab.os (Bench.machine identity) identity "sda").verdict =
      .foreign what := by
  have hadm := Bench.admitted wipedSlab identity
  have hparts : partitions wipedSlab.os "/sys/block/sda" "sda" ≠ [] := by
    rw [Bench.partitions_sda]
    decide
  have hs : sniffNode wipedSlab.os "/dev/sda" 1 = .ok ⟨headOf gptContent, tailOf gptContent⟩ :=
    sniffNode_content wipedSlab_readsAs (by rw [if_pos rfl]) (by decide) 1
  rw [lookAt_verdict, Bench.path_sda]
  rw [Bench.sysOf_sda] at hadm ⊢
  exact judge_of_partitions hadm (fun p _ => wipedSlab_passed p) hparts hs

/-- Its ESP carries no claim, so the command writes one. -/
theorem wipedSlab_writes : claimWrites memory wipedSlab.os "/dev/sda"
    (Bench.machine (some "r230")).identity (Bench.machine (some "r230")).sysfs false =
      some { node := "r230", claimed := nowRfc3339 0 } := by
  refine claimWrites_iff.mpr ⟨"r230", _, rfl, Bench.read_formatted memory unclaimedVolume, ?_, rfl⟩
  have hesp : (Esp.ofVolume memory unclaimedVolume).claim = none := congrArg Esp.claim own_esp
  exact hesp

/-- And the write goes through. -/
theorem wipedSlab_run : claim memory wipedSlab.os "/dev/sda"
    (Bench.machine (some "r230")).identity (Bench.machine (some "r230")).sysfs false =
      (wipedSlab.os.setDisk "/dev/sda" ((Bench.formatted unclaimedVolume).put (34 * lbSize)
          (1058 * lbSize) (writeClaimFile memory unclaimedVolume
            { node := "r230", claimed := nowRfc3339 0 }).1),
        .ok "/dev/sda claimed by r230 at 1970-01-01T00:00:00Z") := by
  have hw : (writeClaimFile memory unclaimedVolume { node := "r230", claimed := nowRfc3339 0 }).2 =
      .ok () := unclaimedDisk_written _
  have hdisk : (wipedSlab.os.node "/dev/sda").disk = Bench.formatted unclaimedVolume := rfl
  have htext : "/dev/sda" ++ " claimed by " ++ "r230" ++ " at " ++ nowRfc3339 0 =
      "/dev/sda claimed by r230 at 1970-01-01T00:00:00Z" := by
    rw [nowRfc3339_zero]
    decide
  rw [claim_of_writes wipedSlab_writes, hdisk, Bench.writeClaim_formatted, hw, ← htext]
  rfl

/-- The survey leaves the drive alone, and the command puts the name of the
    node on it. -/
theorem wipedSlab_claimed :
    let os := wipedSlab.os
    let m := Bench.machine (some "r230")
    (∃ d what, survey memory os m = .ok { drives := [d] } ∧ d.path = "/dev/sda" ∧
      d.verdict = .foreign what) ∧
    ¬ JudgedMine memory (.plain os) m "/dev/sda" ∧
    (claim memory os "/dev/sda" m.identity m.sysfs false).2 =
      .ok "/dev/sda claimed by r230 at 1970-01-01T00:00:00Z" ∧
    ∃ e, Esp.read memory
        ((claim memory os "/dev/sda" m.identity m.sysfs false).1.node "/dev/sda").disk =
          .ok (some e) ∧
      e.claim = some { node := "r230", claimed := "1970-01-01T00:00:00Z" } := by
  intro os m
  rcases wipedSlab_foreign (some "r230") with ⟨what, hforeign⟩
  have hsurvey := Bench.survey_eq memory wipedSlab (some "r230")
  have hpath := Bench.lookAt_path memory wipedSlab (some "r230") (some "r230")
  have hw : (writeClaimFile memory unclaimedVolume { node := "r230", claimed := nowRfc3339 0 }).2 =
      .ok () := unclaimedDisk_written _
  rw [wipedSlab_run]
  refine ⟨⟨_, what, hsurvey, hpath, hforeign⟩, ?_, rfl, ?_⟩
  · -- The one drive of the survey is not this node's.
    intro ⟨s, hs, d, hd, _, hmine⟩
    rw [hsurvey] at hs
    rw [← Except.ok.inj hs, List.mem_singleton] at hd
    rw [hd, hforeign] at hmine
    exact absurd hmine Bool.false_ne_true
  · rw [setDisk_self, read_put _ (Bench.espExtent_formatted unclaimedVolume) rfl]
    refine ⟨_, rfl, ?_⟩
    rw [(ofVolume_written memory_lawful (writeClaimFile_replaced memory_lawful hw)).1,
      nowRfc3339_zero]
    decide

end Zeroboot
