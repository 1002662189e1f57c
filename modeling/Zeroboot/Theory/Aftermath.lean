import Zeroboot.Theory.Ledger

/-!
# After a Boot

What a boot changes, as the next survey sees it, and that it changes nothing
more.

A boot that claims its drive writes to one file on one ESP, but a survey reads
every drive again and judges each of them anew. The next survey is the last
one with the claim filled in: `survey_after_boot`. No verdict is another, and
the drive that was claimed is the only one that shows anything at all. So the
same machine boots the same slab again, and as the drive is claimed by then it
is not claimed twice. One boot settles it, and any number of boots behind it,
whenever they come, leave the machine as it is: `boots_settle`.

## Main definitions

* `fillClaim`: The one thing that is new to a survey.
* `Reboots`: A boot of the machine at some time, and how it ends.

## Theorems

* `lookAt_claimed`: A drive that was claimed, looked at again.
* `survey_after_boot`: The survey after a boot is the one before, and the claim.
* `boot_leaves_claimed`: A boot of a claimed drive changes nothing.
* `boots_settle`: After the boot that claims, every boot is the same.
-/

namespace Zeroboot

open Volume

variable {V N : Type} {F : Ops V N} {os : Os V} {m : Machine} {e : Esp} {c : Claim}
  {drive slab slabId volume me : String}

/-! ## The survey -/

/-- A drive as it is, but with this claim on its ESP if it is the one at this
    path. -/
def fillClaim (drive : String) (c : Claim) (d : Drive) : Drive :=
  if d.path = drive then { d with esp := d.esp.map (fun e => { e with claim := some c }) } else d

section Fill

variable (drive : String) (c : Claim) (d : Drive)

theorem fillClaim_path : (fillClaim drive c d).path = d.path := by
  unfold fillClaim
  split_ifs
  · rfl
  · rfl

theorem fillClaim_verdict : (fillClaim drive c d).verdict = d.verdict := by
  unfold fillClaim
  split_ifs
  · rfl
  · rfl

theorem fillClaim_boots : (fillClaim drive c d).boots = d.boots := by
  unfold fillClaim Drive.boots
  split_ifs
  · cases d.esp with
    | none => rfl
    | some e => rfl
  · rfl

theorem fillClaim_volume :
    volumeOf (some (fillClaim drive c d)) = volumeOf (some d) := by
  unfold fillClaim volumeOf
  split_ifs
  · rw [Option.bind_some, Option.bind_some]
    cases d.esp with
    | none => rfl
    | some e => rfl
  · rfl

/-- A claim does not change what the survey calls for. -/
theorem intent_filled {s : Survey} {drive' : String}
    (h : s.intent = .alreadyMine drive' slab slabId) :
    Survey.intent { drives := s.drives.map (fillClaim drive c) } =
      .alreadyMine drive' slab slabId := by
  have hsame : Survey.intent { drives := s.drives.map (fun d => d) } =
      .alreadyMine drive' slab slabId := by
    rw [List.map_id']
    exact h
  exact intent_congr s.drives (fillClaim_path drive c) (fillClaim_verdict drive c)
    (fillClaim_boots drive c) hsame

end Fill

/-- Writing to a disk shows in what is read off it, and in the verdict. -/
theorem lookAt_setDisk {path name : String} {disk' : Disk V} {me : Option String} :
    lookAt F (os.setDisk path disk') m me name =
      { lookAt F os m me name with
        table := partitionTable ((os.setDisk path disk').node (pathJoin m.dev name)).disk
        esp := foundOf F (os.setDisk path disk') (pathJoin m.dev name)
        verdict := (lookAt F (os.setDisk path disk') m me name).verdict } :=
  rfl

/-- A claim of this node on a drive of this node is all that is new about it. -/
theorem lookAt_claimed {disk' : Disk V} {name role : String}
    (hv : (lookAt F os m (some me) name).verdict = .mine slabId role slab)
    (hgpt : disk'.gpt = (os.node (pathJoin m.dev name)).disk.gpt)
    (hbefore : foundOf F os (pathJoin m.dev name) = some e)
    (hafter : foundOf F (os.setDisk (pathJoin m.dev name) disk') (pathJoin m.dev name) =
      some { e with claim := some c })
    (hnode : c.node = me) :
    lookAt F (os.setDisk (pathJoin m.dev name) disk') m (some me) name =
      fillClaim (pathJoin m.dev name) c (lookAt F os m (some me) name) := by
  have htable : partitionTable ((os.setDisk (pathJoin m.dev name) disk').node
      (pathJoin m.dev name)).disk = partitionTable (os.node (pathJoin m.dev name)).disk := by
    rw [setDisk_self]
    unfold partitionTable
    rw [hgpt]
  -- The claim is this node's own, so it does not speak against the drive.
  have hun : Unclaimed (some me)
      (foundOf F (os.setDisk (pathJoin m.dev name) disk') (pathJoin m.dev name)) := by
    rw [hafter]
    intro held hheld other hother
    rw [← Option.some.inj hheld, hnode, Option.some.inj hother]
  have hverdict := (lookAt_setDisk_mine hv).mpr hun
  have hpath : (lookAt F os m (some me) name).path = pathJoin m.dev name := rfl
  have hesp : (lookAt F os m (some me) name).esp = some e := hbefore
  unfold fillClaim
  rw [if_pos hpath, hesp, Option.map_some, lookAt_setDisk, htable, hafter, hverdict, ← hv]
  rfl

theorem lookAt_other {path name : String} {disk' : Disk V} {me : Option String}
    (h : pathJoin m.dev name ≠ path) :
    lookAt F (os.setDisk path disk') m me name = fillClaim path c (lookAt F os m me name) := by
  have hpath : (lookAt F os m me name).path ≠ path := h
  unfold fillClaim
  rw [if_neg hpath, lookAt_setDisk_ne h]

section Boot

variable {name : FileName} {start stop : UInt64} {vol : V}

/-- The boot that claimed a drive leaves its ESP as it was, with the claim. -/
theorem Claimed.found_filled (hF : F.Lawful)
    (hc : Claimed F os m me name slab slabId volume start stop vol) (hn : NodeName me)
    (hreads : Reads F (os.node (pathJoin m.dev name.text)).disk e) :
    foundOf F (boot F os m true).os (pathJoin m.dev name.text) =
      some { e with claim := some { node := me, claimed := nowRfc3339 os.secs } } := by
  rcases read_eq_some hreads.read with ⟨start', stop', vol', hx, hopen, hm, rfl⟩
  -- The volume that was read is the one that was written to.
  rw [hc.extent, Option.some_inj, Prod.mk.injEq] at hx
  rw [← hx.1, ← hx.2, hc.mount, Except.ok.injEq] at hm
  rw [← hm]
  have hspares := hreads.spares start stop vol hc.extent hc.mount
  have hparse : Claim.parse (Claim.render { node := me, claimed := nowRfc3339 os.secs }) =
      some { node := me, claimed := nowRfc3339 os.secs } :=
    parse_render_eq hn (claimedText_nowRfc3339 os.secs)
  rw [hc.leaves, ← hparse, ← ofVolume_reclaimed hF hc.written hspares]
  refine foundOf_of_read ?_
  rw [setDisk_self, read_put _ hc.extent hopen]

end Boot

/-- The next survey is the last one with the claim filled in on the drive that
    was booted. -/
theorem survey_after_boot (hF : F.Lawful) {s : Survey} (hs : survey F os m = .ok s)
    (hme : identityOf os m = some me) (hn : NodeName me)
    (hout : (boot F os m true).outcome = .bootLocal drive slab slabId volume)
    (hclaimed : (boot F os m true).claimed = some (.ok ()))
    (hreads : Reads F (os.node drive).disk e) :
    survey F (boot F os m true).os m =
      .ok { drives := s.drives.map
              (fillClaim drive { node := me, claimed := nowRfc3339 os.secs }) } := by
  rcases claimed_of_boot hme hout hclaimed with ⟨name, start, stop, vol, rfl, hc⟩
  rcases survey_names hs with ⟨names, rfl, hafter⟩
  rcases hc.verdict with ⟨role, hv⟩
  have hfilled := hc.found_filled hF hn hreads
  rw [hc.leaves] at hfilled ⊢
  rw [hafter, List.map_map, hme]
  rw [hme] at hv
  refine congrArg (fun drives => Except.ok (Survey.mk drives)) (List.map_congr_left ?_)
  intro n _
  -- Only the drive that was booted is looked at with other eyes.
  by_cases hn' : n = name.text
  · rw [hn']
    exact lookAt_claimed hv rfl (foundOf_of_read hreads.read) hfilled rfl
  · exact lookAt_other fun h => hn' (pathJoin_inj h)

theorem unclaimedVolume_spares : SparesClaim memory unclaimedVolume := by
  have hloader : loaderEntry memory unclaimedVolume =
      some { linux := some "/vmlinuz", initrd := some "/initramfs.img",
             options := some "rd.stormblock.slab=/dev/sda2 stormblock.volume=root" } := by
    decide +kernel
  intro entry hentry p hp
  rw [hloader, Option.some_inj] at hentry
  rw [← hentry] at hp
  simp only [Option.some_inj] at hp
  refine not_namesClaim_of_apart memory_lawful ?_
  rcases hp with rfl | rfl
  · decide
  · decide

theorem unclaimedDisk_reads : Reads memory (unclaimedDisk.os.node "/dev/sda").disk
    (Esp.ofVolume memory unclaimedVolume) :=
  formatted_reads unclaimedVolume_spares

/-! ## The boots that follow -/

/-- A boot of the machine at some time, with leave to claim or without, and how
    it ends. -/
def Reboots (F : Ops V N) (m : Machine) (os : Os V) (o : Outcome) (os' : Os V) : Prop :=
  ∃ secs claimIt, o = (boot F (os.atTime secs) m claimIt).outcome ∧
    os' = (boot F (os.atTime secs) m claimIt).os

/-- A boot of a claimed drive changes nothing. -/
theorem boot_leaves_claimed {claimIt : Bool}
    (hout : (boot F os m claimIt).outcome = .bootLocal drive slab slabId volume)
    (hfound : foundOf F os drive = some e) (hclaim : e.claim = some c) :
    (boot F os m claimIt).os = os := by
  rcases bootLocal_cases hout with ⟨s, d, role, hs, hd, rfl, _, _, _, _, hos⟩
  rw [hos]
  cases claimIt with
  | false => rfl
  | true =>
      rcases surveyed_of_mem hs hd with ⟨name, rfl⟩
      have hesp : (lookAt F os m (identityOf os m) name.text).esp = some e := hfound
      refine claimOnBoot_of_claimed _ ?_
      rw [hesp, Option.bind_some, hclaim, Option.isSome_some]

/-- The boot after the one that claimed, at whatever time. -/
theorem boot_after_boot (hF : F.Lawful) (hme : identityOf os m = some me) (hn : NodeName me)
    (hout : (boot F os m true).outcome = .bootLocal drive slab slabId volume)
    (hclaimed : (boot F os m true).claimed = some (.ok ()))
    (hreads : Reads F (os.node drive).disk e) (secs : Nat) (claimIt : Bool) :
    (boot F ((boot F os m true).os.atTime secs) m claimIt).outcome =
      .bootLocal drive slab slabId volume := by
  rcases bootLocal_cases hout with ⟨s, d, role, hs, hd, rfl, _, _, hi, rfl, _⟩
  have hafter : survey F ((boot F os m true).os.atTime secs) m = .ok
      { drives := s.drives.map (fillClaim d.path { node := me, claimed := nowRfc3339 os.secs }) } :=
    survey_after_boot hF hs hme hn hout hclaimed hreads
  rw [boot_alreadyMine hafter (intent_filled d.path _ hi) (List.mem_map_of_mem hd)
    (fillClaim_path _ _ d), fillClaim_volume]

/-- Once a boot has claimed its drive, every boot of the machine boots the same
    slab and leaves the machine as it is, but for the clock, and every survey
    is the first one with the claim filled in. -/
theorem boots_settle (hF : F.Lawful) {s : Survey} (hs : survey F os m = .ok s)
    (hme : identityOf os m = some me) (hn : NodeName me)
    (hout : (boot F os m true).outcome = .bootLocal drive slab slabId volume)
    (hclaimed : (boot F os m true).claimed = some (.ok ()))
    (hreads : Reads F (os.node drive).disk e) {outs : List Outcome} {os' : Os V}
    (hrun : Trace (Reboots F m) (boot F os m true).os outs os') :
    (∀ o ∈ outs, o = .bootLocal drive slab slabId volume) ∧
      (∃ secs, os' = (boot F os m true).os.atTime secs) ∧
      survey F os' m = .ok
        { drives := s.drives.map
            (fillClaim drive { node := me, claimed := nowRfc3339 os.secs }) } := by
  -- The claim is there from the first boot on, whatever the time.
  have hfound : foundOf F (boot F os m true).os drive =
      some { e with claim := some { node := me, claimed := nowRfc3339 os.secs } } := by
    rcases claimed_of_boot hme hout hclaimed with ⟨name, start, stop, vol, rfl, hc⟩
    exact hc.found_filled hF hn hreads
  have hstep : ∀ {os1 os2 : Os V} {o : Outcome},
      (∃ secs, os1 = (boot F os m true).os.atTime secs) → Reboots F m os1 o os2 →
      o = .bootLocal drive slab slabId volume ∧
        ∃ secs, os2 = (boot F os m true).os.atTime secs := by
    rintro os1 os2 o ⟨_, rfl⟩ ⟨secs, claimIt, rfl, rfl⟩
    have hagain : (boot F ((boot F os m true).os.atTime secs) m claimIt).outcome =
        .bootLocal drive slab slabId volume :=
      boot_after_boot hF hme hn hout hclaimed hreads secs claimIt
    exact ⟨hagain, secs, boot_leaves_claimed hagain hfound rfl⟩
  rcases Trace.keeps (P := fun os1 => ∃ secs, os1 = (boot F os m true).os.atTime secs)
    (Q := fun o => o = .bootLocal drive slab slabId volume) hstep hrun
    ⟨(boot F os m true).os.secs, rfl⟩ with ⟨houts, secs, rfl⟩
  exact ⟨houts, ⟨secs, rfl⟩, survey_after_boot hF hs hme hn hout hclaimed hreads⟩

/-- It is started once more an hour later, and then once without leave to
    claim. -/
theorem boots_settle_r230 : ∃ s os1 os2 o1 o2,
    survey memory unclaimedDisk.os (Bench.machine (some "r230")) = .ok s ∧
    Reboots memory (Bench.machine (some "r230"))
      (boot memory unclaimedDisk.os (Bench.machine (some "r230")) true).os o1 os1 ∧
    Reboots memory (Bench.machine (some "r230")) os1 o2 os2 ∧
    (∀ o ∈ [o1, o2], o = .bootLocal "/dev/sda" "/dev/sda2" Bench.systemId "root") ∧
    (∃ secs, os2 = (boot memory unclaimedDisk.os (Bench.machine (some "r230")) true).os.atTime
      secs) ∧
    survey memory os2 (Bench.machine (some "r230")) = .ok
      { drives := s.drives.map
          (fillClaim "/dev/sda" { node := "r230", claimed := nowRfc3339 0 }) } := by
  rcases unclaimedDisk_boot "r230" with ⟨hout, hclaimed⟩
  have hs := Bench.survey_eq memory unclaimedDisk (some "r230")
  refine ⟨_, _, _, _, _, hs, ⟨3600, true, rfl, rfl⟩, ⟨3600, false, rfl, rfl⟩, ?_⟩
  exact boots_settle memory_lawful hs (Bench.identityOf_machine _ _)
    ⟨by decide, by decide, by decide⟩ hout hclaimed unclaimedDisk_reads
    (.next ⟨3600, true, rfl, rfl⟩ (.next ⟨3600, false, rfl, rfl⟩ (.done _)))

end Zeroboot
