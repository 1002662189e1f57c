import Zeroboot.Theory.Boots

/-!
# The Slab a Loader Entry Asks For

Two readers describe one disk. `judge` finds the slab by its magic, in probe
order; the loader entry on the ESP names one on the kernel command line. A
boot hands out the slab of the first and the volume of the second, and no line
of the source holds the two against each other.

They agree exactly when the entry names, by its final component, the partition
the first slab of the drive is on. Everything about that is on the disk: an
entry without the option, one that points at another disk, and one that points
behind an earlier slab all fail it, and the drive is booted regardless.

## Main definitions

* `SlabsAgree`: The entry and the boot mean one partition of the drive.
* `EntryNamesSlab`: The entry names the partition of the first slab.

## Theorems

* `foundOf_eq_some`: What is read off an ESP is what its volume says.
* `ofVolume_boot`: What a bootable ESP says is what its loader entry says.
* `slabsAgree_iff`: When the two readers agree.
-/

namespace Zeroboot

open Medium

variable {V N : Type} {F : Volume.Ops V N}

/-! ## What is read off an ESP -/

theorem read_eq_some {disk : Disk V} {e : Esp} (h : Esp.read F disk = .ok (some e)) :
    ∃ start stop vol, espExtent disk = some (start, stop) ∧ disk.openRead = .ok () ∧
      disk.mount start stop = .ok vol ∧ e = Esp.ofVolume F vol := by
  unfold Esp.read at h
  rcases hx : espExtent disk with _ | ⟨start, stop⟩
  · rw [hx] at h
    exact absurd h (by simp only [Except.ok.injEq, reduceCtorEq, not_false_eq_true])
  · rw [hx] at h
    simp only at h
    rcases ho : disk.openRead with err | ⟨⟩
    · rw [ho] at h
      exact absurd h (by simp only [reduceCtorEq, not_false_eq_true])
    · rw [ho] at h
      simp only at h
      rcases hm : disk.mount start stop with err | vol
      · rw [hm] at h
        exact absurd h (by simp only [reduceCtorEq, not_false_eq_true])
      · rw [hm] at h
        exact ⟨start, stop, vol, rfl, rfl, hm, (Option.some.inj (Except.ok.inj h)).symm⟩

theorem foundOf_eq_some {os : Os V} {path : String} {e : Esp} (h : foundOf F os path = some e) :
    Esp.read F (os.node path).disk = .ok (some e) := by
  unfold foundOf at h
  rcases hr : Esp.read F (os.node path).disk with err | found
  · rw [hr] at h
    exact absurd h (by simp only [reduceCtorEq, not_false_eq_true])
  · rw [hr] at h
    simp only at h
    rw [h]

theorem ofVolume_boot {vol : V} {b : Boot} (h : (Esp.ofVolume F vol).boot = some b) :
    ∃ entry, loaderEntry F vol = some entry ∧ missingOf F vol entry = [] ∧
      b = { cmdline := entry.options.getD ""
            slabDevice := cmdlineValue (entry.options.getD "") "rd.stormblock.slab="
            bootVolume := cmdlineValue (entry.options.getD "") "stormblock.volume=" } := by
  unfold Esp.ofVolume at h
  rcases hl : loaderEntry F vol with _ | entry
  · rw [hl] at h
    exact absurd h (by simp only [reduceCtorEq, not_false_eq_true])
  · rw [hl] at h
    by_cases hmiss : missingOf F vol entry = []
    · simp only [ne_eq, hmiss, not_true_eq_false, if_false, Option.some.injEq] at h
      exact ⟨entry, rfl, hmiss, h.symm⟩
    · simp only [ne_eq, hmiss, not_false_eq_true, if_true, reduceCtorEq] at h

/-! ## The partition both mean -/

/-- A partition is a bare name, and not the name of its drive. -/
theorem mem_partitions {os : Os V} {sys name p : String} (h : p ∈ partitions os sys name) :
    (∃ f : FileName, p = f.text) ∧ p ≠ name := by
  unfold partitions at h
  rcases hr : os.readDir sys with e | entries
  · rw [hr] at h
    exact absurd h List.not_mem_nil
  · rw [hr] at h
    simp only [List.mem_insertionSort, List.mem_filter, List.mem_map, Bool.and_eq_true,
      decide_eq_true_eq] at h
    rcases h with ⟨⟨f, _, hf⟩, _, hlen⟩
    -- A partition's name is longer than its drive's.
    refine ⟨⟨f, hf.symm⟩, ?_⟩
    rintro rfl
    omega

/-- What a loader entry asks for names a partition of this drive, the one the
    slab that is handed out is on. -/
def SlabsAgree (os : Os V) (m : Machine) (name : String) (b : Boot) (slab : String) : Prop :=
  ∃ asked p, b.slabDevice = some asked ∧ fileName asked = some p ∧
    p ∈ partitions os (sysOf m name) name ∧ fileName slab = some p

/-- The loader entry on this drive names, by its final component, the
    partition the first slab of the drive is on. -/
def EntryNamesSlab (F : Volume.Ops V N) (os : Os V) (m : Machine) (name : String) : Prop :=
  ∃ start stop vol entry asked p slabId role,
    espExtent (os.node (pathJoin m.dev name)).disk = some (start, stop) ∧
    (os.node (pathJoin m.dev name)).disk.mount start stop = .ok vol ∧
    loaderEntry F vol = some entry ∧
    cmdlineValue (entry.options.getD "") "rd.stormblock.slab=" = some asked ∧
    fileName asked = some p ∧ p ∈ partitions os (sysOf m name) name ∧
    FirstSlab os m (sysOf m name) name (pathJoin m.dev name)
      (withFileName (pathJoin m.dev name) p) slabId role

/-- A drive that is booted off its own ESP hands out its slab and the volume
    of its loader entry, and the two are of one partition exactly when the
    entry names the partition of the first slab. -/
theorem slabsAgree_iff (F : Volume.Ops V N) {os : Os V} {m : Machine} (claimIt : Bool)
    (name : FileName) {s : Survey} {e : Esp} {b : Boot} {slab slabId : String}
    (hs : survey F os m = .ok s) (hd : lookAt F os m (identityOf os m) name.text ∈ s.drives)
    (hi : s.intent = .alreadyMine (pathJoin m.dev name.text) slab slabId)
    (he : (lookAt F os m (identityOf os m) name.text).esp = some e) (hb : e.boot = some b) :
    (boot F os m claimIt).outcome =
        .bootLocal (pathJoin m.dev name.text) slab slabId (b.bootVolume.getD "") ∧
      (SlabsAgree os m name.text b slab ↔ EntryNamesSlab F os m name.text) := by
  rcases read_eq_some (foundOf_eq_some he) with ⟨start, stop, vol, hx, _, hm, rfl⟩
  rcases ofVolume_boot hb with ⟨entry, hentry, _, rfl⟩
  -- The drive of the intent is this one, and its slab is its first.
  have hfirst : ∃ role, FirstSlab os m (sysOf m name.text) name.text (pathJoin m.dev name.text)
      slab slabId role := by
    rcases alreadyMine_drive hi with ⟨d, role, hd', hpath, hv, _⟩
    rw [surveyed_inj (surveyed_of_mem hs hd) (surveyed_of_mem hs hd') hpath] at hv
    exact ⟨role, ((lookAt_eq_mine_iff F _).mp hv).2.2⟩
  rcases hfirst with ⟨role, hfirst⟩
  refine ⟨?_, ?_, ?_⟩
  · rw [boot_alreadyMine hs hi hd rfl]
    simp only [volumeOf, Option.bind_some, he, hb]
  · rintro ⟨asked, p, hasked, hp, hmem, hslab⟩
    refine ⟨start, stop, vol, entry, asked, p, slabId, role, hx, hm, hentry, hasked, hp, hmem, ?_⟩
    rcases mem_probes_iff.mp hfirst.mem_probes with hwhole | ⟨q, hq, hpart⟩
    · -- The drive itself is none of its partitions.
      rw [hwhole, fileName_pathJoin, Option.some_inj] at hslab
      exact absurd hslab.symm (mem_partitions hmem).2
    · -- The slab is on a partition, which both readers then name.
      rcases (mem_partitions hq).1 with ⟨f, rfl⟩
      rw [hpart, fileName_withFileName, Option.some_inj] at hslab
      rw [← hslab, ← hpart]
      exact hfirst
  · -- The same table gives the same volume, and that the same entry.
    rintro ⟨start', stop', vol', entry', asked, p, slabId', role', hx', hm', hentry', hasked, hp,
      hmem, hfirst'⟩
    rw [hx, Option.some_inj] at hx'
    rcases Prod.mk.inj hx' with ⟨rfl, rfl⟩
    rw [hm] at hm'
    rw [← Except.ok.inj hm', hentry, Option.some_inj] at hentry'
    rw [← hentry'] at hasked
    refine ⟨asked, p, hasked, hp, hmem, ?_⟩
    rcases (mem_partitions hmem).1 with ⟨f, rfl⟩
    rw [(hfirst.unique hfirst').1, fileName_withFileName]

/-! ## An entry that points elsewhere -/

section Pointing

/-- A boot disk with a system slab on its second partition, and a loader entry
    with these options. -/
def pointing (options : String) : Bench Volume.Memory :=
  Bench.slabbed [Bench.sda1, Bench.sda2] (Bench.formatted (Bench.espVolume options none))
    Bench.systemSecond

variable {options : String} {b : Boot}

theorem pointing_esp (options : String) (identity : Option String) :
    (lookAt Volume.memory (pointing options).os (Bench.machine identity) identity "sda").esp =
      some (Esp.ofVolume Volume.memory (Bench.espVolume options none)) := by
  have hread : Esp.read Volume.memory ((pointing options).os.node "/dev/sda").disk =
      .ok (some (Esp.ofVolume Volume.memory (Bench.espVolume options none))) :=
    Bench.read_formatted Volume.memory _
  simp only [lookAt, foundOf, Bench.path_sda, hread]

/-- It is booted when there is something to boot on the ESP, whatever the
    entry points at. -/
theorem pointing_intent (identity : Option String) {missing : List String}
    (he : Esp.ofVolume Volume.memory (Bench.espVolume options none) =
      { boot := some b, claim := none, missing := missing }) :
    ∃ s, survey Volume.memory (pointing options).os (Bench.machine identity) = .ok s ∧
      lookAt Volume.memory (pointing options).os (Bench.machine identity) identity "sda" ∈
        s.drives ∧
      s.intent = .alreadyMine "/dev/sda" "/dev/sda2" Bench.systemId := by
  have hesp := pointing_esp options identity
  have hfirst := systemSecond_firstSlab (Bench.formatted (Bench.espVolume options none)) identity
  have hadm := Bench.admitted (pointing options) identity
  have hfound : foundOf Volume.memory (pointing options).os
      (pathJoin (Bench.machine identity).dev "sda") =
        some (Esp.ofVolume Volume.memory (Bench.espVolume options none)) := hesp
  -- There is no claim on that ESP.
  have hun : Unclaimed identity (foundOf Volume.memory (pointing options).os
      (pathJoin (Bench.machine identity).dev "sda")) := by
    rw [hfound, he]
    intro c hclaim
    rw [Option.bind_some] at hclaim
    exact absurd hclaim (by simp only [reduceCtorEq, not_false_eq_true])
  have hv := (lookAt_eq_mine_iff Volume.memory identity).mpr ⟨hadm, hun, hfirst⟩
  have hboots : (lookAt Volume.memory (pointing options).os (Bench.machine identity) identity
      "sda").boots = true := by
    unfold Drive.boots
    rw [hesp, he]
    rfl
  have hi := intent_of_alone rfl hv hboots
  rw [Bench.lookAt_path] at hi
  exact ⟨_, Bench.survey_eq Volume.memory _ identity, List.mem_singleton.mpr rfl, hi⟩

end Pointing

theorem elsewhere_esp : Esp.ofVolume Volume.memory (Bench.espVolume
    "rd.stormblock.slab=/dev/sdb2 stormblock.volume=root" none) =
      { boot := some
          { cmdline := "rd.stormblock.slab=/dev/sdb2 stormblock.volume=root"
            slabDevice := some "/dev/sdb2"
            bootVolume := some "root" }
        claim := none
        missing := [] } := by
  decide +kernel

/-- A loader entry that points at another disk does not keep its own disk from
    being booted, with the slab of the one and the volume of the other. -/
theorem slab_elsewhere_is_booted :
    let os := (pointing "rd.stormblock.slab=/dev/sdb2 stormblock.volume=root").os
    let m := Bench.machine none
    ∃ s e b, survey Volume.memory os m = .ok s ∧
      lookAt Volume.memory os m none "sda" ∈ s.drives ∧
      s.intent = .alreadyMine "/dev/sda" "/dev/sda2" Bench.systemId ∧
      (lookAt Volume.memory os m none "sda").esp = some e ∧ e.boot = some b ∧
      b.slabDevice = some "/dev/sdb2" ∧ ¬ SlabsAgree os m "sda" b "/dev/sda2" := by
  rcases pointing_intent none elsewhere_esp with ⟨s, hs, hd, hi⟩
  refine ⟨s, _, _, hs, hd, hi, (pointing_esp _ none).trans (congrArg some elsewhere_esp), rfl,
    rfl, ?_⟩
  -- The entry names sdb2, the slab is on sda2.
  rintro ⟨asked, p, hasked, hp, _, hslab⟩
  rw [← Option.some.inj hasked, show fileName "/dev/sdb2" = some "sdb2" by decide] at hp
  rw [← Option.some.inj hp, show fileName "/dev/sda2" = some "sda2" by decide] at hslab
  exact absurd hslab (by decide)

theorem own_esp : Esp.ofVolume Volume.memory (Bench.espVolume
    "rd.stormblock.slab=/dev/sda2 stormblock.volume=root" none) =
      { boot := some
          { cmdline := "rd.stormblock.slab=/dev/sda2 stormblock.volume=root"
            slabDevice := some "/dev/sda2"
            bootVolume := some "root" }
        claim := none
        missing := [] } := by
  decide +kernel

theorem slabsAgree_iff_own :
    (boot Volume.memory (pointing "rd.stormblock.slab=/dev/sda2 stormblock.volume=root").os
      (Bench.machine none) true).outcome =
        .bootLocal "/dev/sda" "/dev/sda2" Bench.systemId "root" := by
  rcases pointing_intent none own_esp with ⟨s, hs, hd, hi⟩
  have hlook : lookAt Volume.memory (pointing
      "rd.stormblock.slab=/dev/sda2 stormblock.volume=root").os (Bench.machine none)
      (identityOf (pointing
        "rd.stormblock.slab=/dev/sda2 stormblock.volume=root").os (Bench.machine none))
      Bench.sda.text ∈ s.drives := by
    rw [Bench.identityOf_machine]
    exact hd
  have hpath : pathJoin (Bench.machine none).dev Bench.sda.text = "/dev/sda" := Bench.path_sda none
  rw [← hpath]
  refine (slabsAgree_iff Volume.memory true Bench.sda hs hlook (by rw [hpath, hi]) ?_
    (congrArg Esp.boot own_esp)).1
  rw [Bench.identityOf_machine]
  exact pointing_esp _ none

end Zeroboot
