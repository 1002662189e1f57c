import Zeroboot.Theory.Bench

/-!
# Which Slab Boots

What it takes for a drive to be booted, from the sysfs entries up to the
values on stdout.

The slab of a drive is the first of its probes that carries the magic, the
whole device first and then the partitions by name. A drive has at most one of
them, and everything a boot says about a slab is about that one. A drive with
two slabs therefore boots only when the system slab comes first, and a drive
without an ESP boots exactly on the role of its first slab. An ESP that could
not be read counts as no ESP, so there the role decides as well.

## Main definitions

* `FirstSlab`: The slab of a drive, and what stormblock says of it.
* `IntentIsSystemSlab`: The survey boots a system slab of this drive.
* `NotBootable`: A drive that settles no boot.

## Theorems

* `FirstSlab.unique`: There is one at most.
* `lookAt_eq_mine_iff`: Which drives are this node's.
* `bootLocal_own_slab`: What a drive that is booted has to be.
* `intent_system_iff`: When a drive without an ESP is booted.
* `unreadable_esp_iff`: When an ESP that cannot be read keeps it from being
  booted.
-/

namespace Zeroboot

open Medium

variable {V N : Type}

/-! ## The slab of a drive -/

/-- The first probe of a drive that carries the magic, and what stormblock
    says of it. The loop has to go on from every probe before it. -/
structure FirstSlab (os : Os V) (m : Machine) (sys name path slab slabId role : String) : Prop where
  carries : Carries os slab
  identified : identified os m slab = some (slabId, role)
  first : ∃ before behind, probes os sys name path = before ++ slab :: behind ∧
    ∀ p ∈ before, Passed os path p

section FirstSlab

variable {os : Os V} {m : Machine} {sys name path slab slabId role slab' slabId' role' : String}

/-- Two first elements of a list are one. -/
theorem first_unique {α : Type} {P : α → Prop} {l a b c d : List α} {x y : α}
    (h1 : l = a ++ x :: b) (h2 : l = c ++ y :: d) (hx : P x) (hy : P y) (ha : ∀ z ∈ a, ¬ P z)
    (hc : ∀ z ∈ c, ¬ P z) : x = y := by
  rw [h1] at h2
  -- One front part is a part of the other; the element behind the shorter one is
  -- in the longer one, unless they are the same.
  rcases List.append_eq_append_iff.mp h2 with ⟨t, hct, ht⟩ | ⟨t, hat, ht⟩
  · cases t with
    | nil => exact (List.cons.inj ht).1
    | cons z t =>
        rw [← (List.cons.inj ht).1] at hct
        have hmem : x ∈ c := by
          rw [hct]
          exact List.mem_append_right a List.mem_cons_self
        exact absurd hx (hc x hmem)
  · cases t with
    | nil => exact (List.cons.inj ht).1.symm
    | cons z t =>
        rw [← (List.cons.inj ht).1] at hat
        have hmem : y ∈ a := by
          rw [hat]
          exact List.mem_append_right c List.mem_cons_self
        exact absurd hy (ha y hmem)

theorem FirstSlab.unique (h1 : FirstSlab os m sys name path slab slabId role)
    (h2 : FirstSlab os m sys name path slab' slabId' role') :
    slab = slab' ∧ slabId = slabId' ∧ role = role' := by
  rcases h1.first with ⟨a, b, hab, ha⟩
  rcases h2.first with ⟨c, d, hcd, hc⟩
  have hslab : slab = slab' := first_unique hab hcd h1.carries h2.carries
    (fun p hp hcar => hcar.not_passed (ha p hp)) (fun p hp hcar => hcar.not_passed (hc p hp))
  have hid := h1.identified
  rw [hslab, h2.identified, Option.some_inj] at hid
  exact ⟨hslab, (Prod.mk.inj hid).1.symm, (Prod.mk.inj hid).2.symm⟩

theorem FirstSlab.mem_probes (h : FirstSlab os m sys name path slab slabId role) :
    slab ∈ probes os sys name path := by
  rcases h.first with ⟨before, behind, hp, _⟩
  rw [hp]
  exact List.mem_append_right before List.mem_cons_self

/-- The whole device of a drive with a slab was read. -/
theorem FirstSlab.sniffed (h : FirstSlab os m sys name path slab slabId role) :
    ∃ s, sniffNode os path 0 = .ok s := by
  rcases h.first with ⟨before, behind, hp, hpassed⟩
  unfold probes at hp
  -- The whole device is the slab, or the loop went on from it.
  cases before with
  | nil =>
      rcases h.carries with ⟨s, hs, _⟩
      rw [← (List.cons.inj hp).1] at hs
      exact ⟨s, hs⟩
  | cons p before =>
      have hfirst := hpassed p List.mem_cons_self
      rw [← (List.cons.inj hp).1] at hfirst
      rcases hfirst with ⟨_, _, hne⟩ | ⟨s, hs, _⟩
      · exact absurd rfl hne
      · exact ⟨s, hs⟩

end FirstSlab

/-! ## The drives of this node -/

theorem unclaimed_of_none {me : Option String} {found : Option Esp} (hno : found = none) :
    Unclaimed me found := by
  rw [hno]
  exact fun c hc => absurd hc (by simp only [Option.bind_none, reduceCtorEq, not_false_eq_true])

section Drives

variable (F : Volume.Ops V N) {os : Os V} {m : Machine} (me : Option String) {name : String}

theorem foundOf_of_read {F : Volume.Ops V N} {path : String} {found : Option Esp}
    (h : Esp.read F (os.node path).disk = .ok found) : foundOf F os path = found := by
  unfold foundOf
  rw [h]

theorem foundOf_of_error {F : Volume.Ops V N} {path e : String}
    (h : Esp.read F (os.node path).disk = .error e) : foundOf F os path = none := by
  unfold foundOf
  rw [h]

theorem lookAt_eq_mine_iff {slabId role slab : String} :
    (lookAt F os m me name).verdict = .mine slabId role slab ↔
      Admitted os (sysOf m name) (sizeBytesOf os (sysOf m name)) (removableOf os (sysOf m name)) ∧
        Unclaimed me (foundOf F os (pathJoin m.dev name)) ∧
        FirstSlab os m (sysOf m name) name (pathJoin m.dev name) slab slabId role := by
  rw [lookAt_verdict, judge_eq_mine_iff]
  constructor
  · rintro ⟨hadm, hun, hc, hid, hfirst⟩
    exact ⟨hadm, hun, hc, hid, hfirst⟩
  · rintro ⟨hadm, hun, hc, hid, hfirst⟩
    exact ⟨hadm, hun, hc, hid, hfirst⟩

/-- A drive with no ESP to go by boots exactly on the role of its slab. -/
theorem lookAt_boots_iff (hno : foundOf F os (pathJoin m.dev name) = none) :
    (lookAt F os m me name).boots = true ↔
      Admitted os (sysOf m name) (sizeBytesOf os (sysOf m name)) (removableOf os (sysOf m name)) ∧
        ∃ slab slabId,
          FirstSlab os m (sysOf m name) name (pathJoin m.dev name) slab slabId "system" := by
  have hesp : (lookAt F os m me name).esp = none := hno
  unfold Drive.boots
  rw [hesp]
  simp only [beq_iff_eq]
  constructor
  · -- Only a verdict of `Mine` has a role at all.
    intro hrole
    rcases hv : (lookAt F os m me name).verdict with ⟨slabId, role, slab⟩ | _ | _ | _ | _
    all_goals rw [hv] at hrole
    · rw [Verdict.slabRole, Option.some_inj] at hrole
      subst hrole
      rcases (lookAt_eq_mine_iff F me).mp hv with ⟨hadm, _, hfirst⟩
      exact ⟨hadm, slab, slabId, hfirst⟩
    all_goals exact absurd hrole (by simp only [Verdict.slabRole, reduceCtorEq, not_false_eq_true])
  · rintro ⟨hadm, slab, slabId, hfirst⟩
    rw [(lookAt_eq_mine_iff F me).mpr ⟨hadm, unclaimed_of_none hno, hfirst⟩]
    rfl

end Drives

/-- What a survey with one drive in it concludes when that drive boots. -/
theorem intent_of_alone {s : Survey} {d : Drive} {slabId role slab : String} (hs : s.drives = [d])
    (hv : d.verdict = .mine slabId role slab) (hb : d.boots = true) :
    s.intent = .alreadyMine d.path slab slabId := by
  have hd : d ∈ s.drives := by
    rw [hs]
    exact List.mem_singleton.mpr rfl
  have hmine : d.verdict.isMine = true := (isMine_iff _).mpr ⟨slabId, role, slab, hv⟩
  rcases intent_cases s with ⟨d', slabId', role', slab', hd', hv', _, hi⟩ | ⟨hnone, _⟩ |
    ⟨hnone, _⟩ | ⟨hnone, _⟩
  · rw [hs] at hd'
    rw [List.mem_singleton.mp hd'] at hv' hi
    rw [hv] at hv'
    rcases Verdict.mine.inj hv' with ⟨rfl, rfl, rfl⟩
    exact hi
  · -- The drive itself is bootable.
    have hmem := mem_bootable.mpr ⟨hd, hmine, hb⟩
    rw [hnone] at hmem
    exact absurd hmem List.not_mem_nil
  all_goals
    have hmem := mem_mine.mpr ⟨hd, hmine⟩
    rw [hnone] at hmem
    exact absurd hmem List.not_mem_nil

/-- And what a boot of that machine does. -/
theorem boot_of_alone {F : Volume.Ops V N} {os : Os V} {m : Machine} {claimIt : Bool} {d : Drive}
    {slabId role slab : String} (hs : survey F os m = .ok { drives := [d] })
    (hv : d.verdict = .mine slabId role slab) (hb : d.boots = true) :
    (boot F os m claimIt).outcome = .bootLocal d.path slab slabId (volumeOf (some d)) := by
  rw [boot_alreadyMine hs (intent_of_alone rfl hv hb) (List.mem_singleton.mpr rfl) rfl]

/-! ## A drive that is booted -/

/-- The first line of an answer of stormblock that names a slab, and the slab
    it names. -/
theorem identifySlab_line {os : Os V} {bin dev slabId role : String}
    (h : identifySlab os bin dev = some (slabId, role)) :
    ∃ out before line behind, os.slabList bin dev = some out ∧
      Text.lines out = before ++ line :: behind ∧ (∀ l ∈ before, parseSlabLine l = none) ∧
      parseSlabLine line = some (slabId, role) := by
  unfold identifySlab at h
  rcases Option.bind_eq_some_iff.mp h with ⟨out, hout, hfind⟩
  rcases List.findSome?_eq_some_iff.mp hfind with ⟨before, line, behind, hlines, hline, hnone⟩
  exact ⟨out, before, line, behind, hout, hlines, hnone, hline⟩

theorem mem_probes_iff {os : Os V} {sys name path probe : String} :
    probe ∈ probes os sys name path ↔
      probe = path ∨ ∃ p ∈ partitions os sys name, probe = withFileName path p := by
  unfold probes
  rw [List.mem_cons, List.mem_map]
  simp only [eq_comm (a := probe)]

/-- Nothing but this node's own local slab is ever booted. -/
theorem bootLocal_own_slab (F : Volume.Ops V N) {os : Os V}
    {content : String → Except String Content} (hr : os.ReadsAs content) (m : Machine)
    (claimIt : Bool)
    (hesp : ∀ s, survey F os m = .ok s → ∀ d ∈ s.drives, ∃ found,
      Esp.read F (os.node d.path).disk = .ok found)
    {drive slab slabId volume : String}
    (hout : (boot F os m claimIt).outcome = .bootLocal drive slab slabId volume) :
    ∃ name : FileName, drive = pathJoin m.dev name.text ∧
      sizeBytesOf os (sysOf m name.text) ≠ 0 ∧ removableOf os (sysOf m name.text) = false ∧
      remoteTransport os (sysOf m name.text) = none ∧ Readable content drive ∧
      (slab = drive ∨ ∃ p ∈ partitions os (sysOf m name.text) name.text,
        slab = withFileName drive p) ∧
      StartsSlab content slab ∧ (slab ≠ drive → ¬ StartsSlab content drive) ∧
      (∃ before behind, probes os (sysOf m name.text) name.text drive = before ++ slab :: behind ∧
        ∀ p ∈ before, ¬ Readable content p ∨ ¬ StartsSlab content p) ∧
      (∃ bin out before line behind role, m.stormblock = some bin ∧
        os.slabList bin slab = some out ∧ Text.lines out = before ++ line :: behind ∧
        (∀ l ∈ before, parseSlabLine l = none) ∧ parseSlabLine line = some (slabId, role)) ∧
      ∃ found, Esp.read F (os.node drive).disk = .ok found ∧
        (found.bind Esp.claim = none ∨ identityOf os m = none ∨
          ∃ c, found.bind Esp.claim = some c ∧ identityOf os m = some c.node) := by
  rcases bootLocal_cases hout with ⟨s, d, role, hs, hd, rfl, hv, _⟩
  rcases hesp s hs d hd with ⟨found, hfound⟩
  rcases surveyed_of_mem hs hd with ⟨name, rfl⟩
  rcases (lookAt_eq_mine_iff F _).mp hv with ⟨hadm, hun, hfirst⟩
  have hfoundOf : foundOf F os (pathJoin m.dev name.text) = found := foundOf_of_read hfound
  rw [hfoundOf] at hun
  rcases hfirst.first with ⟨before, behind, hprobes, hpassed⟩
  have hbefore : ∀ p ∈ before, ¬ StartsSlab content p := fun p hp =>
    ((passed_iff hr).mp (hpassed p hp)).1
  have hslab := (carries_iff hr).mp hfirst.carries
  have hmem := mem_probes_iff.mp hfirst.mem_probes
  refine ⟨name, rfl, hadm.size, hadm.fixed, hadm.localOnly, ?_, hmem, hslab, ?_,
    ⟨before, behind, hprobes, fun p hp => Or.inr (hbefore p hp)⟩, ?_, found, hfound, ?_⟩
  · -- A device that was read is not empty.
    rcases hfirst.sniffed with ⟨sn, hsn⟩
    by_contra hno
    rcases sniffNode_unreadable hr 0 hno with ⟨e, he⟩
    have heq := hsn.symm.trans he
    exact absurd heq (by simp only [reduceCtorEq, not_false_eq_true])
  · -- The whole device is the first probe, so it is before any other slab.
    intro hne
    unfold probes at hprobes
    cases before with
    | nil => exact absurd (List.cons.inj hprobes).1.symm hne
    | cons p before =>
        have hp : p = pathJoin m.dev name.text := (List.cons.inj hprobes).1.symm
        have hnot := hbefore p List.mem_cons_self
        rwa [hp] at hnot
  · rcases Option.bind_eq_some_iff.mp hfirst.identified with ⟨bin, hbin, hid⟩
    rcases identifySlab_line hid with ⟨out, pre, line, post, hlist, hlines, hpre, hline⟩
    exact ⟨bin, out, pre, line, post, role, hbin, hlist, hlines, hpre, hline⟩
  · -- A claim that is there names this node, if this node has a name.
    rcases hclaim : found.bind Esp.claim with _ | c
    · exact Or.inl rfl
    · rcases hme : identityOf os m with _ | me
      · exact Or.inr (Or.inl rfl)
      · refine Or.inr (Or.inr ⟨c, rfl, ?_⟩)
        rw [hun c hclaim me hme]

/-- A system slab on the second partition of the drive. -/
theorem systemSecond_firstSlab (disk : Disk V) (identity : Option String) :
    FirstSlab (Bench.slabbed [Bench.sda1, Bench.sda2] disk Bench.systemSecond).os
      (Bench.machine identity) (sysOf (Bench.machine identity) "sda") "sda"
      (pathJoin (Bench.machine identity).dev "sda") "/dev/sda2" Bench.systemId "system" := by
  rw [Bench.sysOf_sda, Bench.path_sda]
  refine ⟨(Bench.slabbed_carries _ _ _ _).mpr (by decide), ?_,
    ["/dev/sda", "/dev/sda1"], [], Bench.probes_two disk _, ?_⟩
  · exact Bench.identified_line Bench.systemSecond_sda2 Bench.parse_systemLine
  · -- Neither the drive nor its first partition is a slab.
    intro p hp
    refine Bench.slabbed_passed _ _ _ ?_
    revert hp
    revert p
    decide

/-- A machine with that drive boots it. -/
theorem systemSecond_boots (identity : Option String) :
    (boot Volume.memory (Bench.slabbed [Bench.sda1, Bench.sda2] Bench.bare Bench.systemSecond).os
      (Bench.machine identity) false).outcome =
        .bootLocal "/dev/sda" "/dev/sda2" Bench.systemId "" := by
  have hfirst := systemSecond_firstSlab (V := Volume.Memory) Bench.bare identity
  have hadm := Bench.admitted (Bench.slabbed [Bench.sda1, Bench.sda2]
    (Bench.bare (V := Volume.Memory)) Bench.systemSecond) identity
  have hno : foundOf Volume.memory (Bench.slabbed [Bench.sda1, Bench.sda2]
      Bench.bare Bench.systemSecond).os (pathJoin (Bench.machine identity).dev "sda") = none := rfl
  have hb := (lookAt_boots_iff Volume.memory identity hno).mpr ⟨hadm, _, _, hfirst⟩
  have hv := (lookAt_eq_mine_iff Volume.memory identity).mpr
    ⟨hadm, unclaimed_of_none hno, hfirst⟩
  rw [boot_of_alone (Bench.survey_eq Volume.memory _ identity) hv hb, Bench.lookAt_path]
  rfl

theorem bootLocal_own_slab_systemSecond :
    StartsSlab (fun path => .ok (if (Bench.systemSecond path).isSome then slabContent else zeros))
      "/dev/sda2" := by
  have hesp : ∀ s, survey Volume.memory (Bench.slabbed [Bench.sda1, Bench.sda2]
      Bench.bare Bench.systemSecond).os (Bench.machine none) = .ok s → ∀ d ∈ s.drives, ∃ found,
        Esp.read Volume.memory ((Bench.slabbed [Bench.sda1, Bench.sda2]
          Bench.bare Bench.systemSecond).os.node d.path).disk = .ok found :=
    fun _ _ _ _ => ⟨none, rfl⟩
  rcases bootLocal_own_slab Volume.memory (Bench.slabbed_readsAs _ _ _) (Bench.machine none) false
    hesp (systemSecond_boots none) with ⟨_, _, _, _, _, _, _, hstarts, _⟩
  exact hstarts

/-! ## A drive without an ESP -/

/-- The intent boots a slab of this drive whose role is system. -/
def IntentIsSystemSlab (os : Os V) (m : Machine) (name : String) (i : Intent) : Prop :=
  ∃ slab slabId, i = .alreadyMine (pathJoin m.dev name) slab slabId ∧
    slab ∈ probes os (sysOf m name) name (pathJoin m.dev name) ∧ Carries os slab ∧
    identified os m slab = some (slabId, "system")

/-- A system slab that is booted is the first slab of its drive. -/
theorem firstSlab_of_intent {F : Volume.Ops V N} {os : Os V} {m : Machine} (name : FileName)
    {me : Option String} {s : Survey} (hs : s.drives = [lookAt F os m me name.text])
    (hi : IntentIsSystemSlab os m name.text s.intent) :
    ∃ slab slabId, FirstSlab os m (sysOf m name.text) name.text (pathJoin m.dev name.text)
      slab slabId "system" := by
  rcases hi with ⟨slab, slabId, hi, _, _, hid⟩
  rcases alreadyMine_drive hi with ⟨d, role, hd, _, hv, _⟩
  rw [hs, List.mem_singleton] at hd
  rw [hd] at hv
  rcases (lookAt_eq_mine_iff F me).mp hv with ⟨_, _, hfirst⟩
  -- What stormblock says of the slab is what the verdict was made of.
  have hrole := hfirst.identified
  rw [hid, Option.some_inj] at hrole
  rw [← (Prod.mk.inj hrole).2] at hfirst
  exact ⟨slab, slabId, hfirst⟩

/-- A drive without an ESP, alone on its machine, is booted from its system
    slab exactly when its first slab is one. -/
theorem intent_system_iff (F : Volume.Ops V N) (os : Os V) (m : Machine) (name : FileName)
    (hs : survey F os m = .ok { drives := [lookAt F os m (identityOf os m) name.text] })
    (hadm : Admitted os (sysOf m name.text) (sizeBytesOf os (sysOf m name.text))
      (removableOf os (sysOf m name.text)))
    (hesp : Esp.read F (os.node (pathJoin m.dev name.text)).disk = .ok none) :
    (∃ s, survey F os m = .ok s ∧ IntentIsSystemSlab os m name.text s.intent) ↔
      ∃ slab slabId, FirstSlab os m (sysOf m name.text) name.text (pathJoin m.dev name.text)
        slab slabId "system" := by
  have hno : foundOf F os (pathJoin m.dev name.text) = none := foundOf_of_read hesp
  constructor
  · rintro ⟨s, hs', hi⟩
    rw [hs] at hs'
    exact firstSlab_of_intent name (by rw [← Except.ok.inj hs']) hi
  · rintro ⟨slab, slabId, hfirst⟩
    have hv := (lookAt_eq_mine_iff F (identityOf os m)).mpr
      ⟨hadm, unclaimed_of_none hno, hfirst⟩
    have hb := (lookAt_boots_iff F (identityOf os m) hno).mpr ⟨hadm, slab, slabId, hfirst⟩
    exact ⟨_, hs, slab, slabId, intent_of_alone rfl hv hb, hfirst.mem_probes, hfirst.carries,
      hfirst.identified⟩

theorem intent_system_iff_systemSecond :
    ∃ s, survey Volume.memory (Bench.slabbed [Bench.sda1, Bench.sda2]
      Bench.bare Bench.systemSecond).os (Bench.machine none) = .ok s ∧
        IntentIsSystemSlab (Bench.slabbed [Bench.sda1, Bench.sda2]
          (Bench.bare (V := Volume.Memory)) Bench.systemSecond).os (Bench.machine none) "sda"
            s.intent := by
  have hadm := Bench.admitted (Bench.slabbed [Bench.sda1, Bench.sda2]
    (Bench.bare (V := Volume.Memory)) Bench.systemSecond) none
  exact (intent_system_iff Volume.memory _ (Bench.machine none) Bench.sda
    (Bench.surveyed_alone _ _ none) hadm rfl).mpr ⟨_, _, systemSecond_firstSlab Bench.bare none⟩

/-- A data slab on the first partition is the slab of the drive. -/
theorem dataFirst_firstSlab (disk : Disk V) (identity : Option String) :
    FirstSlab (Bench.slabbed [Bench.sda1, Bench.sda2] disk Bench.dataFirst).os
      (Bench.machine identity) (sysOf (Bench.machine identity) "sda") "sda"
      (pathJoin (Bench.machine identity).dev "sda") "/dev/sda1" Bench.dataId "data" := by
  rw [Bench.sysOf_sda, Bench.path_sda]
  refine ⟨(Bench.slabbed_carries _ _ _ _).mpr (by decide), ?_,
    ["/dev/sda"], ["/dev/sda2"], Bench.probes_two disk _, ?_⟩
  · exact Bench.identified_line Bench.dataFirst_sda1 Bench.parse_dataLine
  · intro p hp
    rw [List.mem_singleton.mp hp]
    exact Bench.slabbed_passed _ _ _ (by decide)

/-- A data slab on an earlier partition hides the system slab on a later one,
    with everything else as it should be. -/
theorem data_slab_hides_system_slab :
    let os := (Bench.slabbed [Bench.sda1, Bench.sda2] (Bench.bare (V := Volume.Memory))
      Bench.dataFirst).os
    let m := Bench.machine none
    survey Volume.memory os m =
        .ok { drives := [lookAt Volume.memory os m (identityOf os m) "sda"] } ∧
      Admitted os (sysOf m "sda") (sizeBytesOf os (sysOf m "sda"))
        (removableOf os (sysOf m "sda")) ∧
      (∃ s, sniffNode os "/dev/sda" 0 = .ok s) ∧
      Esp.read Volume.memory (os.node "/dev/sda").disk = .ok none ∧
      (∀ p ∈ probes os "/sys/block/sda" "sda" "/dev/sda", Carries os p →
        ∃ x, identified os m p = some x) ∧
      Carries os "/dev/sda2" ∧ identified os m "/dev/sda2" = some (Bench.systemId, "system") ∧
      ¬ ∃ s, survey Volume.memory os m = .ok s ∧ IntentIsSystemSlab os m "sda" s.intent := by
  have hadm := Bench.admitted (Bench.slabbed [Bench.sda1, Bench.sda2]
    (Bench.bare (V := Volume.Memory)) Bench.dataFirst) none
  have hfirst := dataFirst_firstSlab (Bench.bare (V := Volume.Memory)) none
  have hids : identified (Bench.slabbed [Bench.sda1, Bench.sda2]
      (Bench.bare (V := Volume.Memory)) Bench.dataFirst).os (Bench.machine none) "/dev/sda2" =
        some (Bench.systemId, "system") :=
    Bench.identified_line Bench.dataFirst_sda2 Bench.parse_systemLine
  refine ⟨Bench.surveyed_alone _ _ none, hadm, hfirst.sniffed, rfl, ?_,
    (Bench.slabbed_carries _ _ _ _).mpr (by decide), hids, ?_⟩
  · intro p hp hc
    rw [Bench.probes_two] at hp
    rw [Bench.slabbed_carries] at hc
    rcases List.mem_cons.mp hp with rfl | hp
    · exact absurd hc (by decide)
    · rcases List.mem_cons.mp hp with rfl | hp
      · exact ⟨_, hfirst.identified⟩
      · rw [List.mem_singleton.mp hp]
        exact ⟨_, hids⟩
  · -- The first slab would have to be a system slab, and it is a data slab.
    rintro ⟨s, hs, hi⟩
    rw [Bench.surveyed_alone] at hs
    rcases firstSlab_of_intent Bench.sda (by rw [← Except.ok.inj hs]) hi with
      ⟨slab, slabId, hsys⟩
    exact absurd (hsys.unique hfirst).2.2 (by decide)

/-! ## An ESP that cannot be read -/

/-- The drive does not boot, and a survey in which it is all this node has
    says so. -/
def NotBootable (d : Drive) : Prop :=
  d.boots = false ∧ ∀ s : Survey, d ∈ s.drives → d.verdict.isMine = true →
    (∀ d' ∈ s.drives, d'.verdict.isMine = true → d' = d) →
      ∃ because, s.intent = .mineButNoneBoots because

theorem notBootable_iff (d : Drive) : NotBootable d ↔ d.boots = false := by
  refine ⟨And.left, fun hb => ⟨hb, ?_⟩⟩
  intro s hd hmine honly
  -- Of the four intents, one boots another drive and two need this node to own none.
  rcases intent_cases s with ⟨d', slabId, role, slab, hd', hv, hb', _⟩ | ⟨_, _, hi⟩ |
    ⟨hnone, _⟩ | ⟨hnone, _⟩
  · rw [honly d' hd' ((isMine_iff _).mpr ⟨slabId, role, slab, hv⟩), hb] at hb'
    exact absurd hb' (by decide)
  · exact hi
  all_goals
    have hmem := mem_mine.mpr ⟨hd, hmine⟩
    rw [hnone] at hmem
    exact absurd hmem List.not_mem_nil

/-- An ESP that cannot be read keeps its drive from being booted exactly when
    the drive is not there, not fixed or not local, or its first slab is no
    system slab that stormblock names. -/
theorem unreadable_esp_iff (F : Volume.Ops V N) (os : Os V) (m : Machine) (me : Option String)
    (name : String) {e : String}
    (herr : Esp.read F (os.node (pathJoin m.dev name)).disk = .error e) :
    NotBootable (lookAt F os m me name) ↔
      ¬ (Admitted os (sysOf m name) (sizeBytesOf os (sysOf m name))
          (removableOf os (sysOf m name)) ∧
        ∃ slab slabId,
          FirstSlab os m (sysOf m name) name (pathJoin m.dev name) slab slabId "system") := by
  have hno : foundOf F os (pathJoin m.dev name) = none := foundOf_of_error herr
  rw [notBootable_iff, ← lookAt_boots_iff F me hno, Bool.not_eq_true]

theorem unreadable_esp_iff_dataFirst :
    NotBootable (lookAt Volume.memory (Bench.slabbed [Bench.sda1, Bench.sda2] Bench.wiped
      Bench.dataFirst).os (Bench.machine none) none "sda") := by
  refine (unreadable_esp_iff Volume.memory _ (Bench.machine none) none "sda"
    rfl).mpr ?_
  rintro ⟨_, slab, slabId, hsys⟩
  exact absurd (hsys.unique (dataFirst_firstSlab Bench.wiped none)).2.2 (by decide)

/-- A boot disk whose ESP was wiped is booted all the same. -/
theorem wiped_esp_boots :
    let os := (Bench.slabbed [Bench.sda1, Bench.sda2] (Bench.wiped (V := Volume.Memory))
      Bench.systemSecond).os
    let m := Bench.machine none
    (espExtent (os.node "/dev/sda").disk).isSome = true ∧
      Esp.read Volume.memory (os.node "/dev/sda").disk = .error "invalid boot sector signature" ∧
      (lookAt Volume.memory os m none "sda").boots = true ∧
      ∃ s, survey Volume.memory os m = .ok s ∧
        s.drives = [lookAt Volume.memory os m none "sda"] ∧
        s.intent = .alreadyMine "/dev/sda" "/dev/sda2" Bench.systemId := by
  have hfirst := systemSecond_firstSlab (Bench.wiped (V := Volume.Memory)) none
  have hadm := Bench.admitted (Bench.slabbed [Bench.sda1, Bench.sda2]
    (Bench.wiped (V := Volume.Memory)) Bench.systemSecond) none
  have hno : foundOf Volume.memory (Bench.slabbed [Bench.sda1, Bench.sda2]
      Bench.wiped Bench.systemSecond).os (pathJoin (Bench.machine none).dev "sda") = none := rfl
  have hb := (lookAt_boots_iff Volume.memory none hno).mpr ⟨hadm, _, _, hfirst⟩
  have hv := (lookAt_eq_mine_iff Volume.memory none).mpr
    ⟨hadm, unclaimed_of_none hno, hfirst⟩
  exact ⟨rfl, rfl, hb, _, Bench.survey_eq Volume.memory _ none, rfl, intent_of_alone rfl hv hb⟩

end Zeroboot
