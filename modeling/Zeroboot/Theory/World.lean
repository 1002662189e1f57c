import Mathlib.Logic.Relation
import Zeroboot.Theory.Ownership

/-!
# The Drive Among Machines

A claim that is read off a drive stays on it, however the drive travels.

Claims are written in two places, each with a guard of its own. `claimOnBoot`
asks whether there is a claim at all, and `claim` whether there is one that
names another node. Neither writes to a drive that carries one: where the claim
is the node's own, `claim` has nothing to do. So the disk of a claimed drive is
an invariant of everything the program does, whoever runs it, and with the disk
stays what is read off it.

A `World` is a family of machines and the one drive that is followed through
them. The drive can be moved, and anything else about the machines can change
with it, so a step stands for all that happens between two runs of the
program.

## Main definitions

* `World`: Machines, and where among them the drive is.
* `World.Step`: What can happen to the drive.
* `World.Holds`: The drive reads back a claim.

## Theorems

* `boot_node_of_not_booted`: A boot leaves alone what it does not boot.
* `boot_node_of_claimed`: A boot leaves a claimed drive alone.
* `claim_node_of_claimed`: The claim command leaves a claimed drive alone.
* `World.Step.disk_eq`: No step changes a claimed drive.
* `World.Holds.steps`: A claim that is there stays there.
* `first_claimant_keeps`: The first claimant keeps the drive.
-/

namespace Zeroboot

open Medium Volume

variable {V N : Type} {F : Ops V N} {os : Os V} {m : Machine} {claimIt : Bool} {path : String}

/-! ## What a run leaves alone -/

/-- A boot that claims writes to the drive it claims and to no other. -/
theorem claimOnBoot_node_ne (d : Drive) (h : path ≠ d.path) :
    (claimOnBoot F os m (some d)).1.node path = os.node path := by
  rcases claimOnBoot_cases F os m d with hsame | ⟨me, _, _, hwrite⟩
  · rw [hsame]
  · rw [hwrite]
    exact setDisk_ne h

theorem claimOnBoot_of_claimed (d : Drive) (h : (d.esp.bind Esp.claim).isSome = true) :
    (claimOnBoot F os m (some d)).1 = os := by
  rcases claimOnBoot_cases F os m d with hsame | ⟨me, _, hnone, _⟩
  · rw [hsame]
  · rw [hnone] at h
    exact absurd h (by decide)

/-- A boot leaves alone what it does not boot. -/
theorem boot_node_of_not_booted (h : ∀ slab slabId volume,
      (boot F os m claimIt).outcome ≠ .bootLocal path slab slabId volume) :
    (boot F os m claimIt).os.node path = os.node path := by
  rcases boot_cases F os m claimIt with ⟨s, d, slabId, role, slab, _, _, _, _, _, ho, hos⟩ |
    ⟨_, _, _, _, _, hboot⟩ | ⟨_, _, _, _, hboot⟩ | ⟨_, _, hboot⟩
  · -- The drive that was booted is another one.
    have hne : path ≠ d.path := by
      intro hpath
      refine h slab slabId (volumeOf (some d)) ?_
      rw [ho, hpath]
    rw [hos]
    cases claimIt with
    | false => rfl
    | true => exact claimOnBoot_node_ne d hne
  · rw [hboot]
    rfl
  · rw [hboot]
    rfl
  · rw [hboot]

/-- A boot leaves a claimed drive alone, the one it boots included. -/
theorem boot_node_of_claimed {e : Esp} {c : Claim}
    (hread : Esp.read F (os.node path).disk = .ok (some e)) (hclaim : e.claim = some c) :
    (boot F os m claimIt).os.node path = os.node path := by
  rcases boot_cases F os m claimIt with ⟨s, d, slabId, role, slab, hs, hd, _, _, _, _, hos⟩ |
    ⟨_, _, _, _, _, hboot⟩ | ⟨_, _, _, _, hboot⟩ | ⟨_, _, hboot⟩
  · rw [hos]
    cases claimIt with
    | false => rfl
    | true =>
        by_cases hpath : path = d.path
        · -- The survey read the same ESP, so the boot knows of the claim.
          have hesp : d.esp = some e := by
            rcases surveyed_of_mem hs hd with ⟨name, rfl⟩
            rw [show path = pathJoin m.dev name.text from hpath] at hread
            exact foundOf_of_read hread
          have hsome : (d.esp.bind Esp.claim).isSome = true := by
            rw [hesp, Option.bind_some, hclaim, Option.isSome_some]
          simp only [if_true]
          rw [claimOnBoot_of_claimed d hsome]
        · exact claimOnBoot_node_ne d hpath
  · rw [hboot]
    rfl
  · rw [hboot]
    rfl
  · rw [hboot]

/-- The claim command leaves a claimed drive alone, unless it is forced. -/
theorem claim_node_of_claimed {e : Esp} {c : Claim} (device : String) (node : Option String)
    (sysfs : String) (hread : Esp.read F (os.node path).disk = .ok (some e))
    (hclaim : e.claim = some c) :
    (claim F os device node sysfs false).1.node path = os.node path := by
  unfold claim
  rcases node.or (machineIdentity os sysfs) with _ | me
  · rfl
  · simp only
    by_cases hdevice : path = device
    · rw [← hdevice, hread]
      simp only [hclaim]
      by_cases hnode : c.node = me
      · -- The claim is this node's own, or another's; either way the command stops.
        rw [if_neg (by simp only [hnode, ne_eq, not_true_eq_false, false_and, not_false_eq_true]),
          if_pos hnode]
      · rw [if_pos ⟨hnode, trivial⟩]
    · -- Whatever is found on another drive, only that one is written to.
      rcases Esp.read F (os.node device).disk with err | found
      · rfl
      · cases found with
        | none => rfl
        | some existing =>
            simp only
            rcases existing.claim with _ | held
            · exact setDisk_ne hdevice
            · simp only
              split_ifs
              · rfl
              · rfl
              · exact setDisk_ne hdevice

/-! ## The drive and its travels -/

variable {I : Type}

/-- Machines, and where among them the drive is: in which one, and the device
    node it goes by there. -/
structure World (I V : Type) where
  os : I → Os V
  host : I
  path : String

namespace World

/-- The disk of the drive. -/
def disk (w : World I V) : Disk V :=
  ((w.os w.host).node w.path).disk

/-- The drive reads back a claim. -/
def Holds (F : Ops V N) (w : World I V) (c : Claim) : Prop :=
  ∃ e, Esp.read F w.disk = .ok (some e) ∧ e.claim = some c

variable {w w' : World I V} {c : Claim}

section Steps

variable [DecidableEq I]

/-- The world after one machine was left in another state. -/
def leave (w : World I V) (i : I) (os : Os V) : World I V :=
  { w with os := Function.update w.os i os }

/-- What can happen: the drive is moved, or anything changes but the drive, or
    a machine runs `boot`, or `claim` without `--force`. -/
inductive Step (F : Ops V N) : World I V → World I V → Prop where
  | move (w w' : World I V) (same : w'.disk = w.disk) : Step F w w'
  | boot (w : World I V) (i : I) (m : Machine) (claimIt : Bool) :
      Step F w (w.leave i (Zeroboot.boot F (w.os i) m claimIt).os)
  | claim (w : World I V) (i : I) (device : String) (node : Option String) (sysfs : String) :
      Step F w (w.leave i (Zeroboot.claim F (w.os i) device node sysfs false).1)

/-- Only the machine the drive is in can change it. -/
theorem leave_disk {i : I} {os' : Os V}
    (h : i = w.host → os'.node w.path = (w.os w.host).node w.path) :
    (w.leave i os').disk = w.disk := by
  by_cases hi : i = w.host
  · -- The drive is in the machine that changed.
    have hsame : (w.leave i os').os w.host = os' := by
      rw [← hi]
      exact Function.update_self i os' w.os
    have hnode : ((w.leave i os').os w.host).node w.path = (w.os w.host).node w.path := by
      rw [hsame]
      exact h hi
    exact congrArg Node.disk hnode
  · have hsame : (w.leave i os').os w.host = w.os w.host := by
      unfold leave
      simp only [Function.update_of_ne (Ne.symm hi)]
    exact congrArg (fun os'' : Os V => (os''.node w.path).disk) hsame

/-- No step changes a claimed drive. -/
theorem Step.disk_eq (hstep : Step F w w') (hheld : Holds F w c) : w'.disk = w.disk := by
  rcases hheld with ⟨e, hread, hclaim⟩
  cases hstep with
  | move _ same => exact same
  | boot i m claimIt =>
      -- Every run leaves a claimed drive alone, whichever machine it is on.
      refine leave_disk fun hi => ?_
      rw [hi]
      exact boot_node_of_claimed hread hclaim
  | claim i device node sysfs =>
      refine leave_disk fun hi => ?_
      rw [hi]
      exact claim_node_of_claimed device node sysfs hread hclaim

/-- A claim that is there stays there, by induction along the run. -/
theorem Holds.steps (hheld : Holds F w c) (hrun : Relation.ReflTransGen (Step F) w w') :
    Holds F w' c := by
  induction hrun with
  | refl => exact hheld
  | tail _ hstep ih =>
      have hsame := hstep.disk_eq ih
      unfold Holds at ih ⊢
      rwa [hsame]

end Steps

/-- Nobody but the claimant boots a claimed drive. -/
theorem Holds.not_booted (hheld : Holds F w c) {m : Machine} {me : String}
    (hme : identityOf (w.os w.host) m = some me) (hother : me ≠ c.node) (claimIt : Bool)
    (slab slabId volume : String) :
    (Zeroboot.boot F (w.os w.host) m claimIt).outcome ≠ .bootLocal w.path slab slabId volume := by
  intro hboot
  rcases hheld with ⟨e, hread, hclaim⟩
  have hfound : foundOf F (w.os w.host) w.path = some e := foundOf_of_read hread
  have hun := bootLocal_unclaimed hboot
  rw [hfound, hme] at hun
  exact hother (hun c hclaim me rfl).symm

end World

/-- Once a claim is read off a drive it is read off it in every later state,
    no machine known by another name boots the drive again, and no boot
    touches a drive but the one it boots. -/
theorem first_claimant_keeps [DecidableEq I] {F : Ops V N} {w w' : World I V} {e : Esp} {c : Claim}
    (hread : Esp.read F w.disk = .ok (some e)) (hclaim : e.claim = some c)
    (hrun : Relation.ReflTransGen (World.Step F) w w') :
    (∃ e', Esp.read F w'.disk = .ok (some e') ∧ e'.claim = some c) ∧
      (∀ (m : Machine) (me : String) (claimIt : Bool) (slab slabId volume : String),
        identityOf (w'.os w'.host) m = some me → me ≠ c.node →
          (boot F (w'.os w'.host) m claimIt).outcome ≠ .bootLocal w'.path slab slabId volume) ∧
      ∀ (i : I) (m : Machine) (claimIt : Bool) (path : String),
        (∀ slab slabId volume, (boot F (w'.os i) m claimIt).outcome ≠
          .bootLocal path slab slabId volume) →
        (boot F (w'.os i) m claimIt).os.node path = (w'.os i).node path := by
  have hheld : World.Holds F w' c := World.Holds.steps ⟨e, hread, hclaim⟩ hrun
  refine ⟨hheld, ?_, ?_⟩
  · intro m me claimIt slab slabId volume hme hother
    exact hheld.not_booted hme hother claimIt slab slabId volume
  · intro i m claimIt path hnot
    exact boot_node_of_not_booted hnot

/-- Two machines alike, and the drive at the given device node of one of them. -/
def World.alike (os : Os V) (path : String) (host : Bool) : World Bool V where
  os := fun _ => os
  host := host
  path := path

/-- A node that booted its drive leaves a claim there. -/
theorem unclaimedDisk_claimed : ∃ os e,
    os = (boot memory unclaimedDisk.os (Bench.machine (some "r230")) true).os ∧
      Esp.read memory (os.node "/dev/sda").disk = .ok (some e) ∧
      e.claim = some { node := "r230", claimed := "1970-01-01T00:00:00Z" } := by
  have hparse : Claim.parse (Claim.render { node := "r230", claimed := nowRfc3339 0 }) =
      some { node := "r230", claimed := "1970-01-01T00:00:00Z" } := by
    rw [nowRfc3339_zero]
    decide
  rcases unclaimedDisk_boot "r230" with ⟨hout, hclaimed⟩
  rcases claimed_of_boot (Bench.identityOf_machine _ _) hout hclaimed with
    ⟨name, start, stop, vol, hdrive, hc⟩
  rcases hc.found memory_lawful rfl with ⟨e, hfound, hclaim⟩
  rw [← hdrive] at hfound
  exact ⟨_, e, rfl, foundOf_eq_some hfound, hclaim.trans hparse⟩

/-- The drive a node claimed is carried over to another machine, started there
    under another name, and still the first node's. -/
theorem first_claimant_keeps_r230 : ∃ os,
    os = (boot memory unclaimedDisk.os (Bench.machine (some "r230")) true).os ∧
      ∃ e, Esp.read memory ((World.alike os "/dev/sda" false).leave false
          (boot memory os (Bench.machine (some "r240")) true).os).disk = .ok (some e) ∧
        e.claim = some { node := "r230", claimed := "1970-01-01T00:00:00Z" } := by
  rcases unclaimedDisk_claimed with ⟨os, e, hos, hread, hclaim⟩
  -- Moved to the second machine, and booted there.
  have hrun : Relation.ReflTransGen (World.Step memory) (World.alike os "/dev/sda" true)
      ((World.alike os "/dev/sda" false).leave false
        (boot memory os (Bench.machine (some "r240")) true).os) :=
    .tail (.single (.move _ (World.alike os "/dev/sda" false) rfl))
      (.boot _ false (Bench.machine (some "r240")) true)
  exact ⟨os, hos, (first_claimant_keeps hread hclaim hrun).1⟩

end Zeroboot
