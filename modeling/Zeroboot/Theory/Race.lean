import Zeroboot.Lib.Cell
import Zeroboot.Theory.Aftermath
import Zeroboot.Theory.Lifetime

/-!
# A Race for a Drive

Two programs that claim a drive at the same time.

A boot and a `claim` look at the ESP of a drive first, and write to it later.
The file has no lock, and what is written there is not looked at again. Here
each of them is taken apart into the half that decides and the half that
writes, and any number of them run on one drive with their halves in any order,
some of them ending in between: `Step`.

On the ESP that is a cell without a lock, whose value is the claim. So the
claim is the last one that was written, whoever was told before that the drive
is theirs, and the rest of the ESP stays as it was. A claim is lost only to one
that was forced or to one that was decided before it was there. And if no two
of them get into each other's way, the ledger of the drive is kept:
`claims_race`. That they can is `claims_race_lost`: two nodes claim a drive
without force, both are told that it is theirs, and it is the second one's.

## Main definitions

* `Going`, `bootGoing`, `claimGoing`: What the first half decides.
* `Going.write`: The second half.
* `Step`: The halves of many runs on one drive.

## Theorems

* `boot_halves`, `claim_halves`: A run is its two halves.
* `bootGoing_allowed`, `claimGoing_allowed`: What may be decided.
* `Step.follows`: A step is one of the cell.
* `claims_race`: What holds in any order, and what in turn.
-/

namespace Zeroboot

open Volume

variable {V N : Type}

namespace Race

/-! ## The two halves of a run -/

/-- A claim that is going to be written: by which path, for whom, and whether
    it is forced. -/
structure Going where
  drive : String
  node : String
  forced : Bool

/-- What a boot is going to write to the drive it boots: its node, if nobody has
    claimed it. -/
def onBootGoing (os : Os V) (m : Machine) (drive : Option Drive) : Option Going :=
  match drive with
  | none => none
  | some d =>
      if (d.esp.bind Esp.claim).isSome then none
      else (identityOf os m).map fun me => { drive := d.path, node := me, forced := false }

/-- The same, having looked at the machine. -/
def bootGoing (F : Ops V N) (os : Os V) (m : Machine) : Option Going :=
  match survey F os m with
  | .error _ => none
  | .ok s =>
      match s.intent with
      | .alreadyMine drive _ _ => onBootGoing os m (s.drives.find? (fun d => d.path == drive))
      | _ => none

/-- What a `claim` is going to write, having looked at its drive. -/
def claimGoing (F : Ops V N) (os : Os V) (device : String) (node : Option String)
    (sysfs : String) (force : Bool) : Option Going :=
  (claimWrites F os device node sysfs force).map fun c =>
    { drive := device, node := c.node, forced := force }

/-- The second half of either, by its own clock. -/
def Going.write (F : Ops V N) (g : Going) (secs : Nat) (disk : Disk V) :
    Disk V × Except String Unit :=
  writeClaim F g.drive disk { node := g.node, claimed := nowRfc3339 secs }

section Halves

variable {F : Ops V N} {os : Os V} {m : Machine} {g : Going} {e : Esp}

theorem claimOnBoot_halves (F : Ops V N) (os : Os V) (m : Machine) (drive : Option Drive) :
    (onBootGoing os m drive = none ∧ claimOnBoot F os m drive = (os, none)) ∨
      ∃ g, onBootGoing os m drive = some g ∧ claimOnBoot F os m drive =
        (os.setDisk g.drive (g.write F os.secs (os.node g.drive).disk).1,
          some (g.write F os.secs (os.node g.drive).disk).2) := by
  unfold onBootGoing claimOnBoot
  rcases drive with _ | d
  · exact Or.inl ⟨rfl, rfl⟩
  · by_cases hclaimed : (d.esp.bind Esp.claim).isSome = true
    · simp only [if_pos hclaimed]
      exact Or.inl ⟨trivial, trivial⟩
    · simp only [if_neg hclaimed]
      rcases identityOf os m with _ | me
      · exact Or.inl ⟨rfl, rfl⟩
      · exact Or.inr ⟨_, rfl, rfl⟩

/-- A boot that nobody gets in the way of is its two halves. -/
theorem boot_halves (F : Ops V N) (os : Os V) (m : Machine) :
    (bootGoing F os m = none ∧ (boot F os m true).os = os ∧ (boot F os m true).claimed = none) ∨
      ∃ g, bootGoing F os m = some g ∧
        (boot F os m true).os =
          os.setDisk g.drive (g.write F os.secs (os.node g.drive).disk).1 ∧
        (boot F os m true).claimed = some (g.write F os.secs (os.node g.drive).disk).2 := by
  unfold bootGoing boot
  rcases survey F os m with err | s
  · exact Or.inl ⟨rfl, rfl, rfl⟩
  · rcases hi : s.intent with ⟨drive, slab, slabId⟩ | because | path | because
    · simp only [hi, if_true]
      rcases claimOnBoot_halves F os m (s.drives.find? (fun d => d.path == drive)) with
        ⟨hnone, hrun⟩ | ⟨g, hg, hrun⟩
      · rw [hrun]
        exact Or.inl ⟨hnone, rfl, rfl⟩
      · rw [hrun]
        exact Or.inr ⟨g, hg, rfl, rfl⟩
    all_goals
      simp only [hi]
      exact Or.inl ⟨trivial, rfl, rfl⟩

/-- And so is a `claim`. -/
theorem claim_halves (F : Ops V N) (os : Os V) (device : String) (node : Option String)
    (sysfs : String) (force : Bool) :
    (claimGoing F os device node sysfs force = none ∧
      (claim F os device node sysfs force).1 = os) ∨
      ∃ g, claimGoing F os device node sysfs force = some g ∧
        (claim F os device node sysfs force).1 =
          os.setDisk g.drive (g.write F os.secs (os.node g.drive).disk).1 ∧
        (claim F os device node sysfs force).2.map (fun _ => ()) =
          (g.write F os.secs (os.node g.drive).disk).2 := by
  unfold claimGoing
  rcases claim_cases F os device node sysfs force with ⟨hnone, hsame⟩ | ⟨c, hc, hrun⟩
  · rw [hnone]
    exact Or.inl ⟨rfl, hsame⟩
  · have hclock := (claimWrites_follows hc).1
    have hclaim : c = { node := c.node, claimed := nowRfc3339 os.secs } := by
      rw [← hclock]
    rw [hc, hrun]
    refine Or.inr ⟨_, rfl, ?_, ?_⟩
    · unfold Going.write
      rw [← hclaim]
    · unfold Going.write
      rw [← hclaim]
      cases (writeClaim F device (os.node device).disk c).2 with
      | error err => rfl
      | ok done => rfl

/-! ## What may be decided -/

/-- What may be written over what: anything over no claim, and over a claim a
    forced one of another node. -/
def rules : Cell.Rules (Option Claim) (String × Bool) Record where
  allows held d := ∀ c, held = some c → d.2 = true ∧ d.1 ≠ c.node
  decision r := (r.node, r.forced)
  put r := some r.claim

def Going.decision (g : Going) : String × Bool :=
  (g.node, g.forced)

/-- A boot decides on a drive without a claim. -/
theorem bootGoing_allowed (h : bootGoing F os m = some g)
    (hread : Esp.read F (os.node g.drive).disk = .ok (some e)) :
    rules.allows e.claim g.decision := by
  unfold bootGoing at h
  rcases hs : survey F os m with err | s
  · rw [hs] at h
    exact absurd h (by simp only [reduceCtorEq, not_false_eq_true])
  · rw [hs] at h
    rcases hi : s.intent with ⟨drive, slab, slabId⟩ | because | path | because
    all_goals simp only [hi, reduceCtorEq] at h
    rcases hd : s.drives.find? (fun d => d.path == drive) with _ | d
    · rw [hd] at h
      exact absurd h (by simp only [onBootGoing, reduceCtorEq, not_false_eq_true])
    · rw [hd] at h
      unfold onBootGoing at h
      simp only at h
      split_ifs at h with hclaimed
      rcases Option.map_eq_some_iff.mp h with ⟨me, _, rfl⟩
      -- The ESP that the survey found is the one that is read.
      rcases surveyed_of_mem hs (List.mem_of_find?_eq_some hd) with ⟨name, rfl⟩
      have hesp : (lookAt F os m (identityOf os m) name.text).esp = some e :=
        foundOf_of_read hread
      rw [hesp, Option.bind_some] at hclaimed
      intro c hc
      rw [hc] at hclaimed
      exact absurd rfl hclaimed

/-- A `claim` decides on one without, or is forced to take another node's. -/
theorem claimGoing_allowed {device : String} {node : Option String} {sysfs : String} {force : Bool}
    (h : claimGoing F os device node sysfs force = some g)
    (hread : Esp.read F (os.node g.drive).disk = .ok (some e)) :
    rules.allows e.claim g.decision := by
  rcases Option.map_eq_some_iff.mp h with ⟨c, hc, rfl⟩
  rcases (claimWrites_follows hc).2 with ⟨e', hread', hfollows⟩
  have hsame : e' = e := Option.some.inj (Except.ok.inj (hread'.symm.trans hread))
  rw [hsame] at hfollows
  exact hfollows

end Halves

/-! ## Many runs on one drive -/

/-- The disk of a drive, and what each process is going to write to it. -/
structure State (P V : Type) where
  disk : Disk V
  going : P → Option Going

/-- The first half of some boot or claim, whose machine sees this disk; the end
    of one that does not get to its second half; or the second half. -/
inductive Step {P : Type} [DecidableEq P] (F : Ops V N) :
    State P V → Cell.Event P Record → State P V → Prop where
  | reads (st : State P V) (p : P) (os : Os V) (g : Going)
      (decided : (∃ m, bootGoing F os m = some g) ∨
        ∃ device node sysfs force, claimGoing F os device node sysfs force = some g)
      (seen : (os.node g.drive).disk = st.disk) (idle : st.going p = none) :
      Step F st (.reads p) { st with going := Function.update st.going p (some g) }
  | drops (st : State P V) (p : P) :
      Step F st (.drops p) { st with going := Function.update st.going p none }
  | writes (st : State P V) (p : P) (g : Going) (secs : Nat) (going : st.going p = some g) :
      Step F st
        (.writes p { node := g.node, secs := secs, forced := g.forced
                     answer := (g.write F secs st.disk).2 })
        { disk := (g.write F secs st.disk).1, going := Function.update st.going p none }

/-- The disk reads back the claim that is in the cell, on the ESP it had. -/
structure Agree {P : Type} (F : Ops V N) (e : Esp) (st : State P V)
    (cell : Cell.State (Option Claim) (String × Bool) P) : Prop where
  reads : Reads F st.disk { e with claim := cell.value }
  going : ∀ p, cell.going p = (st.going p).map Going.decision

section Runs

variable {P : Type} [DecidableEq P] {F : Ops V N} {e : Esp} {st st' : State P V}
  {cell : Cell.State (Option Claim) (String × Bool) P} {event : Cell.Event P Record}
  {events : List (Cell.Event P Record)}

/-- What one process is going to do is changed on both sides. -/
theorem Agree.update (h : Agree F e st cell) (p : P) (g : Option Going) :
    ∀ q, Function.update cell.going p (g.map Going.decision) q =
      (Function.update st.going p g q).map Going.decision := by
  intro q
  by_cases hq : q = p
  · rw [hq, Function.update_self, Function.update_self]
  · rw [Function.update_of_ne hq, Function.update_of_ne hq]
    exact h.going q

/-- A step whose write goes through is a step of the cell. -/
theorem Step.follows (hF : F.Lawful) (hopens : F.OpensExisting) (h : Step F st event st')
    (hagree : Agree F e st cell)
    (hrecord : ∀ r, event.record = some r → NodeName r.node ∧ r.answer = .ok ()) :
    ∃ cell', Cell.Step rules cell event cell' ∧ Agree F e st' cell' := by
  cases h with
  | reads p os g decided seen idle =>
      have hidle : cell.going p = none := by
        rw [hagree.going, idle, Option.map_none]
      have hread : Esp.read F (os.node g.drive).disk =
          .ok (some { e with claim := cell.value }) := by
        rw [seen]
        exact hagree.reads.read
      have hallowed : rules.allows cell.value g.decision := by
        rcases decided with ⟨m, hboot⟩ | ⟨device, node, sysfs, force, hclaim⟩
        · exact bootGoing_allowed hboot hread
        · exact claimGoing_allowed hclaim hread
      exact ⟨_, .reads cell p g.decision hidle hallowed, hagree.reads, hagree.update p (some g)⟩
  | drops p => exact ⟨_, .drops cell p, hagree.reads, hagree.update p none⟩
  | writes p g secs going =>
      rcases hrecord _ rfl with ⟨hname, hanswer⟩
      have hgoing : cell.going p = some g.decision := by
        rw [hagree.going, going, Option.map_some]
      -- The write went through, so the claim reads back.
      have hwrite : g.write F secs st.disk = ((g.write F secs st.disk).1, .ok ()) :=
        Prod.ext rfl hanswer
      have hnext := hagree.reads.claim hF hopens hwrite
      have hparse := Record.parse_claim hname
      refine ⟨_, .writes cell p _ hgoing, ?_, hagree.update p none⟩
      exact (congrArg (fun c => Reads F _ { e with claim := c }) hparse).mp hnext

/-- A run of the atomic cell is one of the ledger. -/
theorem ledger_of_atomic {held held' : Option Claim} {acts : List (Option Record)}
    (h : Trace (Cell.Atomic rules) held acts held') : Trace Ledger held acts held' := by
  induction h with
  | done held => exact .done held
  | next first _ ih =>
      cases first with
      | idle => exact .next (.idle _) ih
      | enter allowed => exact .next (.enter allowed) ih

/-- In whatever order boots and claims look at a drive and write to it, its
    claim is the last one written and the rest of its ESP is as it was. A write
    with no other write between it and the look it was decided on follows the
    claim that it wrote over, and a run of such writes keeps the ledger. -/
theorem claims_race (hF : F.Lawful) (hopens : F.OpensExisting) (hreads : Reads F st.disk e)
    (hidle : ∀ p, st.going p = none) (hrun : Trace (Step F) st events st')
    (hrecords : ∀ p r, .writes p r ∈ events → NodeName r.node ∧ r.answer = .ok ()) :
    Esp.read F st'.disk =
        .ok (some { e with claim := Cell.after rules e.claim events }) ∧
      (∀ b1 p b2 r behind, events = b1 ++ .reads p :: (b2 ++ .writes p r :: behind) →
        Cell.Undisturbed p b2 → Follows (Cell.after rules e.claim b1) r) ∧
      (Cell.Serial events →
        Trace Ledger e.claim (events.map Cell.Event.record) (Cell.after rules e.claim events)) := by
  have hstart : Agree F e st { value := e.claim, going := fun _ => none } :=
    ⟨hreads, fun p => by rw [hidle p, Option.map_none]⟩
  have hgood : ∀ event ∈ events, ∀ r, event.record = some r →
      NodeName r.node ∧ r.answer = .ok () := by
    rintro (p | p | ⟨p, r⟩) hmem r' hr
    · exact absurd hr (by simp only [Cell.Event.record, reduceCtorEq, not_false_eq_true])
    · exact absurd hr (by simp only [Cell.Event.record, reduceCtorEq, not_false_eq_true])
    · rw [← Option.some.inj hr]
      exact hrecords p r hmem
  rcases hrun.simulates (fun hagree hq hstep => hstep.follows hF hopens hagree hq) hgood hstart with
    ⟨cell, hcell, hend⟩
  have hvalue := Cell.value_eq hcell
  refine ⟨?_, ?_, ?_⟩
  · rw [hend.reads.read, hvalue]
  · rintro b1 p b2 r behind rfl hquiet
    exact Cell.allowed_of_undisturbed hcell hquiet
  · intro hserial
    rw [← hvalue]
    exact ledger_of_atomic (Cell.serial (fun _ => rfl) hcell hserial)

end Runs

/-! ## A race that is lost -/

/-- The claim that comes second. -/
def secondClaim : Record where
  node := "r640"
  secs := 0
  forced := false
  answer := .ok ()

/-- A drive nobody has claimed, before anything happens to it. -/
def unclaimedStart : State Bool Memory where
  disk := unclaimedDisk.disk
  going _ := none

/-- Two nodes look at it, and then both write. -/
def lostRace : List (Cell.Event Bool Record) :=
  [.reads true, .reads false, .writes true firstClaim, .writes false secondClaim]

/-- What a node that looked at the drive is going to write. -/
def goingFor (node : String) : Going where
  drive := "/dev/sda"
  node := node
  forced := false

theorem claimGoing_unclaimed (node : String) :
    claimGoing memory unclaimedDisk.os "/dev/sda" (some node) "/sys" false =
      some (goingFor node) := by
  have hnone : (Esp.ofVolume memory unclaimedVolume).claim = none := congrArg Esp.claim own_esp
  have hread : Esp.read memory (unclaimedDisk.os.node "/dev/sda").disk =
      .ok (some (Esp.ofVolume memory unclaimedVolume)) := unclaimedDisk_reads.read
  unfold claimGoing
  rw [claimWrites_iff.mpr ⟨node, _, rfl, hread, hnone, rfl⟩]
  rfl

theorem Step.looks {st : State Bool Memory} {p : Bool} (node : String)
    (hdisk : st.disk = unclaimedDisk.disk) (hidle : st.going p = none) :
    Step memory st (.reads p)
      { st with going := Function.update st.going p (some (goingFor node)) } := by
  refine .reads st p unclaimedDisk.os _ (Or.inr ⟨_, _, _, _, claimGoing_unclaimed node⟩) ?_ hidle
  rw [hdisk]
  rfl

theorem Step.succeeds {st : State Bool Memory} {p : Bool} {node : String}
    (hgoing : st.going p = some (goingFor node))
    (hanswer : ((goingFor node).write memory 0 st.disk).2 = .ok ()) :
    Step memory st
      (.writes p { node := node, secs := 0, forced := false, answer := .ok () })
      { disk := ((goingFor node).write memory 0 st.disk).1
        going := Function.update st.going p none } := by
  have hstep := Step.writes (F := memory) st p (goingFor node) 0 hgoing
  rw [hanswer] at hstep
  exact hstep

theorem lostRace_runs : ∃ st', Trace (Step memory) unclaimedStart lostRace st' := by
  have hread : Esp.read memory unclaimedStart.disk =
      .ok (some (Esp.ofVolume memory unclaimedVolume)) := unclaimedDisk_reads.read
  -- The second write finds the disk that the first one left.
  have hfirst : ((goingFor "r230").write memory 0 unclaimedStart.disk).2 = .ok () :=
    (writeClaim_memory hread rfl _ _).1
  have hopen : ((goingFor "r230").write memory 0 unclaimedStart.disk).1.openWrite = .ok () :=
    (writeClaim_memory hread rfl _ _).2
  have hagain := (unclaimedDisk_reads.claim memory_lawful memory_opensExisting
    (Prod.ext rfl hfirst)).read
  have hsecond : ((goingFor "r640").write memory 0
      ((goingFor "r230").write memory 0 unclaimedStart.disk).1).2 = .ok () :=
    (writeClaim_memory hagain hopen _ _).1
  exact ⟨_, .next (.looks "r230" rfl rfl) (.next (.looks "r640" rfl rfl)
    (.next (.succeeds rfl hfirst) (.single (.succeeds rfl hsecond))))⟩

/-- Both are told that the drive is theirs, neither was forced, and the first
    one has lost its claim. -/
theorem claims_race_lost : ∃ st', Trace (Step memory) unclaimedStart lostRace st' ∧
    Esp.read memory st'.disk = .ok (some { Esp.ofVolume memory unclaimedVolume with
      claim := some secondClaim.claim }) ∧
    ¬ Follows (some firstClaim.claim) secondClaim := by
  rcases lostRace_runs with ⟨st', hrun⟩
  refine ⟨st', hrun, ?_, fun h => absurd (h _ rfl).1 Bool.false_ne_true⟩
  have hrecords : ∀ p r, .writes p r ∈ lostRace → NodeName r.node ∧ r.answer = .ok () := by
    intro p r hmem
    simp only [lostRace, List.mem_cons, reduceCtorEq, Cell.Event.writes.injEq, List.not_mem_nil,
      or_false, false_or] at hmem
    rcases hmem with ⟨_, rfl⟩ | ⟨_, rfl⟩
    · exact ⟨⟨by decide, by decide, by decide⟩, rfl⟩
    · exact ⟨⟨by decide, by decide, by decide⟩, rfl⟩
  exact (claims_race memory_lawful memory_opensExisting unclaimedDisk_reads (fun _ => rfl) hrun
    hrecords).1

end Race

end Zeroboot
