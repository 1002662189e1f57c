import Zeroboot.Lib.Trace
import Zeroboot.Theory.Blank
import Zeroboot.Theory.Lifetime
import Zeroboot.Theory.Neighbours

/-!
# The Flow-Over

A node without a drive boots from the appliance, and names a blank drive while
it does. Another program lays a slab on that drive, and from then on the node
boots from it. The two never talk to each other: what goes from the one to the
other is the name of a drive on stdout, and what comes back is a slab that a
later boot finds.

`Step` is everything that can happen then, in any order and any number of
times: boots, slabs laid on the drive that was named last, and drives that come
and go without being this node's or blank. `Course` is what it should look
like from outside. It knows the path of a drive and the first slab on it, and
no machine, no survey and no sysfs. `flow_over` is that every run of the one is
a run of the other: one drive is ever offered, it is offered until there is a
slab on it, nothing is offered after that, and the node boots from it exactly
if the first slab is the system's.

However many slabs are laid, at once or one after the other, it is the first in
the order of the probes that counts. A system slab behind a data slab starts
nothing.

The drives this is about are laid out without an ESP, so no claim is ever
written to them, and the boots leave them as they are.

## Main definitions

* `Laid`: A machine after slabs were laid on one of its drives.
* `Hotplug`: Drives that come or go and that nobody is waiting for.
* `Step`: A step of the machine and of what is around it.
* `Course`: The same as it is seen from outside.

## Theorems

* `Offers.boot`, `Settled.boot`: What a boot does before and after.
* `settled_of_laid`: A slab on the drive settles it.
* `Hotplug.offers`, `Hotplug.settled`: Other drives have no say in it.
* `Step.course`: A step is a step of the course.
* `flow_over`: A run is a run of the course.
-/

namespace Zeroboot

variable {V N : Type} {F : Volume.Ops V N} {os os' : Os V} {m : Machine} {s : Survey} {d : Drive}
  {path : String}

/-- The drive a boot offers, if any. -/
def Outcome.offer : Outcome → String
  | .askAppliance _ takeable => takeable
  | .bootLocal _ _ _ _ => ""
  | .error _ => ""

namespace FlowOver

/-! ## The course of it -/

/-- A slab as stormblock names it, and the device it is on. -/
structure Slab where
  dev : String
  id : String
  role : String

/-- What happens to a node: it boots and that ends in some way, slabs are laid
    on a drive and then this is the first one there, or the other drives of the
    machine change. -/
inductive Event where
  | boot (outcome : Outcome)
  | lay (drive : String) (first : Slab)
  | hotplug

/-- The course of a flow-over onto a drive, with the first slab that is on it. -/
inductive Course (path : String) : Option Slab → Event → Option Slab → Prop where
  | ask : Course path none
      (.boot (.askAppliance ("nothing of ours here yet; " ++ path ++ " is free") path)) none
  | lay (held : Option Slab) (slab : Slab) : Course path held (.lay path slab) (some slab)
  | start (slab : Slab) (system : slab.role = "system") :
      Course path (some slab) (.boot (.bootLocal path slab.dev slab.id "")) (some slab)
  | wait (slab : Slab) (reason : String) (other : slab.role ≠ "system") :
      Course path (some slab) (.boot (.askAppliance reason "")) (some slab)
  | hotplug (held : Option Slab) : Course path held .hotplug held

section Course

variable {held held' : Option Slab} {events : List Event}

/-- Slabs are laid on the one drive only, and no other drive is offered. -/
theorem Course.one_drive (h : Trace (Course path) held events held') :
    (∀ drive slab, Event.lay drive slab ∈ events → drive = path) ∧
      ∀ o, Event.boot o ∈ events → o.offer = path ∨ o.offer = "" := by
  have hall := (h.keeps (P := fun _ => True) (Q := fun e => match e with
    | .lay drive _ => drive = path
    | .boot o => o.offer = path ∨ o.offer = ""
    | .hotplug => True) ?_ trivial).1
  · exact ⟨fun drive slab hmem => hall _ hmem, fun o hmem => hall _ hmem⟩
  · intro held held' e _ hstep
    refine ⟨?_, trivial⟩
    cases hstep with
    | ask => exact Or.inl rfl
    | lay => rfl
    | start => exact Or.inr rfl
    | wait => exact Or.inr rfl
    | hotplug => trivial

/-- With a slab on the drive nothing is offered any more. -/
theorem Course.no_offer {slab : Slab} (h : Trace (Course path) (some slab) events held') :
    ∀ o, Event.boot o ∈ events → o.offer = "" := by
  have hall := (h.keeps (P := fun held => held.isSome = true) (Q := fun e => match e with
    | .boot o => o.offer = ""
    | _ => True) ?_ rfl).1
  · exact fun o hmem => hall _ hmem
  · intro held held' e hheld hstep
    cases hstep with
    | ask => exact absurd hheld (by decide)
    | lay => exact ⟨trivial, rfl⟩
    | start => exact ⟨rfl, rfl⟩
    | wait => exact ⟨rfl, rfl⟩
    | hotplug => exact ⟨trivial, hheld⟩

/-- Nothing is offered once a slab was laid. -/
theorem Course.no_offer_after {before behind : List Event} {drive : String} {slab : Slab}
    (h : Trace (Course path) held (before ++ .lay drive slab :: behind) held') :
    ∀ o, Event.boot o ∈ behind → o.offer = "" := by
  rcases h.split with ⟨mid, _, hrest⟩
  rcases hrest.uncons with ⟨_, first, hbehind⟩
  cases first with
  | lay => exact no_offer hbehind

end Course

/-! ## The machine and what is around it -/

/-- A machine after slabs were laid on one of its drives: the drive is listed as
    before, and has what sysfs says about it as before, but the first slab on it
    is this one, from now or from before, and it has no ESP. The other drives
    are as they were. -/
structure Laid (F : Volume.Ops V N) (os os' : Os V) (m : Machine) (name : FileName)
    (slab : Slab) : Prop where
  block : SameListing (os.readDir (pathJoin m.sysfs "block"))
    (os'.readDir (pathJoin m.sysfs "block"))
  others : ∀ entries, os.readDir (pathJoin m.sysfs "block") = .ok entries →
    ∀ e ∈ entries.reduceOption, e.text ≠ name.text → SameDrive os os' m e.text
  identity : identityOf os' m = identityOf os m
  files : ∀ file, os'.readToString (pathJoin (sysOf m name.text) file) =
    os.readToString (pathJoin (sysOf m name.text) file)
  link : os'.readLink (sysOf m name.text) = os.readLink (sysOf m name.text)
  first : FirstSlab os' m (sysOf m name.text) name.text (pathJoin m.dev name.text) slab.dev
    slab.id slab.role
  noEsp : Esp.read F (os'.node (pathJoin m.dev name.text)).disk = .ok none

/-- Drives come into a machine or leave it, and none of them is this node's or
    blank. -/
inductive Hotplug (F : Volume.Ops V N) (os os' : Os V) (m : Machine) : Prop where
  | come (extra : List FileName) (plugged : Plugged os os' m extra)
      (idle : ∀ e ∈ extra, (lookAt F os' m (identityOf os' m) e.text).counts = false)
  | go (extra : List FileName) (plugged : Plugged os' os m extra)
      (idle : ∀ e ∈ extra, (lookAt F os m (identityOf os m) e.text).counts = false)

/-- A machine, and the drive its last boot named to whoever lays slabs. -/
structure State (V : Type) where
  os : Os V
  offer : String

/-- What can happen: a boot, slabs laid on the drive that was named, and other
    drives. -/
inductive Step (F : Volume.Ops V N) (m : Machine) : State V → Event → State V → Prop where
  | boot (st : State V) (claimIt : Bool) :
      Step F m st (.boot (Zeroboot.boot F st.os m claimIt).outcome)
        { os := (Zeroboot.boot F st.os m claimIt).os
          offer := (Zeroboot.boot F st.os m claimIt).outcome.offer }
  | lay (st : State V) (os' : Os V) (name : FileName) (slab : Slab)
      (named : st.offer = pathJoin m.dev name.text) (laid : Laid F st.os os' m name slab) :
      Step F m st (.lay st.offer slab) { st with os := os' }
  | hotplug (st : State V) (os' : Os V) (plug : Hotplug F st.os os' m) :
      Step F m st .hotplug { st with os := os' }

/-! ## Before and after -/

/-- The drive is what the survey would take. -/
def Offers (F : Volume.Ops V N) (os : Os V) (m : Machine) (path : String) : Prop :=
  ∃ s, survey F os m = .ok s ∧ s.intent = .takeOver path

/-- The drive carries this slab before any other and has no ESP, and no other
    drive is this node's. -/
def Settled (F : Volume.Ops V N) (os : Os V) (m : Machine) (path : String) (slab : Slab) : Prop :=
  ∃ s d, survey F os m = .ok s ∧ d ∈ s.drives ∧ d.path = path ∧
    d.verdict = .mine slab.id slab.role slab.dev ∧
    Esp.read F (os.node path).disk = .ok none ∧
    ∀ d' ∈ s.drives, d'.verdict.isMine = true → d' = d

/-- A boot offers the drive, and leaves everything as it is. -/
theorem Offers.boot (h : Offers F os m path) (claimIt : Bool) :
    Zeroboot.boot F os m claimIt =
      ask os ("nothing of ours here yet; " ++ path ++ " is free") path := by
  rcases h with ⟨s, hs, hi⟩
  unfold Zeroboot.boot
  simp only [hs, hi]

/-- There is nowhere to put a claim on a drive without an ESP. -/
theorem claimOnBoot_noEsp (h : Esp.read F (os.node d.path).disk = .ok none) :
    (claimOnBoot F os m (some d)).1 = os := by
  -- With an extent, reading it finds an ESP or fails.
  have hextent : espExtent (os.node d.path).disk = none := by
    unfold Esp.read at h
    split at h
    · assumption
    · split at h
      · exact absurd h (by simp only [reduceCtorEq, not_false_eq_true])
      · split at h
        · exact absurd h (by simp only [reduceCtorEq, not_false_eq_true])
        · exact absurd (Except.ok.inj h) (by simp only [reduceCtorEq, not_false_eq_true])
  rcases claimOnBoot_cases F os m d with hsame | ⟨me, _, _, hwrite⟩
  · rw [hsame]
  · rw [hwrite]
    unfold writeClaim
    rw [hextent]
    exact setDisk_disk os d.path

/-- Without an ESP the drive is booted exactly on the role of its slab, and a
    node that owns it is offered no other. -/
theorem Settled.boot {slab : Slab} (h : Settled F os m path slab) (claimIt : Bool) :
    (Zeroboot.boot F os m claimIt).os = os ∧ Course path (some slab)
      (.boot (Zeroboot.boot F os m claimIt).outcome) (some slab) := by
  rcases h with ⟨s, d, hs, hd, rfl, hv, hesp, honly⟩
  -- So there is no entry to go by, and the role decides.
  have hnone : d.esp = none := by
    rcases surveyed_of_mem hs hd with ⟨name, rfl⟩
    exact foundOf_of_read hesp
  have hboots : d.boots = true ↔ slab.role = "system" := by
    unfold Drive.boots
    rw [hnone, hv]
    simp only [Verdict.slabRole, beq_iff_eq, Option.some.injEq]
  by_cases hsystem : slab.role = "system"
  · have hi := intent_of_only hd hv (hboots.mpr hsystem) honly
    rw [boot_alreadyMine hs hi hd rfl]
    constructor
    · rcases claimIt with _ | _
      · rfl
      · exact claimOnBoot_noEsp hesp
    · have hvolume : volumeOf (some d) = "" := by
        unfold volumeOf
        rw [Option.bind_some, hnone]
        rfl
      rw [hvolume]
      exact .start slab hsystem
  · -- The one drive of this node does not boot.
    have hmine : d ∈ s.mine := mem_mine.mpr ⟨hd, (isMine_iff _).mpr ⟨_, _, _, hv⟩⟩
    rcases intent_cases s with ⟨d', slabId, role, dev, hd', hv', hb', _⟩ | ⟨_, _, because, hi⟩ |
      ⟨hempty, _⟩ | ⟨hempty, _⟩
    · have hsame := honly d' hd' ((isMine_iff _).mpr ⟨slabId, role, dev, hv'⟩)
      rw [hsame] at hb'
      exact absurd (hboots.mp hb') hsystem
    · have hboot : Zeroboot.boot F os m claimIt = Zeroboot.ask os (Text.join "; " because) "" := by
        unfold Zeroboot.boot
        simp only [hs, hi]
      rw [hboot]
      exact ⟨rfl, .wait slab _ hsystem⟩
    all_goals exact absurd hmine (hempty ▸ List.not_mem_nil)

/-! ## A slab is laid -/

/-- A drive that is this node's or blank is a fixed and local one. -/
theorem admitted_of_counts {me : Option String} {name : String}
    (h : (lookAt F os m me name).counts = true) :
    Admitted os (sysOf m name) (sizeBytesOf os (sysOf m name)) (removableOf os (sysOf m name)) := by
  unfold Drive.counts at h
  rw [Bool.or_eq_true] at h
  rcases h with hmine | hfree
  · rcases (isMine_iff _).mp hmine with ⟨_, _, _, hv⟩
    exact ((lookAt_eq_mine_iff F me).mp hv).1
  · have hv := (isAvailable_iff _).mp hfree
    rw [lookAt_verdict] at hv
    exact (judge_eq_blank_iff.mp hv).1.admitted

/-- The drives of a survey are entries of the directory that was listed. -/
theorem entry_of_mem (hs : survey F os m = .ok s) (hd : d ∈ s.drives) :
    ∃ entries, os.readDir (pathJoin m.sysfs "block") = .ok entries ∧
      ∃ e ∈ entries.reduceOption, d = lookAt F os m (identityOf os m) e.text := by
  rcases mem_survey_iff.mp ⟨s, hs, hd⟩ with ⟨entries, n, hentries, hn, rfl⟩
  rcases entry_of_name hn with ⟨e, he, rfl⟩
  exact ⟨entries, hentries, e, he, rfl⟩

/-- Two drives of the same path have the same name. -/
theorem text_of_path {e name : FileName}
    (h : pathJoin m.dev e.text = pathJoin m.dev name.text) : e.text = name.text := by
  have hfile := congrArg fileName h
  rwa [fileName_pathJoin, fileName_pathJoin, Option.some_inj] at hfile

theorem driveNames_perm {entries entries' : List (Option FileName)} (h : entries'.Perm entries) :
    driveNames m entries' = driveNames m entries := by
  unfold driveNames
  exact congrArg (List.filter m.wants)
    (insertionSort_perm (((h.filterMap id).map FileName.text).filter _))

/-- The survey after a slab was laid has one entry replaced. -/
theorem survey_laid {name : FileName} {slab : Slab} (hs : survey F os m = .ok s)
    (h : Laid F os os' m name slab) :
    survey F os' m = .ok { drives := s.drives.map (fun d =>
      if d.path = pathJoin m.dev name.text then lookAt F os' m (identityOf os' m) name.text
      else d) } := by
  rcases h.block with ⟨e, ha, _⟩ | ⟨entries, entries', ha, hb, hperm⟩
  · unfold survey at hs
    rw [ha] at hs
    exact absurd hs (by simp only [reduceCtorEq, not_false_eq_true])
  · -- The names are the same, and the entry of every other drive is.
    unfold survey at hs ⊢
    rw [ha] at hs
    rw [hb, ← Except.ok.inj hs]
    simp only [driveNames_perm hperm, List.map_map]
    refine congrArg (fun ds => Except.ok (Survey.mk ds)) (List.map_congr_left fun n hn => ?_)
    rcases entry_of_name hn with ⟨e, he, rfl⟩
    show _ = if pathJoin m.dev e.text = pathJoin m.dev name.text then _ else _
    by_cases hname : e.text = name.text
    · rw [if_pos (by rw [hname]), hname]
    · rw [if_neg fun hpath => hname (text_of_path hpath), h.identity]
      exact lookAt_same (h.others entries ha e he hname)

/-- A slab on a drive that is this node's or blank makes it this node's, and if
    no other drive was this node's then none is. -/
theorem settled_of_laid {name : FileName} {slab : Slab} (hs : survey F os m = .ok s)
    (hd : d ∈ s.drives) (hpath : d.path = pathJoin m.dev name.text) (hcounts : d.counts = true)
    (honly : ∀ d' ∈ s.drives, d'.verdict.isMine = true → d'.path = pathJoin m.dev name.text)
    (h : Laid F os os' m name slab) : Settled F os' m (pathJoin m.dev name.text) slab := by
  have hs' := survey_laid hs h
  have hadmitted : Admitted os' (sysOf m name.text) (sizeBytesOf os' (sysOf m name.text))
      (removableOf os' (sysOf m name.text)) := by
    rcases surveyed_of_mem hs hd with ⟨name', rfl⟩
    have hadm := admitted_of_counts hcounts
    rw [text_of_path hpath] at hadm
    -- What sysfs says of the drive is what it said.
    unfold sizeBytesOf removableOf readU64 readTrimmed at hadm ⊢
    refine ⟨?_, ?_, ?_⟩
    · rw [h.files]
      exact hadm.size
    · rw [h.files]
      exact hadm.fixed
    · have hlocal := hadm.localOnly
      unfold remoteTransport readTrimmed at hlocal ⊢
      rw [h.files, h.link]
      exact hlocal
  have hun : Unclaimed (identityOf os' m) (foundOf F os' (pathJoin m.dev name.text)) :=
    unclaimed_of_none (foundOf_of_read h.noEsp)
  refine ⟨_, lookAt F os' m (identityOf os' m) name.text, hs', ?_, rfl,
    (lookAt_eq_mine_iff F _).mpr ⟨hadmitted, hun, h.first⟩, h.noEsp, ?_⟩
  · exact List.mem_map.mpr ⟨d, hd, if_pos hpath⟩
  · intro d' hd' hmine
    rcases List.mem_map.mp hd' with ⟨d0, hd0, heq⟩
    by_cases hp : d0.path = pathJoin m.dev name.text
    · rw [if_pos hp] at heq
      exact heq.symm
    · -- An entry that was kept is not this node's.
      rw [if_neg hp] at heq
      rw [← heq] at hmine
      exact absurd (honly d0 hd0 hmine) hp

/-! ## Other drives come and go -/

/-- The drives of a machine keep their disks when others come. -/
theorem disk_plugged {extra : List FileName} (h : Plugged os os' m extra)
    (hs : survey F os m = .ok s) (hd : d ∈ s.drives) :
    (os'.node d.path).disk = (os.node d.path).disk := by
  rcases entry_of_mem hs hd with ⟨entries, hentries, e, he, rfl⟩
  exact (h.same entries hentries e he).disk

/-- The drives that count are the same, and their disks are. -/
theorem Hotplug.survey (h : Hotplug F os os' m) (hs : survey F os m = .ok s) :
    ∃ s', Zeroboot.survey F os' m = .ok s' ∧
      s'.drives.filter Drive.counts = s.drives.filter Drive.counts ∧
      ∀ d ∈ s.drives, d.counts = true → (os'.node d.path).disk = (os.node d.path).disk := by
  cases h with
  | come extra plugged idle =>
      rcases survey_plugged plugged hs with ⟨s', hs', _, hfilter⟩
      exact ⟨s', hs', hfilter _ idle, fun d hd _ => disk_plugged plugged hs hd⟩
  | go extra plugged idle =>
      -- There is a survey without them.
      have hlisted : ∃ s', Zeroboot.survey F os' m = .ok s' := by
        unfold Zeroboot.survey
        rcases hr : os'.readDir (pathJoin m.sysfs "block") with e | entries
        · rcases plugged.block with ⟨e', _, hb⟩ | ⟨l, l', ha, _, _⟩
          · unfold Zeroboot.survey at hs
            rw [hb] at hs
            exact absurd hs (by simp only [reduceCtorEq, not_false_eq_true])
          · rw [hr] at ha
            exact absurd ha (by simp only [Except.map, reduceCtorEq, not_false_eq_true])
        · exact ⟨_, rfl⟩
      rcases hlisted with ⟨s', hs'⟩
      rcases survey_plugged plugged hs' with ⟨s0, hs0, _, hfilter⟩
      rw [hs] at hs0
      rw [← Except.ok.inj hs0] at hfilter
      have hcounts := hfilter _ idle
      refine ⟨s', hs', hcounts.symm, fun d hd hc => ?_⟩
      exact (disk_plugged plugged hs' ((mem_iff_of_counts hcounts hc).mp hd)).symm

theorem Hotplug.offers (h : Hotplug F os os' m) (ho : Offers F os m path) :
    Offers F os' m path := by
  rcases ho with ⟨⟨ds⟩, hs, hi⟩
  rcases h.survey hs with ⟨⟨ds'⟩, hs', hfilter, _⟩
  refine ⟨⟨ds'⟩, hs', intent_eq_iff.mpr ?_⟩
  rw [← hi]
  refine CallsFor.of_counts hfilter (callsFor_intent ds) ?_
  rw [hi]
  simp only [Intent.answer, ne_eq, reduceCtorEq, not_false_eq_true]

theorem Hotplug.settled {slab : Slab} (h : Hotplug F os os' m) (hset : Settled F os m path slab) :
    Settled F os' m path slab := by
  rcases hset with ⟨s, d, hs, hd, rfl, hv, hesp, honly⟩
  rcases h.survey hs with ⟨s', hs', hfilter, hdisk⟩
  have hcounts : d.counts = true := mine_counts ((isMine_iff _).mpr ⟨_, _, _, hv⟩)
  refine ⟨s', d, hs', (mem_iff_of_counts hfilter hcounts).mpr hd, rfl, hv, ?_, ?_⟩
  · rw [hdisk d hd hcounts]
    exact hesp
  · intro d' hd' hmine
    exact honly d' ((mem_iff_of_counts hfilter (mine_counts hmine)).mp hd') hmine

/-! ## Runs -/

/-- What the machine and the course agree on: the drive is blank or has its
    slab, and it is the only one that was ever named. -/
def Agree (F : Volume.Ops V N) (m : Machine) (path : String) (st : State V) (held : Option Slab) :
    Prop :=
  (st.offer = path ∨ st.offer = "") ∧
    match held with
    | none => Offers F st.os m path
    | some slab => Settled F st.os m path slab

theorem Step.course {st st' : State V} {e : Event} {held : Option Slab}
    (h : Step F m st e st') (hagree : Agree F m path st held) :
    ∃ held', Course path held e held' ∧ Agree F m path st' held' := by
  rcases hagree with ⟨hoffer, hheld⟩
  -- One case for each kind of step, before there is a slab and after.
  cases h with
  | boot claimIt =>
      cases held with
      | none =>
          rw [Offers.boot hheld claimIt]
          exact ⟨none, .ask, Or.inl rfl, hheld⟩
      | some slab =>
          rcases Settled.boot hheld claimIt with ⟨hos, hcourse⟩
          refine ⟨some slab, hcourse, ?_, ?_⟩
          · -- What a settled drive ends a boot with offers nothing.
            exact Or.inr (Course.no_offer (.single hcourse) _ List.mem_cons_self)
          · show Settled F (Zeroboot.boot F st.os m claimIt).os m path slab
            rw [hos]
            exact hheld
  | lay os' name slab named laid =>
      rcases hoffer with hpath | hnothing
      · have hname : path = pathJoin m.dev name.text := hpath.symm.trans named
        refine ⟨some slab, by rw [hpath]; exact .lay held slab, Or.inl hpath, ?_⟩
        show Settled F os' m path slab
        rw [hname]
        cases held with
        | none =>
            rcases hheld with ⟨s, hs, hi⟩
            rcases takeOver_drive hi with ⟨hmine, d, hd, hblank, hd'⟩
            refine settled_of_laid hs hd (hd'.trans hname)
              (available_counts ((isAvailable_iff _).mpr hblank)) ?_ laid
            intro d' hd' hm
            rw [mine_eq_nil_iff.mp hmine d' hd'] at hm
            exact absurd hm Bool.false_ne_true
        | some old =>
            rcases hheld with ⟨s, d, hs, hd, hd', hv, _, honly⟩
            refine settled_of_laid hs hd (hd'.trans hname)
              (mine_counts ((isMine_iff _).mpr ⟨_, _, _, hv⟩)) ?_ laid
            intro d' hmem hm
            rw [honly d' hmem hm]
            exact hd'.trans hname
      · -- Nothing was named, so nothing is laid.
        rw [hnothing] at named
        have hlooked : Surveyed F os' m (lookAt F os' m (identityOf os' m) name.text) := ⟨name, rfl⟩
        exact absurd named.symm hlooked.path_ne
  | hotplug os' plug =>
      refine ⟨held, .hotplug held, hoffer, ?_⟩
      cases held with
      | none => exact plug.offers hheld
      | some slab => exact plug.settled hheld

/-- A boot writes nothing, whether there is a slab or not. -/
theorem Agree.boot_os {st : State V} {held : Option Slab} (h : Agree F m path st held)
    (claimIt : Bool) : (Zeroboot.boot F st.os m claimIt).os = st.os := by
  rcases h with ⟨_, hheld⟩
  cases held with
  | none => rw [Offers.boot hheld claimIt, ask]
  | some slab => exact (Settled.boot hheld claimIt).1

/-- From a machine that offers a drive, whatever order boots, slabs and other
    drives come in: slabs are laid on that drive only, it is what is offered
    until then and nothing is afterwards, it is booted exactly on the role of
    the first slab there since the last laying, and no boot writes to
    anything. -/
theorem flow_over (hs : survey F os m = .ok s) (hi : s.intent = .takeOver path)
    {events : List Event} {st : State V}
    (hrun : Trace (Step F m) { os := os, offer := "" } events st) :
    (∃ held, Trace (Course path) none events held) ∧
      (∀ drive slab, Event.lay drive slab ∈ events → drive = path) ∧
      (∀ o, Event.boot o ∈ events → o.offer = path ∨ o.offer = "") ∧
      (∀ before behind drive slab, events = before ++ .lay drive slab :: behind →
        ∀ o, Event.boot o ∈ behind → o.offer = "") ∧
      ∀ claimIt, (Zeroboot.boot F st.os m claimIt).os = st.os := by
  have hstart : Agree F m path { os := os, offer := "" } none := ⟨Or.inr rfl, s, hs, hi⟩
  rcases hrun.simulates (Q := fun _ => True) (fun hagree _ hstep => hstep.course hagree)
    (fun _ _ => trivial) hstart with ⟨held, hcourse, hend⟩
  rcases Course.one_drive hcourse with ⟨hlay, hoffer⟩
  refine ⟨⟨held, hcourse⟩, hlay, hoffer, ?_, hend.boot_os⟩
  rintro before behind drive slab rfl
  exact Course.no_offer_after hcourse

/-- The machine of a bench with one drive of zeros offers it. -/
theorem zeroDrive_offers : ∃ s, survey Volume.memory zeroDrive.os (Bench.machine none) = .ok s ∧
    s.intent = .takeOver "/dev/sda" := by
  have hr := Bench.slabbed_readsAs (V := Volume.Memory) [] Bench.bare fun _ => none
  have hadm := Bench.admitted zeroDrive none
  have hblank : (lookAt Volume.memory zeroDrive.os (Bench.machine none) none "sda").verdict =
      .blank := by
    rw [lookAt_verdict, Bench.path_sda]
    rw [Bench.sysOf_sda] at hadm ⊢
    exact (judge_eq_blank_iff_zero hr _ _ _ _ _ _ _ _).mpr ⟨hadm.size, hadm.fixed, zeroDrive_zero⟩
  refine ⟨_, Bench.survey_eq Volume.memory zeroDrive none, intent_eq_iff.mpr ⟨?_, ?_⟩⟩
  · intro d hd
    rw [List.mem_singleton.mp hd, hblank]
    rfl
  · refine ⟨_, [], [], ?_, ?_, ?_, Bench.lookAt_path Volume.memory zeroDrive none none⟩
    · rw [List.nil_append]
      exact List.filter_eq_self.mpr fun d hd => by rw [List.mem_singleton.mp hd, hblank]; rfl
    all_goals exact fun b hb => absurd hb List.not_mem_nil

/-- The slab that is laid on it. -/
def systemSlab : Slab where
  dev := "/dev/sda2"
  id := Bench.systemId
  role := "system"

theorem zeroDrive_laid : Laid Volume.memory zeroDrive.os
    (Bench.slabbed [Bench.sda1, Bench.sda2] Bench.bare Bench.systemSecond).os (Bench.machine none)
    Bench.sda systemSlab where
  block := Or.inr ⟨_, _, Bench.readDir_block _ _, Bench.readDir_block _ _, List.Perm.refl _⟩
  others entries hentries e he hne := by
    rw [Bench.readDir_block] at hentries
    rw [← Except.ok.inj hentries] at he
    rw [List.mem_singleton.mp he] at hne
    exact absurd rfl hne
  identity := rfl
  files _ := rfl
  link := rfl
  first := systemSecond_firstSlab Bench.bare none
  noEsp := rfl

/-- A boot offers the drive of zeros, a slab is laid on its second partition,
    and the next boot starts from there. -/
theorem flow_over_sda : ∃ o o' st,
    Trace (Step Volume.memory (Bench.machine none)) { os := zeroDrive.os, offer := "" }
        [.boot o, .lay "/dev/sda" systemSlab, .boot o'] st ∧
      o.offer = "/dev/sda" ∧ o' = .bootLocal "/dev/sda" "/dev/sda2" Bench.systemId "" ∧
      ∃ held, Trace (Course "/dev/sda") none [.boot o, .lay "/dev/sda" systemSlab, .boot o']
        held := by
  rcases zeroDrive_offers with ⟨s, hs, hi⟩
  have hask := Offers.boot ⟨s, hs, hi⟩ true
  have hfirst := Step.boot (F := Volume.memory) (m := Bench.machine none)
    { os := zeroDrive.os, offer := "" } true
  simp only [hask] at hfirst
  have hlay := Step.lay (F := Volume.memory) (m := Bench.machine none)
    { os := zeroDrive.os, offer := "/dev/sda" } _ Bench.sda systemSlab
    (Bench.path_sda none).symm zeroDrive_laid
  have hsecond := Step.boot (F := Volume.memory) (m := Bench.machine none)
    { os := (Bench.slabbed [Bench.sda1, Bench.sda2] Bench.bare Bench.systemSecond).os
      offer := "/dev/sda" } false
  have hrun := Trace.next hfirst (.next hlay (.single hsecond))
  rcases flow_over hs hi hrun with ⟨⟨held, hcourse⟩, _⟩
  exact ⟨_, _, _, hrun, rfl, systemSecond_boots none, held, hcourse⟩

end FlowOver

end Zeroboot
