import Zeroboot.Lib.Sorting
import Zeroboot.Theory.Intent
import Zeroboot.Theory.Inventory
import Zeroboot.Theory.Ownership

/-!
# A Drive and Its Neighbours

What is said of a drive depends on that drive alone.

A survey lists directories, and a directory is listed in no order. It looks at
every drive there is, and there may be more of them the next time. None of that
touches what it says of a drive: `lookAt_same` holds a drive of one machine
against the same drive of another, which may list its directories in another
order and have all sorts of other things in it.

So a survey of a machine with more drives is the old survey with entries put
in, and the decision of a boot stands as long as those entries have no say in
it. What has a say is not the same for every decision: `hotplug` tells the two
apart.

## Main definitions

* `SameDrive`: A drive that is the same in two machines.
* `Plugged`: A machine with more drives in it.

## Theorems

* `lookAt_same`: The same drive gets the same entry.
* `survey_plugged`: The survey with more drives.
* `survey_reordered`: The order of the directories does not matter.
* `hotplug`: When more drives do not change the decision.
-/

namespace Zeroboot

open Medium

variable {V N : Type} {F : Volume.Ops V N} {os os' : Os V} {m : Machine}

/-! ## One drive -/

/-- Two listings of a directory: the same error, or the same entries. -/
def SameListing (a b : Except String (List (Option FileName))) : Prop :=
  (∃ e, a = .error e ∧ b = .error e) ∨ ∃ l l', a = .ok l ∧ b = .ok l' ∧ l'.Perm l

/-- A drive that is the same in both machines: everything in its directory in
    sysfs, its device node, and those of its partitions. -/
structure SameDrive (os os' : Os V) (m : Machine) (name : String) : Prop where
  files : ∀ file, os'.readToString (pathJoin (sysOf m name) file) =
    os.readToString (pathJoin (sysOf m name) file)
  listing : SameListing (os.readDir (sysOf m name)) (os'.readDir (sysOf m name))
  exist : ∀ part, os'.pathExists (pathJoin (pathJoin (sysOf m name) part) "partition") =
    os.pathExists (pathJoin (pathJoin (sysOf m name) part) "partition")
  link : os'.readLink (sysOf m name) = os.readLink (sysOf m name)
  disk : (os'.node (pathJoin m.dev name)).disk = (os.node (pathJoin m.dev name)).disk
  opened : ∀ probe ∈ probes os (sysOf m name) name (pathJoin m.dev name),
    (os'.node probe).opened = (os.node probe).opened
  slabs : ∀ probe ∈ probes os (sysOf m name) name (pathJoin m.dev name), ∀ bin,
    os'.slabList bin probe = os.slabList bin probe

/-- A list that is sorted does not say in what order it came. -/
theorem insertionSort_perm {l l' : List String} (h : l'.Perm l) :
    l'.insertionSort (· ≤ ·) = l.insertionSort (· ≤ ·) :=
  Sorting.insertionSort_eq_of_perm (List.pairwise_insertionSort (· ≤ ·) l)
    (h.trans (List.perm_insertionSort (· ≤ ·) l).symm)

section Same

variable {name : String} {me : Option String}

theorem partitions_same (h : SameDrive os os' m name) :
    partitions os' (sysOf m name) name = partitions os (sysOf m name) name := by
  unfold partitions
  rcases h.listing with ⟨e, ha, hb⟩ | ⟨l, l', ha, hb, hperm⟩
  · rw [ha, hb]
  · rw [ha, hb]
    simp only [h.exist]
    refine insertionSort_perm (List.Perm.filter _ (List.Perm.map _ (List.Perm.filter _ ?_)))
    exact hperm.filterMap id

theorem probes_same (h : SameDrive os os' m name) :
    probes os' (sysOf m name) name (pathJoin m.dev name) =
      probes os (sysOf m name) name (pathJoin m.dev name) := by
  unfold probes
  rw [partitions_same h]

theorem remoteTransport_same (h : SameDrive os os' m name) :
    remoteTransport os' (sysOf m name) = remoteTransport os (sysOf m name) := by
  unfold remoteTransport readTrimmed
  rw [h.files, h.link]

/-- Each turn of the loop over the probes comes out the same. -/
theorem judgeProbe_same (h : SameDrive os os' m name) {path probe : String}
    {remote : Option String} {found : Option Esp}
    (hprobe : probe ∈ probes os (sysOf m name) name (pathJoin m.dev name)) :
    judgeProbe os' m path remote me found probe = judgeProbe os m path remote me found probe := by
  unfold judgeProbe sniffNode identifySlab
  simp only [h.opened probe hprobe, h.slabs probe hprobe]

theorem judge_same (h : SameDrive os os' m name) {sizeBytes : UInt64} {removable : Bool}
    {found : Option Esp} :
    judge os' m (sysOf m name) name (pathJoin m.dev name) sizeBytes removable me found =
      judge os m (sysOf m name) name (pathJoin m.dev name) sizeBytes removable me found := by
  have hself : pathJoin m.dev name ∈ probes os (sysOf m name) name (pathJoin m.dev name) :=
    List.mem_cons_self
  have hloop : ∀ remote, (probes os (sysOf m name) name (pathJoin m.dev name)).findSome?
        (judgeProbe os' m (pathJoin m.dev name) remote me found) =
      (probes os (sysOf m name) name (pathJoin m.dev name)).findSome?
        (judgeProbe os m (pathJoin m.dev name) remote me found) := by
    intro remote
    rw [← List.head?_filterMap, ← List.head?_filterMap]
    exact congrArg List.head? (List.filterMap_congr fun probe hprobe => judgeProbe_same h hprobe)
  unfold judge sniffNode firstNonzeroNode readTrimmed
  simp only [h.files, remoteTransport_same h, partitions_same h, probes_same h, hloop,
    h.opened _ hself]

/-- The same drive gets the same entry, whatever else is in the machine. -/
theorem lookAt_same (h : SameDrive os os' m name) :
    lookAt F os' m me name = lookAt F os m me name := by
  have hfound : foundOf F os' (pathJoin m.dev name) = foundOf F os (pathJoin m.dev name) := by
    unfold foundOf
    rw [h.disk]
  unfold lookAt sizeBytesOf removableOf readU64 readTrimmed
  simp only [h.files, h.disk, hfound, judge_same h]

end Same

/-! ## More drives -/

/-- A machine with these drives in it besides those that were there, and
    nothing else that is new to them. -/
structure Plugged (os os' : Os V) (m : Machine) (extra : List FileName) : Prop where
  block : SameListing ((os.readDir (pathJoin m.sysfs "block")).map (· ++ extra.map some))
    (os'.readDir (pathJoin m.sysfs "block"))
  fresh : ∀ entries, os.readDir (pathJoin m.sysfs "block") = .ok entries →
    ∀ e ∈ extra, ∀ e' ∈ entries.reduceOption, e.text ≠ e'.text
  same : ∀ entries, os.readDir (pathJoin m.sysfs "block") = .ok entries →
    ∀ e ∈ entries.reduceOption, SameDrive os os' m e.text
  identity : identityOf os' m = identityOf os m

/-- Sorting and then leaving something out is leaving it out and then
    sorting. -/
theorem insertionSort_filter {q : String → Bool} {l l' : List String} (h : (l'.filter q).Perm l) :
    (l'.insertionSort (· ≤ ·)).filter q = l.insertionSort (· ≤ ·) := by
  have hsorted : ((l'.insertionSort (· ≤ ·)).filter q).Pairwise (· ≤ ·) :=
    (List.pairwise_insertionSort (· ≤ ·) l').filter q
  refine (Sorting.insertionSort_eq_of_perm hsorted ?_).symm
  exact h.symm.trans ((List.perm_insertionSort (· ≤ ·) l').symm.filter q)

theorem reduceOption_map_some {α : Type} (l : List α) : (l.map some).reduceOption = l := by
  unfold List.reduceOption
  rw [List.filterMap_map]
  exact List.filterMap_some

/-- A name that is looked at was listed. -/
theorem entry_of_name {entries : List (Option FileName)} {n : String}
    (h : n ∈ driveNames m entries) : ∃ e ∈ entries.reduceOption, n = e.text := by
  unfold driveNames at h
  have hmem := List.mem_of_mem_filter ((List.mem_insertionSort _).mp (List.mem_of_mem_filter h))
  rcases List.mem_map.mp hmem with ⟨e, he, rfl⟩
  exact ⟨e, he, rfl⟩

/-- The names that are looked at, those of the new drives left out. -/
theorem driveNames_filter {entries entries' : List (Option FileName)} {extra : List FileName}
    (hperm : entries'.Perm (entries ++ extra.map some))
    (hfresh : ∀ e ∈ extra, ∀ e' ∈ entries.reduceOption, e.text ≠ e'.text) :
    (driveNames m entries').filter (fun n => n ∉ extra.map FileName.text) =
      driveNames m entries := by
  have hnames : (entries'.reduceOption.map FileName.text).Perm
      (entries.reduceOption.map FileName.text ++ extra.map FileName.text) := by
    have hred : entries'.reduceOption.Perm (entries ++ extra.map some).reduceOption :=
      hperm.filterMap id
    rw [List.reduceOption_append, reduceOption_map_some] at hred
    rw [← List.map_append]
    exact hred.map FileName.text
  -- The drives that were there are kept by the filter, and the new ones are not.
  have hold : (entries.reduceOption.map FileName.text).filter
      (fun n => n ∉ extra.map FileName.text) = entries.reduceOption.map FileName.text := by
    refine List.filter_eq_self.mpr fun n hn => decide_eq_true ?_
    intro hextra
    rcases List.mem_map.mp hn with ⟨e', he', rfl⟩
    rcases List.mem_map.mp hextra with ⟨e, he, heq⟩
    exact hfresh e he e' he' heq
  have hnew : (extra.map FileName.text).filter (fun n => n ∉ extra.map FileName.text) = [] :=
    List.filter_eq_nil_iff.mpr fun n hn => by
      simp only [hn, not_true_eq_false, decide_false, Bool.false_eq_true, not_false_eq_true]
  unfold driveNames
  rw [List.filter_comm]
  refine congrArg (List.filter m.wants) (insertionSort_filter ?_)
  rw [List.filter_comm]
  refine List.Perm.filter _ ((hnames.filter _).trans (List.Perm.of_eq ?_))
  rw [List.filter_append, hold, hnew, List.append_nil]

/-- The survey of the machine with more drives, asked about the drives of the
    old one or about anything the new ones do not have, is the old survey. -/
theorem survey_plugged {extra : List FileName} (h : Plugged os os' m extra) {s : Survey}
    (hs : survey F os m = .ok s) :
    ∃ s', survey F os' m = .ok s' ∧ (∀ d ∈ s.drives, d ∈ s'.drives) ∧
      ∀ q : Drive → Bool,
        (∀ e ∈ extra, q (lookAt F os' m (identityOf os' m) e.text) = false) →
          s'.drives.filter q = s.drives.filter q := by
  unfold survey at hs
  rcases hr : os.readDir (pathJoin m.sysfs "block") with e | entries
  · rw [hr] at hs
    exact absurd hs (by simp only [reduceCtorEq, not_false_eq_true])
  · rw [hr] at hs
    have hsurvey := Except.ok.inj hs
    rcases h.block with ⟨e, ha, _⟩ | ⟨l, entries', ha, hb, hperm⟩
    · rw [hr] at ha
      exact absurd ha (by simp only [Except.map, reduceCtorEq, not_false_eq_true])
    · rw [hr] at ha
      rw [← Except.ok.inj ha] at hperm
      have hnames := driveNames_filter (m := m) hperm (h.fresh entries hr)
      -- A drive that was there before is looked at with the same result.
      have hsame : ∀ n ∈ driveNames m entries,
          lookAt F os' m (identityOf os' m) n = lookAt F os m (identityOf os m) n := by
        intro n hn
        rcases entry_of_name hn with ⟨e, he, rfl⟩
        rw [h.identity]
        exact lookAt_same (h.same entries hr e he)
      refine ⟨{ drives := (driveNames m entries').map (lookAt F os' m (identityOf os' m)) }, ?_,
        ?_, ?_⟩
      · unfold survey
        rw [hb]
      · intro d hd
        rw [← hsurvey] at hd
        rcases List.mem_map.mp hd with ⟨n, hn, rfl⟩
        rw [← hsame n hn]
        rw [← hnames] at hn
        exact List.mem_map_of_mem (List.mem_of_mem_filter hn)
      · intro q hq
        have hout : ∀ n, q (lookAt F os' m (identityOf os' m) n) = true →
            n ∉ extra.map FileName.text := by
          intro n hn hextra
          rcases List.mem_map.mp hextra with ⟨e, he, rfl⟩
          exact absurd ((hq e he).symm.trans hn) Bool.false_ne_true
        have hfilter : (driveNames m entries').filter
              (q ∘ lookAt F os' m (identityOf os' m)) =
            (driveNames m entries).filter (q ∘ lookAt F os' m (identityOf os' m)) := by
          rw [← hnames, List.filter_filter]
          refine List.filter_congr fun n _ => ?_
          rcases hqn : (q ∘ lookAt F os' m (identityOf os' m)) n with _ | _
          · rfl
          · rw [decide_eq_true (hout n hqn)]
            rfl
        have hmap : (driveNames m entries).map (lookAt F os' m (identityOf os' m)) =
            (driveNames m entries).map (lookAt F os m (identityOf os m)) :=
          List.map_congr_left hsame
        rw [← hsurvey, List.filter_map, hfilter, ← List.filter_map, hmap]

/-- The order in which directories are listed does not show. -/
theorem survey_reordered (h : Plugged os os' m []) {s : Survey} (hs : survey F os m = .ok s) :
    survey F os' m = .ok s := by
  rcases survey_plugged h hs with ⟨s', hs', _, hfilter⟩
  have hall := hfilter (fun _ => true) fun e he => absurd he List.not_mem_nil
  rw [List.filter_true, List.filter_true] at hall
  rw [hs']
  exact congrArg Except.ok (congrArg Survey.mk hall)

theorem Bench.readDir_sda (b : Bench V) (identity : Option String) :
    b.os.readDir (sysOf (Bench.machine identity) Bench.sda.text) = .ok (b.parts.map some) := by
  have hother : "/sys/block/sda" ≠ "/sys/block" := by decide
  rw [show sysOf (Bench.machine identity) Bench.sda.text = "/sys/block/sda" from
    Bench.sysOf_sda identity]
  simp only [Bench.os, hother, if_false, if_true]

/-- The bench lists its partitions one way round or the other. -/
theorem slabbed_swapped (disk : Disk V) (slabs : String → Option String)
    (identity : Option String) :
    Plugged (Bench.slabbed [Bench.sda1, Bench.sda2] disk slabs).os
      (Bench.slabbed [Bench.sda2, Bench.sda1] disk slabs).os (Bench.machine identity) [] where
  block := Or.inr ⟨_, _, by rw [Bench.readDir_block]; rfl, Bench.readDir_block _ _,
    List.Perm.refl _⟩
  fresh _ _ e he := absurd he List.not_mem_nil
  same entries hentries e he := by
    rw [Bench.readDir_block] at hentries
    rw [← Except.ok.inj hentries] at he
    rw [List.mem_singleton.mp he]
    refine ⟨fun _ => rfl, ?_, fun _ => rfl, rfl, rfl, fun _ _ => rfl, fun _ _ _ => rfl⟩
    rw [Bench.readDir_sda, Bench.readDir_sda]
    exact Or.inr ⟨_, _, rfl, rfl, List.Perm.swap _ _ []⟩
  identity := rfl

theorem survey_reordered_sda :
    survey Volume.memory (Bench.slabbed [Bench.sda2, Bench.sda1] Bench.wiped
        Bench.systemSecond).os (Bench.machine none) =
      survey Volume.memory (Bench.slabbed [Bench.sda1, Bench.sda2] Bench.wiped
        Bench.systemSecond).os (Bench.machine none) := by
  have hs := Bench.survey_eq Volume.memory (Bench.slabbed [Bench.sda1, Bench.sda2]
    (Bench.wiped (V := Volume.Memory)) Bench.systemSecond) none
  rw [hs]
  exact survey_reordered (slabbed_swapped Bench.wiped Bench.systemSecond none) hs

/-- The decision, with what was found out about its drive. -/
theorem outcome_congr {s s' : Survey} (hs : survey F os m = .ok s) (hs' : survey F os' m = .ok s')
    (hmem : ∀ d ∈ s.drives, d ∈ s'.drives) (hi : s'.intent = s.intent) (claimIt : Bool) :
    (boot F os' m claimIt).outcome = (boot F os m claimIt).outcome := by
  rw [boot_outcome hs, boot_outcome hs']
  unfold Report.outcome Survey.report
  rw [hi]
  rcases hintent : s.intent with ⟨drive, slab, slabId⟩ | because | path | because
  · -- The drive is found by its path in both.
    rcases alreadyMine_drive hintent with ⟨d, _, hd, hpath, _, _⟩
    rw [← hpath]
    simp only [find_surveyed hs hd, find_surveyed hs' (hmem d hd)]
  · rfl
  · rfl
  · rfl

/-- More drives do not change the decision of a boot, as long as none of them
    is this node's or blank, unless there was nothing to take. A machine that
    boots a drive of its own goes on to do so whatever comes in, as long as
    that is not a drive of this node that boots as well. -/
theorem hotplug {extra : List FileName} (h : Plugged os os' m extra) {s : Survey}
    (hs : survey F os m = .ok s) (claimIt : Bool) :
    ((∀ e ∈ extra, (lookAt F os' m (identityOf os' m) e.text).counts = false) →
      s.intent.answer ≠ .nothingToTake →
        (boot F os' m claimIt).outcome = (boot F os m claimIt).outcome) ∧
    ((∀ e ∈ extra, (lookAt F os' m (identityOf os' m) e.text).starts = false) →
      s.intent.answer = .alreadyMine →
        (boot F os' m claimIt).outcome = (boot F os m claimIt).outcome) := by
  rcases survey_plugged h hs with ⟨⟨ds'⟩, hs', hmem, hfilter⟩
  rcases s with ⟨ds⟩
  constructor
  · intro hcounts hne
    refine outcome_congr hs hs' hmem ?_ claimIt
    exact intent_eq_iff.mpr (CallsFor.of_counts (hfilter _ hcounts) (callsFor_intent ds) hne)
  · intro hstarts hmine
    refine outcome_congr hs hs' hmem ?_ claimIt
    -- Only drives that start are asked for.
    have hsystem : ∀ e ∈ extra, (fun d : Drive => d.starts && d.system)
        (lookAt F os' m (identityOf os' m) e.text) = false := fun e he => by
      simp only [hstarts e he, Bool.false_and]
    have hcalls := callsFor_intent ds
    rcases hi : Survey.intent ⟨ds⟩ with ⟨drive, slab, slabId⟩ | because | path | because
    · rw [hi] at hcalls
      rcases hcalls with ⟨d, role, hfind, hpath, hv⟩
      refine intent_eq_iff.mpr ⟨d, role, ?_, hpath, hv⟩
      rw [← List.head?_filter, ← List.head?_filter, hfilter _ hsystem, hfilter _ hstarts,
        List.head?_filter, List.head?_filter]
      exact hfind
    all_goals
      rw [hi] at hmine
      exact absurd hmine (by simp only [Intent.answer, reduceCtorEq, not_false_eq_true])

def sdb : FileName where
  text := "sdb"
  noSlash := by decide
  ordinary := by decide

/-- The machine of a bench with a second drive in it, which has no medium. -/
def withSdb (os : Os V) : Os V :=
  { os with readDir := fun p =>
      if p = "/sys/block" then .ok [some sdb, some Bench.sda] else os.readDir p }

theorem withSdb_block (os : Os V) (identity : Option String) :
    (withSdb os).readDir (pathJoin (Bench.machine identity).sysfs "block") =
      .ok [some sdb, some Bench.sda] := by
  simp only [withSdb, Bench.machine, (by decide : pathJoin "/sys" "block" = "/sys/block"), if_true]

theorem withSdb_sda (os : Os V) (identity : Option String) :
    (withSdb os).readDir (sysOf (Bench.machine identity) Bench.sda.text) =
      os.readDir (sysOf (Bench.machine identity) Bench.sda.text) := by
  have hother : "/sys/block/sda" ≠ "/sys/block" := by decide
  rw [show sysOf (Bench.machine identity) Bench.sda.text = "/sys/block/sda" from
    Bench.sysOf_sda identity]
  simp only [withSdb, hother, if_false]

theorem withSdb_plugged (b : Bench V) (identity : Option String) :
    Plugged b.os (withSdb b.os) (Bench.machine identity) [sdb] where
  block := Or.inr ⟨_, _, by rw [Bench.readDir_block]; rfl, withSdb_block _ _,
    List.Perm.swap _ _ []⟩
  fresh entries hentries e he e' he' := by
    rw [Bench.readDir_block] at hentries
    rw [← Except.ok.inj hentries] at he'
    rw [List.mem_singleton.mp he, List.mem_singleton.mp he']
    decide
  same entries hentries e he := by
    rw [Bench.readDir_block] at hentries
    rw [← Except.ok.inj hentries] at he
    rw [List.mem_singleton.mp he]
    refine ⟨fun _ => rfl, ?_, fun _ => rfl, rfl, rfl, fun _ _ => rfl, fun _ _ _ => rfl⟩
    rw [withSdb_sda, Bench.readDir_sda]
    exact Or.inr ⟨_, _, rfl, rfl, List.Perm.refl _⟩
  identity := rfl

/-- A drive the kernel gives no size of is nobody's, and is not blank. -/
theorem withSdb_verdict (F : Volume.Ops V N) (b : Bench V) (identity me : Option String) :
    (lookAt F (withSdb b.os) (Bench.machine identity) me sdb.text).verdict =
      .unreadable "no medium (reports zero sectors)" := by
  have hother : pathJoin (pathJoin (pathJoin "/sys" "block") "sdb") "size" ≠
      "/sys/block/sda/size" := by decide
  have hnone : (withSdb b.os).readToString
      (pathJoin (sysOf (Bench.machine identity) sdb.text) "size") = none :=
    Bench.readToString_other b hother
  have hsize : sizeBytesOf (withSdb b.os) (sysOf (Bench.machine identity) sdb.text) = 0 := by
    unfold sizeBytesOf readU64 readTrimmed
    rw [hnone]
    rfl
  unfold lookAt judge
  simp only [hsize, if_true]

/-- The node that boots its disk boots it with the second drive there. -/
theorem hotplug_r230 :
    (boot Volume.memory (withSdb unclaimedDisk.os) (Bench.machine (some "r230")) true).outcome =
      .bootLocal "/dev/sda" "/dev/sda2" Bench.systemId "root" := by
  rcases pointing_intent (some "r230") own_esp with ⟨s, hs, _, hi⟩
  have hplugged := withSdb_plugged unclaimedDisk (some "r230")
  rw [← (unclaimedDisk_boot "r230").1]
  refine (hotplug hplugged hs true).2 ?_ (by rw [hi]; rfl)
  intro e he
  rw [List.mem_singleton.mp he]
  unfold Drive.starts
  rw [withSdb_verdict]
  rfl

end Zeroboot
