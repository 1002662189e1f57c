import Zeroboot.Core.Boot

/-!
# From the Survey to the Outcome

Which drive an intent is about, and what `boot` makes of it.

`mine`, `bootable` and `available` are sorted and filtered, but as sets they
are plain: the drives of the survey with the verdict in question. An intent is
then one of four things, and each says which drives there are. `boot` looks
the drive up again by its path; the names of a survey are the last components
of its paths, so the drive it finds is the one the intent was about.

## Main definitions

* `Surveyed`: A drive of the survey of a machine.

## Theorems

* `mem_mine`, `mem_bootable`, `mem_available`: Which drives these are.
* `intent_cases`: The four intents.
* `surveyed_inj`, `find_surveyed`: A drive is known by its path.
* `boot_cases`: The outcomes of a boot.
* `bootLocal_cases`: The drive a boot goes on to.
-/

namespace Zeroboot

variable {V N : Type}

/-! ## Intents -/

section Intents

variable {s : Survey} {d : Drive}

theorem isMine_iff (v : Verdict) :
    v.isMine = true ↔ ∃ slabId role slab, v = .mine slabId role slab := by
  cases v with
  | mine slabId role slab => exact iff_of_true rfl ⟨slabId, role, slab, rfl⟩
  | _ => simp only [Verdict.isMine, Bool.false_eq_true, reduceCtorEq, exists_false]

theorem isAvailable_iff (v : Verdict) : v.isAvailable = true ↔ v = .blank := by
  cases v with
  | blank => exact iff_of_true rfl rfl
  | _ => simp only [Verdict.isAvailable, Bool.false_eq_true, reduceCtorEq]

theorem mem_mine : d ∈ s.mine ↔ d ∈ s.drives ∧ d.verdict.isMine = true := by
  unfold Survey.mine
  rw [List.mem_insertionSort, List.mem_filter]

theorem mem_bootable :
    d ∈ s.bootable ↔ d ∈ s.drives ∧ d.verdict.isMine = true ∧ d.boots = true := by
  unfold Survey.bootable
  rw [List.mem_filter, mem_mine, and_assoc]

theorem mem_available : d ∈ s.available ↔ d ∈ s.drives ∧ d.verdict = .blank := by
  unfold Survey.available
  rw [List.mem_insertionSort, List.mem_filter, isAvailable_iff]

theorem already_eq_some_iff {i : Intent} :
    Survey.already d = some i ↔
      ∃ slabId role slab, d.verdict = .mine slabId role slab ∧
        i = .alreadyMine d.path slab slabId := by
  unfold Survey.already
  cases d.verdict with
  | mine slabId role slab =>
      simp only [Option.some.injEq, Verdict.mine.injEq]
      constructor
      · rintro rfl
        exact ⟨slabId, role, slab, ⟨rfl, rfl, rfl⟩, rfl⟩
      · rintro ⟨_, _, _, ⟨rfl, rfl, rfl⟩, rfl⟩
        rfl
  | _ => simp only [reduceCtorEq, false_and, exists_false]

/-- The four intents, each with the drives it takes. -/
theorem intent_cases (s : Survey) :
    (∃ d slabId role slab, d ∈ s.drives ∧ d.verdict = .mine slabId role slab ∧ d.boots = true ∧
      s.intent = .alreadyMine d.path slab slabId) ∨
    (s.bootable = [] ∧ s.mine ≠ [] ∧ ∃ because, s.intent = .mineButNoneBoots because) ∨
    (s.mine = [] ∧ ∃ d ∈ s.drives, d.verdict = .blank ∧ s.intent = .takeOver d.path) ∨
    (s.mine = [] ∧ s.available = [] ∧ ∃ because, s.intent = .nothingToTake because) := by
  unfold Survey.intent
  rcases hfind : s.bootable.findSome? Survey.already with _ | i
  · -- Every bootable drive is this node's, so `already` would have taken it.
    have hnone : s.bootable = [] := by
      refine List.eq_nil_iff_forall_not_mem.mpr fun d hd => ?_
      rcases mem_bootable.mp hd with ⟨_, hmine, _⟩
      rcases (isMine_iff _).mp hmine with ⟨slabId, role, slab, hv⟩
      have hsome := List.findSome?_eq_none_iff.mp hfind d hd
      rw [already_eq_some_iff.mpr ⟨slabId, role, slab, hv, rfl⟩] at hsome
      exact absurd hsome (by simp only [reduceCtorEq, not_false_eq_true])
    by_cases hmine : s.mine = []
    · simp only [hmine, ne_eq, not_true_eq_false, if_false]
      rcases havail : s.available with _ | ⟨d, rest⟩
      · exact Or.inr (Or.inr (Or.inr ⟨trivial, rfl, _, rfl⟩))
      · have hd : d ∈ s.available := by
          rw [havail]
          exact List.mem_cons_self
        rcases mem_available.mp hd with ⟨hdrive, hblank⟩
        exact Or.inr (Or.inr (Or.inl ⟨trivial, d, hdrive, hblank, rfl⟩))
    · simp only [ne_eq, hmine, not_false_eq_true, if_true]
      exact Or.inr (Or.inl ⟨hnone, trivial, _, rfl⟩)
  · rcases List.exists_of_findSome?_eq_some hfind with ⟨d, hd, hi⟩
    rcases already_eq_some_iff.mp hi with ⟨slabId, role, slab, hv, rfl⟩
    rcases mem_bootable.mp hd with ⟨hdrive, _, hboots⟩
    exact Or.inl ⟨d, slabId, role, slab, hdrive, hv, hboots, rfl⟩

/-- An intent to boot names a drive of the survey that is this node's and
    boots. -/
theorem alreadyMine_drive {drive slab slabId : String}
    (h : s.intent = .alreadyMine drive slab slabId) :
    ∃ d role, d ∈ s.drives ∧ d.path = drive ∧ d.verdict = .mine slabId role slab ∧
      d.boots = true := by
  rcases intent_cases s with ⟨d, slabId', role, slab', hd, hv, hb, hi⟩ | ⟨_, _, _, hi⟩ |
    ⟨_, d, _, _, hi⟩ | ⟨_, _, _, hi⟩
  · rw [hi] at h
    rcases Intent.alreadyMine.inj h with ⟨rfl, rfl, rfl⟩
    exact ⟨d, role, hd, rfl, hv, hb⟩
  all_goals
    rw [hi] at h
    exact absurd h (by simp only [reduceCtorEq, not_false_eq_true])

theorem takeOver_drive {path : String} (h : s.intent = .takeOver path) :
    s.mine = [] ∧ ∃ d ∈ s.drives, d.verdict = .blank ∧ d.path = path := by
  rcases intent_cases s with ⟨_, _, _, _, _, _, _, hi⟩ | ⟨_, _, _, hi⟩ |
    ⟨hm, d, hd, hv, hi⟩ | ⟨_, _, _, hi⟩
  · rw [hi] at h
    exact absurd h (by simp only [reduceCtorEq, not_false_eq_true])
  · rw [hi] at h
    exact absurd h (by simp only [reduceCtorEq, not_false_eq_true])
  · rw [hi] at h
    exact ⟨hm, d, hd, hv, Intent.takeOver.inj h⟩
  · rw [hi] at h
    exact absurd h (by simp only [reduceCtorEq, not_false_eq_true])

theorem mine_eq_nil_iff : s.mine = [] ↔ ∀ d ∈ s.drives, d.verdict.isMine = false := by
  rw [List.eq_nil_iff_forall_not_mem]
  constructor
  · intro h d hd
    rw [Bool.eq_false_iff]
    exact fun hm => h d (mem_mine.mpr ⟨hd, hm⟩)
  · intro h d hd
    rcases mem_mine.mp hd with ⟨hdrive, hm⟩
    rw [h d hdrive] at hm
    exact absurd hm (by decide)

end Intents

/-! ## Drives by name -/

section Names

variable {α : Type} (names : List α) (f : α → Drive)

theorem mine_map : Survey.mine { drives := names.map f } =
    ((names.filter (fun n => (f n).verdict.isMine)).insertionSort
      (fun a b => Survey.roleKey (f a) ≤ Survey.roleKey (f b))).map f := by
  unfold Survey.mine
  rw [List.filter_map]
  exact (List.map_insertionSort _ (fun a b : Drive => Survey.roleKey a ≤ Survey.roleKey b) f _
    fun _ _ _ _ => Iff.rfl).symm

theorem bootable_map : Survey.bootable { drives := names.map f } =
    (((names.filter (fun n => (f n).verdict.isMine)).insertionSort
      (fun a b => Survey.roleKey (f a) ≤ Survey.roleKey (f b))).filter
        (fun n => (f n).boots)).map f := by
  unfold Survey.bootable
  rw [mine_map, List.filter_map]
  rfl

/-- Which drive is booted depends on the paths, the verdicts, and on what
    boots. -/
theorem intent_congr {f g : α → Drive} (hpath : ∀ n, (g n).path = (f n).path)
    (hverdict : ∀ n, (g n).verdict = (f n).verdict) (hboots : ∀ n, (g n).boots = (f n).boots)
    {drive slab slabId : String}
    (h : Survey.intent { drives := names.map f } = .alreadyMine drive slab slabId) :
    Survey.intent { drives := names.map g } = .alreadyMine drive slab slabId := by
  have hkey : ∀ n, Survey.roleKey (g n) = Survey.roleKey (f n) := by
    intro n
    unfold Survey.roleKey
    rw [hverdict]
  have halready : ∀ n, Survey.already (g n) = Survey.already (f n) := by
    intro n
    unfold Survey.already
    rw [hverdict, hpath]
  -- The sort and both filters see nothing but the three.
  have hfind : (Survey.bootable { drives := names.map g }).findSome? Survey.already =
      (Survey.bootable { drives := names.map f }).findSome? Survey.already := by
    rw [bootable_map, bootable_map, List.findSome?_map, List.findSome?_map]
    simp only [hverdict, hkey, hboots, Function.comp_def, halready]
  unfold Survey.intent at h ⊢
  rw [hfind]
  rcases hf : (Survey.bootable { drives := names.map f }).findSome? Survey.already with _ | i
  · -- Without a bootable drive the intent is another one.
    rw [hf] at h
    simp only at h
    split_ifs at h
    · split at h
      · exact absurd h (by simp only [reduceCtorEq, not_false_eq_true])
      · exact absurd h (by simp only [reduceCtorEq, not_false_eq_true])
  · rw [hf] at h
    exact h

end Names

/-! ## The drives of a survey -/

/-- A drive of the survey of this machine. -/
def Surveyed (F : Volume.Ops V N) (os : Os V) (m : Machine) (d : Drive) : Prop :=
  ∃ name : FileName, d = lookAt F os m (identityOf os m) name.text

section Surveys

variable {F : Volume.Ops V N} {os : Os V} {m : Machine} {s : Survey} {d d' : Drive}

theorem lookAt_verdict (F : Volume.Ops V N) (os : Os V) (m : Machine) (me : Option String)
    (name : String) : (lookAt F os m me name).verdict =
      judge os m (sysOf m name) name (pathJoin m.dev name) (sizeBytesOf os (sysOf m name))
        (removableOf os (sysOf m name)) me (foundOf F os (pathJoin m.dev name)) :=
  rfl

/-- The drives of a survey are those the kernel lists and the caller wants. -/
theorem mem_survey_iff : (∃ s, survey F os m = .ok s ∧ d ∈ s.drives) ↔
    ∃ entries name, os.readDir (pathJoin m.sysfs "block") = .ok entries ∧
      name ∈ driveNames m entries ∧ d = lookAt F os m (identityOf os m) name := by
  unfold survey
  rcases os.readDir (pathJoin m.sysfs "block") with e | entries
  · simp only [reduceCtorEq, false_and, exists_false]
  · simp only [Except.ok.injEq, exists_eq_left', exists_and_left, List.mem_map]
    constructor
    · intro ⟨name, hname, hd⟩
      exact ⟨name, hname, hd.symm⟩
    · intro ⟨name, hname, hd⟩
      exact ⟨name, hname, hd.symm⟩

theorem surveyed_of_mem (hs : survey F os m = .ok s) (hd : d ∈ s.drives) : Surveyed F os m d := by
  rcases mem_survey_iff.mp ⟨s, hs, hd⟩ with ⟨entries, n, _, hn, rfl⟩
  unfold driveNames at hn
  rw [List.mem_filter, List.mem_insertionSort, List.mem_filter] at hn
  rcases List.mem_map.mp hn.1.1 with ⟨name, _, rfl⟩
  exact ⟨name, rfl⟩

theorem surveyed_inj (hd : Surveyed F os m d) (hd' : Surveyed F os m d') (h : d'.path = d.path) :
    d' = d := by
  rcases hd with ⟨name, rfl⟩
  rcases hd' with ⟨name', rfl⟩
  -- The name is the last component of the path.
  have hfile := congrArg fileName h
  simp only [lookAt, fileName_pathJoin, Option.some.injEq] at hfile
  rw [hfile]

theorem find_surveyed (hs : survey F os m = .ok s) (hd : d ∈ s.drives) :
    s.drives.find? (fun x => x.path == d.path) = some d := by
  rcases hf : s.drives.find? (fun x => x.path == d.path) with _ | d'
  · have hnot := List.find?_eq_none.mp hf d hd
    simp only [beq_self_eq_true, not_true_eq_false] at hnot
  · -- Whatever is found has the same path, and so is the same drive.
    have hpath := List.find?_some hf
    simp only [beq_iff_eq] at hpath
    have hsame := surveyed_inj (surveyed_of_mem hs hd)
      (surveyed_of_mem hs (List.mem_of_find?_eq_some hf)) hpath
    exact hf.trans (congrArg some hsame)

/-- A drive of a survey has a path that is not empty. -/
theorem Surveyed.path_ne (hd : Surveyed F os m d) : d.path ≠ "" := by
  rcases hd with ⟨name, rfl⟩
  intro h
  have hfile := fileName_pathJoin m.dev name
  simp only [lookAt] at h
  rw [h, show fileName "" = none by decide] at hfile
  exact absurd hfile (by simp only [reduceCtorEq, not_false_eq_true])

end Surveys

/-! ## Outcomes -/

section Outcomes

variable {F : Volume.Ops V N} {os : Os V} {m : Machine} {claimIt : Bool}

/-- A boot that goes local boots a drive of the survey that is this node's,
    and claims it when told to. -/
theorem boot_alreadyMine {s : Survey} {d : Drive} {drive slab slabId : String}
    (hs : survey F os m = .ok s) (hi : s.intent = .alreadyMine drive slab slabId)
    (hd : d ∈ s.drives) (hpath : d.path = drive) :
    boot F os m claimIt =
      { outcome := .bootLocal drive slab slabId (volumeOf (some d))
        claimed := (if claimIt then claimOnBoot F os m (some d) else (os, none)).2
        os := (if claimIt then claimOnBoot F os m (some d) else (os, none)).1 } := by
  subst hpath
  unfold boot
  simp only [hs, hi, find_surveyed hs hd]

/-- How a boot ends depends on its survey only. -/
theorem boot_outcome_congr {os' : Os V} {m' : Machine} (claimIt' : Bool)
    (h : survey F os' m' = survey F os m) :
    (boot F os' m' claimIt').outcome = (boot F os m claimIt).outcome := by
  unfold boot
  rw [h]
  rcases survey F os m with e | s
  · rfl
  · rcases hi : s.intent with ⟨drive, slab, slabId⟩ | _ | _ | _
    all_goals simp only [hi, ask]

/-- The outcomes of a boot. Only the first one can leave another machine
    behind. -/
theorem boot_cases (F : Volume.Ops V N) (os : Os V) (m : Machine) (claimIt : Bool) :
    (∃ s d slabId role slab, survey F os m = .ok s ∧ d ∈ s.drives ∧
      d.verdict = .mine slabId role slab ∧ d.boots = true ∧
      s.intent = .alreadyMine d.path slab slabId ∧
      (boot F os m claimIt).outcome = .bootLocal d.path slab slabId (volumeOf (some d)) ∧
      (boot F os m claimIt).os =
        (if claimIt then claimOnBoot F os m (some d) else (os, none)).1) ∨
    (∃ s path, survey F os m = .ok s ∧ s.intent = .takeOver path ∧
      ∃ reason, boot F os m claimIt = ask os reason path) ∨
    (∃ s, survey F os m = .ok s ∧ (s.mine ≠ [] ∨ s.available = []) ∧
      ∃ reason, boot F os m claimIt = ask os reason "") ∨
    ∃ e, survey F os m = .error e ∧ boot F os m claimIt = ⟨.error e, none, os⟩ := by
  rcases hs : survey F os m with e | s
  · refine Or.inr (Or.inr (Or.inr ⟨e, rfl, ?_⟩))
    unfold boot
    rw [hs]
  · rcases intent_cases s with ⟨d, slabId, role, slab, hd, hv, hb, hi⟩ | ⟨_, hm, because, hi⟩ |
      ⟨_, d, _, _, hi⟩ | ⟨_, ha, because, hi⟩
    · refine Or.inl ⟨s, d, slabId, role, slab, rfl, hd, hv, hb, hi, ?_, ?_⟩
      all_goals rw [boot_alreadyMine hs hi hd rfl]
    · refine Or.inr (Or.inr (Or.inl ⟨s, rfl, Or.inl hm, Text.join "; " because, ?_⟩))
      unfold boot
      simp only [hs, hi]
    · refine Or.inr (Or.inl ⟨s, d.path, rfl, hi,
        "nothing of ours here yet; " ++ d.path ++ " is free", ?_⟩)
      · unfold boot
        simp only [hs, hi]
    · refine Or.inr (Or.inr (Or.inl ⟨s, rfl, Or.inr ha, Text.join "; " because, ?_⟩))
      unfold boot
      simp only [hs, hi]

/-- A boot that goes on starts a drive of its survey, and what it leaves behind
    is that drive claimed, if it was to be. -/
theorem bootLocal_cases {drive slab slabId volume : String}
    (h : (boot F os m claimIt).outcome = .bootLocal drive slab slabId volume) :
    ∃ s d role, survey F os m = .ok s ∧ d ∈ s.drives ∧ drive = d.path ∧
      d.verdict = .mine slabId role slab ∧ d.boots = true ∧
      s.intent = .alreadyMine d.path slab slabId ∧ volume = volumeOf (some d) ∧
      (boot F os m claimIt).os =
        (if claimIt then claimOnBoot F os m (some d) else (os, none)).1 := by
  rcases boot_cases F os m claimIt with ⟨s, d, _, role, _, hs, hd, hv, hb, hi, ho, hos⟩ |
    ⟨_, _, _, _, _, hboot⟩ | ⟨_, _, _, _, hboot⟩ | ⟨_, _, hboot⟩
  · rw [ho] at h
    rcases Outcome.bootLocal.inj h with ⟨rfl, rfl, rfl, rfl⟩
    exact ⟨s, d, role, hs, hd, rfl, hv, hb, hi, rfl, hos⟩
  all_goals
    rw [hboot] at h
    exact absurd h (by simp only [ask, reduceCtorEq, not_false_eq_true])

end Outcomes

end Zeroboot
