import Zeroboot.Lib.Sorting
import Zeroboot.Theory.Selection

/-!
# What the Drives Call For

The conclusion of a survey, told by looking for drives only: the first one in
the order they were seen that is this node's and boots from a system slab, and
so on. `intent` sorts twice and filters three times to find it. `CallsFor`
does neither, and there is one intent the drives call for.

Two things follow. The order of the drives decides which drive is named, never
what kind of answer it is. And a drive that is neither this node's nor blank
is seen in the reasons for doing nothing only.

## Main definitions

* `Drive.starts`, `Drive.system`, `Drive.counts`: What is asked of a drive.
* `Better`: Which of two blank drives is taken.
* `CallsFor`: The intent a list of drives calls for.
* `Answer`, `Intent.answer`: The kind of an intent.

## Theorems

* `mine_eq`, `head?_bootable`, `head?_available`: The sorted lists without the
  sort.
* `callsFor_intent`: The survey concludes what its drives call for.
* `CallsFor.unique`: They call for one thing.
* `intent_spec`: The conclusion of a survey, and what it does not depend on.
-/

namespace Zeroboot

/-- This node's, and it boots. -/
def Drive.starts (d : Drive) : Bool :=
  d.verdict.isMine && d.boots

/-- A slab of this node's that the system is on. -/
def Drive.system (d : Drive) : Bool :=
  d.verdict.slabRole == some "system"

/-- The drives an answer other than doing nothing can depend on. -/
def Drive.counts (d : Drive) : Bool :=
  d.verdict.isMine || d.verdict.isAvailable

/-- Solid state rather than spinning, and then the larger one. -/
def Better (a b : Drive) : Prop :=
  (a.rotational = false ∧ b.rotational = true) ∨
    (a.rotational = b.rotational ∧ b.sizeBytes < a.sizeBytes)

/-- The intent a list of drives calls for. -/
def CallsFor (ds : List Drive) : Intent → Prop
  | .alreadyMine drive slab slabId =>
      ∃ d role, (ds.find? (fun d => d.starts && d.system)).or (ds.find? Drive.starts) = some d ∧
        d.path = drive ∧ d.verdict = .mine slabId role slab
  | .mineButNoneBoots because =>
      (∀ d ∈ ds, d.starts = false) ∧ (∃ d ∈ ds, d.verdict.isMine = true) ∧
        because = (ds.filter (fun d => d.verdict.isMine && d.system) ++
          ds.filter (fun d => d.verdict.isMine && !d.system)).map
            (fun d => d.path ++ " " ++ d.verdict.display ++ " - " ++ d.whyNot)
  | .takeOver path =>
      (∀ d ∈ ds, d.verdict.isMine = false) ∧
        ∃ d before behind, ds.filter (fun d => d.verdict.isAvailable) = before ++ d :: behind ∧
          (∀ b ∈ before, Better d b) ∧ (∀ b ∈ behind, ¬ Better b d) ∧ d.path = path
  | .nothingToTake because =>
      (∀ d ∈ ds, d.verdict.isMine = false) ∧ (∀ d ∈ ds, d.verdict.isAvailable = false) ∧
        because = ds.map (fun d => d.path ++ " " ++ d.verdict.display)

/-- The kind of an intent. -/
inductive Answer where
  | alreadyMine
  | mineButNoneBoots
  | takeOver
  | nothingToTake
  deriving DecidableEq

def Intent.answer : Intent → Answer
  | .alreadyMine _ _ _ => .alreadyMine
  | .mineButNoneBoots _ => .mineButNoneBoots
  | .takeOver _ => .takeOver
  | .nothingToTake _ => .nothingToTake

/-- The kind of answer a list of drives gets. -/
def answerFor (ds : List Drive) : Answer :=
  if ∃ d ∈ ds, d.starts = true then .alreadyMine
  else if ∃ d ∈ ds, d.verdict.isMine = true then .mineButNoneBoots
  else if ∃ d ∈ ds, d.verdict.isAvailable = true then .takeOver
  else .nothingToTake

/-! ## The lists without the sort -/

section Lists

variable (ds : List Drive)

theorem roleKey_le_iff (a b : Drive) :
    Survey.roleKey a ≤ Survey.roleKey b ↔ (b.system = true → a.system = true) := by
  unfold Survey.roleKey Drive.system
  rw [beq_iff_eq, beq_iff_eq]
  by_cases ha : a.verdict.slabRole = some "system"
  · simp only [ha, if_true, Nat.zero_le, imp_true_iff]
  · by_cases hb : b.verdict.slabRole = some "system"
    · simp only [ha, hb, if_true, if_false, forall_const, iff_false]
      omega
    · simp only [ha, hb, if_false, le_refl, false_imp_iff]

/-- This node's drives: the system slabs, and then the others. -/
theorem mine_eq :
    Survey.mine ⟨ds⟩ = ds.filter (fun d => d.verdict.isMine && d.system) ++
      ds.filter (fun d => d.verdict.isMine && !d.system) := by
  unfold Survey.mine
  rw [Sorting.insertionSort_two roleKey_le_iff, List.filter_filter, List.filter_filter]
  simp only [Bool.and_comm]

/-- The drive the survey boots from. -/
theorem head?_bootable :
    (Survey.bootable ⟨ds⟩).head? =
      (ds.find? (fun d => d.starts && d.system)).or (ds.find? Drive.starts) := by
  have hmine : Survey.bootable ⟨ds⟩ =
      ds.filter (fun d => d.starts && d.system) ++ ds.filter (fun d => d.starts && !d.system) := by
    unfold Survey.bootable Drive.starts
    rw [mine_eq, List.filter_append, List.filter_filter, List.filter_filter]
    simp only [Bool.and_left_comm, Bool.and_assoc]
  rw [hmine, List.head?_append, List.head?_filter, List.head?_filter]
  rcases hfind : ds.find? (fun d => d.starts && d.system) with _ | d
  · -- Without a system slab that boots the other ones are all there is.
    have hother : ds.find? (fun d => d.starts && !d.system) = ds.find? Drive.starts := by
      rw [← List.head?_filter, ← List.head?_filter]
      refine congrArg List.head? (List.filter_congr fun d hd => ?_)
      have hnot := List.find?_eq_none.mp hfind d hd
      rcases hs : d.starts with _ | _
      · rfl
      · rw [hs, Bool.true_and, Bool.not_eq_true] at hnot
        rw [hnot]
        rfl
    rw [hother, hfind]
  · rw [hfind]
    rfl

/-- The relation `available` sorts by is total. -/
instance : Std.Total (fun a b : Drive => Survey.preferred a b = true) where
  total a b := by
    unfold Survey.preferred
    rcases a.rotational with _ | _ <;> rcases b.rotational with _ | _ <;>
      simp [UInt64.le_total]

instance : IsTrans Drive (fun a b : Drive => Survey.preferred a b = true) where
  trans a b c := by
    unfold Survey.preferred
    rcases a.rotational with _ | _ <;> rcases b.rotational with _ | _ <;>
      rcases c.rotational with _ | _ <;> simp
    all_goals exact fun h h' => UInt64.le_trans h' h

theorem not_preferred_iff (a b : Drive) : ¬ Survey.preferred a b = true ↔ Better b a := by
  unfold Survey.preferred Better
  rcases a.rotational with _ | _ <;> rcases b.rotational with _ | _ <;> simp

/-- The least of the blank drives, in the words of `CallsFor`. -/
theorem least_preferred_iff {l : List Drive} {d : Drive} :
    Sorting.Least (fun a b => Survey.preferred a b = true) d l ↔
      ∃ before behind, l = before ++ d :: behind ∧ (∀ b ∈ before, Better d b) ∧
        ∀ b ∈ behind, ¬ Better b d := by
  have hbehind (b : Drive) : Survey.preferred d b = true ↔ ¬ Better b d := by
    rw [← not_preferred_iff, not_not]
  unfold Sorting.Least
  simp only [not_preferred_iff, hbehind]

end Lists

/-! ## The answer -/

section Answers

variable {ds ds' : List Drive}

theorem starts_of_find {d : Drive}
    (h : (ds.find? (fun d => d.starts && d.system)).or (ds.find? Drive.starts) = some d) :
    d ∈ ds ∧ d.starts = true := by
  rcases Option.or_eq_some_iff.mp h with h | ⟨_, h⟩
  · have hstarts := List.find?_some h
    exact ⟨List.mem_of_find?_eq_some h, (Bool.and_eq_true _ _ ▸ hstarts).1⟩
  · exact ⟨List.mem_of_find?_eq_some h, List.find?_some h⟩

theorem starts_false_of_find
    (h : (ds.find? (fun d => d.starts && d.system)).or (ds.find? Drive.starts) = none) :
    ∀ d ∈ ds, d.starts = false := by
  intro d hd
  have hnone := (Option.or_eq_none_iff.mp h).2
  exact Bool.eq_false_iff.mpr (List.find?_eq_none.mp hnone d hd)

/-- The survey concludes what its drives call for. -/
theorem callsFor_intent (ds : List Drive) : CallsFor ds (Survey.intent ⟨ds⟩) := by
  rcases hfront : (ds.find? (fun d => d.starts && d.system)).or (ds.find? Drive.starts) with _ | d
  · -- Nothing boots, so nothing is handed to `already`.
    have hnot := starts_false_of_find hfront
    have hboot : Survey.bootable ⟨ds⟩ = [] :=
      List.head?_eq_none_iff.mp ((head?_bootable ds).trans hfront)
    unfold Survey.intent
    rw [hboot]
    simp only [List.findSome?_nil]
    by_cases hmine : Survey.mine ⟨ds⟩ = []
    · have hno := mine_eq_nil_iff.mp hmine
      rw [if_neg (not_not.mpr hmine)]
      rcases havail : Survey.available ⟨ds⟩ with _ | ⟨d, rest⟩
      · refine ⟨hno, fun d hd => Bool.eq_false_iff.mpr fun hv => ?_, rfl⟩
        have hmem : d ∈ Survey.available ⟨ds⟩ := mem_available.mpr ⟨hd, (isAvailable_iff _).mp hv⟩
        rw [havail] at hmem
        exact absurd hmem List.not_mem_nil
      · have hhead : (Survey.available ⟨ds⟩).head? = some d := by rw [havail]; rfl
        rcases least_preferred_iff.mp (Sorting.head?_insertionSort.mp hhead) with
          ⟨before, behind, heq, hbefore, hbehind⟩
        exact ⟨hno, d, before, behind, heq, hbefore, hbehind, rfl⟩
    · rw [if_pos hmine]
      rcases List.exists_mem_of_ne_nil _ hmine with ⟨d, hd⟩
      refine ⟨hnot, ⟨d, mem_mine.mp hd⟩, ?_⟩
      rw [mine_eq]
  · -- The front of the bootable drives is this node's, so `already` takes it.
    have hstarts := (starts_of_find hfront).2
    unfold Drive.starts at hstarts
    rw [Bool.and_eq_true] at hstarts
    rcases (isMine_iff _).mp hstarts.1 with ⟨slabId, role, slab, hv⟩
    rcases hboot : Survey.bootable ⟨ds⟩ with _ | ⟨d', rest⟩
    · have hhead := head?_bootable ds
      rw [hboot, hfront, List.head?_nil] at hhead
      exact absurd hhead (by simp only [reduceCtorEq, not_false_eq_true])
    · have hhead := head?_bootable ds
      rw [hboot, hfront, List.head?_cons, Option.some.injEq] at hhead
      subst hhead
      unfold Survey.intent
      rw [hboot, List.findSome?_cons, already_eq_some_iff.mpr ⟨slabId, role, slab, hv, rfl⟩]
      exact ⟨d', role, hfront, rfl, hv⟩

theorem not_exists_of_all {q : Drive → Bool} (h : ∀ d ∈ ds, q d = false) :
    ¬ ∃ d ∈ ds, q d = true := by
  rintro ⟨d, hd, hq⟩
  exact absurd ((h d hd).symm.trans hq) Bool.false_ne_true

theorem not_starts_of_not_mine (h : ∀ d ∈ ds, d.verdict.isMine = false) :
    ∀ d ∈ ds, d.starts = false := by
  intro d hd
  unfold Drive.starts
  rw [h d hd, Bool.false_and]

/-- The kind of answer is read off three questions. -/
theorem CallsFor.answer_eq {i : Intent} (h : CallsFor ds i) : i.answer = answerFor ds := by
  unfold answerFor
  cases i with
  | alreadyMine drive slab slabId =>
      rcases h with ⟨d, _, hfind, _⟩
      rw [if_pos ⟨d, starts_of_find hfind⟩]
      rfl
  | mineButNoneBoots because =>
      rcases h with ⟨hnot, hmine, _⟩
      rw [if_neg (not_exists_of_all hnot), if_pos hmine]
      rfl
  | takeOver path =>
      rcases h with ⟨hnot, d, before, behind, heq, _⟩
      have hd : d ∈ ds.filter (fun d => d.verdict.isAvailable) := by
        rw [heq]
        exact List.mem_append_right before List.mem_cons_self
      rw [if_neg (not_exists_of_all (not_starts_of_not_mine hnot)),
        if_neg (not_exists_of_all hnot), if_pos ⟨d, List.mem_filter.mp hd⟩]
      rfl
  | nothingToTake because =>
      rcases h with ⟨hnot, hnone, _⟩
      rw [if_neg (not_exists_of_all (not_starts_of_not_mine hnot)),
        if_neg (not_exists_of_all hnot), if_neg (not_exists_of_all hnone)]
      rfl

/-- The drives call for one thing. -/
theorem CallsFor.unique {i j : Intent} (hi : CallsFor ds i) (hj : CallsFor ds j) : i = j := by
  have hanswer : i.answer = j.answer := hi.answer_eq.trans hj.answer_eq.symm
  cases i with
  | alreadyMine drive slab slabId =>
      cases j with
      | alreadyMine drive' slab' slabId' =>
          rcases hi with ⟨d, role, hfind, rfl, hv⟩
          rcases hj with ⟨d', role', hfind', rfl, hv'⟩
          obtain rfl := Option.some.inj (hfind.symm.trans hfind')
          rcases Verdict.mine.inj (hv.symm.trans hv') with ⟨rfl, _, rfl⟩
          rfl
      | _ => exact absurd hanswer (by simp only [Intent.answer, reduceCtorEq, not_false_eq_true])
  | mineButNoneBoots because =>
      cases j with
      | mineButNoneBoots because' => rw [hi.2.2, hj.2.2]
      | _ => exact absurd hanswer (by simp only [Intent.answer, reduceCtorEq, not_false_eq_true])
  | takeOver path =>
      cases j with
      | takeOver path' =>
          rcases hi with ⟨_, d, before, behind, heq, hbefore, hbehind, rfl⟩
          rcases hj with ⟨_, d', before', behind', heq', hbefore', hbehind', rfl⟩
          have hd := least_preferred_iff.mpr ⟨before, behind, heq, hbefore, hbehind⟩
          have hd' := least_preferred_iff.mpr ⟨before', behind', heq', hbefore', hbehind'⟩
          rw [hd.unique hd']
      | _ => exact absurd hanswer (by simp only [Intent.answer, reduceCtorEq, not_false_eq_true])
  | nothingToTake because =>
      cases j with
      | nothingToTake because' => rw [hi.2.2, hj.2.2]
      | _ => exact absurd hanswer (by simp only [Intent.answer, reduceCtorEq, not_false_eq_true])

theorem intent_eq_iff {i : Intent} : Survey.intent ⟨ds⟩ = i ↔ CallsFor ds i := by
  constructor
  · rintro rfl
    exact callsFor_intent ds
  · exact (callsFor_intent ds).unique

theorem answer_intent (ds : List Drive) : (Survey.intent ⟨ds⟩).answer = answerFor ds :=
  (callsFor_intent ds).answer_eq

/-! ## What the answer does not depend on -/

/-- The order of the drives does not matter to the kind of answer. -/
theorem answerFor_perm (h : ds'.Perm ds) : answerFor ds' = answerFor ds := by
  unfold answerFor
  simp only [h.mem_iff]

theorem mem_iff_of_counts (h : ds'.filter Drive.counts = ds.filter Drive.counts) {d : Drive}
    (hd : d.counts = true) : d ∈ ds' ↔ d ∈ ds := by
  have hmem : d ∈ ds'.filter Drive.counts ↔ d ∈ ds.filter Drive.counts := by rw [h]
  rwa [List.mem_filter, List.mem_filter, and_iff_left hd, and_iff_left hd] at hmem

/-- A filter for drives that count does not see the others. -/
theorem filter_of_counts (h : ds'.filter Drive.counts = ds.filter Drive.counts)
    {q : Drive → Bool} (hq : ∀ d, q d = true → d.counts = true) : ds'.filter q = ds.filter q := by
  have hand (l : List Drive) : l.filter q = (l.filter Drive.counts).filter q := by
    rw [List.filter_filter]
    refine List.filter_congr fun d _ => ?_
    rcases hqd : q d with _ | _
    · rfl
    · rw [hq d hqd]
      rfl
  rw [hand, h, ← hand]

theorem find?_of_counts (h : ds'.filter Drive.counts = ds.filter Drive.counts)
    {q : Drive → Bool} (hq : ∀ d, q d = true → d.counts = true) : ds'.find? q = ds.find? q := by
  rw [← List.head?_filter, filter_of_counts h hq, List.head?_filter]

theorem starts_counts {d : Drive} (h : d.starts = true) : d.counts = true := by
  unfold Drive.starts at h
  rw [Bool.and_eq_true] at h
  unfold Drive.counts
  rw [h.1, Bool.true_or]

theorem mine_counts {d : Drive} (h : d.verdict.isMine = true) : d.counts = true := by
  unfold Drive.counts
  rw [h, Bool.true_or]

theorem available_counts {d : Drive} (h : d.verdict.isAvailable = true) : d.counts = true := by
  unfold Drive.counts
  rw [h, Bool.or_true]

/-- A question that only drives that count answer with yes. -/
theorem forall_of_counts (h : ds'.filter Drive.counts = ds.filter Drive.counts)
    {q : Drive → Bool} (hq : ∀ d, q d = true → d.counts = true) (hall : ∀ d ∈ ds, q d = false) :
    ∀ d ∈ ds', q d = false := by
  intro d hd
  rw [Bool.eq_false_iff]
  intro hqd
  have hdrive := (mem_iff_of_counts h (hq d hqd)).mp hd
  exact absurd ((hall d hdrive).symm.trans hqd) Bool.false_ne_true

/-- Drives that do not count change an answer only in the reasons for doing
    nothing. -/
theorem CallsFor.of_counts {i : Intent} (h : ds'.filter Drive.counts = ds.filter Drive.counts)
    (hi : CallsFor ds i) (hne : i.answer ≠ .nothingToTake) : CallsFor ds' i := by
  have hand {q p : Drive → Bool} (hq : ∀ d, q d = true → d.counts = true) :
      ∀ d, (q d && p d) = true → d.counts = true := by
    intro d hd
    rw [Bool.and_eq_true] at hd
    exact hq d hd.1
  cases i with
  | alreadyMine drive slab slabId =>
      rcases hi with ⟨d, role, hfind, hpath, hv⟩
      refine ⟨d, role, ?_, hpath, hv⟩
      rw [find?_of_counts h (hand fun _ => starts_counts), find?_of_counts h fun _ => starts_counts]
      exact hfind
  | mineButNoneBoots because =>
      rcases hi with ⟨hnot, ⟨d, hd, hmine⟩, rfl⟩
      refine ⟨forall_of_counts h (fun _ => starts_counts) hnot,
        ⟨d, (mem_iff_of_counts h (mine_counts hmine)).mpr hd, hmine⟩, ?_⟩
      rw [filter_of_counts h (hand fun _ => mine_counts),
        filter_of_counts h (hand fun _ => mine_counts)]
  | takeOver path =>
      rcases hi with ⟨hnot, d, before, behind, heq, hrest⟩
      refine ⟨forall_of_counts h (fun _ => mine_counts) hnot, d, before, behind, ?_, hrest⟩
      rw [filter_of_counts h fun _ => available_counts]
      exact heq
  | nothingToTake because => exact absurd rfl hne

/-- A survey concludes what its drives call for, which is one of four answers
    by three questions. The order of the drives does not change which, and
    drives that are neither this node's nor blank change nothing unless there
    is nothing to do. -/
theorem intent_spec (ds : List Drive) :
    (∀ i, Survey.intent ⟨ds⟩ = i ↔ CallsFor ds i) ∧
      (Survey.intent ⟨ds⟩).answer = answerFor ds ∧
      (∀ ds' : List Drive, ds'.Perm ds →
        (Survey.intent ⟨ds'⟩).answer = (Survey.intent ⟨ds⟩).answer) ∧
      ∀ ds' : List Drive, ds'.filter Drive.counts = ds.filter Drive.counts →
        (Survey.intent ⟨ds⟩).answer ≠ .nothingToTake →
          Survey.intent ⟨ds'⟩ = Survey.intent ⟨ds⟩ := by
  refine ⟨fun _ => intent_eq_iff, answer_intent ds, ?_, ?_⟩
  · intro ds' hperm
    rw [answer_intent, answer_intent, answerFor_perm hperm]
  · intro ds' h hne
    exact intent_eq_iff.mpr ((callsFor_intent ds).of_counts h hne)

/-- A drive without an ESP, judged so. -/
def judged (path : String) (verdict : Verdict) : Drive :=
  { path := path, sizeBytes := 0, rotational := false, model := none, wwid := none,
    serial := none, table := none, esp := none, verdict := verdict }

theorem intent_spec_foreign :
    Survey.intent ⟨[judged "/dev/sda" (.mine "a" "data" "/dev/sda1"),
      judged "/dev/sdb" (.foreign "data"), judged "/dev/sdc" (.mine "c" "system" "/dev/sdc1")]⟩ =
        .alreadyMine "/dev/sdc" "/dev/sdc1" "c" :=
  ((intent_spec [judged "/dev/sda" (.mine "a" "data" "/dev/sda1"),
    judged "/dev/sdc" (.mine "c" "system" "/dev/sdc1")]).2.2.2 _ (by decide) (by decide)).trans
      (by decide)

end Answers

end Zeroboot
