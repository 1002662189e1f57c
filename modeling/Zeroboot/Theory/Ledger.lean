import Zeroboot.Lib.Trace
import Zeroboot.Theory.Command
import Zeroboot.Theory.Reclaim
import Zeroboot.Theory.World

/-!
# The Ledger of a Drive

Whose a drive was, from its first claim on, with everything that can be done to
it: boots that claim, claims, and claims with `--force`.

Taken abstractly a drive has a holder or none, and a claim is entered over the
one before it. `Follows` says when: over none always, and over another node's
if it is forced. A node's own claim is never entered twice. That is all there
is to the history of a drive, and the rest of this module is that the code
keeps it.

What the code does is read off its answers. A boot that wrote a claim, and a
`claim` that got that far, leave a `Record` of who wrote, when, whether it was
forced, and what came of the write. `World.Acts` is a step of some machine with
its record, and a run of such steps is a run of the ledger with the same
records, as long as every write went through: `disk_keeps_ledger`. Where a
write failed the drive may read back anything, but it still took a forced claim
to get there: `hands_change_by_force`.

## Main definitions

* `Record`, `Follows`, `Ledger`: The history of a drive, abstractly.
* `bootRecord`, `claimRecord`: What a run of the program enters.
* `World.Acts`: A step of a machine, with its record.
* `World.Seizable`: A drive in memory that some node holds.

## Theorems

* `Ledger.holder`: The last record is the holder's.
* `Ledger.isChain`: One record after another is a forced claim by another node.
* `bootRecord_cases`, `claimRecord_cases`: What a run does to a disk.
* `World.Acts.reads`: A step of the world is a step of the ledger.
* `World.reads_along`: A run of the world is a run of the ledger.
* `disk_keeps_ledger`: What the history of a drive is.
* `hands_change_by_force`: A claimed drive is changed by a forced claim, or by
  none.
* `World.Seizable.next`: A drive that is taken can be taken again.
-/

namespace Zeroboot

open Volume

/-! ## The history of a drive -/

/-- A claim that was written: who wrote it, by which clock, whether it had to
    be forced, and what came of it. -/
structure Record where
  node : String
  secs : Nat
  forced : Bool
  answer : Except String Unit

/-- The claim that was written. -/
def Record.claim (r : Record) : Claim where
  node := r.node
  claimed := nowRfc3339 r.secs

/-- A record that may be entered with this claim on the drive: with none, or
    with another node's if it is forced. -/
def Follows (held : Option Claim) (r : Record) : Prop :=
  ∀ c, held = some c → r.forced = true ∧ r.node ≠ c.node

/-- A step of the ledger, from one claim on the drive to the next. -/
inductive Ledger : Option Claim → Option Record → Option Claim → Prop where
  | idle (held : Option Claim) : Ledger held none held
  | enter {held : Option Claim} {r : Record} (follows : Follows held r) :
      Ledger held (some r) (some r.claim)

section Abstract

variable {held held' : Option Claim} {acts : List (Option Record)}

/-- The claim on the drive is the last one entered, or the one from before. -/
theorem Ledger.holder (h : Trace Ledger held acts held') :
    held' = (acts.reduceOption.getLast?.map Record.claim).or held := by
  induction h with
  | done held => rfl
  | @next held mid held' l ls first rest ih =>
      cases first with
      | idle => exact ih
      | @enter r follows =>
          rw [ih, List.reduceOption_cons_of_some, List.getLast?_cons]
          cases hlast : ls.reduceOption.getLast? with
          | none => rfl
          | some last => rfl

/-- The first record follows the claim that was there. -/
theorem Ledger.head {r : Record} {rs : List Record} (h : Trace Ledger held acts held')
    (hrecords : acts.reduceOption = r :: rs) : Follows held r := by
  induction h with
  | done held => exact absurd hrecords (List.cons_ne_nil r rs).symm
  | @next held mid held' l ls first rest ih =>
      cases first with
      | idle => exact ih hrecords
      | @enter r' follows =>
          rw [List.reduceOption_cons_of_some] at hrecords
          rw [← (List.cons.inj hrecords).1]
          exact follows

/-- From one record to the next the drive changes hands, and by force. -/
theorem Ledger.isChain (h : Trace Ledger held acts held') :
    List.IsChain (fun a b : Record => b.forced = true ∧ b.node ≠ a.node) acts.reduceOption := by
  induction h with
  | done held => exact List.IsChain.nil
  | @next held mid held' l ls first rest ih =>
      cases first with
      | idle => exact ih
      | @enter r follows =>
          rw [List.reduceOption_cons_of_some]
          rcases hrest : ls.reduceOption with _ | ⟨r', rs⟩
          · exact List.IsChain.singleton r
          · rw [hrest] at ih
            exact List.IsChain.cons_cons (Ledger.head rest hrest r.claim rfl) ih

end Abstract

/-! ## The clock, read back -/

theorem isWhitespace_digit {c : Char} (h : c.isDigit = true) : Text.isWhitespace c = false := by
  have hrange : 48 ≤ c.toNat ∧ c.toNat ≤ 57 := by
    simp only [Char.isDigit, Bool.and_eq_true, decide_eq_true_eq] at h
    exact ⟨h.1, h.2⟩
  unfold Text.isWhitespace
  simp only [Bool.or_eq_false_iff, Bool.and_eq_false_iff, decide_eq_false_iff_not,
    beq_eq_false_iff_ne]
  omega

theorem solid_padded (width n : Nat) :
    ∀ c ∈ (padded width n).toList, Text.isWhitespace c = false := by
  intro c hc
  unfold padded at hc
  rw [String.toList_ofList, List.mem_append] at hc
  rcases hc with hc | hc
  · rw [List.eq_of_mem_replicate hc]
    decide
  · exact isWhitespace_digit (Nat.isDigit_of_mem_toDigits (by decide) (by decide) hc)

/-- What a clock says is read back off a claim as it is. -/
theorem claimedText_nowRfc3339 (secs : Nat) : ClaimedText (nowRfc3339 secs) := by
  refine ⟨Text.trim_solid ?_, newline_not_mem_nowRfc3339 secs⟩
  unfold nowRfc3339
  simp only [String.toList_append, List.forall_mem_append]
  -- Each field, and what stands behind it.
  refine ⟨⟨⟨⟨⟨⟨⟨⟨⟨⟨⟨solid_padded _ _, ?_⟩, solid_padded _ _⟩, ?_⟩, solid_padded _ _⟩, ?_⟩,
    solid_padded _ _⟩, ?_⟩, solid_padded _ _⟩, ?_⟩, solid_padded _ _⟩, ?_⟩
  all_goals exact Text.IsWord.solid (by decide)

theorem Record.parse_claim {r : Record} (hn : NodeName r.node) :
    Claim.parse r.claim.render = some r.claim :=
  parse_render_eq hn (claimedText_nowRfc3339 r.secs)

/-! ## What a run of the program enters -/

variable {V N : Type}

/-- What a boot enters for the drive at a path: the claim it wrote there, if it
    wrote one. -/
def bootRecord (F : Ops V N) (os : Os V) (m : Machine) (claimIt : Bool) (path : String) :
    Option Record :=
  match (boot F os m claimIt).outcome, (boot F os m claimIt).claimed, identityOf os m with
  | .bootLocal drive _ _ _, some answer, some me =>
      if drive = path then some { node := me, secs := os.secs, forced := false, answer := answer }
      else none
  | _, _, _ => none

/-- What the claim command enters for the drive at a path. -/
def claimRecord (F : Ops V N) (os : Os V) (device : String) (node : Option String)
    (sysfs : String) (force : Bool) (path : String) : Option Record :=
  match claimWrites F os device node sysfs force with
  | some c =>
      if device = path then
        some { node := c.node, secs := os.secs, forced := force
               answer := (claim F os device node sysfs force).2.map (fun _ => ()) }
      else none
  | none => none

/-- What a record says of the disk it was entered for: the claim was written
    there, over one that it follows, and this is what came of it. -/
def Entered (F : Ops V N) (path : String) (disk disk' : Disk V) (r : Record) : Prop :=
  (∀ e, Esp.read F disk = .ok (some e) → Follows e.claim r) ∧
    writeClaim F path disk r.claim = (disk', r.answer)

section Runs

variable {F : Ops V N} {os : Os V} {m : Machine} {claimIt : Bool} {path : String}

/-- A boot leaves the disk alone, or enters a record for it. -/
theorem bootRecord_cases (F : Ops V N) (os : Os V) (m : Machine) (claimIt : Bool)
    (path : String) :
    (bootRecord F os m claimIt path = none ∧
      ((boot F os m claimIt).os.node path).disk = (os.node path).disk) ∨
    ∃ r, bootRecord F os m claimIt path = some r ∧
      Entered F path (os.node path).disk ((boot F os m claimIt).os.node path).disk r := by
  -- A boot that did not try to write leaves the machine as it is.
  have hquiet : ∀ outcome, boot F os m claimIt = ⟨outcome, none, os⟩ →
      bootRecord F os m claimIt path = none ∧
        ((boot F os m claimIt).os.node path).disk = (os.node path).disk := by
    intro outcome hboot
    unfold bootRecord
    rw [hboot]
    exact ⟨by cases outcome <;> rfl, rfl⟩
  rcases boot_cases F os m claimIt with ⟨s, d, slabId, role, slab, hs, hd, _, _, hi, _, _⟩ |
    ⟨_, _, _, _, _, hboot⟩ | ⟨_, _, _, _, hboot⟩ | ⟨_, _, hboot⟩
  · have hrun : boot F os m claimIt = _ := boot_alreadyMine hs hi hd rfl
    cases claimIt with
    | false => exact Or.inl (hquiet _ hrun)
    | true =>
        rw [if_pos rfl] at hrun
        rcases claimOnBoot_cases F os m d with hsame | ⟨me, hme, hclaim, hwrite⟩
        · rw [hsame] at hrun
          exact Or.inl (hquiet _ hrun)
        · rw [hwrite] at hrun
          -- It is about this disk if it is the one behind the path.
          by_cases hpath : d.path = path
          · refine Or.inr ⟨{ node := me, secs := os.secs, forced := false
                             answer := (writeClaim F d.path (os.node d.path).disk
                               { node := me, claimed := nowRfc3339 os.secs }).2 }, ?_, ?_, ?_⟩
            · unfold bootRecord
              rw [hrun, hme]
              exact if_pos hpath
            · -- The survey read the same ESP, and found no claim on it.
              intro e hread c hheld
              rcases surveyed_of_mem hs hd with ⟨name, rfl⟩
              have hesp : foundOf F os path = some e := foundOf_of_read hread
              have hnone : (foundOf F os path).bind Esp.claim = none := by
                rw [← hpath]
                exact hclaim
              rw [hesp, Option.bind_some, hheld] at hnone
              exact absurd hnone (by simp only [reduceCtorEq, not_false_eq_true])
            · rw [hrun, ← hpath, setDisk_self]
              rfl
          · refine Or.inl ⟨?_, ?_⟩
            · unfold bootRecord
              rw [hrun, hme]
              exact if_neg hpath
            · rw [hrun, setDisk_ne (Ne.symm hpath)]
  · exact Or.inl (hquiet _ hboot)
  · exact Or.inl (hquiet _ hboot)
  · exact Or.inl (hquiet _ hboot)

/-- The command writes with its own clock, over a claim it may be entered
    over. -/
theorem claimWrites_follows {device : String} {node : Option String} {sysfs : String}
    {force : Bool} {c : Claim} (h : claimWrites F os device node sysfs force = some c) :
    c.claimed = nowRfc3339 os.secs ∧ ∃ e, Esp.read F (os.node device).disk = .ok (some e) ∧
      ∀ held, e.claim = some held → force = true ∧ c.node ≠ held.node := by
  unfold claimWrites at h
  rcases hme : node.or (machineIdentity os sysfs) with _ | me
  · rw [hme] at h
    exact absurd h (by simp only [reduceCtorEq, not_false_eq_true])
  · rw [hme] at h
    rcases hread : Esp.read F (os.node device).disk with err | _ | e
    · rw [hread] at h
      exact absurd h (by simp only [reduceCtorEq, not_false_eq_true])
    · rw [hread] at h
      exact absurd h (by simp only [reduceCtorEq, not_false_eq_true])
    · rw [hread] at h
      simp only at h
      rcases hclaim : e.claim with _ | held
      · rw [hclaim] at h
        rw [← Option.some.inj h]
        refine ⟨rfl, e, rfl, fun held hheld => ?_⟩
        rw [hclaim] at hheld
        exact absurd hheld (by simp only [reduceCtorEq, not_false_eq_true])
      · rw [hclaim] at h
        simp only at h
        -- What is left is another node's claim, and a command that was forced.
        split_ifs at h with hother hown
        rw [← Option.some.inj h]
        refine ⟨rfl, e, rfl, fun held' hheld' => ?_⟩
        rw [hclaim, Option.some_inj] at hheld'
        rw [← hheld']
        have hforce : ¬ force = false := fun hno => hother ⟨hown, hno⟩
        exact ⟨(Bool.not_eq_false force).mp hforce, Ne.symm hown⟩

/-- The claim command leaves the disk alone, or enters a record for it. -/
theorem claimRecord_cases (F : Ops V N) (os : Os V) (device : String) (node : Option String)
    (sysfs : String) (force : Bool) (path : String) :
    (claimRecord F os device node sysfs force path = none ∧
      ((claim F os device node sysfs force).1.node path).disk = (os.node path).disk) ∨
    ∃ r, claimRecord F os device node sysfs force path = some r ∧
      Entered F path (os.node path).disk
        ((claim F os device node sysfs force).1.node path).disk r := by
  -- The command decides first, and then it writes.
  rcases claim_cases F os device node sysfs force with ⟨hnone, hsame⟩ | ⟨c, hc, hrun⟩
  · refine Or.inl ⟨?_, by rw [hsame]⟩
    unfold claimRecord
    rw [hnone]
  · by_cases hpath : device = path
    · rcases claimWrites_follows hc with ⟨hclock, e, hread, hfollows⟩
      have hclaim : c = { node := c.node, claimed := nowRfc3339 os.secs } := by
        rw [← hclock]
      refine Or.inr ⟨{ node := c.node, secs := os.secs, forced := force
                       answer := (claim F os device node sysfs force).2.map (fun _ => ()) },
        ?_, ?_, ?_⟩
      · unfold claimRecord
        rw [hc]
        exact if_pos hpath
      · intro e' hread' held hheld
        rw [← hpath, hread, Except.ok.injEq, Option.some_inj] at hread'
        rw [← hread'] at hheld
        exact hfollows held hheld
      · -- The record has the claim with its clock taken apart again.
        rw [hrun, ← hpath, setDisk_self]
        unfold Record.claim
        simp only
        rw [← hclaim]
        refine Prod.ext rfl ?_
        simp only
        cases (writeClaim F device (os.node device).disk c).2 with
        | error err => rfl
        | ok done => rfl
    · refine Or.inl ⟨?_, ?_⟩
      · unfold claimRecord
        rw [hc]
        exact if_neg hpath
      · rw [hrun, setDisk_ne (Ne.symm hpath)]

end Runs

/-! ## The drive and its travels -/

namespace World

variable {I : Type} [DecidableEq I]

/-- A step with its record: the drive is moved, or anything changes but the
    drive, or a machine runs `boot`, or `claim` with `--force` or without. -/
inductive Acts (F : Ops V N) : World I V → Option Record → World I V → Prop where
  | move (w w' : World I V) (same : w'.disk = w.disk) : Acts F w none w'
  | boot (w : World I V) (i : I) (m : Machine) (claimIt : Bool) :
      Acts F w (if i = w.host then bootRecord F (w.os i) m claimIt w.path else none)
        (w.leave i (Zeroboot.boot F (w.os i) m claimIt).os)
  | claim (w : World I V) (i : I) (device : String) (node : Option String) (sysfs : String)
      (force : Bool) :
      Acts F w
        (if i = w.host then claimRecord F (w.os i) device node sysfs force w.path else none)
        (w.leave i (Zeroboot.claim F (w.os i) device node sysfs force).1)

variable {F : Ops V N} {w w' : World I V}

/-- What a machine leaves the drive as, with the record it enters. -/
theorem leave_cases {i : I} {os' : Os V} {entry : Option Record}
    (h : (entry = none ∧ (os'.node w.path).disk = ((w.os i).node w.path).disk) ∨
      ∃ r, entry = some r ∧
        Entered F w.path ((w.os i).node w.path).disk (os'.node w.path).disk r) :
    ((if i = w.host then entry else none) = none ∧ (w.leave i os').disk = w.disk) ∨
      ∃ r, (if i = w.host then entry else none) = some r ∧
        Entered F w.path w.disk (w.leave i os').disk r := by
  by_cases hi : i = w.host
  · have hdisk : (w.leave i os').disk = (os'.node w.path).disk := by
      have hsame : (w.leave i os').os w.host = os' := by
        rw [← hi]
        exact Function.update_self i os' w.os
      exact congrArg (fun os'' : Os V => (os''.node w.path).disk) hsame
    rw [if_pos hi, hdisk]
    rw [hi] at h
    exact h
  · -- Another machine has no hold on the drive.
    exact Or.inl ⟨if_neg hi, leave_disk fun hhost => absurd hhost hi⟩

/-- A step leaves the drive as it is, or enters its record there. -/
theorem Acts.cases {entry : Option Record} (h : Acts F w entry w') :
    (entry = none ∧ w'.disk = w.disk) ∨
      ∃ r, entry = some r ∧ Entered F w.path w.disk w'.disk r := by
  cases h with
  | move _ same => exact Or.inl ⟨rfl, same⟩
  | boot i m claimIt => exact leave_cases (bootRecord_cases F (w.os i) m claimIt w.path)
  | claim i device node sysfs force =>
      exact leave_cases (claimRecord_cases F (w.os i) device node sysfs force w.path)

/-- A step of the world whose write goes through is a step of the ledger, and
    the rest of the ESP stays as it was. -/
theorem Acts.reads (hF : F.Lawful) (hopens : F.OpensExisting) {e : Esp}
    (hreads : Reads F w.disk e) {entry : Option Record}
    (hentry : ∀ r, entry = some r → NodeName r.node ∧ r.answer = .ok ())
    (h : Acts F w entry w') :
    ∃ held, Ledger e.claim entry held ∧ Reads F w'.disk { e with claim := held } := by
  rcases h.cases with ⟨rfl, hsame⟩ | ⟨r, rfl, hfollows, hwrite⟩
  · refine ⟨e.claim, .idle e.claim, ?_⟩
    rw [hsame]
    exact hreads
  · rcases hentry r rfl with ⟨hn, hanswer⟩
    rw [hanswer] at hwrite
    have hnext := hreads.claim hF hopens hwrite
    rw [Record.parse_claim hn] at hnext
    exact ⟨some r.claim, .enter (hfollows e hreads.read), hnext⟩

end World

variable {I : Type} [DecidableEq I] {F : Ops V N} {w w' : World I V} {acts : List (Option Record)}
  {e : Esp}

/-- A run of the world whose writes go through is a run of the ledger. -/
theorem World.reads_along (hF : F.Lawful) (hopens : F.OpensExisting)
    (hreads : Reads F w.disk e) (hrun : Trace (World.Acts F) w acts w')
    (hrecords : ∀ r, some r ∈ acts → NodeName r.node ∧ r.answer = .ok ()) :
    ∃ held, Trace Ledger e.claim acts held ∧ Reads F w'.disk { e with claim := held } := by
  have hstep : ∀ {v v' : World I V} {entry : Option Record} {held : Option Claim},
      Reads F v.disk { e with claim := held } →
      (∀ r, entry = some r → NodeName r.node ∧ r.answer = .ok ()) → World.Acts F v entry v' →
      ∃ held', Ledger held entry held' ∧ Reads F v'.disk { e with claim := held' } :=
    fun hr hentry hact => World.Acts.reads hF hopens hr hentry hact
  have hentries : ∀ entry ∈ acts, ∀ r, entry = some r → NodeName r.node ∧ r.answer = .ok () := by
    rintro entry hmem r rfl
    exact hrecords r hmem
  have hstart : Reads F w.disk { e with claim := e.claim } := hreads
  exact Trace.simulates (R := fun v held => Reads F (World.disk v) { e with claim := held })
    hstep hrun hentries hstart

omit [DecidableEq I] in
/-- Whoever boots a claimed drive is who the claim names. -/
theorem World.Holds.booted {c : Claim} (hheld : World.Holds F w c) {m : Machine} {me : String}
    (hme : identityOf (w.os w.host) m = some me) {claimIt : Bool} {slab slabId volume : String}
    (hboot : (boot F (w.os w.host) m claimIt).outcome = .bootLocal w.path slab slabId volume) :
    me = c.node := by
  by_contra hother
  exact hheld.not_booted hme hother claimIt slab slabId volume hboot

/-- Along any run whose writes go through, the ESP of the drive reads as it did
    with the claim of a ledger that the same records make: each follows the one
    before, the last is the holder's, and nobody else boots the drive. -/
theorem disk_keeps_ledger (hF : F.Lawful) (hopens : F.OpensExisting)
    (hreads : Reads F w.disk e) (hrun : Trace (World.Acts F) w acts w')
    (hrecords : ∀ r, some r ∈ acts → NodeName r.node ∧ r.answer = .ok ()) :
    ∃ held, Trace Ledger e.claim acts held ∧
      held = (acts.reduceOption.getLast?.map Record.claim).or e.claim ∧
      acts.reduceOption.IsChain (fun a b => b.forced = true ∧ b.node ≠ a.node) ∧
      Esp.read F w'.disk = .ok (some { e with claim := held }) ∧
      ∀ (m : Machine) (me : String) (claimIt : Bool) (slab slabId volume : String) (c : Claim),
        held = some c → identityOf (w'.os w'.host) m = some me →
          (boot F (w'.os w'.host) m claimIt).outcome = .bootLocal w'.path slab slabId volume →
            me = c.node := by
  rcases World.reads_along hF hopens hreads hrun hrecords with ⟨held, hledger, hreads'⟩
  refine ⟨held, hledger, Ledger.holder hledger, Ledger.isChain hledger, hreads'.read, ?_⟩
  intro m me claimIt slab slabId volume c hheld hme hboot
  have hholds : World.Holds F w' c := ⟨_, hreads'.read, hheld⟩
  exact hholds.booted hme hboot

/-- A drive that another node claimed, in the first of two machines. -/
def claimedDrive : World Bool Memory :=
  World.alike (Bench.slabbed [Bench.sda1, Bench.sda2] (Bench.formatted claimedVolume)
    Bench.systemSecond).os "/dev/sda" true

/-- A claim that takes a drive from another node. -/
def seizure (node : String) : Record where
  node := node
  secs := 0
  forced := true
  answer := .ok ()

theorem formatted_reads {vol : Memory} (hspares : SparesClaim memory vol) :
    Reads memory (Bench.formatted vol) (Esp.ofVolume memory vol) where
  read := Bench.read_formatted memory vol
  spares start stop vol' hx hm := by
    rw [Bench.espExtent_formatted, Option.some_inj, Prod.mk.injEq] at hx
    rw [← hx.1, ← hx.2, Bench.mount_formatted, Except.ok.injEq] at hm
    rw [← hm]
    exact hspares

theorem claimedDrive_reads :
    Reads memory claimedDrive.disk (Esp.ofVolume memory claimedVolume) :=
  formatted_reads claimedVolume_spares

/-- The claim file can always be made in memory, its directory being made
    first. -/
theorem writeClaimFile_memory (vol : Memory) (c : Claim) :
    (writeClaimFile memory vol c).2 = .ok () := by
  have hdirs : "stormcos" ∈ (memory.createDir vol "stormcos").1.dirs := by
    by_cases hold : "stormcos" ∈ vol.dirs
    · simp only [memory, if_pos hold]
      exact hold
    · simp only [memory, if_neg hold]
      exact List.mem_cons_self
  have hroot : dirOf claimPath = "" ∨ dirOf claimPath ∈ (memory.createDir vol "stormcos").1.dirs :=
    Or.inr ((by decide : dirOf claimPath = "stormcos") ▸ hdirs)
  have hmade : ∃ v, memory.createFile (memory.createDir vol "stormcos").1 claimPath =
      (v, .ok claimPath) := by
    by_cases hold : claimPath ∈ (memory.createDir vol "stormcos").1.files
    · exact ⟨_, if_pos hold⟩
    · exact ⟨_, (if_neg hold).trans (dif_pos hroot)⟩
  rcases hmade with ⟨v, hv⟩
  rw [writeClaimFile_eq, hv]
  rfl

/-- So a claim is always written to a disk in memory that can be read, and
    another one after it. -/
theorem writeClaim_memory {disk : Disk Memory} {e : Esp}
    (hread : Esp.read memory disk = .ok (some e)) (hopen : disk.openWrite = .ok ())
    (drive : String) (c : Claim) :
    (writeClaim memory drive disk c).2 = .ok () ∧
      (writeClaim memory drive disk c).1.openWrite = .ok () := by
  rcases read_eq_some hread with ⟨start, stop, vol, hx, _, hm, _⟩
  unfold writeClaim
  rw [hx]
  simp only [hopen, hm]
  exact ⟨writeClaimFile_memory vol c, hopen⟩

/-- What the command enters for a disk in memory it writes to. -/
theorem claimRecord_memory {os : Os Memory} {device : String} {node : Option String}
    {sysfs : String} {force : Bool} {e : Esp} {c : Claim}
    (hread : Esp.read memory (os.node device).disk = .ok (some e))
    (hopen : (os.node device).disk.openWrite = .ok ())
    (hwrites : claimWrites memory os device node sysfs force = some c) :
    claimRecord memory os device node sysfs force device =
      some { node := c.node, secs := os.secs, forced := force, answer := .ok () } := by
  unfold claimRecord
  rw [hwrites, claim_of_writes hwrites, (writeClaim_memory hread hopen device c).1]
  exact if_pos rfl

namespace World

/-- A drive in memory that carries a claim by a node, in a machine that counts
    no seconds. -/
structure Seizable (w : World Bool Memory) (node : String) : Prop where
  carries : ∃ e c, Reads memory w.disk e ∧ e.claim = some c ∧ c.node = node
  writable : w.disk.openWrite = .ok ()
  secs : (w.os w.host).secs = 0

/-- The drive once it was taken by this node. -/
def seized (w : World Bool Memory) (node : String) : World Bool Memory :=
  w.leave w.host (Zeroboot.claim memory (w.os w.host) w.path (some node) "/sys" true).1

/-- A drive that is taken can be taken again. -/
theorem Seizable.next {w : World Bool Memory} {node next : String} (h : Seizable w node)
    (hname : NodeName next) (hne : node ≠ next) :
    Acts memory w (some (seizure next)) (w.seized next) ∧ Seizable (w.seized next) next := by
  rcases h.carries with ⟨e, c, hreads, hclaim, hnode⟩
  have hread : Esp.read memory ((w.os w.host).node w.path).disk = .ok (some e) := hreads.read
  have hwrites : claimWrites memory (w.os w.host) w.path (some next) "/sys" true =
      some { node := next, claimed := nowRfc3339 0 } := by
    unfold claimWrites
    rw [hread, ← h.secs]
    simp only [Option.some_or, hclaim, hnode, hne, Bool.true_eq_false, and_false, if_false]
  have hact := Acts.claim w w.host w.path (some next) "/sys" true (F := memory)
  rw [if_pos rfl, claimRecord_memory hread h.writable hwrites, h.secs] at hact
  refine ⟨hact, ?_⟩
  have hos : (w.seized next).os w.host = (w.os w.host).setDisk w.path (writeClaim memory w.path
      w.disk { node := next, claimed := nowRfc3339 0 }).1 := by
    unfold seized leave
    simp only [Function.update_self, claim_of_writes hwrites]
    rfl
  have hdisk : (w.seized next).disk = (writeClaim memory w.path w.disk
      { node := next, claimed := nowRfc3339 0 }).1 := by
    change (((w.seized next).os w.host).node w.path).disk = _
    rw [hos, setDisk_self]
  -- What it reads next is the claim that was entered.
  rcases Acts.reads memory_lawful memory_opensExisting hreads
    (fun r hr => Option.some.inj hr ▸ ⟨hname, rfl⟩) hact with ⟨held, hledger, hreads'⟩
  refine ⟨?_, ?_, ?_⟩
  · cases hledger with
    | enter follows => exact ⟨_, (seizure next).claim, hreads', rfl, rfl⟩
  · rw [hdisk]
    exact (writeClaim_memory hread h.writable w.path _).2
  · rw [show (w.seized next).host = w.host from rfl, hos]
    exact h.secs

end World

theorem claimedDrive_seizable : World.Seizable claimedDrive "worker-17.storage.example" where
  carries := ⟨_, { node := "worker-17.storage.example", claimed := "a while ago" },
    claimedDrive_reads, by rw [claimedVolume_esp], rfl⟩
  writable := rfl
  secs := rfl

theorem nodeName_r640 : NodeName "r640" := ⟨by decide, by decide, by decide⟩

/-- Two nodes take the drive, one after the other. -/
theorem claimedDrive_twice :
    Trace (World.Acts memory) claimedDrive [some (seizure "r640"), some (seizure "r740")]
      ((claimedDrive.seized "r640").seized "r740") := by
  rcases claimedDrive_seizable.next nodeName_r640 (by decide) with ⟨hfirst, hnext⟩
  exact .next hfirst (.single (hnext.next ⟨by decide, by decide, by decide⟩ (by decide)).1)

/-- A drive that was taken twice is the second taker's. -/
theorem disk_keeps_ledger_r740 :
    [seizure "r640", seizure "r740"].IsChain
        (fun a b => b.forced = true ∧ b.node ≠ a.node) ∧
      Esp.read memory ((claimedDrive.seized "r640").seized "r740").disk =
        .ok (some { Esp.ofVolume memory claimedVolume with
          claim := some { node := "r740", claimed := "1970-01-01T00:00:00Z" } }) := by
  have hrecords : ∀ r, some r ∈ [some (seizure "r640"), some (seizure "r740")] →
      NodeName r.node ∧ r.answer = .ok () := by
    intro r hr
    simp only [List.mem_cons, Option.some_inj, List.not_mem_nil, or_false] at hr
    rcases hr with rfl | rfl
    · exact ⟨⟨by decide, by decide, by decide⟩, rfl⟩
    · exact ⟨⟨by decide, by decide, by decide⟩, rfl⟩
  rcases disk_keeps_ledger memory_lawful memory_opensExisting claimedDrive_reads
    claimedDrive_twice hrecords with ⟨held, _, hheld, hchain, hread, _⟩
  have hclaim : held = some { node := "r740", claimed := "1970-01-01T00:00:00Z" } := by
    rw [hheld, ← nowRfc3339_zero]
    rfl
  exact ⟨hchain, by rw [hread, hclaim]⟩

/-- However the writes of a run came out: a claimed drive that was changed was
    first changed by a forced claim of another node, with its disk as it was
    until then and no longer after it. -/
theorem hands_change_by_force {c : Claim} (hread : Esp.read F w.disk = .ok (some e))
    (hclaim : e.claim = some c) (hrun : Trace (World.Acts F) w acts w')
    (hchanged : w'.disk ≠ w.disk) :
    ∃ before r behind w1 w2, acts = before ++ some r :: behind ∧
      Trace (World.Acts F) w before w1 ∧ World.Acts F w1 (some r) w2 ∧
      Trace (World.Acts F) w2 behind w' ∧ w1.disk = w.disk ∧ w2.disk ≠ w.disk ∧
      r.forced = true ∧ r.node ≠ c.node := by
  rcases Trace.first_change World.disk hrun hchanged with
    ⟨before, entry, behind, w1, w2, rfl, hbefore, hact, hbehind, hsame, hdiff⟩
  rcases hact.cases with ⟨_, hquiet⟩ | ⟨r, rfl, hfollows, _⟩
  · exact absurd (hquiet.trans hsame) hdiff
  · rw [hsame] at hfollows
    exact ⟨before, r, behind, w1, w2, rfl, hbefore, hact, hbehind, hsame, hdiff,
      hfollows e hread c hclaim⟩

theorem hands_change_by_force_r640 : ∃ before r behind w1 w2,
    [some (seizure "r640")] = before ++ some r :: behind ∧
      Trace (World.Acts memory) claimedDrive before w1 ∧ World.Acts memory w1 (some r) w2 ∧
      Trace (World.Acts memory) w2 behind (claimedDrive.seized "r640") ∧
      w1.disk = claimedDrive.disk ∧ w2.disk ≠ claimedDrive.disk ∧
      r.forced = true ∧ r.node ≠ "worker-17.storage.example" := by
  have hclaim : (Esp.ofVolume memory claimedVolume).claim =
      some { node := "worker-17.storage.example", claimed := "a while ago" } := by
    rw [claimedVolume_esp]
  rcases claimedDrive_seizable.next nodeName_r640 (by decide) with
    ⟨hact, ⟨e, c, hreads, hheld, hnode⟩, _, _⟩
  refine hands_change_by_force claimedDrive_reads.read hclaim (.single hact) ?_
  intro hsame
  -- It reads another claim than it did.
  have hread := claimedDrive_reads.read
  rw [← hsame, hreads.read, Except.ok.injEq, Option.some_inj] at hread
  rw [hread, hclaim, Option.some_inj] at hheld
  rw [← hheld] at hnode
  exact absurd hnode (by decide)

end Zeroboot
