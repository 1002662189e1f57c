import Zeroboot.Core.Probe

/-!
# The Ladder, Instrumented

`judge` with everything about it that is not its verdict.

Two things are asked about the ladder that its answer does not show: what would
become of it with other signatures, and what is read of a drive on the way
down. Both are about the same early returns, so there is one copy of them for
both, with the tables for arguments and with logs for results, those of the
first look apart from that of the scan. `judge` is what is left of it when the
tables are the source's and the logs are thrown away: `judgeLogged_verdict`.

## Main definitions

* `nameWith`, `tailWith`, `tailChecks`: Naming by a table.
* `probeLogged`, `judgeLogged`: The loop and the ladder, with tables and logs.

## Theorems

* `signature_eq`, `tailSignature_eq`: The names of the source are by tables.
* `judgeLogged_verdict`: The ladder of the source is a projection.
-/

namespace Zeroboot

open Medium

variable {V : Type}

/-! ## Tables of signatures -/

/-- The name a head has by a table of signatures. -/
def nameWith (named : List (Nat × List UInt8 × String)) (s : Sniff) : Option String :=
  named.findSome? (fun (off, magic, what) => if s.starts off magic then some what else none)

namespace Sniff

/-- The backup header of a GPT in the last sector. -/
def gptBackup (s : Sniff) : Option String :=
  if 512 ≤ s.tail.length ∧ (s.tail.drop (s.tail.length - 512)).take 8 = Text.asBytes "EFI PART" then
    some "GPT (backup header only)"
  else none

/-- An mdraid superblock somewhere in the tail. -/
def mdTail (s : Sniff) : Option String :=
  if mdChunk s.tail then some "Linux md RAID member (superblock at the end)" else none

end Sniff

/-- What is looked for at the end of a drive. -/
def tailChecks : List (Sniff → Option String) :=
  [Sniff.gptBackup, Sniff.mdTail]

/-- The name a tail has by some of the checks. -/
def tailWith (checks : List (Sniff → Option String)) (s : Sniff) : Option String :=
  checks.findSome? (fun check => check s)

theorem signature_eq (s : Sniff) : signature s = nameWith namedSignatures s :=
  rfl

theorem tailSignature_eq (s : Sniff) : s.tailSignature = tailWith tailChecks s := by
  unfold Sniff.tailSignature tailWith tailChecks Sniff.gptBackup Sniff.mdTail
  simp only [List.findSome?_cons, List.findSome?_nil]
  by_cases hgpt : 512 ≤ s.tail.length ∧
      (s.tail.drop (s.tail.length - 512)).take 8 = Text.asBytes "EFI PART"
  · simp only [if_pos hgpt]
  · by_cases hmd : Sniff.mdChunk s.tail = true
    · simp only [if_neg hgpt, if_pos hmd]
    · simp only [if_neg hgpt, if_neg hmd]

/-! ## The ladder with its reads -/

/-- What the `k`-th opening of a device node is read for, when it is sniffed. -/
def sniffed (os : Os V) (path : String) (k : Nat) : List ReadCall :=
  match (os.node path).opened k with
  | .error _ => []
  | .ok h => (sniff h).2

/-- And when it is scanned. -/
def scanned (os : Os V) (path : String) (k : Nat) : List ReadCall :=
  match (os.node path).opened k with
  | .error _ => []
  | .ok h => (firstNonzero h).2

/-- A verdict, and what was read for it. -/
structure Judged where
  verdict : Verdict
  sniffed : List ReadCall
  scanned : List ReadCall

/-- The loop over the probes with what it reads, up to the one that settles
    it. -/
def probeLogged (os : Os V) (m : Machine) (path : String) (remote me : Option String)
    (found : Option Esp) : List String → Option Verdict × List ReadCall
  | [] => (none, [])
  | probe :: rest =>
      match judgeProbe os m path remote me found probe with
      | some verdict => (some verdict, sniffed os probe 0)
      | none =>
          ((probeLogged os m path remote me found rest).1,
            sniffed os probe 0 ++ (probeLogged os m path remote me found rest).2)

/-- The ladder of `judge`, with these tables of signatures, and with what is read
    on the way down. -/
def judgeLogged (named : List (Nat × List UInt8 × String)) (checks : List (Sniff → Option String))
    (os : Os V) (m : Machine) (sys name path : String) (sizeBytes : UInt64) (removable : Bool)
    (me : Option String) (found : Option Esp) : Judged :=
  if sizeBytes = 0 then ⟨.unreadable "no medium (reports zero sectors)", [], []⟩
  else if removable then
    match (readTrimmed os (pathJoin sys "device/model")).filter (· ≠ "") with
    | some model => ⟨.foreign ("removable media (" ++ model ++ ")"), [], []⟩
    | none => ⟨.foreign "removable media", [], []⟩
  else
    let remote := remoteTransport os sys
    let parts := partitions os sys name
    let probed := probeLogged os m path remote me found (probes os sys name path)
    match probed.1 with
    | some verdict => ⟨verdict, probed.2, []⟩
    | none =>
        match remote with
        | some via => ⟨.foreign ("attached over " ++ via), probed.2, []⟩
        | none =>
            let log := probed.2 ++ sniffed os path 1
            match sniffNode os path 1 with
            | .error e => ⟨.unreadable e, log, []⟩
            | .ok s =>
                if parts ≠ [] then
                  ⟨.foreign ((nameWith named s).getD "partition table" ++ ", " ++
                    toString parts.length ++ " partition" ++ plural parts.length), log, []⟩
                else
                  match (nameWith named s).or (tailWith checks s) with
                  | some what => ⟨.foreign what, log, []⟩
                  | none =>
                      match firstNonzeroNode os path 2 with
                      | .ok none => ⟨.blank, log, scanned os path 2⟩
                      | .ok (some off) =>
                          ⟨.foreign ("unrecognised data at offset " ++ toString off), log,
                            scanned os path 2⟩
                      | .error e => ⟨.unreadable e, log, scanned os path 2⟩

variable {os : Os V} {m : Machine} {path : String} {me : Option String} {found : Option Esp}

theorem probeLogged_fst {remote : Option String} (ps : List String) :
    (probeLogged os m path remote me found ps).1 =
      ps.findSome? (judgeProbe os m path remote me found) := by
  induction ps with
  | nil => rfl
  | cons probe rest ih =>
      unfold probeLogged
      rcases h : judgeProbe os m path remote me found probe with _ | verdict
      · simp only [List.findSome?_cons, h, ih]
      · simp only [List.findSome?_cons, h]

/-- With the tables of the source the verdict is the one of `judge`. -/
theorem judgeLogged_verdict (os : Os V) (m : Machine) (sys name path : String)
    (sizeBytes : UInt64) (removable : Bool) (me : Option String) (found : Option Esp) :
    (judgeLogged namedSignatures tailChecks os m sys name path sizeBytes removable me
      found).verdict = judge os m sys name path sizeBytes removable me found := by
  unfold judgeLogged judge
  simp only [probeLogged_fst, ← signature_eq, ← tailSignature_eq]
  -- The same ladder twice, so the two are taken down together.
  by_cases hsize : sizeBytes = 0
  · simp only [if_pos hsize]
  simp only [if_neg hsize]
  by_cases hremovable : removable = true
  · simp only [if_pos hremovable]
    rcases (readTrimmed os (pathJoin sys "device/model")).filter (· ≠ "") with _ | model
    · rfl
    · rfl
  simp only [if_neg hremovable]
  rcases (probes os sys name path).findSome?
      (judgeProbe os m path (remoteTransport os sys) me found) with _ | verdict
  · rcases remoteTransport os sys with _ | via
    · rcases sniffNode os path 1 with e | s
      · rfl
      · by_cases hparts : partitions os sys name ≠ []
        · simp only [if_pos hparts]
        · simp only [if_neg hparts]
          rcases (signature s).or s.tailSignature with _ | what
          · rcases firstNonzeroNode os path 2 with e | _ | off
            · rfl
            · rfl
            · rfl
          · rfl
    · rfl
  · rfl

end Zeroboot
