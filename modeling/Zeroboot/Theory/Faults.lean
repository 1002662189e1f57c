import Zeroboot.Lib.Torn
import Zeroboot.Theory.Ownership

/-!
# A Claim That Fails

What a drive says about its owner after a claim could not be written.

The claim file is cut before it is written, so from there on the old claim is
gone. A file that was cut and not written says that nobody owns the drive, and
one that was written in part says what that part says, which is somebody else
as soon as the name is cut short. The error that is returned tells none of
these apart.

What a call other than a write leaves of the file when it fails is the
driver's affair, and part of the fault. So is how much of the text a write has
put there. From then on nothing happens to the file any more, and whoever reads
the claim reads that.

## Main definitions

* `Fault`, `FailsAt`: Where writing a claim fails.
* `Kept`: What is left says what was there before.

## Theorems

* `fileFails_of_error`: A claim that fails does so at one of the calls.
* `FileFails.claim_iff`: What is read then.
* `not_kept_of_cut`: A write that stops within the name names somebody else.
* `failed_claim_iff`: When a claim that fails leaves the claim as it was.
-/

namespace Zeroboot

open Volume

variable {V N : Type} {F : Ops V N}

/-- Where writing a claim fails: at opening the device, or at one of the calls
    on the volume. A write that fails has that much of the text in the file,
    and another call leaves something there, or no file. -/
inductive Fault where
  | opening
  | createFile (left : Option (List UInt8))
  | truncate (left : Option (List UInt8))
  | write (k : Nat)
  | flush (left : Option (List UInt8))
  deriving DecidableEq

/-- The calls on the volume go through up to the one that fails. -/
inductive FileFails (F : Ops V N) (vol : V) (c : Claim) : Fault → Prop where
  | createFile {v : V} {e : String}
      (h1 : F.createFile (F.createDir vol "stormcos").1 claimPath = (v, .error e)) :
      FileFails F vol c (.createFile (contentOf F v claimPath))
  | truncate {v1 v : V} {n : N} {e : String}
      (h1 : F.createFile (F.createDir vol "stormcos").1 claimPath = (v1, .ok n))
      (h2 : F.truncate v1 n 0 = (v, .error e)) :
      FileFails F vol c (.truncate (contentOf F v claimPath))
  | write {v1 v2 v : V} {n : N} {e : String} {k : Nat}
      (h1 : F.createFile (F.createDir vol "stormcos").1 claimPath = (v1, .ok n))
      (h2 : F.truncate v1 n 0 = (v2, .ok ()))
      (h3 : F.writeAll v2 n 0 (Text.asBytes c.render) = (v, .error e))
      (hk : F.readToEnd v n = some ((Text.asBytes c.render).take k)) : FileFails F vol c (.write k)
  | flush {v1 v2 v3 v : V} {n : N} {e : String}
      (h1 : F.createFile (F.createDir vol "stormcos").1 claimPath = (v1, .ok n))
      (h2 : F.truncate v1 n 0 = (v2, .ok ()))
      (h3 : F.writeAll v2 n 0 (Text.asBytes c.render) = (v3, .ok ()))
      (h4 : F.flush v3 n = (v, .error e)) :
      FileFails F vol c (.flush (contentOf F v claimPath))

/-- Writing a claim on the disk fails there. -/
inductive FailsAt (F : Ops V N) (disk : Disk V) (c : Claim) : Fault → Prop where
  | opening {e : String} (hopen : disk.openWrite = .error e) : FailsAt F disk c .opening
  | file {start stop : UInt64} {vol : V} {fault : Fault}
      (hx : espExtent disk = some (start, stop)) (hopen : disk.openWrite = .ok ())
      (hm : disk.mount start stop = .ok vol) (h : FileFails F vol c fault) : FailsAt F disk c fault

/-- The claim that a file with these bytes says, or no file. -/
def claimIn (left : Option (List UInt8)) : Option Claim :=
  (left.bind Text.fromUtf8).bind Claim.parse

/-- What is left in the claim file says what was there before. -/
def Kept (before : Option Claim) (c : Claim) : Fault → Prop
  | .opening => True
  | .createFile left => claimIn left = before
  | .truncate left => claimIn left = before
  | .write k => claimIn (some ((Text.asBytes c.render).take k)) = before
  | .flush left => claimIn left = before

/-! ## The claim file -/

section ClaimFile

variable {vol v v1 : V} {n : N} {c : Claim} {fault : Fault}

theorem claimIn_contentOf (F : Ops V N) (v : V) :
    (readFile F v claimPath).bind Claim.parse = claimIn (contentOf F v claimPath) := by
  rw [readFile_eq]
  rfl

theorem contentOf_of_node {bs : List UInt8} (hself : F.openFile v claimPath = some n)
    (hread : F.readToEnd v n = some bs) : contentOf F v claimPath = some bs := by
  unfold contentOf
  rw [hself, Option.bind_some, hread]

/-- A claim that fails does so at one of the calls. -/
theorem fileFails_of_error (hF : F.Lawful) (hshort : F.FailsShort) {err : String}
    (h : (writeClaimFile F vol c).2 = .error err) : ∃ fault, FileFails F vol c fault := by
  rcases writeClaimFile_cases F vol c with ⟨v, e, h1, _⟩ | ⟨v1, n, h1, ⟨v, e, h2, _⟩ |
    ⟨v2, h2, ⟨v, e, h3, _⟩ | ⟨v3, h3, hw⟩⟩⟩
  · exact ⟨_, .createFile h1⟩
  · exact ⟨_, .truncate h1 h2⟩
  · rcases readToEnd_torn hshort h3 (hF.truncate_readToEnd h2) with ⟨k, hk⟩
    exact ⟨.write k, .write h1 h2 h3 hk⟩
  · rw [hw] at h
    exact ⟨_, .flush h1 h2 h3 (Prod.ext rfl h)⟩

theorem FileFails.error (h : FileFails F vol c fault) :
    ∃ e, (writeClaimFile F vol c).2 = .error e := by
  rw [writeClaimFile_eq]
  cases h with
  | createFile h1 =>
      simp only [h1]
      exact ⟨_, rfl⟩
  | truncate h1 h2 =>
      simp only [h1, h2]
      exact ⟨_, rfl⟩
  | write h1 h2 h3 _ =>
      simp only [h1, h2, h3]
      exact ⟨_, rfl⟩
  | flush h1 h2 h3 h4 =>
      simp only [h1, h2, h3, h4]
      exact ⟨_, rfl⟩

/-- Nothing happens to the file behind the call that fails, so what is read is
    what that call left there. -/
theorem FileFails.claim_iff (hF : F.Lawful) (hshort : F.FailsShort) (h : FileFails F vol c fault)
    (before : Option Claim) :
    (readFile F (writeClaimFile F vol c).1 claimPath).bind Claim.parse = before ↔
      Kept before c fault := by
  rw [claimIn_contentOf, writeClaimFile_eq]
  cases h with
  | createFile h1 =>
      simp only [h1]
      exact Iff.rfl
  | truncate h1 h2 =>
      simp only [h1, h2]
      exact Iff.rfl
  | @write v1 v2 v n e k h1 h2 h3 hk =>
      simp only [h1, h2, h3]
      have hself : F.openFile v claimPath = some n := by
        rw [(hshort.untouched h3).openFile, (hF.truncate_untouched h2).openFile,
          hF.createFile_self h1]
      rw [contentOf_of_node hself hk]
      exact Iff.rfl
  | flush h1 h2 h3 h4 =>
      simp only [h1, h2, h3, h4]
      exact Iff.rfl

end ClaimFile

/-! ## The drive -/

variable {drive err : String} {disk disk' : Disk V} {e : Esp} {c : Claim}

/-- A claim that fails leaves the claim as it was exactly when the device did not
    open, or what the call that failed left in the file says what was there. -/
theorem failed_claim_iff (hF : F.Lawful) (hshort : F.FailsShort)
    (hread : Esp.read F disk = .ok (some e))
    (hw : writeClaim F drive disk c = (disk', .error err)) :
    (∃ fault, FailsAt F disk c fault) ∧ ∀ fault, FailsAt F disk c fault →
      ((∃ e', Esp.read F disk' = .ok (some e') ∧ e'.claim = e.claim) ↔
        Kept e.claim c fault) := by
  rcases read_eq_some hread with ⟨start, stop, vol, hx, hopenRead, hm, rfl⟩
  rcases hopen : disk.openWrite with e | ⟨⟩
  · -- The device does not open, and nothing happens to it.
    have hsame : disk' = disk := by
      rcases writeClaim_cases F drive disk c with ⟨_, herr⟩ | ⟨_, _, _, _, hopened, _⟩
      · rw [herr] at hw
        exact (Prod.mk.inj hw).1.symm
      · rw [hopen] at hopened
        exact absurd hopened (by simp only [reduceCtorEq, not_false_eq_true])
    refine ⟨⟨.opening, .opening hopen⟩, fun fault hfault => ?_⟩
    cases hfault with
    | opening => exact iff_of_true ⟨_, by rw [hsame, hread], rfl⟩ trivial
    | file _ hopened =>
        rw [hopen] at hopened
        exact absurd hopened (by simp only [reduceCtorEq, not_false_eq_true])
  · have hput : writeClaim F drive disk c =
        (disk.put start stop (writeClaimFile F vol c).1, (writeClaimFile F vol c).2) := by
      unfold writeClaim
      rw [hx]
      simp only [hopen, hm]
    rw [hput] at hw
    rcases Prod.mk.inj hw with ⟨rfl, herr⟩
    refine ⟨?_, fun fault hfault => ?_⟩
    · rcases fileFails_of_error hF hshort herr with ⟨fault, h⟩
      exact ⟨fault, .file hx hopen hm h⟩
    · cases hfault with
      | opening hclosed =>
          rw [hopen] at hclosed
          exact absurd hclosed (by simp only [reduceCtorEq, not_false_eq_true])
      | file hx' _ hm' h =>
          -- The volume the calls were made on is the one that was read.
          rw [hx, Option.some_inj, Prod.mk.injEq] at hx'
          rw [← hx'.1, ← hx'.2, hm, Except.ok.injEq] at hm'
          rw [← hm'] at h
          rw [← h.claim_iff hF hshort, read_put _ hx hopenRead]
          simp only [Except.ok.injEq, Option.some_inj, exists_eq_left', ofVolume_claim]

/-- A name that was cut short is a name all the same. -/
theorem parse_cut {part : String} (hline : '\n' ∉ part.toList) (hne : Text.trim part ≠ "") :
    Claim.parse ("node=" ++ part) = some { node := Text.trim part, claimed := "" } := by
  have hlist : ("node=" ++ part).toList ≠ [] := by
    rw [String.toList_append]
    exact List.append_ne_nil_of_left_ne_nil (by decide) _
  have hfeed : '\n' ∉ ("node=" ++ part).toList := by
    rw [String.toList_append, List.mem_append]
    rintro (hm | hm)
    · exact absurd hm (by decide)
    · exact hline hm
  have hlines : Text.lines ("node=" ++ part) = ["node=" ++ part] := by
    rw [Text.lines, Text.lineChars_last hfeed hlist, List.map_cons, List.map_nil,
      String.ofList_toList]
  have hparse : Claim.parseLine (none, "") ("node" ++ "=" ++ part) =
      (some (Text.trim part), "") := by
    unfold Claim.parseLine
    rw [splitOnce_append "node" (by decide) part]
    simp only [show Text.trim "node" = "node" by decide, if_true]
    rw [Option.filter_some, if_pos (decide_eq_true hne)]
  unfold Claim.parse
  rw [hlines, List.foldl_cons, List.foldl_nil]
  simp only [show ("node=" : String) = "node" ++ "=" by decide, hparse, Option.map_some]

/-- So a write that stops within the name leaves a claim by the part of it. -/
theorem not_kept_of_cut {before : Option Claim} {part rest : String} (hnode : c.node = part ++ rest)
    (hline : '\n' ∉ part.toList) (hne : Text.trim part ≠ "")
    (hbefore : before ≠ some { node := Text.trim part, claimed := "" }) :
    ¬ Kept before c (.write (Text.asBytes ("node=" ++ part)).length) := by
  have hrender : c.render = "node=" ++ part ++ (rest ++ ("\nclaimed=" ++ (c.claimed ++ "\n"))) := by
    unfold Claim.render
    simp only [hnode, String.append_assoc]
  have hpart : (Text.asBytes c.render).take (Text.asBytes ("node=" ++ part)).length =
      Text.asBytes ("node=" ++ part) := by
    rw [hrender, Text.asBytes_append ("node=" ++ part), List.take_left]
  intro hkept
  have hparse : claimIn (some ((Text.asBytes c.render).take
      (Text.asBytes ("node=" ++ part)).length)) = before := hkept
  unfold claimIn at hparse
  rw [hpart, Option.bind_some, Text.fromUtf8_asBytes, Option.bind_some,
    parse_cut hline hne] at hparse
  exact hbefore hparse.symm

/-- A medium that fills up lets the write of a claim fail. -/
theorem torn_fileFails {room : Nat} {vol v1 : Memory} {n : String}
    (h1 : memory.createFile (memory.createDir vol "stormcos").1 claimPath = (v1, .ok n))
    (hroom : room < (Text.asBytes c.render).length) :
    FileFails (tornMemory room) vol c (.write room) := by
  have h2 : memory.truncate v1 n 0 = ((memory.truncate v1 n 0).1, .ok ()) := rfl
  have h3 : (tornMemory room).writeAll (memory.truncate v1 n 0).1 n 0 (Text.asBytes c.render) =
      ((memory.writeAll (memory.truncate v1 n 0).1 n 0 ((Text.asBytes c.render).take room)).1,
        .error "no space left on device") := by
    simp only [tornMemory, if_pos hroom]
  have hread := memory_lawful.writeAll_readToEnd (tornMemory_error h3)
    (memory_lawful.truncate_readToEnd h2) (Nat.zero_le _)
  rw [List.take_nil, List.nil_append, List.drop_nil, List.append_nil] at hread
  exact .write h1 h2 h3 hread

/-- An ESP that nobody has claimed. -/
def unclaimedVolume : Memory :=
  Bench.espVolume "rd.stormblock.slab=/dev/sda2 stormblock.volume=root" none

theorem unclaimedVolume_claim (room : Nat) :
    (Esp.ofVolume (tornMemory room) unclaimedVolume).claim = none := by
  have hnone : unclaimedVolume.openFile claimPath = none := by decide
  have hopen : (tornMemory room).openFile unclaimedVolume claimPath = none := hnone
  rw [ofVolume_claim]
  unfold readFile
  rw [hopen, Option.bind_none, Option.bind_none]

/-- Claiming it fails in the middle of the write. -/
theorem unclaimedVolume_torn (room : Nat) (c : Claim)
    (hroom : room < (Text.asBytes c.render).length) :
    FailsAt (tornMemory room) (Bench.formatted unclaimedVolume) c (.write room) ∧
      ∃ err, writeClaim (tornMemory room) "/dev/sda" (Bench.formatted unclaimedVolume) c =
        ((Bench.formatted unclaimedVolume).put (34 * lbSize) (1058 * lbSize)
          (writeClaimFile (tornMemory room) unclaimedVolume c).1, .error err) := by
  rcases unclaimedDisk_created with ⟨v1, h1⟩
  have hfile : FileFails (tornMemory room) unclaimedVolume c (.write room) :=
    torn_fileFails h1 hroom
  rcases hfile.error with ⟨err, herr⟩
  refine ⟨.file (Bench.espExtent_formatted _) rfl (Bench.mount_formatted _) hfile, err, ?_⟩
  rw [Bench.writeClaim_formatted, herr]

/-- Not a byte of it was written, and nobody owns the drive still. -/
theorem failed_claim_iff_full : ∃ disk err e,
    writeClaim (tornMemory 0) "/dev/sda" (Bench.formatted unclaimedVolume)
        { node := "r230", claimed := "1970-01-01T00:00:00Z" } = (disk, .error err) ∧
      Esp.read (tornMemory 0) disk = .ok (some e) ∧ e.claim = none := by
  rcases unclaimedVolume_torn 0 { node := "r230", claimed := "1970-01-01T00:00:00Z" }
    (by decide) with ⟨hfails, err, hw⟩
  have hread := Bench.read_formatted (tornMemory 0) unclaimedVolume
  have hkept : Kept (Esp.ofVolume (tornMemory 0) unclaimedVolume).claim
      { node := "r230", claimed := "1970-01-01T00:00:00Z" } (.write 0) := by
    rw [unclaimedVolume_claim]
    unfold Kept
    decide
  rcases ((failed_claim_iff (tornMemory_lawful 0) (tornMemory_failsShort 0) hread hw).2 _
    hfails).mpr hkept with ⟨e, he, hclaim⟩
  exact ⟨_, err, e, hw, he, hclaim.trans (unclaimedVolume_claim 0)⟩

/-- The medium fills up in the middle of the name, and the drive of `r230`
    says that it is the drive of `r23`. -/
theorem torn_name : ∃ disk err e e',
    Esp.read (tornMemory 8) (Bench.formatted unclaimedVolume) = .ok (some e) ∧ e.claim = none ∧
      writeClaim (tornMemory 8) "/dev/sda" (Bench.formatted unclaimedVolume)
        { node := "r230", claimed := "1970-01-01T00:00:00Z" } = (disk, .error err) ∧
      Esp.read (tornMemory 8) disk = .ok (some e') ∧
      e'.claim = some { node := "r23", claimed := "" } := by
  have hafter : (readFile (tornMemory 8) (writeClaimFile (tornMemory 8) unclaimedVolume
      { node := "r230", claimed := "1970-01-01T00:00:00Z" }).1 claimPath).bind Claim.parse =
        some { node := "r23", claimed := "" } := by
    decide +kernel
  rcases unclaimedVolume_torn 8 { node := "r230", claimed := "1970-01-01T00:00:00Z" }
    (by decide) with ⟨_, err, hw⟩
  refine ⟨_, err, _, _, Bench.read_formatted _ _, unclaimedVolume_claim 8, hw,
    read_put _ (Bench.espExtent_formatted _) rfl, ?_⟩
  rw [ofVolume_claim, hafter]

end Zeroboot
