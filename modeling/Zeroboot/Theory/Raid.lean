import Zeroboot.Theory.Signatures

/-!
# RAID Members That Are Blank From the Front

A disk pulled out of an array keeps its superblock at the end. The tail is read
for that reason, and the superblock is looked for at every fourth kilobyte of
it, counted from where the tail begins.

Of the two kinds that sit at the end, v1.0 stands 8 KiB before it and v0.90 on
the last boundary of 64 KiB that leaves as much behind it. The first is a whole
number of steps from the start of the tail, whatever the length. The second is
aligned to the start of the drive, and it is only when the length is a whole
number of steps that the two grids are one (`RaidMember.mdChunk_iff`). On any other
drive the steps fall inside the superblock and beside its first bytes, and the
drive is called unrecognised data at an offset.

It is left alone in both cases; what is lost is its name.

## Main definitions

* `RaidMember`: A drive of zeros but for a superblock near its end.
* `mdVerdict`: What such a drive is to be called.
* `magicAt`, `rawDrive`, `oddMember`: A v0.90 member with an odd sector.

## Theorems

* `mdChunk_eq_true_iff`: Where the scan for a superblock looks.
* `RaidMember.mdChunk_iff`: When it finds one.
* `RaidMember.tailSignature_eq`: The name of a member, as the tail has it.
* `judge_member_unnamed`: What a member without a name is called.
* `judge_member_iff`: When a member is named as one.
-/

namespace Zeroboot

open Medium

variable {V N : Type}

/-- A drive of whole sectors, longer than its two ends, with nothing on it but
    an mdraid superblock of 4 KiB: a v1.0 one 8 KiB before its end, or a v0.90
    one on the last boundary of 64 KiB that leaves as much behind it. -/
structure RaidMember (c : Content) (off : Nat) : Prop where
  sectors : 512 ∣ c.len
  long : HEAD + TAIL < c.len
  place : off = c.len - 8192 ∨ off = c.len / 65536 * 65536 - 65536
  magic : c.slice off 4 = Sniff.mdMagic
  zero : ∀ o, o < off ∨ off + 4096 ≤ o → c.byte o = 0

/-- What such a drive is to be called. -/
def mdVerdict : Verdict :=
  .foreign "Linux md RAID member (superblock at the end)"

/-! ## The scan for a superblock -/

/-- The scan looks at the start of every whole chunk. -/
theorem mdChunk_eq_true_iff (t : List UInt8) :
    Sniff.mdChunk t = true ↔
      ∃ k, k * 4096 + 4096 ≤ t.length ∧ (t.drop (k * 4096)).take 4 = Sniff.mdMagic := by
  -- One chunk at a time, as the scan goes.
  induction hn : t.length using Nat.strong_induction_on generalizing t with
  | _ n ih =>
      subst hn
      rw [Sniff.mdChunk]
      by_cases hlong : 4096 ≤ t.length
      · have hless : (t.drop 4096).length < t.length := by
          rw [List.length_drop]
          omega
        rw [dif_pos hlong, Bool.or_eq_true, beq_iff_eq, ih _ hless (t.drop 4096) rfl]
        simp only [List.length_drop, List.drop_drop]
        constructor
        · rintro (hhere | ⟨k, hk, hmagic⟩)
          · exact ⟨0, by omega, by rw [Nat.zero_mul, List.drop_zero]; exact hhere⟩
          · rw [Nat.add_comm, ← Nat.succ_mul] at hmagic
            refine ⟨k + 1, ?_, hmagic⟩
            rw [Nat.succ_mul]
            exact Nat.add_le_of_le_sub hlong hk
        · rintro ⟨_ | k, hk, hmagic⟩
          · rw [Nat.zero_mul, List.drop_zero] at hmagic
            exact Or.inl hmagic
          · rw [Nat.succ_mul] at hk
            rw [Nat.succ_mul, Nat.add_comm] at hmagic
            exact Or.inr ⟨k, Nat.le_sub_of_add_le hk, hmagic⟩
      · rw [dif_neg hlong]
        refine iff_of_false Bool.false_ne_true ?_
        rintro ⟨k, hk, _⟩
        omega

/-- A piece of a piece of a content. -/
theorem take_drop_slice (c : Content) {off n i j : Nat} (h : i + j ≤ n) :
    ((c.slice off n).drop i).take j = c.slice (off + i) j := by
  rw [show n = i + (j + (n - (i + j))) by omega, ← Content.slice_append,
    List.drop_left' (Content.length_slice c off i), ← Content.slice_append,
    List.take_left' (Content.length_slice c (off + i) j)]

theorem mdChunk_tailOf {c : Content} (hlong : HEAD + TAIL < c.len) :
    Sniff.mdChunk (tailOf c) = true ↔
      ∃ k, k < 256 ∧ c.slice (c.len - TAIL + k * 4096) 4 = Sniff.mdMagic := by
  have htail : tailOf c = c.slice (c.len - TAIL) TAIL := if_pos hlong
  -- The tail is as long as 256 chunks, and four bytes fit into each.
  have hchunk (k : Nat) : k * 4096 + 4096 ≤ TAIL ↔ k < 256 := by
    rw [← Nat.succ_mul, show TAIL = 256 * 4096 by decide]
    exact Nat.mul_le_mul_right_iff (by decide)
  have hfits (k : Nat) (hk : k * 4096 + 4096 ≤ TAIL) : k * 4096 + 4 ≤ TAIL :=
    Nat.le_trans (Nat.add_le_add_left (by decide) _) hk
  rw [mdChunk_eq_true_iff, htail, Content.length_slice]
  constructor
  · intro ⟨k, hk, hmagic⟩
    rw [take_drop_slice c (hfits k hk)] at hmagic
    exact ⟨k, (hchunk k).mp hk, hmagic⟩
  · intro ⟨k, hk, hmagic⟩
    refine ⟨k, (hchunk k).mpr hk, ?_⟩
    rw [take_drop_slice c (hfits k ((hchunk k).mpr hk))]
    exact hmagic

/-! ## The two ends of a member -/

namespace RaidMember

variable {c : Content} {off : Nat}

/-- No byte of the magic is zero, so it stands inside the superblock. -/
theorem inside (hm : RaidMember c off) {p : Nat} (hp : c.slice p 4 = Sniff.mdMagic) :
    off ≤ p ∧ p + 4 ≤ off + 4096 := by
  have hbytes : [c.byte p, c.byte (p + 1), c.byte (p + 2), c.byte (p + 3)] =
      [0xfc, 0x4e, 0x2b, 0xa9] := hp
  simp only [List.cons.injEq, and_true] at hbytes
  rcases hbytes with ⟨h0, _, _, h3⟩
  constructor
  · by_contra hlt
    rw [hm.zero p (Or.inl (by omega))] at h0
    exact absurd h0 (by decide)
  · by_contra hlt
    rw [hm.zero (p + 3) (Or.inr (by omega))] at h3
    exact absurd h3 (by decide)

/-- The superblock lies in the last megabyte, and not in the last sector. -/
theorem bounds (hm : RaidMember c off) : c.len - TAIL ≤ off ∧ off + 4096 ≤ c.len - 512 := by
  have hlong := hm.long
  simp only [HEAD, TAIL] at hlong ⊢
  rcases hm.place with h | h <;> omega

/-- A member is a chunk's worth away from the grid of the scan by the odd part
    of its length, unless it stands 8 KiB before the end. -/
theorem mdChunk_iff (hm : RaidMember c off) :
    Sniff.mdChunk (tailOf c) = true ↔
      off + 8192 = c.len ∨ c.len % 4096 = 0 ∨
        c.slice (off + c.len % 4096) 4 = Sniff.mdMagic := by
  have hlong := hm.long
  have hbounds := hm.bounds
  rw [mdChunk_tailOf hlong]
  simp only [HEAD, TAIL] at hlong hbounds ⊢
  constructor
  · rintro ⟨k, hk, hmagic⟩
    have hinside := hm.inside hmagic
    rcases hm.place with hv1 | hv0
    · exact Or.inl (by omega)
    · -- Only one step of the scan falls into the superblock.
      have hstep : c.len - 2 ^ 20 + k * 4096 = off + c.len % 4096 := by omega
      rw [hstep] at hmagic
      exact Or.inr (Or.inr hmagic)
  · intro hcond
    by_cases hv1 : off + 8192 = c.len
    · refine ⟨254, by decide, ?_⟩
      rw [show c.len - 2 ^ 20 + 254 * 4096 = off by omega]
      exact hm.magic
    · have hv0 : off = c.len / 65536 * 65536 - 65536 := by
        rcases hm.place with h | h
        · exact absurd h (by omega)
        · exact h
      have hmagic : c.slice (off + c.len % 4096) 4 = Sniff.mdMagic := by
        rcases hcond with h | h | h
        · exact absurd h hv1
        · rw [h]
          exact hm.magic
        · exact h
      refine ⟨(off + c.len % 4096 - (c.len - 2 ^ 20)) / 4096, by omega, ?_⟩
      rw [show c.len - 2 ^ 20 + (off + c.len % 4096 - (c.len - 2 ^ 20)) / 4096 * 4096 =
        off + c.len % 4096 by omega]
      exact hmagic

theorem len_pos (hm : RaidMember c off) : 0 < c.len :=
  Nat.lt_of_le_of_lt (Nat.zero_le _) hm.long

theorem head_zero (hm : RaidMember c off) : ∀ b ∈ headOf c, b = 0 := by
  refine (Content.forall_mem_slice c 0 _ (· = 0)).mpr fun o _ hhi => hm.zero o (Or.inl ?_)
  have hlong := hm.long
  have hbounds := hm.bounds
  simp only [HEAD, TAIL] at hlong hbounds hhi
  omega

theorem not_startsWith (hm : RaidMember c off) : ¬ StartsWith c slabMagic := by
  intro hs
  have hfirst : (c.slice 0 8)[0]? = some 0x53 := by
    have hmagic : c.slice 0 8 = slabMagic := hs.2
    rw [hmagic]
    decide
  rw [Content.getElem?_slice c 0 8 0 (by decide), Option.some_inj] at hfirst
  have hbounds := hm.bounds
  have hlong := hm.long
  rw [hm.zero _ (Or.inl (by simp only [HEAD, TAIL] at hlong hbounds; omega))] at hfirst
  exact absurd hfirst (by decide)

/-- The name of a member, as its ends have it. -/
theorem tailSignature_eq (hm : RaidMember c off) :
    (signature ⟨headOf c, tailOf c⟩).or (Sniff.tailSignature ⟨headOf c, tailOf c⟩) =
      if Sniff.mdChunk (tailOf c) = true then some "Linux md RAID member (superblock at the end)"
      else none := by
  have htail : tailOf c = c.slice (c.len - TAIL) TAIL := if_pos hm.long
  rw [signature_zero hm.head_zero, Option.none_or, Sniff.tailSignature]
  simp only
  rw [if_neg]
  rintro ⟨_, hgpt⟩
  -- The last sector is zero, and a backup header is not.
  have hmem : (0x45 : UInt8) ∈ ((tailOf c).drop ((tailOf c).length - 512)).take 8 := by
    rw [hgpt]
    decide
  rw [htail, Content.length_slice, take_drop_slice c (by decide)] at hmem
  have hlong := hm.long
  have hbounds := hm.bounds
  have hzero := (Content.forall_mem_slice c _ 8 (· = 0)).mpr (fun o hlo _ =>
    hm.zero o (Or.inr (by simp only [HEAD, TAIL] at hlong hbounds hlo; omega))) _ hmem
  exact absurd hzero (by decide)

/-- The scan has the superblock to find. -/
theorem not_zero (hm : RaidMember c off) : ¬ ∀ o, Examined c.len o → c.byte o = 0 := by
  intro hzero
  have hbounds := hm.bounds
  have hmagic : [c.byte off, c.byte (off + 1), c.byte (off + 2), c.byte (off + 3)] =
      [0xfc, 0x4e, 0x2b, 0xa9] := hm.magic
  simp only [List.cons.injEq, and_true] at hmagic
  rw [hzero off (Or.inr (Or.inr ⟨hbounds.1, by omega⟩))] at hmagic
  exact absurd hmagic.1 (by decide)

end RaidMember

/-! ## The verdict -/

section Verdict

variable {os : Os V} {content : String → Except String Content} {sys name path : String}
  {sizeBytes : UInt64} {c : Content} {off : Nat}

/-- A member opens, and is no slab. -/
theorem RaidMember.passed (hm : RaidMember c off) (hr : os.ReadsAs content)
    (hc : content path = .ok c) : Passed os path path := by
  refine (passed_iff hr).mpr ⟨?_, Or.inl ⟨c, hc, hm.len_pos⟩⟩
  rintro ⟨c', hc', hs⟩
  rw [Except.ok.inj (hc'.symm.trans hc)] at hs
  exact hm.not_startsWith hs

/-- A member whose superblock the steps of the scan miss is called what the
    last scan finds. -/
theorem judge_member_unnamed (hr : os.ReadsAs content) (m : Machine) (me : Option String)
    (found : Option Esp) (hsize : sizeBytes ≠ 0) (hlocal : remoteTransport os sys = none)
    (hparts : partitions os sys name = [])
    (hc : content path = .ok c) (hm : RaidMember c off)
    (hmiss : Sniff.mdChunk (tailOf c) = false) :
    ∃ o : Nat, judge os m sys name path sizeBytes false me found =
      .foreign ("unrecognised data at offset " ++ toString o) := by
  have hname := hm.tailSignature_eq
  rw [hmiss, if_neg Bool.false_ne_true, Option.or_eq_none_iff] at hname
  rcases hr.opened path 2 c hc with ⟨h, hopen, hd⟩
  rcases found_of_not_zero hd hm.not_zero with ⟨o, ho⟩
  refine ⟨o, judge_of_found ⟨⟨hsize, rfl, hlocal⟩, hm.passed hr hc, hparts, _,
    sniffNode_content hr hc hm.len_pos 1, hname⟩ ?_⟩
  rw [firstNonzeroNode, hopen]
  exact ho

/-- The two texts differ from their first letters on. -/
theorem unrecognised_ne_md (o : Nat) :
    Verdict.foreign ("unrecognised data at offset " ++ toString o) ≠ mdVerdict := by
  intro heq
  have hfirst : ("unrecognised data at offset " ++ toString o).toList.head? = some 'u' := by
    rw [String.toList_append]
    rfl
  rw [Verdict.foreign.inj heq] at hfirst
  exact absurd hfirst (by decide)

/-- A drive that is blank from the front is named as the RAID member it is
    exactly when its superblock is the one 8 KiB before its end, its length is a
    whole number of chunks, or its superblock repeats the magic where the odd
    part of the length puts the scan. -/
theorem judge_member_iff (hr : os.ReadsAs content) (m : Machine) (me : Option String)
    (found : Option Esp) (hsize : sizeBytes ≠ 0) (hlocal : remoteTransport os sys = none)
    (hparts : partitions os sys name = [])
    (hc : content path = .ok c) (hm : RaidMember c off) :
    judge os m sys name path sizeBytes false me found = mdVerdict ↔
      off + 8192 = c.len ∨ c.len % 4096 = 0 ∨
        c.slice (off + c.len % 4096) 4 = Sniff.mdMagic := by
  rw [← hm.mdChunk_iff]
  rcases hmd : Sniff.mdChunk (tailOf c) with _ | _
  · refine iff_of_false ?_ Bool.false_ne_true
    rcases judge_member_unnamed hr m me found hsize hlocal hparts hc hm hmd with ⟨o, ho⟩
    rw [ho]
    exact unrecognised_ne_md o
  · refine iff_of_true (judge_of_named ⟨hsize, rfl, hlocal⟩ (hm.passed hr hc) hparts
      (sniffNode_content hr hc hm.len_pos 1) ?_) rfl
    rw [hm.tailSignature_eq, if_pos hmd]

end Verdict

/-! ## Two members -/

/-- Zeros, but for the magic at an offset. -/
def magicAt (len off : Nat) (hlen : len < 2 ^ 63) : Content where
  len := len
  byte o := if off ≤ o then Sniff.mdMagic.getD (o - off) 0 else 0
  len_lt := hlen

theorem magicAt_member {len off : Nat} (hlen : len < 2 ^ 63) (hsectors : 512 ∣ len)
    (hlong : HEAD + TAIL < len) (hplace : off = len - 8192 ∨ off = len / 65536 * 65536 - 65536) :
    RaidMember (magicAt len off hlen) off where
  sectors := hsectors
  long := hlong
  place := hplace
  magic := by
    show [_, _, _, _] = Sniff.mdMagic
    simp only [magicAt, Nat.le_add_right, if_true, Nat.add_sub_cancel_left]
    rfl
  zero := by
    intro o ho
    show (if off ≤ o then Sniff.mdMagic.getD (o - off) 0 else 0) = 0
    by_cases hle : off ≤ o
    · -- Behind the four bytes there is nothing in the list.
      have hbehind : Sniff.mdMagic[o - off]? = none := by
        refine List.getElem?_eq_none ?_
        show 4 ≤ o - off
        omega
      rw [if_pos hle, List.getD_eq_getElem?_getD, hbehind, Option.getD_none]
    · rw [if_neg hle]

/-- A drive whose node reads as this content. -/
def rawDrive (c : Content) : Bench Volume.Memory where
  parts := []
  opened _ _ := .ok (steady c)
  disk := Bench.bare
  slabs _ := none

theorem rawDrive_readsAs (c : Content) : (rawDrive c).os.ReadsAs (fun _ => .ok c) where
  failed path k e he := absurd he (by simp only [reduceCtorEq, not_false_eq_true])
  opened path k c' hc := by
    rw [← Except.ok.inj hc]
    exact ⟨_, rfl, steady_delivers c⟩

theorem rawDrive_local (c : Content) : remoteTransport (rawDrive c).os "/sys/block/sda" = none := by
  have hadm := Bench.admitted (rawDrive c) none
  rw [Bench.sysOf_sda] at hadm
  exact hadm.localOnly

theorem rawDrive_parts (c : Content) : partitions (rawDrive c).os "/sys/block/sda" "sda" = [] := by
  have hparts : (rawDrive c).parts = [] := rfl
  rw [Bench.partitions_sda, hparts]
  rfl

/-- A v1.0 member on four megabytes and a sector is named. -/
theorem judge_member_v1 :
    judge (rawDrive (magicAt 4194816 4186624 (by decide))).os (Bench.machine none) "/sys/block/sda"
      "sda" "/dev/sda" 4194816 false none none = mdVerdict :=
  (judge_member_iff (rawDrive_readsAs _) (Bench.machine none) none none (by decide)
    (rawDrive_local _) (rawDrive_parts _) rfl
    (magicAt_member (by decide) (by decide) (by decide) (Or.inl (by decide)))).mpr
      (Or.inl (by decide))

/-- A v0.90 member on the same drive. -/
def oddMember : Content :=
  magicAt 4194816 4128768 (by decide)

theorem oddMember_member : RaidMember oddMember 4128768 :=
  magicAt_member (by decide) (by decide) (by decide) (Or.inr (by decide))

/-- The scan steps over the superblock 512 bytes behind its start. -/
theorem oddMember_missed : Sniff.mdChunk (tailOf oddMember) = false := by
  rw [Bool.eq_false_iff, ne_eq, oddMember_member.mdChunk_iff]
  rintro (h | h | h)
  · exact absurd h (by decide)
  · exact absurd h (by decide)
  · have hfirst := congrArg List.head? h
    exact absurd hfirst (by decide)

/-- It is a RAID member, and called something else. -/
theorem judge_member_v0 :
    RaidMember oddMember 4128768 ∧
      (∃ o : Nat, judge (rawDrive oddMember).os (Bench.machine none) "/sys/block/sda" "sda"
        "/dev/sda" 4194816 false none none =
          .foreign ("unrecognised data at offset " ++ toString o)) ∧
      judge (rawDrive oddMember).os (Bench.machine none) "/sys/block/sda" "sda" "/dev/sda" 4194816
        false none none ≠ mdVerdict := by
  have hsize : (4194816 : UInt64) ≠ 0 := by decide
  rcases judge_member_unnamed (rawDrive_readsAs oddMember) (Bench.machine none) none none
    hsize (rawDrive_local oddMember) (rawDrive_parts oddMember) rfl oddMember_member
    oddMember_missed with ⟨o, ho⟩
  refine ⟨oddMember_member, ⟨o, ho⟩, ?_⟩
  rw [ho]
  exact unrecognised_ne_md o

end Zeroboot
