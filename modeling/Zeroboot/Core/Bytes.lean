import Zeroboot.Lib.Medium
import Zeroboot.Lib.Text

/-!
# Reading What Is on a Drive

The byte half of `probe.rs`: reading a region, sniffing the head and the tail
of a drive, naming what is there, and the scan that has to come back empty
before a drive may be called blank.

Every function takes the log of the reads made so far through its handle and
answers with the log it leaves, an error included. The log is not something
the source keeps. It is what the source saw, and it is here so that a verdict
can be held against its evidence.

`fill` is the loop of `region`. A read that hands back nothing ends it, and
the region comes back as long as it got. Nothing downstream can tell a region
that ended at the end of the drive from one that ended before it.

## Main definitions

* `fill`, `region`: Reading a region, as far as it answers.
* `Sniff`, `sniff`: The head and the tail of a drive.
* `signature`, `Sniff.tailSignature`: What is known by name.
* `wholeLoop`, `sampleLoop`, `tailScan`: The three phases of the scan.
* `firstNonzero`: The offset of the first byte seen that is not zero.
-/

namespace Zeroboot

open Medium

/-- What a run of reads answers, and its log. -/
abbrev Scanned (α : Type) := Except String α × List ReadCall

/-- The loop of `region`: read until nothing is wanted, nothing comes, or a
    read fails. -/
def fill (h : Handle) (off want : Nat) (log : List ReadCall) : Scanned (List UInt8) :=
  if want = 0 then (.ok [], log)
  else
    match h.read log off want with
    | .error e => (.error e, log ++ [⟨off, want, .error e⟩])
    | .ok [] => (.ok [], log ++ [⟨off, want, .ok []⟩])
    | .ok (b :: bs) =>
        match fill h (off + (bs.length + 1)) (want - (bs.length + 1))
            (log ++ [⟨off, want, .ok (b :: bs)⟩]) with
        | (.ok rest, log') => (.ok (b :: bs ++ rest), log')
        | (.error e, log') => (.error e, log')
termination_by want

def region (h : Handle) (off len : Nat) (log : List ReadCall) : Scanned (List UInt8) :=
  fill h off len log

def slabMagic : List UInt8 := Text.asBytes "STRMSLAB"

/-- The first megabyte, read on sight. -/
def HEAD : Nat := 2 ^ 20

/-- The last megabyte, read on sight. -/
def TAIL : Nat := 2 ^ 20

/-- How much of a drive is read whole before it may be called blank. -/
def DEEP : Nat := 64 * 2 ^ 20

/-- And after that, this much every `STRIDE` bytes. -/
def SAMPLE : Nat := 64 * 2 ^ 10

def STRIDE : Nat := 2 ^ 30

structure Sniff where
  head : List UInt8
  tail : List UInt8
  deriving DecidableEq

namespace Sniff

/-- `len` bytes of the head, when it has them. -/
def bytesAt (s : Sniff) (off len : Nat) : Option (List UInt8) :=
  if off + len ≤ s.head.length then some ((s.head.drop off).take len) else none

def starts (s : Sniff) (off : Nat) (magic : List UInt8) : Bool :=
  s.bytesAt off magic.length == some magic

/-- An mdraid superblock, `0xa92b4efc` little-endian. -/
def mdMagic : List UInt8 := [0xfc, 0x4e, 0x2b, 0xa9]

/-- Whether one of the whole 4 KiB chunks of a tail starts with the mdraid
    magic. -/
def mdChunk (t : List UInt8) : Bool :=
  if _h : 4096 ≤ t.length then t.take 4 == mdMagic || mdChunk (t.drop 4096) else false
termination_by t.length
decreasing_by
  rw [List.length_drop]
  omega

/-- What is at the end of the drive rather than the start. -/
def tailSignature (s : Sniff) : Option String :=
  let t := s.tail
  if 512 ≤ t.length ∧ (t.drop (t.length - 512)).take 8 = Text.asBytes "EFI PART" then
    some "GPT (backup header only)"
  else if mdChunk t then some "Linux md RAID member (superblock at the end)"
  else none

end Sniff

def sniff (h : Handle) : Scanned Sniff :=
  match h.seekEnd with
  | .error e => (.error e, [])
  | .ok len =>
      match region h 0 (min HEAD len) [] with
      | (.error e, log) => (.error e, log)
      | (.ok head, log) =>
          if head = [] then (.error "read returned no bytes", log)
          -- A drive short enough to have been read in full has no tail of its own.
          else if HEAD + TAIL < len then
            match region h (len - TAIL) TAIL log with
            | (.error e, log) => (.error e, log)
            | (.ok tail, log) => (.ok { head := head, tail := tail }, log)
          else (.ok { head := head, tail := [] }, log)

/-- The signatures a drive is known by, each at its own offset. -/
def namedSignatures : List (Nat × List UInt8 × String) :=
  [ (0, slabMagic, "stormblock slab"),
    (512, Text.asBytes "EFI PART", "GPT"),
    (0, Text.asBytes "LUKS" ++ [0xba, 0xbe], "LUKS"),
    (0, Text.asBytes "XFSB", "XFS"),
    (3, Text.asBytes "NTFS    ", "NTFS"),
    (3, Text.asBytes "EXFAT   ", "exFAT"),
    (0x10040, Text.asBytes "_BHRfS_M", "btrfs"),
    (1024, Text.asBytes "H+", "HFS+"),
    (32, Text.asBytes "NXSB", "APFS"),
    (0x8001, Text.asBytes "CD001", "ISO 9660"),
    (4086, Text.asBytes "SWAPSPACE2", "swap"),
    (4086, Text.asBytes "SWAP-SPACE", "swap"),
    (0x36, Text.asBytes "FAT1", "FAT"),
    (0x52, Text.asBytes "FAT32", "FAT32"),
    (0x438, [0x53, 0xef], "ext2/3/4"),
    (0, Text.asBytes "LABELONE", "LVM2 physical volume"),
    (512, Text.asBytes "LABELONE", "LVM2 physical volume"),
    (1024, Text.asBytes "LABELONE", "LVM2 physical volume"),
    (1536, Text.asBytes "LABELONE", "LVM2 physical volume"),
    (0, Sniff.mdMagic, "Linux md RAID member"),
    (4096, Sniff.mdMagic, "Linux md RAID member"),
    (0x20000, [0x0c, 0xb1, 0xba, 0x00], "ZFS vdev"),
    (510, [0x55, 0xaa], "MBR partition table") ]

/-- Name what is on the drive, when it is something known. -/
def signature (s : Sniff) : Option String :=
  namedSignatures.findSome? (fun (off, magic, what) =>
    if s.starts off magic then some what else none)

/-- Where the first byte that is not zero lies in a chunk. -/
def position (chunk : List UInt8) : Option Nat :=
  chunk.findIdx? (fun b => b != 0)

/-- The whole read, a megabyte at a time. A chunk that comes back empty ends
    it. -/
def wholeLoop (h : Handle) (off whole : Nat) (log : List ReadCall) : Scanned (Option Nat) :=
  if _hlt : off < whole then
    match region h off (min (2 ^ 20) (whole - off)) log with
    | (.error e, log) => (.error e, log)
    | (.ok chunk, log) =>
        if _hne : chunk = [] then (.ok none, log)
        else
          match position chunk with
          | some i => (.ok (some (off + i)), log)
          | none => wholeLoop h (off + chunk.length) whole log
  else (.ok none, log)
termination_by whole - off
decreasing_by
  have hpos := List.length_pos_iff.mpr _hne
  omega

/-- The grain over the rest: a sample every `STRIDE` bytes. -/
def sampleLoop (h : Handle) (pos len : Nat) (log : List ReadCall) : Scanned (Option Nat) :=
  if _hle : pos + SAMPLE ≤ len then
    match region h pos SAMPLE log with
    | (.error e, log) => (.error e, log)
    | (.ok chunk, log) =>
        match position chunk with
        | some i => (.ok (some (pos + i)), log)
        | none => sampleLoop h (pos + STRIDE) len log
  else (.ok none, log)
termination_by len - pos
decreasing_by
  simp only [SAMPLE, STRIDE] at _hle ⊢
  omega

/-- The last megabyte, when the whole read did not reach it. -/
def tailScan (h : Handle) (whole len : Nat) (log : List ReadCall) : Scanned (Option Nat) :=
  if whole + TAIL < len then
    match region h (len - TAIL) TAIL log with
    | (.error e, log) => (.error e, log)
    | (.ok chunk, log) =>
        match position chunk with
        | some i => (.ok (some (len - TAIL + i)), log)
        | none => (.ok none, log)
  else (.ok none, log)

/-- How much of a drive of this length is read whole. -/
def wholeOf (len : Nat) : Nat :=
  if len < STRIDE then len else DEEP

/-- Look at the whole drive, as far as is affordable, and say where the first
    byte that is not zero lives. -/
def firstNonzero (h : Handle) : Scanned (Option Nat) :=
  match h.seekEnd with
  | .error e => (.error e, [])
  | .ok len =>
      match wholeLoop h 0 (wholeOf len) [] with
      | (.ok none, log) =>
          match sampleLoop h (wholeOf len) len log with
          | (.ok none, log) => tailScan h (wholeOf len) len log
          | found => found
      | found => found

end Zeroboot
