import Zeroboot.Lib.Volume

/-!
# Disks Behind the Crates

A disk as `esp.rs` reaches it: what the `gpt` crate answers when it opens the
device, whether the device opens for reading and for writing, and what
`fatfs` answers when it is handed a byte range of it. None of the three is
computed here. They are the answers of code outside the repository, so a disk
is any record of answers, and every damaged table or wiped filesystem is among
them.

Block addresses are 64 bits wide and their arithmetic wraps, as it does in the
release build the initramfs carries.

## Main definitions

* `Uuid`, `Uuid.text`: What names a disk, a partition and its type, and how
  it is printed.
* `GptPartition`, `GptDisk`: A partition table as `gpt` hands it over.
* `Disk`: What the crates answer about one device.
* `Disk.put`: The disk with the volume in one byte range replaced.
* `lbSize`: The logical block size.
-/

namespace Zeroboot

/-- A UUID, as the `uuid` crate keeps one. -/
structure Uuid where
  bits : BitVec 128
  deriving DecidableEq

def Uuid.digit (u : Uuid) (i : Nat) : Char :=
  Nat.digitChar (u.bits.toNat / 16 ^ (31 - i) % 16)

/-- How it is printed: the digits in lower case, in five groups. -/
def Uuid.text (u : Uuid) : String :=
  "-".intercalate ([(0, 8), (8, 4), (12, 4), (16, 4), (20, 12)].map (fun (start, n) =>
    String.ofList ((List.range' start n).map u.digit)))

structure GptPartition where
  name : String
  partGuid : Uuid
  partTypeGuid : Uuid
  firstLba : UInt64
  lastLba : UInt64
  deriving DecidableEq

/-- A table that was read: the disk GUID, and the used entries by their
    1-based index, in ascending order. -/
structure GptDisk where
  guid : Uuid
  partitions : List (Nat × GptPartition)
  deriving DecidableEq

/-- `gpt::partition_types::EFI`. -/
def efiType : Uuid := ⟨0xC12A7328F81F11D2BA4B00A0C93EC93B⟩

example : efiType.text = "c12a7328-f81f-11d2-ba4b-00a0c93ec93b" := by decide +kernel

/-- `gpt::partition_types::LINUX_FS`. -/
def linuxFsType : Uuid := ⟨0x0FC63DAF848347728E793D69D8477DE4⟩

def lbSize : UInt64 := 512

/-- What the crates answer about one device. `gpt` is `none` when there is no
    table to open; `mount` is the stream slice and the FAT volume in it. -/
structure Disk (V : Type) where
  gpt : Option GptDisk
  openRead : Except String Unit
  openWrite : Except String Unit
  mount : UInt64 → UInt64 → Except String V

variable {V : Type}

/-- The disk after a filesystem in one byte range was written to. -/
def Disk.put (disk : Disk V) (start stop : UInt64) (vol : V) : Disk V :=
  { disk with mount := fun a b => if a = start ∧ b = stop then .ok vol else disk.mount a b }

@[simp] theorem Disk.put_openRead (disk : Disk V) (start stop : UInt64) (vol : V) :
    (disk.put start stop vol).openRead = disk.openRead := rfl

@[simp] theorem Disk.put_mount_self (disk : Disk V) (start stop : UInt64) (vol : V) :
    (disk.put start stop vol).mount start stop = .ok vol := by
  simp only [put, and_self, if_true]

end Zeroboot
