import Zeroboot.Core.Esp
import Zeroboot.Lib.Filling
import Zeroboot.Lib.Layout
import Zeroboot.Lib.Run

/-!
# The Boot Image, Written

`bootimage.rs`: laying out a GPT disk in one image file, with an ESP that
carries the bootloader, the kernel, the initramfs and a loader entry, and the
slab behind it.

The image is the log of what was written into it, each write with the bytes it
covers. What a crate finds when it opens the image again is the newest write
over the bytes it looks at, as long as that is the one of its kind. Where it is
not, something was overwritten, and the answer is whatever the crate makes of
the damage (`Rest`). The table covers blocks 1 to 33 and the last 33. Block 0
is the protective MBR's, which `gpt` does not write.

`gpt` is a parameter, as `fatfs` is. `GptOps.Lawful` says what is relied on:
partitions lie between the two copies of the table and apart from each other,
each as many blocks as were asked for, and the table written is the one that
was put together.

The host answers once for everything the build asks of it. A file that is
copied is the pieces its reads hand over. What a failing `format` leaves behind
is not kept.

## Main definitions

* `BootImageSpec`, `BootImageReport`: What a build is asked for and answers.
* `GptOps`, `GptOps.Lawful`: The `gpt` crate.
* `Image`, `Image.disk`: The image, and the disk it is.
* `Source`, `Host`: What the host answers.
* `buildCmdline`, `entryText`: The text of the loader entry.
* `fillEsp`: The files put on the ESP.
* `build`: The image build.
-/

namespace Zeroboot

open Layout (Span)

def mib : UInt64 := 1024 * 1024

/-- GPT reserve at both ends, and the alignment every partition starts on. -/
def reserve : UInt64 := mib

/-- Partition alignment in logical blocks. -/
def alignLba : UInt64 := mib / lbSize

/-! ## What is asked for, and what is answered -/

/-- A writable thin volume inside the slab. -/
structure WritableMount where
  volume : String
  mount : String

structure BootImageSpec where
  kernel : String
  initramfs : String
  bootloader : String
  slab : String
  volume : String
  espMib : UInt64
  imageStore : Option String
  writable : List WritableMount
  diskDevice : String
  extraCmdline : Option String
  out : String

structure BootImageReport where
  image : String
  imageBytes : UInt64
  espBytes : UInt64
  slabBytes : UInt64
  slabPartition : String
  bootVolume : String
  cmdline : String
  deriving DecidableEq

/-! ## The partition table, put together -/

/-- The calls of the `gpt` crate on a table of type `G`. `create` is handed the
    length of the image, and `partitions` are by 1-based index, in ascending
    order. -/
structure GptOps (G : Type) where
  create : UInt64 → Except String G
  addPartition : G → String → UInt64 → Uuid → UInt64 → Option UInt64 → Except String (G × Nat)
  partitions : G → List (Nat × GptPartition)
  lastUsable : G → UInt64
  write : G → Except String GptDisk

/-- A partition `p` was added to `g` under an index of its own. -/
structure GptOps.Added {G : Type} (O : GptOps G) (g g' : G) (id : Nat) (p : GptPartition)
    (size : UInt64) : Prop where
  partitions : ∀ x, x ∈ O.partitions g' ↔ x = (id, p) ∨ x ∈ O.partitions g
  fresh : ∀ q, (id, q) ∉ O.partitions g
  lastUsable : O.lastUsable g' = O.lastUsable g
  size_pos : 0 < size.toNat
  blocks : p.lastLba.toNat + 1 = p.firstLba.toNat + (size.toNat + 511) / 512
  first : 34 ≤ p.firstLba.toNat
  last : p.lastLba.toNat ≤ (O.lastUsable g).toNat
  apart : ∀ x ∈ O.partitions g, x.2.lastLba.toNat < p.firstLba.toNat ∨
    p.lastLba.toNat < x.2.firstLba.toNat

/-- What the build relies on in the `gpt` crate. -/
structure GptOps.Lawful {G : Type} (O : GptOps G) : Prop where
  create_partitions : ∀ {len g}, O.create len = .ok g → O.partitions g = []
  create_lastUsable : ∀ {len g}, O.create len = .ok g →
    (O.lastUsable g).toNat + 34 = len.toNat / 512
  addPartition : ∀ {g name size type flags align g' id},
    O.addPartition g name size type flags align = .ok (g', id) →
      ∃ p, p.name = name ∧ p.partTypeGuid = type ∧ O.Added g g' id p size
  write : ∀ {g t}, O.write g = .ok t → t.partitions = O.partitions g

/-! ## The image -/

variable {V N G : Type}

/-- One write into the image. -/
inductive Piece (V : Type) where
  | mbr (lastLba : UInt32)
  | table (t : GptDisk)
  | volume (start stop : UInt64) (vol : V)
  | bytes (start : UInt64) (content : List UInt8)

/-- An image file: its length, and what was written into it, newest first. -/
structure Image (V : Type) where
  len : UInt64
  log : List (Piece V)

/-- Both copies of the table, with their headers. -/
def tableSpans (len : UInt64) : List Span :=
  [⟨512, 34 * 512⟩, ⟨len.toNat - 33 * 512, len.toNat⟩]

def Piece.spans (len : UInt64) : Piece V → List Span
  | mbr _ => [⟨0, 512⟩]
  | table _ => tableSpans len
  | volume start stop _ => [⟨start.toNat, stop.toNat⟩]
  | bytes start content => [⟨start.toNat, start.toNat + content.length⟩]

namespace Image

def push (img : Image V) (w : Piece V) : Image V :=
  { img with log := w :: img.log }

/-- The newest write that covers some of these bytes. -/
def latest (img : Image V) (there : List Span) : Option (Piece V) :=
  Layout.latest (Piece.spans img.len) img.log there

/-- What the crates make of an image that was not written by them, or was
    written over. -/
structure Rest (V : Type) where
  gpt : Image V → Option GptDisk
  mount : Image V → UInt64 → UInt64 → Except String V

/-- The disk the image is. -/
def disk (R : Rest V) (img : Image V) : Disk V where
  gpt := match img.latest (tableSpans img.len) with
    | some (.table t) => some t
    | _ => R.gpt img
  openRead := .ok ()
  openWrite := .ok ()
  mount start stop := match img.latest [⟨start.toNat, stop.toNat⟩] with
    | some (.volume start' stop' vol) =>
        if start = start' ∧ stop = stop' then .ok vol else R.mount img start stop
    | _ => R.mount img start stop

end Image

/-! ## The host -/

/-- A file that was opened to be copied: what its reads hand over, and how they
    end, with the end of the file or an error. -/
structure Source where
  pieces : List (List UInt8)
  ending : Except String Unit
  nonempty : ∀ p ∈ pieces, p ≠ []

/-- The bytes of the file, or those that came before the error. -/
def Source.content (s : Source) : List UInt8 :=
  s.pieces.flatten

/-- What the host answers to one build. -/
structure Host where
  isFile : String → Bool
  /-- The length of the slab file. -/
  slabLen : Except String UInt64
  /-- Creating the directories above the output path. -/
  createParent : Except String Unit
  createOut : Except String Unit
  setLen : Except String Unit
  openForMbr : Except String Unit
  writeMbr : Except String Unit
  flushMbr : Except String Unit
  /-- Opening the image and taking the slice the ESP is in. -/
  openForEsp : Except String Unit
  /-- Opening the image and seeking to the slab. -/
  openForSlab : Except String Unit
  /-- Opening a file to copy it. -/
  openFile : String → Except String Source
  /-- How many bytes of the slab the image takes before a write fails. -/
  slabRoom : Option (Nat × String)
  flushSlab : Except String Unit

/-! ## The loader entry -/

def buildCmdline (spec : BootImageSpec) : String :=
  "console=ttyS0 root=/dev/ublkb0 rd.stormblock.slab=" ++ spec.diskDevice ++
    "2 rd.stormblock.meta=/etc/stormblock/meta stormblock.volume=" ++ spec.volume ++
    " rd.stormblock.overlay=tmpfs:1G" ++
    (match spec.imageStore with
      | some store => " rd.stormblock.image-store=" ++ store
      | none => "") ++
    (if spec.writable = [] then ""
      else " rd.stormblock.writable=" ++
        Text.join "," (spec.writable.map (fun w => w.volume ++ ":" ++ w.mount))) ++
    (match spec.extraCmdline with
      | some extra => " " ++ extra
      | none => "")

def entryText (cmdline : String) : String :=
  "title   Storm CoreOS\nlinux   /vmlinuz\ninitrd  /initramfs.img\noptions " ++ cmdline ++ "\n"

def loaderConf : String :=
  "default stormcos\ntimeout 0\nconsole-mode max\n"

/-! ## The build -/

/-- Copy a file of the host into a file on the volume, piece by piece. -/
def copyInto (F : Volume.Ops V N) (src : Except String Source) (file : N) : Run V Unit := do
  let s ← Run.ofExcept src
  fun vol => Volume.writeChunks F vol file 0 s.pieces
  Run.ofExcept s.ending

def createDir (F : Volume.Ops V N) (path : String) : Run V Unit :=
  fun vol => F.createDir vol path

def createFile (F : Volume.Ops V N) (path : String) : Run V N :=
  fun vol => F.createFile vol path

def writeAll (F : Volume.Ops V N) (file : N) (content : List UInt8) : Run V Unit :=
  fun vol => F.writeAll vol file 0 content

/-- The files put on the freshly formatted ESP. -/
def fillEsp (F : Volume.Ops V N) (host : Host) (spec : BootImageSpec) (cmdline : String) :
    Run V Unit := do
  createDir F "EFI"
  createDir F "EFI/BOOT"
  copyInto F (host.openFile spec.bootloader) (← createFile F "EFI/BOOT/BOOTX64.EFI")
  copyInto F (host.openFile spec.kernel) (← createFile F "vmlinuz")
  copyInto F (host.openFile spec.initramfs) (← createFile F "initramfs.img")
  createDir F "loader"
  writeAll F (← createFile F "loader/loader.conf") (Text.asBytes loaderConf)
  createDir F "loader/entries"
  writeAll F (← createFile F "loader/entries/stormcos.conf") (Text.asBytes (entryText cmdline))

/-- The state of the output path: no file, or the image so far. -/
abbrev Output (V : Type) : Type := Option (Image V)

/-- Write into the image, if it is there. -/
def writePiece (w : Piece V) : Run (Output V) Unit :=
  fun out => (out.map (fun img => img.push w), .ok ())

/-- Format the ESP and fill it. Dropping the filesystem flushes it, however the
    filling ends. -/
def writeEsp (F : Volume.Ops V N) (host : Host) (spec : BootImageSpec) (cmdline : String)
    (start stop : UInt64) : Run (Output V) Unit := do
  let vol ← Run.ofExcept (F.format (stop - start))
  let filled := fillEsp F host spec cmdline vol
  writePiece (.volume start stop filled.1)
  Run.ofExcept filled.2

/-- `std::io::copy` of the slab into the image: the bytes that arrive, and how
    many it says there were. -/
def copySlab (s : Source) (room : Option (Nat × String)) : List UInt8 × Except String Nat :=
  match room with
  | none => (s.content, s.ending.map (fun _ => s.content.length))
  | some (k, e) =>
      if k < s.content.length then (s.content.take k, .error e)
      else (s.content, s.ending.map (fun _ => s.content.length))

def writeSlab (host : Host) (spec : BootImageSpec) (start slabBytes : UInt64) :
    Run (Output V) Unit := do
  Run.ofExcept host.openForSlab
  let slab ← Run.ofExcept (host.openFile spec.slab)
  let copied := copySlab slab host.slabRoom
  writePiece (.bytes start copied.1)
  let n ← Run.ofExcept copied.2
  Run.ensure (n = slabBytes.toNat)
    ("slab copy short: " ++ toString n ++ " of " ++ toString slabBytes.toNat)
  Run.ofExcept host.flushSlab

/-- `expect`: a partition that was added is found again, or the program
    stops. -/
def recorded (what : String) (p : Option GptPartition) : Except String GptPartition :=
  match p with
  | some p => .ok p
  | none => .error (what ++ " partition recorded")

/-- The ESP and the slab added to a new table, which is then written; with the
    offsets they start at. -/
def partitionImage (O : GptOps G) (total espBytes slabAligned : UInt64) :
    Run (Output V) (UInt64 × UInt64) := do
  let disk ← Run.ofExcept ((O.create total).mapError ("create GPT: " ++ ·))
  let (disk, espId) ← Run.ofExcept ((O.addPartition disk "ESP" espBytes efiType 0
    (some alignLba)).mapError ("add ESP partition: " ++ ·))
  let (disk, slabId) ← Run.ofExcept ((O.addPartition disk "stormblock" slabAligned linuxFsType 0
    (some alignLba)).mapError ("add slab partition: " ++ ·))
  let parts := O.partitions disk
  let esp ← Run.ofExcept (recorded "ESP" (parts.lookup espId))
  let slab ← Run.ofExcept (recorded "slab" (parts.lookup slabId))
  let table ← Run.ofExcept ((O.write disk).mapError ("write GPT: " ++ ·))
  writePiece (.table table)
  return (esp.firstLba * lbSize, slab.firstLba * lbSize)

/-- The last block the protective MBR covers, as far as 32 bits go. -/
def mbrLastLba (total : UInt64) : UInt32 :=
  let last := total / lbSize - 1
  if last.toNat < UInt32.size then last.toUInt32 else UInt32.ofNat (UInt32.size - 1)

/-- `u64::div_ceil`. -/
def divCeil (a b : UInt64) : UInt64 :=
  if a % b = 0 then a / b else a / b + 1

def ensureFiles (host : Host) (spec : BootImageSpec) : Run (Output V) Unit := do
  Run.ensure (host.isFile spec.kernel) ("kernel not found: " ++ spec.kernel)
  Run.ensure (host.isFile spec.initramfs) ("initramfs not found: " ++ spec.initramfs)
  Run.ensure (host.isFile spec.bootloader) ("bootloader not found: " ++ spec.bootloader)
  Run.ensure (host.isFile spec.slab) ("slab not found: " ++ spec.slab)

def build (F : Volume.Ops V N) (O : GptOps G) (host : Host) (spec : BootImageSpec) :
    Run (Output V) BootImageReport := do
  ensureFiles host spec
  let out ← Run.get
  Run.ensure out.isNone ("refusing to overwrite " ++ spec.out)
  Run.ensure (64 ≤ spec.espMib) "ESP must be at least 64 MiB for FAT32"
  let espBytes := spec.espMib * mib
  let slabBytes ← Run.ofExcept host.slabLen
  let slabAligned := divCeil slabBytes mib * mib
  let total := reserve + espBytes + slabAligned + reserve
  -- A sparse file of the full size.
  Run.ofExcept host.createParent
  Run.ofExcept host.createOut
  Run.put (some { len := 0, log := [] })
  Run.ofExcept host.setLen
  Run.put (some { len := total, log := [] })
  -- GPT: the ESP and the slab payload.
  let (espStart, slabStart) ← partitionImage O total espBytes slabAligned
  -- The protective MBR, which `gpt` does not write.
  Run.ofExcept host.openForMbr
  Run.ofExcept (host.writeMbr.mapError ("write protective MBR: " ++ ·))
  writePiece (.mbr (mbrLastLba total))
  Run.ofExcept host.flushMbr
  -- The ESP: FAT32, the bootloader, the kernel and the initramfs.
  let cmdline := buildCmdline spec
  Run.ofExcept host.openForEsp
  writeEsp F host spec cmdline espStart (espStart + espBytes)
  -- The slab payload.
  writeSlab host spec slabStart slabBytes
  return { image := spec.out
           imageBytes := total
           espBytes := espBytes
           slabBytes := slabBytes
           slabPartition := spec.diskDevice ++ "2"
           bootVolume := spec.volume
           cmdline := cmdline }

end Zeroboot
