import Zeroboot.Core.Probe
import Zeroboot.Lib.Checked

/-!
# Block Addresses, Every Step Checked

Everything `esp.rs` and `probe.rs` compute from the block addresses in a
partition table once more, as the source writes it, on arithmetic that gives
up where 64 bits do not hold the result. The addresses are whatever the table
of a drive says.

The slice the filesystem is read in is as long as its end lies behind its
start, which is one more difference.

## Main definitions

* `sizeChecked`, `partitionTableChecked`: The table, for the report.
* `espExtentChecked`, `sliceChecked`: The byte range of the ESP, and the slice
  of it.
* `Esp.readChecked`, `writeClaimChecked`: What is read off it and written to
  it.
* `lookAtChecked`, `surveyChecked`: The drives.
-/

namespace Zeroboot

variable {V N : Type}

/-- `(p.last_lba + 1 - p.first_lba) * LB_SIZE`. -/
def sizeChecked (p : GptPartition) : Option Nat :=
  (Checked.add p.lastLba.toNat 1).bind (fun stop =>
    (Checked.sub stop p.firstLba.toNat).bind (fun blocks =>
      Checked.mul blocks lbSize.toNat))

def partitionChecked (x : Nat × GptPartition) : Option Partition :=
  (sizeChecked x.2).map (fun size =>
    { index := x.1
      name := x.2.name
      guid := x.2.partGuid.text
      typeGuid := x.2.partTypeGuid.text
      firstLba := x.2.firstLba
      lastLba := x.2.lastLba
      sizeBytes := UInt64.ofNat size })

def partitionTableChecked (disk : Disk V) : Option (Option Table) :=
  match disk.gpt with
  | none => some none
  | some table => (table.partitions.mapM partitionChecked).map (fun ps =>
      some { diskGuid := table.guid.text
             partitions := ps.insertionSort (fun a b => a.index ≤ b.index) })

/-- `(p.first_lba * LB_SIZE, (p.last_lba + 1) * LB_SIZE)`. -/
def rangeChecked (p : GptPartition) : Option (Nat × Nat) :=
  (Checked.mul p.firstLba.toNat lbSize.toNat).bind (fun start =>
    (Checked.add p.lastLba.toNat 1).bind (fun next =>
      (Checked.mul next lbSize.toNat).map (fun stop => (start, stop))))

/-- The first partition that says it is an EFI System Partition. -/
def espOf (disk : Disk V) : Option GptPartition :=
  disk.gpt.bind (fun table =>
    (table.partitions.map Prod.snd).find? (fun p => p.partTypeGuid == efiType))

def espExtentChecked (disk : Disk V) : Option (Option (Nat × Nat)) :=
  match espOf disk with
  | none => some none
  | some p => (rangeChecked p).map some

/-- `StreamSlice::new`, with the length of the slice. -/
def sliceChecked (disk : Disk V) (start stop : Nat) : Option (Except String V) :=
  (Checked.sub stop start).map (fun _ => disk.mount (UInt64.ofNat start) (UInt64.ofNat stop))

def Esp.readChecked (F : Volume.Ops V N) (disk : Disk V) : Option (Except String (Option Esp)) :=
  (espExtentChecked disk).bind (fun
    | none => some (.ok none)
    | some (start, stop) =>
        match disk.openRead with
        | .error e => some (.error e)
        | .ok () => (sliceChecked disk start stop).map (fun
            | .error e => .error e
            | .ok vol => .ok (some (Esp.ofVolume F vol))))

def writeClaimChecked (F : Volume.Ops V N) (drive : String) (disk : Disk V) (claim : Claim) :
    Option (Disk V × Except String Unit) :=
  (espExtentChecked disk).bind (fun
    | none => some (disk, .error (drive ++ " has no EFI System Partition to claim in"))
    | some (start, stop) =>
        match disk.openWrite with
        | .error e => some (disk, .error e)
        | .ok () => (sliceChecked disk start stop).map (fun
            | .error e => (disk, .error e)
            | .ok vol =>
                let (vol, result) := writeClaimFile F vol claim
                (disk.put (UInt64.ofNat start) (UInt64.ofNat stop) vol, result)))

/-- One drive: what is read off its ESP, its table, and the rest as before. The
    size that `/sys` counts in sectors is no block address of a table, and its
    multiple is not checked. -/
def lookAtChecked (F : Volume.Ops V N) (os : Os V) (m : Machine) (me : Option String)
    (name : String) : Option Drive :=
  let disk := (os.node (pathJoin m.dev name)).disk
  (Esp.readChecked F disk).bind (fun read =>
    (partitionTableChecked disk).map (fun table =>
      let found := match read with
        | .ok found => found
        | .error _ => none
      { lookAt F os m me name with
        table := table
        esp := found
        verdict := judge os m (sysOf m name) name (pathJoin m.dev name)
          (sizeBytesOf os (sysOf m name)) (removableOf os (sysOf m name)) me found }))

def surveyChecked (F : Volume.Ops V N) (os : Os V) (m : Machine) : Option (Except String Survey) :=
  match os.readDir (pathJoin m.sysfs "block") with
  | .error e =>
      some (.error ("cannot list drives at " ++ pathJoin m.sysfs "block" ++ ": " ++ e))
  | .ok entries =>
      ((driveNames m entries).mapM (lookAtChecked F os m (identityOf os m))).map
        (fun drives => .ok { drives := drives })

end Zeroboot
