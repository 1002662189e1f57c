import Zeroboot.Core.Boot
import Zeroboot.Core.BootImage
import Zeroboot.Lib.Json

/-!
# The Inventory

What leaves the process besides the answer to the shell: the survey as a JSON
file for whatever comes after the boot, the same text on the terminal of
`zeroboot survey --json`, and the report of an image build.

The objects are the ones `serde` derives. A structure is an object with its
fields in the order of the source, what may be absent is `null`, and an
enumeration that is tagged has the tag in front of the fields of its variant.
How `serde_json` prints an object is a parameter. What is relied on is that the
text is one of the object, and nothing else about it.

`bootReported` is `boot` with the file. The report is written before the
intent is looked at, and what writing it answers is said on the terminal and
nowhere else.

## Main definitions

* `Verdict.toJson`, `Drive.toJson`, `Intent.toJson`: What `serde` makes of
  them.
* `Report`, `Survey.report`, `reportText`: The inventory.
* `FileOps`, `writeReport`: The file it is written to.
* `bootReported`: The boot step with its inventory.
* `surveyJson`: `zeroboot survey --json`.
-/

namespace Zeroboot

open Json (Value)

/-! ## What `serde` derives -/

def Boot.toJson (b : Boot) : Value :=
  .obj [ ("cmdline", .str b.cmdline), ("slab_device", Value.nullable .str b.slabDevice),
    ("boot_volume", Value.nullable .str b.bootVolume) ]

def Claim.toJson (c : Claim) : Value :=
  .obj [("node", .str c.node), ("claimed", .str c.claimed)]

def Esp.toJson (e : Esp) : Value :=
  .obj [ ("boot", Value.nullable Boot.toJson e.boot),
    ("claim", Value.nullable Claim.toJson e.claim), ("missing", .arr (e.missing.map .str)) ]

def Partition.toJson (p : Partition) : Value :=
  .obj [ ("index", .num p.index), ("name", .str p.name), ("guid", .str p.guid),
    ("type_guid", .str p.typeGuid), ("first_lba", .num p.firstLba.toNat),
    ("last_lba", .num p.lastLba.toNat), ("size_bytes", .num p.sizeBytes.toNat) ]

def Table.toJson (t : Table) : Value :=
  .obj [("disk_guid", .str t.diskGuid), ("partitions", .arr (t.partitions.map Partition.toJson))]

def Verdict.toJson : Verdict → Value
  | mine slabId role slab =>
      .obj [ ("verdict", .str "mine"), ("slab_id", .str slabId), ("role", .str role),
        ("slab", .str slab) ]
  | anotherNode slabId owner =>
      .obj [("verdict", .str "another_node"), ("slab_id", .str slabId), ("owner", .str owner)]
  | foreign what => .obj [("verdict", .str "foreign"), ("what", .str what)]
  | blank => .obj [("verdict", .str "blank")]
  | unreadable why => .obj [("verdict", .str "unreadable"), ("why", .str why)]

def Drive.toJson (d : Drive) : Value :=
  .obj [ ("path", .str d.path), ("size_bytes", .num d.sizeBytes.toNat),
    ("rotational", .bool d.rotational), ("model", Value.nullable .str d.model),
    ("wwid", Value.nullable .str d.wwid), ("serial", Value.nullable .str d.serial),
    ("table", Value.nullable Table.toJson d.table), ("esp", Value.nullable Esp.toJson d.esp),
    ("verdict", d.verdict.toJson) ]

def Intent.toJson : Intent → Value
  | alreadyMine drive slab slabId =>
      .obj [ ("intent", .str "already_mine"), ("drive", .str drive), ("slab", .str slab),
        ("slab_id", .str slabId) ]
  | mineButNoneBoots because =>
      .obj [("intent", .str "mine_but_none_boots"), ("because", .arr (because.map .str))]
  | takeOver path => .obj [("intent", .str "take_over"), ("path", .str path)]
  | nothingToTake because =>
      .obj [("intent", .str "nothing_to_take"), ("because", .arr (because.map .str))]

/-! ## The inventory -/

/-- A survey as it leaves the process: what was seen, and what follows from
    it. -/
structure Report where
  drives : List Drive
  intent : Intent
  deriving DecidableEq

def Survey.report (s : Survey) : Report where
  drives := s.drives
  intent := s.intent

def Report.toJson (r : Report) : Value :=
  .obj [("drives", .arr (r.drives.map Drive.toJson)), ("intent", r.intent.toJson)]

/-- The text of the inventory. -/
def reportText (J : Json.Printer) (s : Survey) : String :=
  J s.report.toJson

def BootImageReport.toJson (r : BootImageReport) : Value :=
  .obj [ ("image", .str r.image), ("image_bytes", .num r.imageBytes.toNat),
    ("esp_bytes", .num r.espBytes.toNat), ("slab_bytes", .num r.slabBytes.toNat),
    ("slab_partition", .str r.slabPartition), ("boot_volume", .str r.bootVolume),
    ("cmdline", .str r.cmdline) ]

/-! ## Where it goes -/

variable {V N S : Type}

/-- The files of the running system, as the report needs them: `fs::create_dir_all`
    and `fs::write`, and what a file is read as. -/
structure FileOps (S : Type) where
  createDirAll : S → String → S × Except String Unit
  write : S → String → List UInt8 → S × Except String Unit
  read : S → String → Option (List UInt8)

/-- A file that was written is read as what was written. -/
def FileOps.Lawful (D : FileOps S) : Prop :=
  ∀ {files files' : S} {path : String} {bs : List UInt8},
    D.write files path bs = (files', .ok ()) → D.read files' path = some bs

/-- Write the inventory, and the directories above it first. -/
def writeReport (J : Json.Printer) (D : FileOps S) (files : S) (s : Survey) (path : String) :
    S × Except String Unit :=
  match parent path with
  | none => D.write files path (Text.asBytes (reportText J s))
  | some dir =>
      match D.createDirAll files dir with
      | (files, .error e) => (files, .error e)
      | (files, .ok ()) => D.write files path (Text.asBytes (reportText J s))

/-- The boot step with its inventory, in a file of this name unless that is
    empty. What writing it answered is only said. -/
def bootReported (F : Volume.Ops V N) (J : Json.Printer) (D : FileOps S) (os : Os V) (files : S)
    (m : Machine) (report : String) (claimIt : Bool) :
    BootRun V × S × Option (Except String Unit) :=
  match survey F os m with
  | .error _ => (boot F os m claimIt, files, none)
  | .ok s =>
      if report = "" then (boot F os m claimIt, files, none)
      else
        let written := writeReport J D files s report
        (boot F os m claimIt, written.1, some written.2)

/-- `zeroboot survey --json`: what it prints, or its error. -/
def surveyJson (F : Volume.Ops V N) (J : Json.Printer) (os : Os V) (m : Machine) :
    Except String String :=
  (survey F os m).map (fun s => reportText J s ++ "\n")

end Zeroboot
