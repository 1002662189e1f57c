import Zeroboot.Core.Report
import Zeroboot.Theory.Bench

/-!
# The Inventory, Read Back

What somebody who has the inventory and nothing else can tell.

The file is text made of what was found on disks, so a model string, a file
name or a partition name may hold any character there is. Whatever prints the
JSON, as long as it is JSON of what it was handed, the file reads back as the
survey it is of, drive by drive, with the intent behind them:
`readReport_reportText`. The reader here is what a consumer of the file would
write, one function for each structure, and it is held against what `serde`
derives structure by structure.

Whatever a boot answers is then already in the file. `Report.outcome` works the
answer out from the report alone, and `boot_follows_inventory` says it is the
one the boot gave.

## Main definitions

* `Drive.ofJson`, `Intent.ofJson`, `readReport`: Reading the inventory.
* `Report.outcome`: What the inventory leads to.

## Theorems

* `drive_json`, `intent_json`, `report_json`: What was written is read back.
* `readReport_reportText`: The inventory reads back as its survey.
* `bootReported_boot`: The file does not change what a boot does.
* `boot_follows_inventory`: The answer of a boot is in the inventory.
-/

namespace Zeroboot

open Json (Value)

/-! ## Reading it -/

/-- A field that is text. -/
def textField (v : Value) (name : String) : Option String :=
  (v.get name).bind Value.asStr

def numberField (v : Value) (name : String) : Option Nat :=
  (v.get name).bind Value.asNat

/-- A field that is a 64-bit number. -/
def wordField (v : Value) (name : String) : Option UInt64 :=
  (numberField v name).map UInt64.ofNat

/-- A field that may be `null`. -/
def optionField {α : Type} (item : Value → Option α) (v : Value) (name : String) :
    Option (Option α) :=
  (v.get name).bind (Value.asOption item)

def listField {α : Type} (item : Value → Option α) (v : Value) (name : String) :
    Option (List α) :=
  (v.get name).bind (Value.asList item)

def Boot.ofJson (v : Value) : Option Boot := do
  return { cmdline := ← textField v "cmdline"
           slabDevice := ← optionField Value.asStr v "slab_device"
           bootVolume := ← optionField Value.asStr v "boot_volume" }

def Claim.ofJson (v : Value) : Option Claim := do
  return { node := ← textField v "node", claimed := ← textField v "claimed" }

def Esp.ofJson (v : Value) : Option Esp := do
  return { boot := ← optionField Boot.ofJson v "boot"
           claim := ← optionField Claim.ofJson v "claim"
           missing := ← listField Value.asStr v "missing" }

def Partition.ofJson (v : Value) : Option Partition := do
  return { index := ← numberField v "index"
           name := ← textField v "name"
           guid := ← textField v "guid"
           typeGuid := ← textField v "type_guid"
           firstLba := ← wordField v "first_lba"
           lastLba := ← wordField v "last_lba"
           sizeBytes := ← wordField v "size_bytes" }

def Table.ofJson (v : Value) : Option Table := do
  return { diskGuid := ← textField v "disk_guid"
           partitions := ← listField Partition.ofJson v "partitions" }

def Verdict.ofJson (v : Value) : Option Verdict := do
  match ← textField v "verdict" with
  | "mine" => return mine (← textField v "slab_id") (← textField v "role") (← textField v "slab")
  | "another_node" => return anotherNode (← textField v "slab_id") (← textField v "owner")
  | "foreign" => return foreign (← textField v "what")
  | "blank" => return blank
  | "unreadable" => return unreadable (← textField v "why")
  | _ => none

def Drive.ofJson (v : Value) : Option Drive := do
  return { path := ← textField v "path"
           sizeBytes := ← wordField v "size_bytes"
           rotational := ← (v.get "rotational").bind Value.asBool
           model := ← optionField Value.asStr v "model"
           wwid := ← optionField Value.asStr v "wwid"
           serial := ← optionField Value.asStr v "serial"
           table := ← optionField Table.ofJson v "table"
           esp := ← optionField Esp.ofJson v "esp"
           verdict := ← (v.get "verdict").bind Verdict.ofJson }

def Intent.ofJson (v : Value) : Option Intent := do
  match ← textField v "intent" with
  | "already_mine" =>
      return alreadyMine (← textField v "drive") (← textField v "slab") (← textField v "slab_id")
  | "mine_but_none_boots" => return mineButNoneBoots (← listField Value.asStr v "because")
  | "take_over" => return takeOver (← textField v "path")
  | "nothing_to_take" => return nothingToTake (← listField Value.asStr v "because")
  | _ => none

def Report.ofJson (v : Value) : Option Report := do
  return { drives := ← listField Drive.ofJson v "drives"
           intent := ← (v.get "intent").bind Intent.ofJson }

/-- The inventory, off its file. -/
def readReport (bs : List UInt8) : Option Report :=
  ((Text.fromUtf8 bs).bind Json.read).bind Report.ofJson

/-! ## What was written is read back -/

theorem boot_json (b : Boot) : Boot.ofJson b.toJson = some b := by
  rcases b with ⟨cmdline, _ | slab, _ | volume⟩ <;> rfl

theorem claim_json (c : Claim) : Claim.ofJson c.toJson = some c := rfl

theorem verdict_json (v : Verdict) : Verdict.ofJson v.toJson = some v := by
  cases v <;> rfl

theorem str_json (s : String) : Value.asStr (.str s) = some s := rfl

theorem intent_json (i : Intent) : Intent.ofJson i.toJson = some i := by
  cases i with
  | alreadyMine drive slab slabId => rfl
  | takeOver path => rfl
  | mineButNoneBoots because =>
      show (Value.asList Value.asStr (.arr (because.map .str))).bind _ = _
      rw [Value.asList_map str_json]
      rfl
  | nothingToTake because =>
      show (Value.asList Value.asStr (.arr (because.map .str))).bind _ = _
      rw [Value.asList_map str_json]
      rfl

theorem partition_json (p : Partition) : Partition.ofJson p.toJson = some p := by
  rcases p with ⟨index, name, guid, typeGuid, firstLba, lastLba, sizeBytes⟩
  show some (Partition.mk index name guid typeGuid (UInt64.ofNat firstLba.toNat)
    (UInt64.ofNat lastLba.toNat) (UInt64.ofNat sizeBytes.toNat)) = _
  rw [UInt64.ofNat_toNat, UInt64.ofNat_toNat, UInt64.ofNat_toNat]

theorem table_json (t : Table) : Table.ofJson t.toJson = some t := by
  show (Value.asList Partition.ofJson (.arr (t.partitions.map Partition.toJson))).bind _ = _
  rw [Value.asList_map partition_json]
  rfl

theorem esp_json (e : Esp) : Esp.ofJson e.toJson = some e := by
  have hboot : Value.asOption Boot.ofJson (Value.nullable Boot.toJson e.boot) = some e.boot :=
    Value.asOption_nullable boot_json (fun _ h => Value.noConfusion h) e.boot
  have hclaim : Value.asOption Claim.ofJson (Value.nullable Claim.toJson e.claim) =
      some e.claim :=
    Value.asOption_nullable claim_json (fun _ h => Value.noConfusion h) e.claim
  have hmissing : Value.asList Value.asStr (.arr (e.missing.map .str)) = some e.missing :=
    Value.asList_map str_json e.missing
  show (Value.asOption Boot.ofJson (Value.nullable Boot.toJson e.boot)).bind (fun boot =>
    (Value.asOption Claim.ofJson (Value.nullable Claim.toJson e.claim)).bind (fun claim =>
      (Value.asList Value.asStr (.arr (e.missing.map .str))).bind (fun missing =>
        some (Esp.mk boot claim missing)))) = some e
  rw [hboot, Option.bind_some, hclaim, Option.bind_some, hmissing, Option.bind_some]

theorem drive_json (d : Drive) : Drive.ofJson d.toJson = some d := by
  have htext (o : Option String) : Value.asOption Value.asStr (Value.nullable .str o) = some o :=
    Value.asOption_nullable str_json (fun _ h => Value.noConfusion h) o
  have htable : Value.asOption Table.ofJson (Value.nullable Table.toJson d.table) =
      some d.table :=
    Value.asOption_nullable table_json (fun _ h => Value.noConfusion h) d.table
  have hesp : Value.asOption Esp.ofJson (Value.nullable Esp.toJson d.esp) = some d.esp :=
    Value.asOption_nullable esp_json (fun _ h => Value.noConfusion h) d.esp
  show (Value.asOption Value.asStr (Value.nullable .str d.model)).bind (fun model =>
    (Value.asOption Value.asStr (Value.nullable .str d.wwid)).bind (fun wwid =>
      (Value.asOption Value.asStr (Value.nullable .str d.serial)).bind (fun serial =>
        (Value.asOption Table.ofJson (Value.nullable Table.toJson d.table)).bind (fun table =>
          (Value.asOption Esp.ofJson (Value.nullable Esp.toJson d.esp)).bind (fun esp =>
            (Verdict.ofJson d.verdict.toJson).bind (fun verdict =>
              some (Drive.mk d.path (UInt64.ofNat d.sizeBytes.toNat) d.rotational model wwid serial
                table esp verdict))))))) = some d
  rw [htext, Option.bind_some, htext, Option.bind_some, htext, Option.bind_some, htable,
    Option.bind_some, hesp, Option.bind_some, verdict_json, Option.bind_some,
    UInt64.ofNat_toNat]

theorem report_json (r : Report) : Report.ofJson r.toJson = some r := by
  show (Value.asList Drive.ofJson (.arr (r.drives.map Drive.toJson))).bind (fun drives =>
    (Intent.ofJson r.intent.toJson).bind (fun intent => some (Report.mk drives intent))) = some r
  rw [Value.asList_map drive_json, Option.bind_some, intent_json, Option.bind_some]

theorem read_report {J : Json.Printer} (hJ : J.Lawful) (r : Report) :
    readReport (Text.asBytes (J r.toJson)) = some r := by
  unfold readReport
  rw [Text.fromUtf8_asBytes, Option.bind_some, hJ, Option.bind_some, report_json]

/-- The inventory reads back as the survey it is of, whatever is on the
    drives. -/
theorem readReport_reportText {J : Json.Printer} (hJ : J.Lawful) (s : Survey) :
    readReport (Text.asBytes (reportText J s)) = some s.report :=
  read_report hJ s.report

/-- A drive whose model string has a quote, a new line and a control character
    in it, and nothing on it. -/
def quotedDrive : Drive where
  path := "/dev/sda"
  sizeBytes := 2048
  rotational := false
  model := some "\"QEMU\"\n\x01"
  wwid := none
  serial := none
  table := none
  esp := none
  verdict := .blank

theorem readReport_reportText_quoted :
    readReport (Text.asBytes (reportText Json.pretty { drives := [quotedDrive] })) =
      some { drives := [quotedDrive], intent := .takeOver "/dev/sda" } :=
  readReport_reportText Json.pretty_lawful { drives := [quotedDrive] }

/-! ## The boot and its inventory -/

/-- What the inventory leads to: the drive, the slab and the volume its loader
    entry asks for, or the question to the appliance. -/
def Report.outcome (r : Report) : Outcome :=
  match r.intent with
  | .alreadyMine drive slab slabId =>
      .bootLocal drive slab slabId (volumeOf (r.drives.find? (fun d => d.path == drive)))
  | .takeOver path => .askAppliance ("nothing of ours here yet; " ++ path ++ " is free") path
  | .mineButNoneBoots because => .askAppliance (Text.join "; " because) ""
  | .nothingToTake because => .askAppliance (Text.join "; " because) ""

section Boots

variable {V N S : Type} {F : Volume.Ops V N} {J : Json.Printer} {D : FileOps S} {os : Os V}
  {files : S} {m : Machine} {claimIt : Bool}

theorem boot_outcome {s : Survey} (hs : survey F os m = .ok s) :
    (boot F os m claimIt).outcome = s.report.outcome := by
  unfold boot Report.outcome Survey.report
  simp only [hs]
  rcases s.intent with ⟨drive, slab, slabId⟩ | _ | _ | _
  all_goals rfl

/-- Whatever becomes of the file, the boot is the same. -/
theorem bootReported_boot (F : Volume.Ops V N) (J : Json.Printer) (D : FileOps S) (os : Os V)
    (files : S) (m : Machine) (report : String) (claimIt : Bool) :
    (bootReported F J D os files m report claimIt).1 = boot F os m claimIt := by
  unfold bootReported
  rcases survey F os m with e | s
  · rfl
  · simp only
    split_ifs
    · rfl
    · rfl

theorem read_of_writeReport (hD : D.Lawful) {s : Survey} {path : String} {files' : S}
    (h : writeReport J D files s path = (files', .ok ())) :
    D.read files' path = some (Text.asBytes (reportText J s)) := by
  unfold writeReport at h
  rcases hp : parent path with _ | dir
  · rw [hp] at h
    exact hD h
  · rw [hp] at h
    simp only at h
    rcases hdir : D.createDirAll files dir with ⟨made, e | ⟨⟩⟩
    · rw [hdir] at h
      exact absurd (Prod.mk.inj h).2 (by simp only [reduceCtorEq, not_false_eq_true])
    · rw [hdir] at h
      exact hD h

/-- An inventory that was written reads back as a report of every drive the
    boot looked at, and what the report leads to is what the boot answered.
    It is also what the survey command prints of the machine. -/
theorem boot_follows_inventory (hJ : J.Lawful) (hD : D.Lawful) {report : String} {run : BootRun V}
    {files' : S}
    (h : bootReported F J D os files m report claimIt = (run, files', some (.ok ()))) :
    ∃ s bs, survey F os m = .ok s ∧ D.read files' report = some bs ∧
      readReport bs = some s.report ∧
      run.outcome.stdout = s.report.outcome.stdout ∧
      run.outcome.exitCode = s.report.outcome.exitCode ∧
      ∃ text, surveyJson F J os m = .ok (text ++ "\n") ∧ bs = Text.asBytes text := by
  -- Writing the inventory makes no difference to the boot.
  have hrun : run = boot F os m claimIt := by
    rw [← bootReported_boot F J D os files m report claimIt, h]
  unfold bootReported at h
  rcases hs : survey F os m with e | s
  · rw [hs] at h
    exact absurd (Prod.mk.inj (Prod.mk.inj h).2).2 (by simp only [reduceCtorEq, not_false_eq_true])
  · rw [hs] at h
    simp only at h
    split_ifs at h
    · exact absurd (Prod.mk.inj (Prod.mk.inj h).2).2
        (by simp only [reduceCtorEq, not_false_eq_true])
    · -- There is a file to write, and writing it succeeded.
      have hwrite : writeReport J D files s report = (files', .ok ()) :=
        Prod.ext (Prod.mk.inj (Prod.mk.inj h).2).1
          (Option.some.inj (Prod.mk.inj (Prod.mk.inj h).2).2)
      have hout : run.outcome = s.report.outcome := by
        rw [hrun]
        exact boot_outcome hs
      refine ⟨s, _, rfl, read_of_writeReport hD hwrite, read_report hJ s.report, ?_, ?_,
        reportText J s, ?_, rfl⟩
      · rw [hout]
      · rw [hout]
      · unfold surveyJson
        rw [hs]
        rfl

end Boots

/-! ## Files in memory -/

/-- Files that are their bytes, every directory already there. -/
def FileOps.memory : FileOps (String → Option (List UInt8)) where
  createDirAll files _ := (files, .ok ())
  write files path bs := (Function.update files path (some bs), .ok ())
  read files path := files path

theorem FileOps.memory_lawful : FileOps.memory.Lawful := by
  intro files files' path bs h
  rw [← (Prod.mk.inj h).1]
  exact Function.update_self path (some bs) files

theorem boot_follows_inventory_wiped :
    let os := (Bench.slabbed [Bench.sda1, Bench.sda2] (Bench.wiped (V := Volume.Memory))
      Bench.systemSecond).os
    let m := Bench.machine none
    let file := "/run/zeroboot/survey.json"
    let files :=
      (bootReported Volume.memory Json.pretty FileOps.memory os (fun _ => none) m file true).2.1
    ∃ s bs, survey Volume.memory os m = .ok s ∧ files file = some bs ∧
      readReport bs = some s.report ∧
      (boot Volume.memory os m true).outcome.stdout = s.report.outcome.stdout ∧
      (boot Volume.memory os m true).outcome.exitCode = s.report.outcome.exitCode ∧
      ∃ text, surveyJson Volume.memory Json.pretty os m = .ok (text ++ "\n") ∧
        bs = Text.asBytes text := by
  intro os m file files
  have hsurvey := Bench.survey_eq Volume.memory (Bench.slabbed [Bench.sda1, Bench.sda2]
    (Bench.wiped (V := Volume.Memory)) Bench.systemSecond) none
  have hrun : bootReported Volume.memory Json.pretty FileOps.memory os (fun _ => none) m file true =
      (boot Volume.memory os m true, files, some (.ok ())) := by
    have hparent : parent file = some "/run/zeroboot" := by decide +kernel
    have hfile : file ≠ "" := by decide
    show _ = (boot Volume.memory os m true,
      (bootReported Volume.memory Json.pretty FileOps.memory os (fun _ => none) m file true).2.1,
      some (Except.ok ()))
    unfold bootReported writeReport
    rw [hsurvey, hparent]
    simp only [hfile, if_false]
    rfl
  exact boot_follows_inventory Json.pretty_lawful FileOps.memory_lawful hrun

end Zeroboot
