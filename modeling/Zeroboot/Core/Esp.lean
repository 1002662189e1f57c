import Mathlib.Data.List.Sort
import Zeroboot.Core.Disk

/-!
# The ESP, Read Back

`esp.rs`: finding the EFI System Partition of a drive, reading off it the
claim and the loader entry, checking that what the entry names is there, and
writing a claim.

`Esp.read` keeps three answers apart. An error means there is an ESP that
could not be read; `none` means there is no ESP at all; and an `Esp` says
whether the drive boots itself and what is missing when it does not.

A file is read as text everywhere, `readFile` going through UTF-8. That holds
for the kernel and the initramfs as well, which are only asked for to see
whether they are there.

## Main definitions

* `Claim`, `Claim.parse`, `Claim.render`: A node's claim, and its file.
* `Boot`, `Esp`: What a drive says about how it boots.
* `espExtent`: The byte range of the ESP.
* `readFile`, `loaderEntry`, `cmdlineValue`: What is read off it.
* `Esp.read`: The ESP of a drive, if it has one.
* `writeClaim`: A claim put on the ESP.
* `Table`, `partitionTable`: The partition table, for the report.

## Theorems

* `ofVolume_claim`: Where the claim of an ESP comes from.
* `writeClaimFile_cases`: The calls that write a claim, up to one that fails.
* `writeClaim_cases`: What writing a claim can do to a disk.
-/

namespace Zeroboot

variable {V N : Type}

/-- Where a node writes down that a drive is its own. -/
def claimPath : String := "stormcos/claim"

structure Boot where
  cmdline : String
  slabDevice : Option String
  bootVolume : Option String
  deriving DecidableEq

structure Claim where
  node : String
  claimed : String
  deriving DecidableEq

/-- One line of a claim. A later line overrides an earlier one, and a blank
    `node` takes the earlier one back. -/
def Claim.parseLine (st : Option String × String) (line : String) : Option String × String :=
  match Text.splitOnce '=' line with
  | none => st
  | some (k, v) =>
      if Text.trim k = "node" then ((some (Text.trim v)).filter (· ≠ ""), st.2)
      else if Text.trim k = "claimed" then (st.1, Text.trim v)
      else st

def Claim.parse (text : String) : Option Claim :=
  let st := (Text.lines text).foldl Claim.parseLine (none, "")
  st.1.map (fun node => { node := node, claimed := st.2 })

def Claim.render (c : Claim) : String :=
  "node=" ++ c.node ++ "\nclaimed=" ++ c.claimed ++ "\n"

structure Esp where
  boot : Option Boot
  claim : Option Claim
  missing : List String
  deriving DecidableEq

/-- The byte range of the drive's EFI System Partition. A drive without a
    table has none, and nothing else can go wrong. -/
def espExtent (disk : Disk V) : Option (UInt64 × UInt64) :=
  match disk.gpt with
  | none => none
  | some table =>
      ((table.partitions.map Prod.snd).find? (fun p => p.partTypeGuid == efiType)).map
        (fun p => (p.firstLba * lbSize, (p.lastLba + 1) * lbSize))

def readFile (F : Volume.Ops V N) (vol : V) (path : String) : Option String :=
  (F.openFile vol path).bind (fun n => (F.readToEnd vol n).bind Text.fromUtf8)

/-- A loader entry: each field the rest of the first line that starts with
    its key, unless that is blank. -/
structure Entry where
  linux : Option String
  initrd : Option String
  options : Option String
  deriving DecidableEq

def Entry.field (text key : String) : Option String :=
  (((Text.lines text).findSome? (Text.stripPrefix key)).map Text.trim).filter (· ≠ "")

def Entry.ofText (text : String) : Entry where
  linux := Entry.field text "linux"
  initrd := Entry.field text "initrd"
  options := Entry.field text "options"

/-- The first readable `.conf` file under `/loader/entries`. -/
def loaderEntry (F : Volume.Ops V N) (vol : V) : Option Entry :=
  (F.openDir vol "loader/entries").bind (fun es => es.findSome? (fun
    | none => none
    | some e =>
        -- A directory, another ending or an unreadable file passes on to the next entry.
        if e.isDir || !Text.endsWith (Text.toAsciiLowercase e.fileName) ".conf" then none
        else (readFile F vol ("loader/entries/" ++ e.fileName)).map Entry.ofText))

/-- Pull `key=value` out of a kernel command line. -/
def cmdlineValue (cmdline key : String) : Option String :=
  ((Text.words cmdline).findSome? (Text.stripPrefix key)).filter (· ≠ "")

/-- What is missing when one of the files a loader entry names is not to be
    read off the ESP. -/
def missingFile (F : Volume.Ops V N) (vol : V) (what : String) : Option String → List String
  | some p =>
      if (readFile F vol (Text.trimStartMatches '/' p)).isSome then []
      else [what ++ " " ++ p ++ " named by the loader entry is not on the ESP"]
  | none => ["loader entry names no " ++ what]

/-- Everything the loader entry needs and the ESP does not have. -/
def missingOf (F : Volume.Ops V N) (vol : V) (entry : Entry) : List String :=
  missingFile F vol "kernel" entry.linux ++ missingFile F vol "initramfs" entry.initrd ++
    (if (F.openFile vol "EFI/BOOT/BOOTX64.EFI").isSome then [] else ["no /EFI/BOOT/BOOTX64.EFI"])

/-- What a mounted ESP says. -/
def Esp.ofVolume (F : Volume.Ops V N) (vol : V) : Esp :=
  let claim := (readFile F vol claimPath).bind Claim.parse
  match loaderEntry F vol with
  | none => { boot := none, claim := claim, missing := ["no loader entry under /loader/entries"] }
  | some entry =>
      let missing := missingOf F vol entry
      -- An entry that names what is not there boots nothing.
      if missing ≠ [] then { boot := none, claim := claim, missing := missing }
      else
        let cmdline := entry.options.getD ""
        { boot := some
            { cmdline := cmdline
              slabDevice := cmdlineValue cmdline "rd.stormblock.slab="
              bootVolume := cmdlineValue cmdline "stormblock.volume=" }
          claim := claim
          missing := missing }

/-- The claim is the claim file's, whatever the loader entry names. -/
theorem ofVolume_claim (F : Volume.Ops V N) (vol : V) :
    (Esp.ofVolume F vol).claim = (readFile F vol claimPath).bind Claim.parse := by
  unfold Esp.ofVolume
  rcases loaderEntry F vol with _ | entry
  · rfl
  · by_cases hmissing : missingOf F vol entry ≠ []
    · simp only [if_pos hmissing]
    · simp only [if_neg hmissing]

/-- Read the ESP of a drive, if it has one. -/
def Esp.read (F : Volume.Ops V N) (disk : Disk V) : Except String (Option Esp) :=
  match espExtent disk with
  | none => .ok none
  | some (start, stop) =>
      match disk.openRead with
      | .error e => .error e
      | .ok () =>
          match disk.mount start stop with
          | .error e => .error e
          | .ok vol => .ok (some (Esp.ofVolume F vol))

/-- The claim file of a mounted ESP, opened or created, cut to nothing,
    written and flushed. The directory may be there already, so what creating
    it answers is ignored. -/
def writeClaimFile (F : Volume.Ops V N) (vol : V) (claim : Claim) : V × Except String Unit :=
  let vol := match Text.rsplitOnce '/' claimPath with
    | some (dir, _) => (F.createDir vol dir).1
    | none => vol
  match F.createFile vol claimPath with
  | (vol, .error e) => (vol, .error e)
  | (vol, .ok f) =>
      match F.truncate vol f 0 with
      | (vol, .error e) => (vol, .error e)
      | (vol, .ok ()) =>
          match F.writeAll vol f 0 (Text.asBytes claim.render) with
          | (vol, .error e) => (vol, .error e)
          | (vol, .ok ()) => F.flush vol f

/-- Write a claim onto a drive's ESP. -/
def writeClaim (F : Volume.Ops V N) (drive : String) (disk : Disk V) (claim : Claim) :
    Disk V × Except String Unit :=
  match espExtent disk with
  | none => (disk, .error (drive ++ " has no EFI System Partition to claim in"))
  | some (start, stop) =>
      match disk.openWrite with
      | .error e => (disk, .error e)
      | .ok () =>
          match disk.mount start stop with
          | .error e => (disk, .error e)
          | .ok vol =>
              let (vol, result) := writeClaimFile F vol claim
              (disk.put start stop vol, result)

structure Partition where
  index : Nat
  name : String
  guid : String
  typeGuid : String
  firstLba : UInt64
  lastLba : UInt64
  sizeBytes : UInt64
  deriving DecidableEq

structure Table where
  diskGuid : String
  partitions : List Partition
  deriving DecidableEq

/-- Read a drive's partition table. -/
def partitionTable (disk : Disk V) : Option Table :=
  disk.gpt.map (fun table =>
    { diskGuid := table.guid.text
      partitions := (table.partitions.map (fun ⟨index, p⟩ =>
        { index := index
          name := p.name
          guid := p.partGuid.text
          typeGuid := p.partTypeGuid.text
          firstLba := p.firstLba
          lastLba := p.lastLba
          sizeBytes := (p.lastLba + 1 - p.firstLba) * lbSize })).insertionSort
            (fun a b => a.index ≤ b.index) })

/-- The directory of the claim file is the one above it. -/
theorem writeClaimFile_eq (F : Volume.Ops V N) (vol : V) (claim : Claim) :
    writeClaimFile F vol claim =
      match F.createFile (F.createDir vol "stormcos").1 claimPath with
      | (vol, .error e) => (vol, .error e)
      | (vol, .ok f) =>
          match F.truncate vol f 0 with
          | (vol, .error e) => (vol, .error e)
          | (vol, .ok ()) =>
              match F.writeAll vol f 0 (Text.asBytes claim.render) with
              | (vol, .error e) => (vol, .error e)
              | (vol, .ok ()) => F.flush vol f := by
  have hdir : Text.rsplitOnce '/' claimPath = some ("stormcos", "claim") := by decide
  unfold writeClaimFile
  rw [hdir]

/-- Writing the claim file stops at the first call that fails. -/
theorem writeClaimFile_cases (F : Volume.Ops V N) (vol : V) (claim : Claim) :
    (∃ v e, F.createFile (F.createDir vol "stormcos").1 claimPath = (v, .error e) ∧
      writeClaimFile F vol claim = (v, .error e)) ∨
    ∃ v1 n, F.createFile (F.createDir vol "stormcos").1 claimPath = (v1, .ok n) ∧
      ((∃ v e, F.truncate v1 n 0 = (v, .error e) ∧ writeClaimFile F vol claim = (v, .error e)) ∨
      ∃ v2, F.truncate v1 n 0 = (v2, .ok ()) ∧
        ((∃ v e, F.writeAll v2 n 0 (Text.asBytes claim.render) = (v, .error e) ∧
          writeClaimFile F vol claim = (v, .error e)) ∨
        ∃ v3, F.writeAll v2 n 0 (Text.asBytes claim.render) = (v3, .ok ()) ∧
          writeClaimFile F vol claim = F.flush v3 n)) := by
  rw [writeClaimFile_eq]
  rcases h1 : F.createFile (F.createDir vol "stormcos").1 claimPath with ⟨v1, e | n⟩
  · exact Or.inl ⟨v1, e, rfl, rfl⟩
  · refine Or.inr ⟨v1, n, rfl, ?_⟩
    simp only
    rcases h2 : F.truncate v1 n 0 with ⟨v2, e | ⟨⟩⟩
    · exact Or.inl ⟨v2, e, rfl, rfl⟩
    · refine Or.inr ⟨v2, rfl, ?_⟩
      simp only
      rcases h3 : F.writeAll v2 n 0 (Text.asBytes claim.render) with ⟨v3, e | ⟨⟩⟩
      · exact Or.inl ⟨v3, e, rfl, rfl⟩
      · exact Or.inr ⟨v3, rfl, rfl⟩

/-- Writing a claim leaves the disk alone, or writes into the filesystem on
    its ESP. -/
theorem writeClaim_cases (F : Volume.Ops V N) (drive : String) (disk : Disk V) (claim : Claim) :
    (∃ e, writeClaim F drive disk claim = (disk, .error e)) ∨
    ∃ start stop vol, espExtent disk = some (start, stop) ∧ disk.openWrite = .ok () ∧
      disk.mount start stop = .ok vol ∧ writeClaim F drive disk claim =
        (disk.put start stop (writeClaimFile F vol claim).1, (writeClaimFile F vol claim).2) := by
  unfold writeClaim
  rcases hx : espExtent disk with _ | ⟨start, stop⟩
  · exact Or.inl ⟨_, rfl⟩
  · rcases ho : disk.openWrite with e | ⟨⟩
    · exact Or.inl ⟨e, rfl⟩
    · rcases hm : disk.mount start stop with e | vol
      · simp only [hm]
        exact Or.inl ⟨e, rfl⟩
      · simp only [hm]
        exact Or.inr ⟨start, stop, vol, rfl, trivial, hm, rfl⟩

end Zeroboot
