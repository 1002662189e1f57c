import Zeroboot.Core.Bytes
import Zeroboot.Core.Survey

/-!
# Looking at a Machine

The rest of `probe.rs`: what sysfs says about a drive, who the machine is,
which slab stormblock names on a device, and the verdict on each drive.

`Os` is everything outside the process that is read: files, directories and
links, the device nodes, and the answer of the stormblock binary. A device
node is opened several times while one drive is judged, so `Node.opened`
answers by how often the node was opened before. Nothing says the answers have
to agree.

Paths are text. `pathJoin` and `withFileName` do what `Path::join` and
`Path::with_file_name` do with a bare name, `.` and doubled separators in front
of the name that is replaced included. A name out of a directory listing is a
`FileName`, which is a single ordinary component.

`judgeProbe` is one turn of the loop over the probes: `none` where the source
says `continue`, the verdict where it returns. The order of the branches of
`judge` is the source's, and every branch that leaves a drive alone stands
before the one that can call it blank.

## Main definitions

* `FileName`, `pathJoin`, `fileName`, `parent`, `withFileName`: Paths.
* `Node`, `Os`, `Machine`: What is looked at, and where.
* `machineIdentity`: Who the machine is.
* `remoteTransport`, `partitions`: What sysfs says about a drive.
* `parseSlabLine`, `identifySlab`: What stormblock says about a device.
* `judgeProbe`, `judge`: The verdict.
* `lookAt`, `survey`: One drive, and all of them.

## Theorems

* `fileName_pathJoin`, `fileName_withFileName`: The last component is the
  name put there.
-/

namespace Zeroboot

open Medium

/-! ## Paths -/

/-- A name out of a directory listing: one ordinary path component. -/
structure FileName where
  text : String
  noSlash : '/' ∉ text.toList
  ordinary : text ≠ "" ∧ text ≠ "." ∧ text ≠ ".."

def pathJoin (dir name : String) : String :=
  if dir = "" ∨ dir.toList.getLast? = some '/' then dir ++ name else dir ++ "/" ++ name

/-- `Path::file_name`: the last component that is not a `.`, unless it is
    a `..`. -/
def fileName (path : String) : Option String :=
  (((path.toList.splitOn '/').filter (fun c => c ≠ [] ∧ c ≠ ['.'])).getLast?.filter
    (· ≠ ['.', '.'])).map String.ofList

/-- How much of a path stands in front of its components: the root, or the
    `.` it begins with. -/
def beforeBody : List Char → Nat
  | '/' :: _ => 1
  | ['.'] => 1
  | '.' :: '/' :: _ => 1
  | _ => 0

/-- What is between separators at the end of a path and names nothing. -/
def trimComponents (parts : List (List Char)) : List (List Char) :=
  parts.rdropWhile (fun part => part == [] || part == ['.'])

/-- `Path::parent`: a path without its last component, unless it has none.
    `.` is a component only where the path begins with it. -/
def parent (path : String) : Option String :=
  let cs := path.toList
  let front := cs.take (beforeBody cs)
  match trimComponents ((cs.drop (beforeBody cs)).splitOn '/') with
  | [] => if front = ['.'] then some "" else none
  | parts =>
      some (String.ofList (front ++ List.intercalate ['/'] (trimComponents parts.dropLast)))

/-- `Path::with_file_name`: the last component, if the path ends in a name,
    taken off, and the new one joined on. -/
def withFileName (path name : String) : String :=
  pathJoin (if (fileName path).isSome then (parent path).getD path else path) name

/-! ## The machine -/

/-- A device node: what each opening answers, and the disk behind it. -/
structure Node (V : Type) where
  opened : Nat → Except String Handle
  disk : Disk V

/-- Everything outside the process that is read. -/
structure Os (V : Type) where
  readToString : String → Option String
  readDir : String → Except String (List (Option FileName))
  pathExists : String → Bool
  readLink : String → Option String
  node : String → Node V
  /-- The standard output of `<bin> slab list <dev>`, when the binary runs. -/
  slabList : String → String → Option String
  /-- Seconds since the epoch. -/
  secs : Nat

structure Machine where
  sysfs : String
  dev : String
  stormblock : Option String
  only : List String
  identity : Option String
  deriving DecidableEq

variable {V N : Type}

def readTrimmed (os : Os V) (path : String) : Option String :=
  (os.readToString path).map Text.trim

def readU64 (os : Os V) (path : String) : Option UInt64 :=
  (readTrimmed os path).bind Text.parseU64

/-- Placeholders firmware writes when it has nothing to say. -/
def notAnIdentity : List String :=
  ["not specified", "to be filled by o.e.m.", "system serial number", "default string", "none",
    "0", "unknown"]

/-- Who this machine is, as the firmware names it. -/
def machineIdentity (os : Os V) (sysfs : String) : Option String :=
  ((readTrimmed os (pathJoin sysfs "class/dmi/id/product_serial")).filter (· ≠ "")).filter
    (fun s => !notAnIdentity.contains (Text.toAsciiLowercase s))

/-- Names under `/sys/block` that are not a drive, or are a second view of
    one. -/
def isNotADrive (name : String) : Bool :=
  ["loop", "ram", "zram", "dm-", "md", "sr", "fd", "nbd", "zd"].any (Text.startsWith name)

def Machine.wants (m : Machine) (name : String) : Bool :=
  m.only.isEmpty || m.only.any (fun w => w == name || fileName w == some name)

/-- The partitions the kernel found on this drive, in order. -/
def partitions (os : Os V) (sys name : String) : List String :=
  match os.readDir sys with
  | .error _ => []
  | .ok entries =>
      (((entries.reduceOption.filter
          (fun e => os.pathExists (pathJoin (pathJoin sys e.text) "partition"))).map
            FileName.text).filter
              (fun n => Text.startsWith n name && name.utf8ByteSize < n.utf8ByteSize)).insertionSort
                (· ≤ ·)

/-- Where a device hangs in the device tree, when that is a network. -/
def transportMarkers : List (String × String) :=
  [("/session", "iSCSI"), ("iscsi", "iSCSI"), ("/rport-", "Fibre Channel"),
    ("fc_host", "Fibre Channel"), ("nvme-fabrics", "NVMe-oF")]

/-- How the drive got here, when it did not get here by being plugged in. -/
def remoteTransport (os : Os V) (sys : String) : Option String :=
  match (readTrimmed os (pathJoin sys "device/transport")).filter
      (fun t => t ≠ "" ∧ t ≠ "pcie") with
  | some t => some ("nvme-" ++ t)
  | none =>
      (os.readLink sys).bind (fun link => transportMarkers.findSome? (fun (marker, what) =>
        if Text.contains link marker then some what else none))

/-- `char::is_ascii_hexdigit`. -/
def isAsciiHexdigit (c : Char) : Bool :=
  c.isDigit || (0x41 ≤ c.toNat && c.toNat ≤ 0x46) || (0x61 ≤ c.toNat && c.toNat ≤ 0x66)

/-- The slab a line of `stormblock slab list` names, and its role. -/
def parseSlabLine (line : String) : Option (String × String) :=
  (Text.splitOnceStr ": slab " line).bind (fun (_, rest) =>
    let id := rest.toList.takeWhile (fun c => isAsciiHexdigit c || c == '-')
    if id.length ≠ 36 then none
    else
      let role := (((Text.splitOnceStr "role=" rest).map (fun (_, r) =>
        Text.trim (String.ofList (r.toList.takeWhile (fun c => c != ',' && c != ')'))))).filter
          (· ≠ "")).getD "unknown"
      some (String.ofList id, role))

/-- Ask stormblock which slab this is. -/
def identifySlab (os : Os V) (bin dev : String) : Option (String × String) :=
  (os.slabList bin dev).bind (fun out => (Text.lines out).findSome? parseSlabLine)

/-! ## The verdict -/

/-- Open a device node for the `k`-th time and sniff it. -/
def sniffNode (os : Os V) (path : String) (k : Nat) : Except String Sniff :=
  match (os.node path).opened k with
  | .error e => .error e
  | .ok h => (sniff h).1

/-- Open a device node for the `k`-th time and scan it. -/
def firstNonzeroNode (os : Os V) (path : String) (k : Nat) : Except String (Option Nat) :=
  match (os.node path).opened k with
  | .error e => .error e
  | .ok h => (firstNonzero h).1

/-- What a slab that stormblock names is, on a drive attached like this and
    carrying this claim. -/
def ownerOf (remote me : Option String) (found : Option Esp) (slabId role slab : String) :
    Verdict :=
  match remote with
  | some via => .anotherNode slabId via
  | none =>
      match found.bind Esp.claim, me with
      | some claim, some me =>
          -- Only a claim in another name sets it aside, and only for a node that knows its own.
          if claim.node ≠ me then
            .anotherNode slabId ("node " ++ claim.node ++ " (claimed on its ESP)")
          else .mine slabId role slab
      | _, _ => .mine slabId role slab

/-- One turn of the loop over the probes: `none` goes on to the next. -/
def judgeProbe (os : Os V) (m : Machine) (path : String) (remote me : Option String)
    (found : Option Esp) (probe : String) : Option Verdict :=
  match sniffNode os probe 0 with
  -- Only the whole drive has to be readable. A partition that is not is passed by.
  | .error e => if probe = path then some (.unreadable e) else none
  | .ok sniffed =>
      if !sniffed.starts 0 slabMagic then none
      else
        match m.stormblock with
        | none => some (.foreign
            ("stormblock slab on " ++ probe ++ " - no stormblock binary to identify it"))
        | some bin =>
            match identifySlab os bin probe with
            | none => some (.foreign
                ("stormblock slab magic on " ++ probe ++ " that stormblock would not identify"))
            | some (slabId, role) => some (ownerOf remote me found slabId role probe)

/-- The devices a slab is looked for on: the whole drive, and then its
    partitions. -/
def probes (os : Os V) (sys name path : String) : List String :=
  path :: (partitions os sys name).map (withFileName path)

def plural (n : Nat) : String :=
  if n = 1 then "" else "s"

/-- What this drive is. -/
def judge (os : Os V) (m : Machine) (sys name path : String) (sizeBytes : UInt64)
    (removable : Bool) (me : Option String) (found : Option Esp) : Verdict :=
  if sizeBytes = 0 then .unreadable "no medium (reports zero sectors)"
  else if removable then
    match (readTrimmed os (pathJoin sys "device/model")).filter (· ≠ "") with
    | some model => .foreign ("removable media (" ++ model ++ ")")
    | none => .foreign "removable media"
  else
    let remote := remoteTransport os sys
    let parts := partitions os sys name
    -- A slab settles it, wherever it came from; the transport only names its owner.
    match (probes os sys name path).findSome? (judgeProbe os m path remote me found) with
    | some verdict => verdict
    | none =>
        -- Without a slab, a drive attached over a network is somebody else's.
        match remote with
        | some via => .foreign ("attached over " ++ via)
        | none =>
            match sniffNode os path 1 with
            | .error e => .unreadable e
            | .ok sniffed =>
                -- Partitions are enough, whatever stands in front of them.
                if parts ≠ [] then
                  .foreign ((signature sniffed).getD "partition table" ++ ", " ++
                    toString parts.length ++ " partition" ++ plural parts.length)
                else
                  match (signature sniffed).or sniffed.tailSignature with
                  | some what => .foreign what
                  | none =>
                      match firstNonzeroNode os path 2 with
                      | .ok none => .blank
                      | .ok (some off) =>
                          .foreign ("unrecognised data at offset " ++ toString off)
                      | .error e => .unreadable e

/-- The capacity of a drive, `/sys` counting in 512-byte sectors. -/
def sizeBytesOf (os : Os V) (sys : String) : UInt64 :=
  (readU64 os (pathJoin sys "size")).getD 0 * 512

def removableOf (os : Os V) (sys : String) : Bool :=
  (readU64 os (pathJoin sys "removable")).getD 0 == 1

/-- The directory of a drive in sysfs. -/
def sysOf (m : Machine) (name : String) : String :=
  pathJoin (pathJoin m.sysfs "block") name

/-- What reading the ESP of a drive finds, an error counting as nothing. -/
def foundOf (F : Volume.Ops V N) (os : Os V) (path : String) : Option Esp :=
  match Esp.read F (os.node path).disk with
  | .ok found => found
  | .error _ => none

def lookAt (F : Volume.Ops V N) (os : Os V) (m : Machine) (me : Option String) (name : String) :
    Drive :=
  let sys := sysOf m name
  let path := pathJoin m.dev name
  let sizeBytes := sizeBytesOf os sys
  let found := foundOf F os path
  { path := path
    sizeBytes := sizeBytes
    rotational := (readU64 os (pathJoin sys "queue/rotational")).getD 1 == 1
    model := (readTrimmed os (pathJoin sys "device/model")).filter (· ≠ "")
    wwid := ((readTrimmed os (pathJoin sys "wwid")).or
      (readTrimmed os (pathJoin sys "device/wwid"))).filter (· ≠ "")
    serial := (readTrimmed os (pathJoin sys "device/serial")).filter (· ≠ "")
    table := partitionTable (os.node path).disk
    esp := found
    verdict := judge os m sys name path sizeBytes (removableOf os sys) me found }

/-- Who this node is: what it was told, or else what the firmware says. -/
def identityOf (os : Os V) (m : Machine) : Option String :=
  m.identity.or (machineIdentity os m.sysfs)

/-- The names of the drives that are looked at, in order. -/
def driveNames (m : Machine) (entries : List (Option FileName)) : List String :=
  (((entries.reduceOption.map FileName.text).filter (fun n => !isNotADrive n)).insertionSort
    (· ≤ ·)).filter m.wants

/-- Look at every drive on the machine. -/
def survey (F : Volume.Ops V N) (os : Os V) (m : Machine) : Except String Survey :=
  match os.readDir (pathJoin m.sysfs "block") with
  | .error e => .error ("cannot list drives at " ++ pathJoin m.sysfs "block" ++ ": " ++ e)
  | .ok entries =>
      .ok { drives := (driveNames m entries).map (lookAt F os m (identityOf os m)) }

/-! ## Last components -/

theorem fileName_of_splitOn {path : String} (front : List (List Char)) {name : FileName}
    (h : path.toList.splitOn '/' = front ++ [name.text.toList]) :
    fileName path = some name.text := by
  have hkeep : name.text.toList ≠ [] ∧ name.text.toList ≠ ['.'] ∧
      name.text.toList ≠ ['.', '.'] := by
    refine ⟨?_, ?_, ?_⟩
    · intro hc
      exact name.ordinary.1 (String.toList_inj.mp hc)
    · intro hc
      exact name.ordinary.2.1 (String.toList_inj.mp hc)
    · intro hc
      exact name.ordinary.2.2 (String.toList_inj.mp hc)
  unfold fileName
  rw [h, List.filter_append, List.filter_singleton]
  simp only [ne_eq, hkeep.1, hkeep.2.1, not_false_eq_true, and_self, decide_true, cond_true,
    List.getLast?_concat, Option.filter_some, hkeep.2.2, if_true, Option.map_some,
    String.ofList_toList]

theorem fileName_text (name : FileName) : fileName name.text = some name.text := by
  refine fileName_of_splitOn [] ?_
  rw [List.splitOn_eq_singleton name.noSlash, List.nil_append]

theorem fileName_slash (dir : List Char) {path : String} {name : FileName}
    (h : path.toList = dir ++ '/' :: name.text.toList) : fileName path = some name.text := by
  refine fileName_of_splitOn (dir.splitOn '/') ?_
  rw [h, List.splitOn_append_cons_self, List.splitOn_eq_singleton name.noSlash]

theorem fileName_pathJoin (dir : String) (name : FileName) :
    fileName (pathJoin dir name.text) = some name.text := by
  unfold pathJoin
  by_cases hend : dir = "" ∨ dir.toList.getLast? = some '/'
  · rw [if_pos hend]
    rcases hend with rfl | hslash
    · rw [String.empty_append]
      exact fileName_text name
    · rcases List.getLast?_eq_some_iff.mp hslash with ⟨d, hd⟩
      refine fileName_slash d ?_
      rw [String.toList_append, hd, List.append_assoc, List.singleton_append]
  · rw [if_neg hend]
    refine fileName_slash dir.toList ?_
    simp only [String.toList_append, List.append_assoc]
    rfl

theorem fileName_withFileName (path : String) (name : FileName) :
    fileName (withFileName path name.text) = some name.text :=
  fileName_pathJoin _ name

example : withFileName "/dev//sda" "sda2" = "/dev/sda2" := by decide +kernel

end Zeroboot
