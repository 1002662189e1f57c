import Mathlib.Data.List.ReduceOption
import Zeroboot.Theory.Judge
import Zeroboot.Theory.Selection

/-!
# A Machine with One Drive

A machine with a single local drive, with everything about that drive that can
matter left open: what its device nodes answer, what the crates make of it,
which partitions the kernel lists, and which slabs stormblock names. A state
of a machine that a result is about is one of these, so that it can be said
what the machine is by saying what differs.

## Main definitions

* `Bench`: What is left open.
* `Bench.os`, `Bench.machine`: The machine.
* `Bench.bare`, `Bench.wiped`, `Bench.formatted`: A disk without a table,
  without a filesystem, and with a volume on its ESP.
* `Bench.espVolume`: An ESP that boots.
* `Bench.slabbed`: A drive whose nodes carry the slabs stormblock knows.

## Theorems

* `Bench.survey_eq`: Its survey is the one drive.
* `Bench.admitted`: The drive is there, fixed and local.
-/

namespace Zeroboot

open Medium

/-- One drive, `/dev/sda`, and what is left open about it. -/
structure Bench (V : Type) where
  parts : List FileName
  opened : String → Nat → Except String Handle
  disk : Disk V
  slabs : String → Option String

/-- A megabyte of zeros. -/
def zeros : Content where
  len := 2 ^ 20
  byte _ := 0
  len_lt := by decide

/-- A megabyte that starts with the slab magic. -/
def slabContent : Content where
  len := 2 ^ 20
  byte o := slabMagic.getD o 0
  len_lt := by decide

theorem slabContent_starts : StartsWith slabContent slabMagic := by
  refine ⟨by decide, ?_⟩
  decide

namespace Bench

variable {V N : Type}

/-- A disk without a partition table. -/
def bare : Disk V where
  gpt := none
  openRead := .ok ()
  openWrite := .ok ()
  mount _ _ := .error "no filesystem"

/-- An ESP, and a slab behind it. -/
def table : GptDisk where
  guid := ⟨0x9a1c7f6e000040008000000000000000⟩
  partitions :=
    [ (1, { name := "esp", partGuid := ⟨0x9a1c7f6e000040008000000000000001⟩,
            partTypeGuid := efiType, firstLba := 34, lastLba := 1057 }),
      (2, { name := "slab", partGuid := ⟨0x9a1c7f6e000040008000000000000002⟩,
            partTypeGuid := linuxFsType, firstLba := 1058, lastLba := 4095 }) ]

/-- A table with an ESP, and no filesystem on it. -/
def wiped : Disk V where
  gpt := some table
  openRead := .ok ()
  openWrite := .ok ()
  mount _ _ := .error "invalid boot sector signature"

/-- A table with an ESP, and this volume on it. -/
def formatted (vol : V) : Disk V where
  gpt := some table
  openRead := .ok ()
  openWrite := .ok ()
  mount start stop :=
    if start = 34 * lbSize ∧ stop = 1058 * lbSize then .ok vol
    else .error "invalid boot sector signature"

theorem espExtent_formatted (vol : V) :
    espExtent (formatted vol) = some (34 * lbSize, 1058 * lbSize) := by
  rfl

theorem mount_formatted (vol : V) :
    (formatted vol).mount (34 * lbSize) (1058 * lbSize) = .ok vol := by
  simp only [formatted, and_self, if_true]

theorem read_formatted (F : Volume.Ops V N) (vol : V) :
    Esp.read F (formatted vol) = .ok (some (Esp.ofVolume F vol)) := by
  unfold Esp.read
  rw [espExtent_formatted]
  simp only [mount_formatted]
  rfl

theorem writeClaim_formatted (F : Volume.Ops V N) (drive : String) (vol : V) (c : Claim) :
    writeClaim F drive (formatted vol) c =
      ((formatted vol).put (34 * lbSize) (1058 * lbSize) (writeClaimFile F vol c).1,
        (writeClaimFile F vol c).2) := by
  have hopen : (formatted vol).openWrite = .ok () := rfl
  unfold writeClaim
  rw [espExtent_formatted]
  simp only [hopen, mount_formatted]

/-- The files of an ESP with a loader entry with these options, and a claim or
    not. -/
def espFiles (options : String) (claim : Option String) : List (String × List UInt8) :=
  [ ("EFI/BOOT/BOOTX64.EFI", [0x4d, 0x5a]), ("vmlinuz", [0x1]), ("initramfs.img", [0x2]),
    ("loader/entries/stormcos.conf", Text.asBytes
      ("linux /vmlinuz\ninitrd /initramfs.img\noptions " ++ options ++ "\n")) ] ++
    (claim.map (fun text => ("stormcos/claim", Text.asBytes text))).toList

def espVolume (options : String) (claim : Option String) : Volume.Memory where
  dirs := ["EFI", "EFI/BOOT", "loader", "loader/entries", "stormcos"]
  files := (espFiles options claim).map Prod.fst
  data p := ((espFiles options claim).lookup p).getD []
  rooted := by
    cases claim with
    | none =>
        simp only [espFiles, Option.map_none, Option.toList_none, List.append_nil, List.map_cons,
          List.map_nil]
        decide
    | some text =>
        simp only [espFiles, Option.map_some, Option.toList_some, List.map_append, List.map_cons,
          List.map_nil]
        decide

def sda : FileName where
  text := "sda"
  noSlash := by decide
  ordinary := by decide

def os (b : Bench V) : Os V where
  readToString p := if p = "/sys/block/sda/size" then some "4\n" else none
  readDir p :=
    if p = "/sys/block" then .ok [some sda]
    else if p = "/sys/block/sda" then .ok (b.parts.map some)
    else .error "not a directory"
  pathExists _ := true
  readLink _ := none
  node p := { opened := b.opened p, disk := b.disk }
  slabList _ dev := b.slabs dev
  secs := 0

/-- The machine, told who it is or not. -/
def machine (identity : Option String) : Machine where
  sysfs := "/sys"
  dev := "/dev"
  stormblock := some "/usr/sbin/stormblock"
  only := []
  identity := identity

theorem sysOf_sda (identity : Option String) :
    sysOf (machine identity) "sda" = "/sys/block/sda" :=
  (by decide : pathJoin (pathJoin "/sys" "block") "sda" = "/sys/block/sda")

theorem path_sda (identity : Option String) :
    pathJoin (machine identity).dev "sda" = "/dev/sda" :=
  (by decide : pathJoin "/dev" "sda" = "/dev/sda")

theorem readToString_other (b : Bench V) {path : String} (h : path ≠ "/sys/block/sda/size") :
    b.os.readToString path = none := by
  simp only [os, if_neg h]

theorem identityOf_machine (b : Bench V) (identity : Option String) :
    identityOf b.os (machine identity) = identity := by
  -- The firmware of this machine has no serial to give.
  have hnone : machineIdentity b.os "/sys" = none := by
    unfold machineIdentity readTrimmed
    rw [readToString_other b (by decide)]
    rfl
  unfold identityOf machine
  rw [hnone, Option.or_none]

theorem sizeBytesOf_sda (b : Bench V) : sizeBytesOf b.os "/sys/block/sda" = 2048 := by
  have hread : b.os.readToString (pathJoin "/sys/block/sda" "size") = some "4\n" := by
    simp only [os, (by decide : pathJoin "/sys/block/sda" "size" = "/sys/block/sda/size"), if_true]
  have hparse : Text.parseU64 (Text.trim "4\n") = some 4 := by decide
  unfold sizeBytesOf readU64 readTrimmed
  rw [hread, Option.map_some, Option.bind_some, hparse, Option.getD_some]
  rfl

/-- The drive is there, it is fixed, and it is local. -/
theorem admitted (b : Bench V) (identity : Option String) :
    Admitted b.os (sysOf (machine identity) "sda")
      (sizeBytesOf b.os (sysOf (machine identity) "sda"))
      (removableOf b.os (sysOf (machine identity) "sda")) where
  size := by
    rw [sysOf_sda, sizeBytesOf_sda]
    decide
  fixed := by
    rw [sysOf_sda]
    unfold removableOf readU64 readTrimmed
    rw [readToString_other b (by decide)]
    rfl
  localOnly := by
    rw [sysOf_sda]
    unfold remoteTransport readTrimmed
    rw [readToString_other b (by decide)]
    rfl

/-- The partitions of the drive are the ones listed that are named after it. -/
theorem partitions_sda (b : Bench V) :
    partitions b.os "/sys/block/sda" "sda" =
      ((b.parts.map FileName.text).filter (fun n =>
        Text.startsWith n "sda" && "sda".utf8ByteSize < n.utf8ByteSize)).insertionSort (· ≤ ·) := by
  have hread : b.os.readDir "/sys/block/sda" = .ok (b.parts.map some) := by
    simp only [os, (by decide : "/sys/block/sda" ≠ "/sys/block"), if_false, if_true]
  have hall : b.os.pathExists = fun _ => true := rfl
  unfold partitions
  rw [hread, hall]
  simp only [List.reduceOption, List.filterMap_map, Function.comp_def, id, List.filterMap_some,
    List.filter_true]

theorem readDir_block (b : Bench V) (identity : Option String) :
    b.os.readDir (pathJoin (machine identity).sysfs "block") = .ok [some sda] := by
  simp only [os, machine, (by decide : pathJoin "/sys" "block" = "/sys/block"), if_true]

theorem driveNames_sda (identity : Option String) :
    driveNames (machine identity) [some sda] = ["sda"] := by
  have hall : (machine identity).wants = fun _ => true := by
    funext name
    rfl
  unfold driveNames
  rw [hall]
  decide

theorem survey_eq (F : Volume.Ops V N) (b : Bench V) (identity : Option String) :
    survey F b.os (machine identity) =
      .ok { drives := [lookAt F b.os (machine identity) identity "sda"] } := by
  unfold survey
  rw [readDir_block]
  simp only [driveNames_sda, List.map_cons, List.map_nil, identityOf_machine]

theorem lookAt_path (F : Volume.Ops V N) (b : Bench V) (identity me : Option String) :
    (lookAt F b.os (machine identity) me "sda").path = "/dev/sda" :=
  path_sda identity

theorem identified_machine (b : Bench V) (identity : Option String) (probe : String) :
    identified b.os (machine identity) probe =
      (b.slabs probe).bind (fun out => (Text.lines out).findSome? parseSlabLine) :=
  rfl

theorem surveyed_alone (F : Volume.Ops V N) (b : Bench V) (identity : Option String) :
    survey F b.os (machine identity) = .ok
      { drives := [lookAt F b.os (machine identity) (identityOf b.os (machine identity))
        sda.text] } := by
  rw [identityOf_machine]
  exact survey_eq F b identity

def sda1 : FileName where
  text := "sda1"
  noSlash := by decide
  ordinary := by decide

def sda2 : FileName where
  text := "sda2"
  noSlash := by decide
  ordinary := by decide

/-- What stormblock prints about a device with a slab on it. -/
def slabLine (dev slabId role : String) : String :=
  dev ++ ": slab " ++ slabId ++ " (role=" ++ role ++ ", tier=hot)\n"

def dataId : String := "7661cf8b-0000-4000-8000-000000000001"

def systemId : String := "7661cf8b-0000-4000-8000-000000000002"

/-- A system slab on the second partition, and nothing on the first. -/
def systemSecond (dev : String) : Option String :=
  if dev = "/dev/sda2" then some (slabLine dev systemId "system") else none

/-- A data slab on the first partition, and a system slab on the second. -/
def dataFirst (dev : String) : Option String :=
  if dev = "/dev/sda1" then some (slabLine dev dataId "data") else systemSecond dev

theorem identified_line {b : Bench V} {identity : Option String} {probe slabId role : String}
    (hslab : b.slabs probe = some (slabLine probe slabId role))
    (hparse : (Text.lines (slabLine probe slabId role)).findSome? parseSlabLine =
      some (slabId, role)) :
    identified b.os (machine identity) probe = some (slabId, role) := by
  rw [identified_machine, hslab, Option.bind_some, hparse]

theorem parse_systemLine : (Text.lines (slabLine "/dev/sda2" systemId "system")).findSome?
    parseSlabLine = some (systemId, "system") := by
  decide +kernel

theorem parse_dataLine : (Text.lines (slabLine "/dev/sda1" dataId "data")).findSome?
    parseSlabLine = some (dataId, "data") := by
  decide +kernel

theorem systemSecond_sda2 :
    systemSecond "/dev/sda2" = some (slabLine "/dev/sda2" systemId "system") := by
  unfold systemSecond
  rw [if_pos rfl]

theorem dataFirst_sda1 : dataFirst "/dev/sda1" = some (slabLine "/dev/sda1" dataId "data") := by
  unfold dataFirst
  rw [if_pos rfl]

theorem dataFirst_sda2 : dataFirst "/dev/sda2" = some (slabLine "/dev/sda2" systemId "system") := by
  unfold dataFirst
  rw [if_neg (by decide), systemSecond_sda2]

/-- A drive all of whose nodes answer in full: those stormblock knows carry a
    slab, and the others are zeros. -/
def slabbed (parts : List FileName) (disk : Disk V) (slabs : String → Option String) :
    Bench V where
  parts := parts
  opened path _ := .ok (steady (if (slabs path).isSome then slabContent else zeros))
  disk := disk
  slabs := slabs

theorem slabbed_readsAs (parts : List FileName) (disk : Disk V)
    (slabs : String → Option String) :
    (slabbed parts disk slabs).os.ReadsAs
      (fun path => .ok (if (slabs path).isSome then slabContent else zeros)) where
  failed path k e he := absurd he (by simp only [reduceCtorEq, not_false_eq_true])
  opened path k c hc := by
    rw [← Except.ok.inj hc]
    exact ⟨_, rfl, steady_delivers _⟩

theorem slabbed_starts (slabs : String → Option String) (path : String) :
    StartsSlab (fun path => .ok (if (slabs path).isSome then slabContent else zeros)) path ↔
      (slabs path).isSome := by
  unfold StartsSlab
  simp only [Except.ok.injEq, exists_eq_left']
  by_cases hs : (slabs path).isSome
  · rw [if_pos hs]
    exact iff_of_true slabContent_starts hs
  · rw [if_neg hs]
    exact iff_of_false (not_startsWith_zero fun _ _ => rfl) hs

theorem slabbed_carries (parts : List FileName) (disk : Disk V)
    (slabs : String → Option String) (path : String) :
    Carries (slabbed parts disk slabs).os path ↔ (slabs path).isSome :=
  (carries_iff (slabbed_readsAs parts disk slabs)).trans (slabbed_starts slabs path)

theorem slabbed_passed (parts : List FileName) (disk : Disk V)
    (slabs : String → Option String) {path probe : String} (h : slabs probe = none) :
    Passed (slabbed parts disk slabs).os path probe := by
  refine (passed_iff (slabbed_readsAs parts disk slabs)).mpr ⟨?_, Or.inl ⟨_, rfl, ?_⟩⟩
  · -- A node stormblock knows nothing of reads as zeros.
    rw [slabbed_starts, h]
    decide
  · rw [h]
    decide

/-- The two partitions of a drive with two partitions. -/
theorem probes_two (disk : Disk V) (slabs : String → Option String) :
    probes (slabbed [sda1, sda2] disk slabs).os "/sys/block/sda" "sda" "/dev/sda" =
      ["/dev/sda", "/dev/sda1", "/dev/sda2"] := by
  unfold probes
  rw [partitions_sda]
  simp only [slabbed]
  decide

end Bench

end Zeroboot
