import Mathlib.Data.String.Basic
import Zeroboot.Lib.Sorting
import Zeroboot.Theory.Entry
import Zeroboot.Theory.Image
import Zeroboot.Theory.Loader

/-!
# Two Names for One Partition

The slab of a disk that was built is named twice, by two parties that never
meet. The build puts a `2` behind the name of the disk. The survey takes the
names the kernel gave the partitions, and the kernel puts a `p` in between
when the name of the disk ends in a digit.

So the two agree on `sda2` and not on `nvme0n1p2`. What the survey calls the
slab of such a disk is right, and what its loader entry and the report of the
build name is no device at all.

## Main definitions

* `kernelPart`: The name the kernel gives a partition.
* `Presented`: A disk of two partitions, under the names the kernel gives them.
* `SlabSecond`: What its device nodes answer.

## Theorems

* `partitions_presented`: What the survey takes for the partitions.
* `lookAt_presented`: The verdict on the disk.
* `build_slabPartition`: What the report names.
* `slabDevice_iff`: When the entry names the same device.
* `slab_named_alike_iff`: When all three agree.
-/

namespace Zeroboot

open Run

variable {V N G : Type} {F : Volume.Ops V N} {O : GptOps G}

/-- The name ends in a digit, as `nvme0n1` and `mmcblk0` do. -/
def endsInDigit (name : String) : Bool :=
  name.toList.getLast?.any Char.isDigit

/-- The name the kernel gives a partition of a disk. -/
def kernelPart (name : String) (i : Nat) : String :=
  if endsInDigit name then name ++ ("p" ++ toString i) else name ++ toString i

/-- A disk in `/dev` whose directory in sysfs lists the partitions 1 and 2 by
    the names the kernel gives them, in whatever order. -/
structure Presented (os : Os V) (m : Machine) (name : FileName) (disk : Disk V) : Prop where
  dev : m.dev = "/dev"
  disk : (os.node ("/dev/" ++ name.text)).disk = disk
  parts : ∃ entries, os.readDir (sysOf m name.text) = .ok entries ∧
    ((entries.reduceOption.filter (fun e =>
      os.pathExists (pathJoin (pathJoin (sysOf m name.text) e.text) "partition"))).map
        FileName.text).Perm [kernelPart name.text 1, kernelPart name.text 2]

/-- A local drive with a slab on its second partition, and nowhere before. -/
structure SlabSecond (os : Os V) (m : Machine) (name slabId role : String) : Prop where
  admitted : Admitted os (sysOf m name) (sizeBytesOf os (sysOf m name))
    (removableOf os (sysOf m name))
  whole : Passed os ("/dev/" ++ name) ("/dev/" ++ name)
  first : Passed os ("/dev/" ++ name) ("/dev/" ++ kernelPart name 1)
  second : Carries os ("/dev/" ++ kernelPart name 2)
  identified : identified os m ("/dev/" ++ kernelPart name 2) = some (slabId, role)

/-! ## The names the survey takes -/

section Kernel

variable {os : Os V} {m : Machine} {name : FileName} {disk : Disk V} {slabId role : String}

/-- The name of a partition is the name of the disk, and more. -/
theorem kernelPart_eq (name : String) (i : Nat) :
    ∃ front, front.length ≤ 1 ∧ kernelPart name i = name ++ (front ++ toString i) := by
  unfold kernelPart
  by_cases hdigit : endsInDigit name = true
  · rw [if_pos hdigit]
    exact ⟨"p", by decide, rfl⟩
  · rw [if_neg hdigit]
    exact ⟨"", by decide, by rw [String.empty_append]⟩

theorem kernelPart_le (name : String) : kernelPart name 1 ≤ kernelPart name 2 := by
  have hle (front : String) : front ++ toString 1 ≤ front ++ toString 2 := by
    have hdigits : toString 1 < toString 2 := by decide
    refine le_of_lt (String.lt_iff_toList_lt.mpr ?_)
    rw [String.toList_append, String.toList_append]
    exact List.Lex.append_left _ (String.lt_iff_toList_lt.mp hdigits) front.toList
  unfold kernelPart
  by_cases hdigit : endsInDigit name = true
  · rw [if_pos hdigit, if_pos hdigit, ← String.append_assoc, ← String.append_assoc]
    exact hle _
  · rw [if_neg hdigit, if_neg hdigit]
    exact hle _

/-- The survey keeps both names, and sorts them. -/
theorem partitions_presented (h : Presented os m name disk) :
    partitions os (sysOf m name.text) name.text =
      [kernelPart name.text 1, kernelPart name.text 2] := by
  rcases h.parts with ⟨entries, hread, hperm⟩
  have hkeep (i : Nat) (hi : (toString i).utf8ByteSize = 1) :
      (Text.startsWith (kernelPart name.text i) name.text &&
        name.text.utf8ByteSize < (kernelPart name.text i).utf8ByteSize) = true := by
    rcases kernelPart_eq name.text i with ⟨front, _, heq⟩
    have hlonger : name.text.utf8ByteSize < (kernelPart name.text i).utf8ByteSize := by
      rw [heq, String.utf8ByteSize_append, String.utf8ByteSize_append, hi]
      omega
    rw [decide_eq_true hlonger, Bool.and_true]
    unfold Text.startsWith
    rw [heq, String.toList_append]
    exact List.isPrefixOf_iff_prefix.mpr (List.prefix_append _ _)
  unfold partitions
  rw [hread]
  refine Sorting.insertionSort_eq_of_perm ?_ ((hperm.filter _).trans (List.Perm.of_eq ?_))
  · rw [List.pairwise_pair]
    exact kernelPart_le name.text
  · refine List.filter_eq_self.mpr fun n hn => ?_
    simp only [List.mem_cons, List.not_mem_nil, or_false] at hn
    rcases hn with rfl | rfl
    · exact hkeep 1 (by decide)
    · exact hkeep 2 (by decide)

theorem parent_dev (name : FileName) : parent ("/dev/" ++ name.text) = some "/dev" := by
  have hlist : ("/dev/" ++ name.text).toList =
      '/' :: (['d', 'e', 'v'] ++ '/' :: name.text.toList) := by
    rw [String.toList_append]
    rfl
  have hparts : (['d', 'e', 'v'] ++ '/' :: name.text.toList).splitOn '/' =
      [['d', 'e', 'v'], name.text.toList] := by
    rw [List.splitOn_append_cons_self, List.splitOn_eq_singleton name.noSlash]
    rfl
  -- A name out of a listing is a component of its own.
  have hkeep : ¬ (name.text.toList == [] || name.text.toList == ['.']) = true := by
    rw [Bool.or_eq_true, beq_iff_eq, beq_iff_eq]
    rintro (h | h)
    · exact name.ordinary.1 (String.toList_inj.mp h)
    · exact name.ordinary.2.1 (String.toList_inj.mp h)
  have htrim : trimComponents [['d', 'e', 'v'], name.text.toList] =
      [['d', 'e', 'v'], name.text.toList] :=
    List.rdropWhile_concat_neg _ [['d', 'e', 'v']] _ hkeep
  unfold parent
  simp only [hlist, beforeBody, List.drop_succ_cons, List.drop_zero, hparts, htrim]
  rfl

/-- A name put behind the directory of the device is a device there. -/
theorem withFileName_dev (name : FileName) (part : String) :
    withFileName ("/dev/" ++ name.text) part = "/dev/" ++ part := by
  have hname : fileName ("/dev/" ++ name.text) = some name.text := by
    refine fileName_slash "/dev".toList ?_
    rw [String.toList_append]
    rfl
  have hjoin : ¬ ("/dev" = "" ∨ "/dev".toList.getLast? = some '/') := by decide
  unfold withFileName
  rw [hname, parent_dev, if_pos Option.isSome_some, Option.getD_some]
  unfold pathJoin
  rw [if_neg hjoin]
  exact congrArg (· ++ part) (by decide : "/dev" ++ "/" = "/dev/")

theorem pathJoin_dev (h : Presented os m name disk) :
    pathJoin m.dev name.text = "/dev/" ++ name.text := by
  rw [h.dev]
  exact congrArg (· ++ name.text) (by decide : "/dev" ++ "/" = "/dev/")

/-- The slab of the disk is its second partition, by the name of the kernel. -/
theorem firstSlab_presented (h : Presented os m name disk)
    (hslab : SlabSecond os m name.text slabId role) :
    FirstSlab os m (sysOf m name.text) name.text ("/dev/" ++ name.text)
      ("/dev/" ++ kernelPart name.text 2) slabId role where
  carries := hslab.second
  identified := hslab.identified
  first := by
    refine ⟨["/dev/" ++ name.text, "/dev/" ++ kernelPart name.text 1], [], ?_, ?_⟩
    · unfold probes
      rw [partitions_presented h, List.map_cons, List.map_cons, List.map_nil, withFileName_dev,
        withFileName_dev]
      rfl
    · intro p hp
      simp only [List.mem_cons, List.not_mem_nil, or_false] at hp
      rcases hp with rfl | rfl
      · exact hslab.whole
      · exact hslab.first

/-- So that is what the verdict names, on a disk nobody has claimed. -/
theorem lookAt_presented (me : Option String) (h : Presented os m name disk)
    (hslab : SlabSecond os m name.text slabId role)
    (hun : Unclaimed me (foundOf F os ("/dev/" ++ name.text))) :
    (lookAt F os m me name.text).verdict =
      .mine slabId role ("/dev/" ++ kernelPart name.text 2) := by
  refine (lookAt_eq_mine_iff F me).mpr ⟨hslab.admitted, ?_, ?_⟩
  · rwa [pathJoin_dev h]
  · rw [pathJoin_dev h]
    exact firstSlab_presented h hslab

end Kernel

/-! ## The name the build writes -/

section Build

variable {host : Host} {spec : BootImageSpec} {out out' : Output V} {report : BootImageReport}

theorem build_slabPartition (hO : O.Lawful) (h : Ends (build F O host spec) out out' report) :
    report.slabPartition = spec.diskDevice ++ "2" := by
  rcases build_ends hO h with ⟨_, _, _, _, _, _, _, _, _, _, hreport⟩
  exact hreport

/-- The value of a key on a command line is cut at white space. -/
theorem solid_of_cmdlineValue {cmdline key value : String}
    (h : cmdlineValue cmdline key = some value) :
    ∀ c ∈ value.toList, Text.isWhitespace c = false := by
  rcases Option.filter_eq_some_iff.mp h with ⟨hfind, _⟩
  rcases List.exists_of_findSome?_eq_some hfind with ⟨w, hw, hstrip⟩
  intro c hc
  refine Text.solid_of_mem_words hw c ?_
  rw [Text.eq_of_stripPrefix hstrip, String.toList_append]
  exact List.mem_append_right _ hc

variable {vol : V} {bootloader kernel initramfs : List UInt8}

/-- What a disk that was built says about its slab, if it boots at all. -/
theorem slabDevice_of_filled
    (h : EspFilled F vol bootloader kernel initramfs (buildCmdline spec)) {b : Boot}
    (hb : (Esp.ofVolume F vol).boot = some b) :
    b.slabDevice = cmdlineValue
      ((Entry.field (entryText (buildCmdline spec)) "options").getD "") "rd.stormblock.slab=" := by
  rcases ofVolume_boot hb with ⟨entry, hentry, _, rfl⟩
  rw [h.loaderEntry] at hentry
  have hoptions : entry.options = Entry.field (entryText (buildCmdline spec)) "options" := by
    rw [← Option.some.inj hentry, Entry.ofText]
  simp only [hoptions]

/-- The entry names the slab by what the build was told, unless white space
    cuts it or the disk does not boot. -/
theorem slabDevice_iff (h : EspFilled F vol bootloader kernel initramfs (buildCmdline spec))
    (hne : spec.diskDevice ≠ "") :
    (∃ b, (Esp.ofVolume F vol).boot = some b ∧ b.slabDevice = some (spec.diskDevice ++ "2")) ↔
      IsText kernel ∧ IsText initramfs ∧
        ∀ c ∈ spec.diskDevice.toList, Text.isWhitespace c = false := by
  constructor
  · rintro ⟨b, hb, hdevice⟩
    have htext := h.boots_iff.1.mp (Option.isSome_iff_exists.mpr ⟨b, hb⟩)
    rw [slabDevice_of_filled h hb] at hdevice
    refine ⟨htext.1, htext.2, fun c hc => solid_of_cmdlineValue hdevice c ?_⟩
    rw [String.toList_append]
    exact List.mem_append_left _ hc
  · rintro ⟨hkernel, hinitramfs, hsolid⟩
    rcases Option.isSome_iff_exists.mp (h.boots_iff.1.mpr ⟨hkernel, hinitramfs⟩) with ⟨b, hb⟩
    rcases slab_of_entry spec ⟨hne, hsolid⟩ with ⟨options, hfield, hvalue⟩
    refine ⟨b, hb, ?_⟩
    rw [slabDevice_of_filled h hb, hfield, Option.getD_some, hvalue]

end Build

/-! ## Where the names agree -/

/-- A `2` behind the device is the name of the kernel unless that has a `p`. -/
theorem dev_two_eq_iff (name : String) :
    "/dev/" ++ name ++ "2" = "/dev/" ++ kernelPart name 2 ↔ endsInDigit name = false := by
  unfold kernelPart
  by_cases hdigit : endsInDigit name = true
  · rw [if_pos hdigit, hdigit, String.append_assoc]
    refine iff_of_false (fun heq => ?_) (by decide)
    -- What stands behind the name of the disk differs in length.
    have htail : "2" = "p" ++ toString 2 :=
      (String.append_right_inj _).mp ((String.append_right_inj _).mp heq)
    exact absurd htail (by decide)
  · rw [if_neg hdigit, String.append_assoc]
    exact iff_of_true rfl (Bool.eq_false_iff.mpr hdigit)

theorem dev_ne_empty (name : String) : "/dev/" ++ name ≠ "" := by
  intro hnil
  have hlist := congrArg String.toList hnil
  rw [String.toList_append] at hlist
  exact absurd (List.append_eq_nil_iff.mp hlist).1 (by decide)

/-- White space in the path of a device comes from its name. -/
theorem dev_solid_iff (name : String) :
    (∀ c ∈ ("/dev/" ++ name).toList, Text.isWhitespace c = false) ↔
      ∀ c ∈ name.toList, Text.isWhitespace c = false := by
  have hdir : Text.IsWord "/dev/" := by decide
  rw [String.toList_append, List.forall_mem_append]
  exact and_iff_right hdir.solid

/-- The report, the loader entry and the survey name one device for the slab
    exactly when the disk boots and the kernel adds nothing but a number to its
    name. -/
theorem slab_named_alike_iff (hF : F.Lawful) (hO : O.Lawful) {host : Host} {spec : BootImageSpec}
    {out : Output V} {img : Image V} {report : BootImageReport} {kernel initramfs : Source}
    (hkernel : host.openFile spec.kernel = .ok kernel)
    (hinitramfs : host.openFile spec.initramfs = .ok initramfs)
    (hbuild : Ends (build F O host spec) out (some img) report) {name : FileName}
    (hdevice : spec.diskDevice = "/dev/" ++ name.text) {R : Image.Rest V} {os : Os V} {m : Machine}
    {me : Option String} {slabId role : String} (hdisk : Presented os m name (img.disk R))
    (hslab : SlabSecond os m name.text slabId role) :
    (report.slabPartition = "/dev/" ++ kernelPart name.text 2 ∧
      (∃ e b, (lookAt F os m me name.text).esp = some e ∧ e.boot = some b ∧
        b.slabDevice = some ("/dev/" ++ kernelPart name.text 2)) ∧
      (lookAt F os m me name.text).verdict =
        .mine slabId role ("/dev/" ++ kernelPart name.text 2)) ↔
    endsInDigit name.text = false ∧ (∀ c ∈ name.text.toList, Text.isWhitespace c = false) ∧
      IsText kernel.content ∧ IsText initramfs.content := by
  rcases built_read hF hO hbuild with ⟨img', vol, _, kernel', initramfs', himg, hsources, hfilled,
    hread⟩
  rw [← Option.some.inj himg] at hread
  have hk : kernel' = kernel := Except.ok.inj (hsources.kernel.1.symm.trans hkernel)
  have hi : initramfs' = initramfs := Except.ok.inj (hsources.initramfs.1.symm.trans hinitramfs)
  rw [hk, hi] at hfilled
  -- The survey reads the ESP that was filled, and nobody has claimed it.
  have hfound : foundOf F os ("/dev/" ++ name.text) = some (Esp.ofVolume F vol) :=
    foundOf_of_read (by rw [hdisk.disk, hread R])
  have hesp : (lookAt F os m me name.text).esp = some (Esp.ofVolume F vol) := by
    rw [← hfound, ← pathJoin_dev hdisk]
    rfl
  have hun : Unclaimed me (foundOf F os ("/dev/" ++ name.text)) := by
    intro c hc
    rw [hfound, Option.bind_some, hfilled.claim_eq_none] at hc
    exact absurd hc (by simp only [reduceCtorEq, not_false_eq_true])
  have hverdict := lookAt_presented (F := F) me hdisk hslab hun
  have hreport : report.slabPartition = "/dev/" ++ kernelPart name.text 2 ↔
      endsInDigit name.text = false := by
    rw [build_slabPartition hO hbuild, hdevice, dev_two_eq_iff]
  have hentry := slabDevice_iff hfilled (hdevice ▸ dev_ne_empty name.text)
  rw [hdevice, dev_solid_iff, ← hdevice] at hentry
  constructor
  · rintro ⟨hpart, ⟨e, b, he, hb, hslabDevice⟩, _⟩
    have hdigit := hreport.mp hpart
    rw [hesp, Option.some_inj] at he
    rw [← he] at hb
    rw [← hpart, build_slabPartition hO hbuild] at hslabDevice
    rcases hentry.mp ⟨b, hb, hslabDevice⟩ with ⟨htk, hti, hwhite⟩
    exact ⟨hdigit, hwhite, htk, hti⟩
  · rintro ⟨hdigit, hwhite, htk, hti⟩
    have hpart := hreport.mpr hdigit
    rcases hentry.mpr ⟨htk, hti, hwhite⟩ with ⟨b, hb, hslabDevice⟩
    rw [← build_slabPartition hO hbuild, hpart] at hslabDevice
    exact ⟨hpart, ⟨_, b, hesp, hb, hslabDevice⟩, hverdict⟩

/-- The bench presents its drive the way the kernel does. -/
theorem slabbed_presented (disk : Disk V) (slabs : String → Option String)
    (identity : Option String) :
    Presented (Bench.slabbed [Bench.sda1, Bench.sda2] disk slabs).os (Bench.machine identity)
      Bench.sda disk where
  dev := rfl
  disk := rfl
  parts := by
    refine ⟨[some Bench.sda1, some Bench.sda2], ?_, List.Perm.of_eq ?_⟩
    · rw [show sysOf (Bench.machine identity) Bench.sda.text = "/sys/block/sda" from
        Bench.sysOf_sda identity]
      simp only [Bench.os, (by decide : "/sys/block/sda" ≠ "/sys/block"), if_false, if_true]
      rfl
    · have hall : (Bench.slabbed [Bench.sda1, Bench.sda2] disk slabs).os.pathExists =
          fun _ => true := rfl
      rw [hall, List.filter_true]
      decide

theorem slabbed_slabSecond (disk : Disk V) (identity : Option String) :
    SlabSecond (Bench.slabbed [Bench.sda1, Bench.sda2] disk Bench.systemSecond).os
      (Bench.machine identity) "sda" Bench.systemId "system" where
  admitted := Bench.admitted _ identity
  whole := Bench.slabbed_passed _ _ _ (by decide)
  first := Bench.slabbed_passed _ _ _ (by decide)
  second := (Bench.slabbed_carries _ _ _ _).mpr (by decide)
  identified := by
    rw [show "/dev/" ++ kernelPart "sda" 2 = "/dev/sda2" by decide]
    exact Bench.identified_line Bench.systemSecond_sda2 Bench.parse_systemLine

/-- A disk built for `sda`, with a kernel that is text. -/
theorem slab_named_alike_iff_sda : ∃ out report img,
    Ends (build Volume.memory plain (kernelHost (.whole [0x6b] (by decide))) diskSpec) none out
        report ∧
      out = some img ∧ ∀ R, ∃ os, (os.node "/dev/sda").disk = img.disk R ∧
        report.slabPartition = "/dev/sda2" ∧
        (∃ e b, (lookAt Volume.memory os (Bench.machine none) none "sda").esp = some e ∧
          e.boot = some b ∧ b.slabDevice = some "/dev/sda2") ∧
        (lookAt Volume.memory os (Bench.machine none) none "sda").verdict =
          .mine Bench.systemId "system" "/dev/sda2" := by
  have hends : (build Volume.memory plain (kernelHost (.whole [0x6b] (by decide))) diskSpec
      none).2.toBool = true := by
    decide +kernel
  have hname : "/dev/" ++ kernelPart "sda" 2 = "/dev/sda2" := by decide
  rcases ends_of_toBool hends with ⟨out, report, hbuild⟩
  rcases build_ends plain_lawful hbuild with ⟨img, _, _, _, _, _, _, _, rfl, _, _⟩
  refine ⟨_, report, img, hbuild, rfl, fun R =>
    ⟨(Bench.slabbed [Bench.sda1, Bench.sda2] (img.disk R) Bench.systemSecond).os, rfl, ?_⟩⟩
  have hword : Text.IsWord Bench.sda.text := by decide
  rw [← hname]
  exact (slab_named_alike_iff Volume.memory_lawful plain_lawful rfl rfl hbuild
    (show diskSpec.diskDevice = "/dev/" ++ Bench.sda.text by decide)
    (slabbed_presented (img.disk R) Bench.systemSecond none)
    (slabbed_slabSecond (img.disk R) none)).mpr
      ⟨by decide, hword.solid, by decide +kernel, by decide +kernel⟩

/-- A disk for an NVMe drive. -/
def nvmeSpec : BootImageSpec :=
  { diskSpec with diskDevice := "/dev/nvme0n1" }

/-- The report and the loader entry of a disk for an NVMe drive name a device
    the kernel does not have. -/
theorem nvme_slab_misnamed : ∃ out report img,
    Ends (build Volume.memory plain (kernelHost (.whole [0x6b] (by decide))) nvmeSpec) none out
        report ∧
      out = some img ∧ report.slabPartition ≠ "/dev/" ++ kernelPart "nvme0n1" 2 ∧
      ∀ R, ∃ e b, Esp.read Volume.memory (img.disk R) = .ok (some e) ∧ e.boot = some b ∧
        b.slabDevice ≠ some ("/dev/" ++ kernelPart "nvme0n1" 2) := by
  have hends : (build Volume.memory plain (kernelHost (.whole [0x6b] (by decide))) nvmeSpec
      none).2.toBool = true := by
    decide +kernel
  have hname : nvmeSpec.diskDevice ++ "2" ≠ "/dev/" ++ kernelPart "nvme0n1" 2 := by decide
  rcases ends_of_toBool hends with ⟨out, report, hbuild⟩
  rcases built_read Volume.memory_lawful plain_lawful hbuild with
    ⟨img, vol, _, kernel, initramfs, himg, hsources, hfilled, hread⟩
  have hkernel : kernel.content = [0x6b] := by
    rw [← Except.ok.inj hsources.kernel.1]
    rfl
  have hinitramfs : initramfs.content = [0x2e] := by
    rw [← Except.ok.inj hsources.initramfs.1]
    rfl
  rw [hkernel, hinitramfs] at hfilled
  have hword : Text.IsWord nvmeSpec.diskDevice := by decide
  rcases (slabDevice_iff hfilled hword.ne_empty).mpr
    ⟨by decide +kernel, by decide +kernel, hword.solid⟩ with ⟨b, hb, hdevice⟩
  refine ⟨out, report, img, hbuild, himg, ?_, fun R => ⟨_, b, hread R, hb, ?_⟩⟩
  · rw [build_slabPartition plain_lawful hbuild]
    exact hname
  · rw [hdevice, ne_eq, Option.some_inj]
    exact hname

end Zeroboot
