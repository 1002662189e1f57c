import Zeroboot.Theory.Boots
import Zeroboot.Theory.EspFiles
import Zeroboot.Theory.PlainTable
import Zeroboot.Theory.Written

/-!
# The Image, Read Back as a Disk

A finished build, seen by the reader.

No write covers another, so each crate finds what it wrote: `gpt` the table,
and `fatfs` the ESP, in the range that is computed from the table again.

What is left is a matter of the files. The writer takes any kernel and any
initramfs, and the reader takes those that are text.

## Main definitions

* `EspWritten`: The table and the ESP are in the image, and nothing over them.

## Theorems

* `EspWritten.gpt_eq`, `EspWritten.mount_eq`: The image gives back the table and
  the ESP.
* `EspWritten.espExtent_eq`: The range that was formatted is the one that is
  read.
* `EspWritten.read`: The reader reads the ESP that was filled.
* `built_boots_iff`: When the disk that was built boots.
-/

namespace Zeroboot

open Run Layout

variable {V N G : Type} {F : Volume.Ops V N} {O : GptOps G}

/-! ## Reading it back -/

section Built

variable {host : Host} {spec : BootImageSpec} {img : Image V} {table : GptDisk}
  {esp slab : GptPartition} {slabBytes : UInt64} {lastLba : UInt32} {vol : V}
  {payload : List UInt8}

/-- The slab is no longer than its partition. -/
theorem Built.payload_le
    (h : Built F host spec img table esp slab slabBytes lastLba vol payload) :
    payload.length ≤ (divCeil slabBytes mib * mib).toNat := by
  rw [h.payload]
  exact le_divCeil_mib h.laid.slabPlaced.size_pos

/-- The slab lies within its partition. -/
theorem Built.payload_within
    (h : Built F host spec img table esp slab slabBytes lastLba vol payload) :
    (slab.firstLba * lbSize).toNat = slab.firstLba.toNat * 512 ∧
      (slab.firstLba * lbSize).toNat + payload.length ≤ (slab.lastLba.toNat + 1) * 512 :=
  h.laid.payload_within h.payload_le

/-- No write of a build meets another. -/
theorem Built.clean (h : Built F host spec img table esp slab slabBytes lastLba vol payload) :
    img.Clean := by
  unfold Image.Clean
  rw [h.len, h.log]
  exact h.laid.clean_bytes (blocks_of_mib spec.espMib) lastLba vol h.payload_le

/-- An image in which the table and the ESP that goes with it were written, and
    nothing over either. -/
structure EspWritten (spec : BootImageSpec) (slabBytes : UInt64) (img : Image V) (table : GptDisk)
    (esp slab : GptPartition) (vol : V) : Prop where
  laid : Laid table esp slab (spec.espMib * mib) (divCeil slabBytes mib * mib)
    (imageBytes spec slabBytes)
  clean : img.Clean
  table : .table table ∈ img.log
  volume : .volume (esp.firstLba * lbSize) (esp.firstLba * lbSize + spec.espMib * mib) vol ∈ img.log

theorem Built.espWritten (h : Built F host spec img table esp slab slabBytes lastLba vol payload) :
    EspWritten spec slabBytes img table esp slab vol where
  laid := h.laid
  clean := h.clean
  table := by
    rw [h.log]
    exact List.mem_append_right [_, _, _] List.mem_cons_self
  volume := by
    rw [h.log]
    exact List.mem_cons_of_mem _ List.mem_cons_self

theorem EspWritten.gpt_eq (h : EspWritten spec slabBytes img table esp slab vol)
    (R : Image.Rest V) : (img.disk R).gpt = some table := by
  have hlatest : img.latest (tableSpans img.len) = some (.table table) :=
    latest_of_clean h.clean h.table (a := ⟨512, 17408⟩) List.mem_cons_self List.mem_cons_self
      (fun _ hb => hb) (by decide)
  unfold Image.disk
  simp only [hlatest]

theorem EspWritten.mount_eq (h : EspWritten spec slabBytes img table esp slab vol)
    (R : Image.Rest V) : (img.disk R).mount (esp.firstLba * lbSize)
      (esp.firstLba * lbSize + spec.espMib * mib) = .ok vol := by
  have hne : (esp.firstLba * lbSize).toNat <
      (esp.firstLba * lbSize + spec.espMib * mib).toNat := by
    have hstart := h.laid.espPlaced.start_toNat
    have hstop := h.laid.espPlaced.stop_toNat (blocks_of_mib spec.espMib)
    have hpos := h.laid.espPlaced.size_pos
    have hblocks := h.laid.espPlaced.blocks
    omega
  have hlatest : img.latest [espSpan esp (spec.espMib * mib)] =
      some (.volume (esp.firstLba * lbSize) (esp.firstLba * lbSize + spec.espMib * mib) vol) :=
    latest_of_clean h.clean h.volume List.mem_cons_self List.mem_cons_self (fun _ hb => hb) hne
  unfold espSpan at hlatest
  unfold Image.disk
  simp only [hlatest, and_self, if_true]

/-- The reader looks for the ESP where it was formatted. -/
theorem EspWritten.espExtent_eq (h : EspWritten spec slabBytes img table esp slab vol)
    (R : Image.Rest V) : espExtent (img.disk R) =
      some (esp.firstLba * lbSize, esp.firstLba * lbSize + spec.espMib * mib) := by
  have hfind : (table.partitions.map Prod.snd).find? (fun p => p.partTypeGuid == efiType) =
      some esp := by
    rcases hf : (table.partitions.map Prod.snd).find? (fun p => p.partTypeGuid == efiType) with
      _ | p
    · rcases h.laid.esp_mem with ⟨i, hi⟩
      have hnot := List.find?_eq_none.mp hf esp (List.mem_map_of_mem hi)
      rw [beq_iff_eq] at hnot
      exact absurd h.laid.espType hnot
    · -- The slab partition has another type, so the only ESP is this one.
      have htype := List.find?_some hf
      rcases List.mem_map.mp (List.mem_of_find?_eq_some hf) with ⟨x, hx, rfl⟩
      rcases h.laid.only x hx with hesp | hslab
      · rw [hf, hesp]
      · rw [hslab, beq_iff_eq, h.laid.slabType] at htype
        exact absurd htype (by decide)
  unfold espExtent
  rw [h.gpt_eq R]
  simp only [hfind, Option.map_some, h.laid.espPlaced.stop_eq (blocks_of_mib spec.espMib)]

/-- The reader reads the ESP that was filled. -/
theorem EspWritten.read (h : EspWritten spec slabBytes img table esp slab vol)
    (F : Volume.Ops V N) (R : Image.Rest V) :
    Esp.read F (img.disk R) = .ok (some (Esp.ofVolume F vol)) := by
  have hopen : (img.disk R).openRead = .ok () := rfl
  unfold Esp.read
  rw [h.espExtent_eq R]
  simp only [hopen, h.mount_eq R]

end Built

/-- The ESP of a disk that was built is read, and what the build put on it is
    there. -/
theorem built_read (hF : F.Lawful) (hO : O.Lawful) {host : Host} {spec : BootImageSpec}
    {out out' : Output V} {report : BootImageReport}
    (hbuild : Ends (build F O host spec) out out' report) :
    ∃ img vol bootloader kernel initramfs, out' = some img ∧
      Sources host spec bootloader kernel initramfs ∧
      EspFilled F vol bootloader.content kernel.content initramfs.content (buildCmdline spec) ∧
      ∀ R : Image.Rest V, Esp.read F (img.disk R) = .ok (some (Esp.ofVolume F vol)) := by
  rcases build_ends hO hbuild with ⟨img, _, _, _, _, _, vol, _, himg, hbuilt, _⟩
  rcases hbuilt.filled with ⟨_, _, hformat, hfill⟩
  rcases fillEsp_ends hF hformat hfill with ⟨bootloader, kernel, initramfs, hsources, hfilled⟩
  exact ⟨img, vol, bootloader, kernel, initramfs, himg, hsources, hfilled, hbuilt.espWritten.read F⟩

/-- A disk that was built is read back as one that boots, on whatever drive it
    is held, exactly when the kernel and the initramfs are text. -/
theorem built_boots_iff {F : Volume.Ops V N} (hF : F.Lawful) {O : GptOps G} (hO : O.Lawful)
    {host : Host} {spec : BootImageSpec} {out out' : Output V} {report : BootImageReport}
    {kernel initramfs : Source} (hkernel : host.openFile spec.kernel = .ok kernel)
    (hinitramfs : host.openFile spec.initramfs = .ok initramfs)
    (hbuild : Ends (build F O host spec) out out' report) :
    ∃ img, out' = some img ∧ ∀ R : Image.Rest V,
      ((∃ esp, Esp.read F (img.disk R) = .ok (some esp) ∧ esp.boot.isSome = true ∧
          esp.missing = []) ∧
        ∀ (os : Os V) (m : Machine) (me : Option String) (name slab slabId role : String),
          (os.node (pathJoin m.dev name)).disk = img.disk R →
          Admitted os (sysOf m name) (sizeBytesOf os (sysOf m name))
            (removableOf os (sysOf m name)) →
          FirstSlab os m (sysOf m name) name (pathJoin m.dev name) slab slabId role →
          Unclaimed me (foundOf F os (pathJoin m.dev name)) →
          (lookAt F os m me name).verdict = .mine slabId role slab ∧
            (lookAt F os m me name).boots = true) ↔
      IsText kernel.content ∧ IsText initramfs.content := by
  rcases built_read hF hO hbuild with ⟨img, vol, _, kernel', initramfs', himg, hsources, hfilled,
    hread⟩
  have hk : kernel' = kernel := Except.ok.inj (hsources.kernel.1.symm.trans hkernel)
  have hi : initramfs' = initramfs := Except.ok.inj (hsources.initramfs.1.symm.trans hinitramfs)
  rw [hk, hi] at hfilled
  refine ⟨img, himg, fun R => ?_⟩
  constructor
  · -- The reader's half already settles it.
    rintro ⟨⟨e, he, hboot⟩, _⟩
    rw [hread R, Except.ok.injEq, Option.some.injEq] at he
    rw [← he] at hboot
    exact hfilled.boots_iff.1.mp hboot.1
  · intro htext
    have hboot := hfilled.boots_iff.1.mpr htext
    refine ⟨⟨_, hread R, hboot, hfilled.boots_iff.2.mpr htext⟩, ?_⟩
    intro os m me name slab slabId role hdisk hadm hfirst hun
    have hfound : (lookAt F os m me name).esp = some (Esp.ofVolume F vol) :=
      foundOf_of_read (by rw [hdisk, hread R])
    refine ⟨(lookAt_eq_mine_iff F me).mpr ⟨hadm, hun, hfirst⟩, ?_⟩
    unfold Drive.boots
    rw [hfound]
    exact hboot

/-- A file that is read in one piece. -/
def Source.whole (content : List UInt8) (h : content ≠ []) : Source where
  pieces := [content]
  ending := .ok ()
  nonempty := by
    intro p hp
    rw [List.mem_singleton.mp hp]
    exact h

/-- A host that answers everything, with this kernel. -/
def kernelHost (kernel : Source) : Host where
  isFile _ := true
  slabLen := .ok 1
  createParent := .ok ()
  createOut := .ok ()
  setLen := .ok ()
  openForMbr := .ok ()
  writeMbr := .ok ()
  flushMbr := .ok ()
  openForEsp := .ok ()
  openForSlab := .ok ()
  openFile path := .ok (if path = "vmlinuz" then kernel else .whole [0x2e] (by decide))
  slabRoom := none
  flushSlab := .ok ()

def diskSpec : BootImageSpec where
  kernel := "vmlinuz"
  initramfs := "initramfs.img"
  bootloader := "boot.efi"
  slab := "root.slab"
  volume := "boot-cp-01"
  espMib := 64
  imageStore := none
  writable := []
  diskDevice := "/dev/sda"
  extraCmdline := none
  out := "disk.img"

/-- A build that answers goes through. -/
theorem ends_of_toBool {host : Host} {spec : BootImageSpec}
    (h : (build F O host spec none).2.toBool = true) :
    ∃ out report, Ends (build F O host spec) none out report := by
  rcases hb : build F O host spec none with ⟨out, e | report⟩
  · rw [hb] at h
    exact absurd h Bool.false_ne_true
  · exact ⟨out, report, hb⟩

theorem built_boots_iff_ascii : ∃ out report img,
    Ends (build Volume.memory plain (kernelHost (.whole [0x6b] (by decide))) diskSpec) none out
        report ∧
      out = some img ∧ ∀ R, ∃ esp, Esp.read Volume.memory (img.disk R) = .ok (some esp) ∧
        esp.boot.isSome = true ∧ esp.missing = [] := by
  have hends : (build Volume.memory plain (kernelHost (.whole [0x6b] (by decide))) diskSpec
      none).2.toBool = true := by
    decide +kernel
  rcases ends_of_toBool hends with ⟨out, report, hbuild⟩
  rcases built_boots_iff Volume.memory_lawful plain_lawful rfl rfl hbuild with ⟨img, himg, hiff⟩
  exact ⟨out, report, img, hbuild, himg, fun R =>
    ((hiff R).mpr ⟨by decide +kernel, by decide +kernel⟩).1⟩

/-- A kernel of one byte that is no text is written to the ESP, and is not
    there for the reader. -/
theorem binary_kernel_is_missing : ∃ out report img,
    Ends (build Volume.memory plain (kernelHost (.whole [0xff] (by decide))) diskSpec) none out
        report ∧
      out = some img ∧ ∀ R, ∃ esp, Esp.read Volume.memory (img.disk R) = .ok (some esp) ∧
        esp.boot = none ∧ esp.missing ≠ [] := by
  have hends : (build Volume.memory plain (kernelHost (.whole [0xff] (by decide))) diskSpec
      none).2.toBool = true := by
    decide +kernel
  rcases ends_of_toBool hends with ⟨out, report, hbuild⟩
  rcases built_read Volume.memory_lawful plain_lawful hbuild with
    ⟨img, vol, _, kernel, _, himg, hsources, hfilled, hread⟩
  have hkernel : kernel.content = [0xff] := by
    rw [← Except.ok.inj hsources.kernel.1]
    rfl
  have hbinary : ¬ IsText [0xff] := by decide +kernel
  rw [hkernel] at hfilled
  refine ⟨out, report, img, hbuild, himg, fun R => ⟨_, hread R, ?_, ?_⟩⟩
  · rw [← Option.not_isSome_iff_eq_none]
    exact fun hboot => hbinary (hfilled.boots_iff.1.mp hboot).1
  · exact fun hmissing => hbinary (hfilled.boots_iff.2.mp hmissing).1

end Zeroboot
