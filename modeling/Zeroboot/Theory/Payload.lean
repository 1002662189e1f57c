import Zeroboot.Lib.Torn
import Zeroboot.Theory.Image
import Zeroboot.Theory.Ledger

/-!
# The Payload

What a build was given is on the disk, byte for byte, and stays there.

Nothing is read back as text here. The bootloader, the kernel and the initramfs
are whatever the host handed over, and so is the slab, which lies behind the
table where nothing else was written.

On the ESP there is one more writer. A claim can be made and made again, by any
machine, with `--force` or without, and writing it can stop anywhere: at making
the file, at cutting it, in the middle of the text, at the flush. All of it is
about the claim file, and the files of the build are apart from that one
whatever their names are compared by. So the disk boots what it booted however
often, and however badly, it is claimed: `payload_survives`.

## Main definitions

* `Stores`: A disk with these files on its ESP.

## Theorems

* `holds_writeClaimFile`: A claim that is written, or that fails, is about no
  other file.
* `World.Acts.stores`: Nothing that happens to a drive is.
* `build_slab`: The slab is in the image, whole.
* `payload_survives`: What was built is there ever after.
-/

namespace Zeroboot

open Run Volume Layout

variable {V N G : Type} {F : Ops V N} {O : GptOps G}

/-! ## One claim -/

section Claims

variable {vol : V} {c : Claim} {path : String} {bs : List UInt8}

/-- A claim that is written, or that fails at any of its calls, is about no
    other file. -/
theorem holds_writeClaimFile (hF : F.Lawful) (hfails : F.FailsApart)
    (hp : Apart path claimPath = true) (h : Holds F vol path bs) :
    Holds F (writeClaimFile F vol c).1 path bs := by
  have hdir := h.createDir hF "stormcos"
  rcases writeClaimFile_cases F vol c with ⟨v, e, h1, hw⟩ | ⟨v1, n, h1, ⟨v, e, h2, hw⟩ |
    ⟨v2, h2, ⟨v, e, h3, hw⟩ | ⟨v3, h3, hw⟩⟩⟩
  · rw [hw]
    exact hfails.createFile h1 hp hdir
  -- Once the claim file is there, every call is about its bytes.
  · rw [hw]
    exact (hdir.createFile hF h1).untouched hF hp (hF.createFile_self h1) (hfails.truncate h2)
  · have hself : F.openFile v2 claimPath = some n := by
      rw [(hF.truncate_untouched h2).openFile, hF.createFile_self h1]
    have hcut := (hdir.createFile hF h1).untouched hF hp (hF.createFile_self h1)
      (hF.truncate_untouched h2)
    rw [hw]
    exact hcut.untouched hF hp hself (hfails.writeAll h3)
  · have hself : F.openFile v2 claimPath = some n := by
      rw [(hF.truncate_untouched h2).openFile, hF.createFile_self h1]
    have hcut := (hdir.createFile hF h1).untouched hF hp (hF.createFile_self h1)
      (hF.truncate_untouched h2)
    have hwritten := hcut.untouched hF hp hself (hF.writeAll_untouched h3)
    have hself' : F.openFile v3 claimPath = some n := by
      rw [(hF.writeAll_untouched h3).openFile, hself]
    rw [hw]
    rcases h4 : F.flush v3 n with ⟨v4, e | ⟨⟩⟩
    · exact hwritten.untouched hF hp hself' (hfails.flush h4)
    · exact hwritten.untouched hF hp hself' (hF.flush_untouched h4)

end Claims

/-! ## The disk -/

/-- A disk with these files on its ESP. -/
def Stores (F : Ops V N) (disk : Disk V) (files : List (String × List UInt8)) : Prop :=
  ∃ start stop vol, espExtent disk = some (start, stop) ∧ disk.mount start stop = .ok vol ∧
    ∀ f ∈ files, Holds F vol f.1 f.2

variable {files : List (String × List UInt8)}

theorem Stores.writeClaim (hF : F.Lawful) (hfails : F.FailsApart)
    (hfiles : ∀ f ∈ files, Apart f.1 claimPath = true) {drive : String} {disk disk' : Disk V}
    {c : Claim} {answer : Except String Unit} (h : Stores F disk files)
    (hw : writeClaim F drive disk c = (disk', answer)) : Stores F disk' files := by
  rcases h with ⟨start, stop, vol, hx, hm, hholds⟩
  rcases writeClaim_cases F drive disk c with ⟨e, hsame⟩ | ⟨start', stop', vol', hx', _, hm', hput⟩
  · rw [hsame] at hw
    rw [← (Prod.mk.inj hw).1]
    exact ⟨start, stop, vol, hx, hm, hholds⟩
  · -- The claim goes to the volume that holds the files.
    rw [hx, Option.some_inj, Prod.mk.injEq] at hx'
    rw [← hx'.1, ← hx'.2] at hm' hput
    rw [hm, Except.ok.injEq] at hm'
    rw [← hm'] at hput
    rw [hput] at hw
    rw [← (Prod.mk.inj hw).1]
    refine ⟨start, stop, _, hx, disk.put_mount_self start stop _, fun f hf => ?_⟩
    exact holds_writeClaimFile hF hfails (hfiles f hf) (hholds f hf)

variable {I : Type} [DecidableEq I] {w w' : World I V}

/-- Nothing that happens to a drive is about files apart from the claim. -/
theorem World.Acts.stores (hF : F.Lawful) (hfails : F.FailsApart)
    (hfiles : ∀ f ∈ files, Apart f.1 claimPath = true) {entry : Option Record}
    (h : Stores F w.disk files) (hact : World.Acts F w entry w') : Stores F w'.disk files := by
  rcases hact.cases with ⟨_, hsame⟩ | ⟨r, _, _, hwrite⟩
  · rw [hsame]
    exact h
  · exact h.writeClaim hF hfails hfiles hwrite

theorem World.stores_along (hF : F.Lawful) (hfails : F.FailsApart)
    (hfiles : ∀ f ∈ files, Apart f.1 claimPath = true) {acts : List (Option Record)}
    (h : Stores F w.disk files) (hrun : Trace (World.Acts F) w acts w') :
    Stores F w'.disk files := by
  have hstep : ∀ {v v' : World I V} {entry : Option Record}, Stores F v.disk files →
      World.Acts F v entry v' → True ∧ Stores F v'.disk files :=
    fun hs hact => ⟨trivial, World.Acts.stores hF hfails hfiles hs hact⟩
  exact (Trace.keeps (P := fun v => Stores F (World.disk v) files) (Q := fun _ => True) hstep hrun
    h).2

/-! ## The slab -/

variable {host : Host} {spec : BootImageSpec} {out : Output V} {report : BootImageReport}

/-- A slab that was copied to its end was copied whole. -/
theorem copySlab_whole {s : Source} {room : Option (Nat × String)} {n : Nat}
    (h : (copySlab s room).2 = .ok n) : (copySlab s room).1 = s.content ∧ s.ending = .ok () := by
  have hended : s.ending.map (fun _ => s.content.length) = .ok n → s.ending = .ok () := by
    intro hmap
    rcases hcase : s.ending with e | ⟨⟩
    · rw [hcase] at hmap
      exact absurd hmap (by simp only [Except.map, reduceCtorEq, not_false_eq_true])
    · rfl
  unfold copySlab at h ⊢
  rcases room with _ | ⟨k, e⟩
  · exact ⟨rfl, hended h⟩
  · by_cases hk : k < s.content.length
    · simp only [if_pos hk, reduceCtorEq] at h
    · simp only [if_neg hk] at h
      exact ⟨congrArg Prod.fst (if_neg hk), hended h⟩

theorem writeSlab_ends {start slabBytes : UInt64} {out' : Output V}
    (h : Ends (writeSlab host spec start slabBytes) out out' ()) :
    ∃ s, host.openFile spec.slab = .ok s ∧ s.ending = .ok () ∧
      out' = out.map (fun img => img.push (.bytes start s.content)) := by
  unfold writeSlab at h
  rcases ends_bind_iff.mp h with ⟨_, o1, hopened, h1⟩
  rcases ends_ofExcept_iff.mp hopened with ⟨rfl, _⟩
  rcases ends_bind_iff.mp h1 with ⟨s, o2, hsource, h2⟩
  rcases ends_ofExcept_iff.mp hsource with ⟨rfl, hs⟩
  rcases ends_bind_iff.mp h2 with ⟨_, o3, hpiece, h3⟩
  rcases ends_bind_iff.mp h3 with ⟨n, o4, hcopied, h4⟩
  rcases ends_ofExcept_iff.mp hcopied with ⟨rfl, hn⟩
  rcases ends_bind_iff.mp h4 with ⟨_, o5, hlength, hflush⟩
  rcases ends_ofExcept_iff.mp hlength with ⟨rfl, _⟩
  rcases ends_ofExcept_iff.mp hflush with ⟨rfl, _⟩
  rcases copySlab_whole hn with ⟨hwhole, hending⟩
  refine ⟨s, hs, hending, ?_⟩
  rw [← hwhole]
  exact (Prod.mk.inj hpiece).1.symm

/-- The slab is the last thing that is written, and it is written whole. -/
theorem build_slab {out' : Output V} (h : Ends (build F O host spec) out out' report) :
    ∃ s before, ∃ start : UInt64, host.openFile spec.slab = .ok s ∧ s.ending = .ok () ∧
      out' = (before : Output V).map (fun img => img.push (.bytes start s.content)) := by
  unfold build at h
  -- Whatever comes first, the rest is run from where it ends.
  iterate 10
    rcases ends_bind_iff.mp h with ⟨_, _, _, h⟩
  rcases ends_bind_iff.mp h with ⟨⟨espStart, slabStart⟩, _, _, h⟩
  iterate 6
    rcases ends_bind_iff.mp h with ⟨_, _, _, h⟩
  rcases ends_bind_iff.mp h with ⟨_, before, hslab, hdone⟩
  rcases ends_pure_iff.mp hdone with ⟨rfl, _⟩
  rcases writeSlab_ends hslab with ⟨s, hopen, hending, hout⟩
  exact ⟨s, _, slabStart, hopen, hending, hout⟩

/-! ## What was built -/

theorem apart_of_espContents {bootloader kernel initramfs : List UInt8} {cmdline : String} :
    ∀ f ∈ espContents bootloader kernel initramfs cmdline, Apart f.1 claimPath = true := by
  intro f hf
  rw [apart_comm]
  exact apart_of_paths [ "loader/entries/stormcos.conf", "loader/loader.conf", "initramfs.img",
    "vmlinuz", "EFI/BOOT/BOOTX64.EFI" ] rfl (by decide) f hf

/-- The slab that was written is the one in the log, and it is not empty: its
    partition would be. -/
theorem Built.slab_eq {img : Image V} {table : GptDisk} {esp slabPart : GptPartition}
    {slabBytes : UInt64} {lastLba : UInt32} {vol : V} {payload content : List UInt8}
    {before : Output V} {start : UInt64}
    (h : Built F host spec img table esp slabPart slabBytes lastLba vol payload)
    (hout : some img = before.map fun old => old.push (.bytes start content)) :
    .bytes start content ∈ img.log ∧ 0 < content.length := by
  rcases before with _ | old
  · exact absurd hout (Option.some_ne_none img)
  · have himg : img = old.push (.bytes start content) := Option.some.inj hout
    have hlog : img.log = .bytes start content :: old.log := congrArg Image.log himg
    have hpayload := h.payload
    rw [h.log] at hlog
    rcases Piece.bytes.inj (List.cons.inj hlog).1 with ⟨rfl, rfl⟩
    refine ⟨?_, ?_⟩
    · rw [h.log]
      exact List.mem_cons_self
    · -- An empty slab would have been given an empty partition.
      by_contra hempty
      have hzero : slabBytes = 0 := UInt64.toNat_inj.mp (by rw [UInt64.toNat_zero]; omega)
      have hsize := h.laid.slabPlaced.size_pos
      rw [hzero] at hsize
      exact absurd hsize (by decide)

/-- Whatever happens to a disk that was built, each file the build was given is
    on it as it was handed over, with the loader's own two, and where the slab
    was written in the image there is the slab file and nothing else. -/
theorem payload_survives (hF : F.Lawful) (hfails : F.FailsApart) (hO : O.Lawful)
    {out' : Output V} (hbuild : Ends (build F O host spec) out out' report) :
    ∃ img bootloader kernel initramfs slab, ∃ start : UInt64, out' = some img ∧
      Sources host spec bootloader kernel initramfs ∧
      host.openFile spec.slab = .ok slab ∧ slab.ending = .ok () ∧
      img.latest [⟨start.toNat, start.toNat + slab.content.length⟩] =
        some (.bytes start slab.content) ∧
      ∀ (R : Image.Rest V) (w w' : World I V) (acts : List (Option Record)),
        w.disk = img.disk R → Trace (World.Acts F) w acts w' →
          Stores F w'.disk (espContents bootloader.content kernel.content initramfs.content
            (buildCmdline spec)) := by
  rcases build_ends hO hbuild with ⟨img, table, esp, slabPart, slabBytes, lastLba, vol, payload,
    himg, hbuilt, _⟩
  rcases hbuilt.filled with ⟨_, _, hformat, hfill⟩
  rcases fillEsp_ends hF hformat hfill with ⟨bootloader, kernel, initramfs, hsources, hfilled⟩
  -- The slab is written last, and no two pieces of the log are in one place.
  rcases build_slab hbuild with ⟨slab, before, start, hslab, hending, hout⟩
  rcases hbuilt.slab_eq (himg ▸ hout) with ⟨hmem, hpos⟩
  refine ⟨img, bootloader, kernel, initramfs, slab, start, himg, hsources, hslab, hending, ?_, ?_⟩
  · exact latest_of_clean hbuilt.clean hmem List.mem_cons_self List.mem_cons_self (fun _ hb => hb)
      (Nat.lt_add_of_pos_right hpos)
  · intro R w w' acts hdisk hrun
    -- The files are on the ESP that was filled, and every run keeps them there.
    refine World.stores_along hF hfails apart_of_espContents ?_ hrun
    rw [hdisk]
    exact ⟨_, _, vol, hbuilt.espWritten.espExtent_eq R, hbuilt.espWritten.mount_eq R,
      hfilled.shows.holds⟩

/-- A volume that takes four hundred bytes of each write is enough for the build,
    and tears the claim of a node with a long name. -/
theorem payload_survives_torn : ∃ report img,
    Ends (build (tornMemory 400) plain (kernelHost (.whole [0xff] (by decide))) diskSpec) none
        (some img) report ∧
      ∀ (R : Image.Rest Memory) (w w' : World Bool Memory) (acts : List (Option Record)),
        w.disk = img.disk R → Trace (World.Acts (tornMemory 400)) w acts w' →
          Stores (tornMemory 400) w'.disk
            (espContents [0x2e] [0xff] [0x2e] (buildCmdline diskSpec)) := by
  have hends : (build (tornMemory 400) plain (kernelHost (.whole [0xff] (by decide))) diskSpec
      none).2.toBool = true := by
    decide +kernel
  rcases ends_of_toBool hends with ⟨out, report, hbuild⟩
  rcases payload_survives (I := Bool) (tornMemory_lawful 400) (tornMemory_failsApart 400)
    plain_lawful hbuild with
    ⟨img, bootloader, kernel, initramfs, _, _, rfl, hsources, _, _, _, hrun⟩
  have hb : bootloader = .whole [0x2e] (by decide) :=
    (Except.ok.inj hsources.bootloader.1).symm
  have hk : kernel = .whole [0xff] (by decide) := (Except.ok.inj hsources.kernel.1).symm
  have hi : initramfs = .whole [0x2e] (by decide) := (Except.ok.inj hsources.initramfs.1).symm
  rw [hb, hk, hi] at hrun
  exact ⟨report, img, hbuild, hrun⟩

end Zeroboot
