import Zeroboot.Theory.Ledger
import Zeroboot.Theory.Naming

/-!
# The Life of a Disk

A disk from the build that made it to whoever boots it last.

The build writes a volume name into a loader entry, and much later `init` is
told a volume by `zeroboot boot`. In between the disk is put into a machine,
read by a survey, booted, claimed, perhaps carried off and claimed again. The
name that comes out is the one that went in. A machine that is given the disk,
and has no other, starts it from that volume: `built_disk_boots`. And nothing
that can happen to the disk later gets in between: `built_disk_life` follows it
through any run of boots and claims, and finds the same loader entry behind
whatever claim the ledger has come to.

## Main definitions

* `builtEsp`: What is read off the ESP of a disk that was built.

## Theorems

* `EspFilled.esp`, `EspFilled.spares`: The ESP of a build, read back.
* `built_reads`: The disk of a build, read back.
* `built_disk_boots`: It starts the machine it is given to.
* `built_disk_life`: It starts from the same volume ever after.
-/

namespace Zeroboot

open Run Volume

variable {V N G : Type} {F : Ops V N} {O : GptOps G} {spec : BootImageSpec}

/-- What is read off the ESP of a disk that was built, with a claim or
    without. -/
def builtEsp (spec : BootImageSpec) (options : String) (held : Option Claim) : Esp where
  boot := some { cmdline := options, slabDevice := some (spec.diskDevice ++ "2")
                 bootVolume := some spec.volume }
  claim := held
  missing := []

section Filled

variable {vol : V} {bootloader kernel initramfs : List UInt8}

/-- The loader entry of a build, and what the reader makes of it if it boots. -/
theorem EspFilled.entry (h : EspFilled F vol bootloader kernel initramfs (buildCmdline spec))
    (hdevice : Text.IsWord spec.diskDevice) (hvolume : Text.IsWord spec.volume) :
    ∃ options, (Text.lines (buildCmdline spec)).head?.map Text.trim = some options ∧
      Zeroboot.loaderEntry F vol = some
        { linux := some "/vmlinuz", initrd := some "/initramfs.img", options := some options } ∧
      cmdlineValue options "rd.stormblock.slab=" = some (spec.diskDevice ++ "2") ∧
      cmdlineValue options "stormblock.volume=" = some spec.volume ∧
      ∀ b, (Esp.ofVolume F vol).boot = some b →
        b = { cmdline := options, slabDevice := some (spec.diskDevice ++ "2")
              bootVolume := some spec.volume } := by
  rcases options_decode spec hdevice hvolume with ⟨options, hfield, hline, hslab, hvol⟩
  have hentry := h.loaderEntry
  unfold Zeroboot.Entry.ofText at hentry
  rw [field_linux, field_initrd, hfield] at hentry
  refine ⟨options, hline, hentry, hslab, hvol, fun b hb => ?_⟩
  rcases ofVolume_boot hb with ⟨entry, hentry', _, rfl⟩
  rw [hentry, Option.some_inj] at hentry'
  rw [← hentry', Option.getD_some, hslab, hvol]

theorem EspFilled.esp (h : EspFilled F vol bootloader kernel initramfs (buildCmdline spec))
    (hkernel : IsText kernel) (hinitramfs : IsText initramfs)
    (hdevice : Text.IsWord spec.diskDevice) (hvolume : Text.IsWord spec.volume) :
    ∃ options, (Text.lines (buildCmdline spec)).head?.map Text.trim = some options ∧
      Esp.ofVolume F vol = builtEsp spec options none := by
  rcases h.entry hdevice hvolume with ⟨options, hline, _, _, _, hboots⟩
  rcases Option.isSome_iff_exists.mp (h.boots_iff.1.mpr ⟨hkernel, hinitramfs⟩) with ⟨b, hb⟩
  have hmissing := h.boots_iff.2.mpr ⟨hkernel, hinitramfs⟩
  have hclaim := h.claim_eq_none
  refine ⟨options, hline, ?_⟩
  unfold builtEsp
  rw [← hboots b hb, ← hb, ← hclaim, ← hmissing]

/-- The loader entry of a build names the kernel and the initramfs, and neither
    is the claim file. -/
theorem EspFilled.spares (hF : F.Lawful)
    (h : EspFilled F vol bootloader kernel initramfs (buildCmdline spec)) : SparesClaim F vol := by
  intro entry hentry p hp
  rw [h.loaderEntry, Option.some_inj] at hentry
  rw [← hentry] at hp
  simp only [Entry.ofText, field_linux, field_initrd, Option.some_inj] at hp
  refine not_namesClaim_of_apart hF ?_
  rcases hp with rfl | rfl
  · decide
  · decide

end Filled

/-! ## The disk of a build -/

variable {host : Host} {out : Output V} {img : Image V} {report : BootImageReport}
  {kernel initramfs : Source}

/-- The disk of a build is read back with the entry that was asked for, and
    claims do not get in the way of it. -/
theorem built_reads (hF : F.Lawful) (hO : O.Lawful)
    (hkernel : host.openFile spec.kernel = .ok kernel)
    (hinitramfs : host.openFile spec.initramfs = .ok initramfs)
    (htext : IsText kernel.content ∧ IsText initramfs.content)
    (hdevice : Text.IsWord spec.diskDevice) (hvolume : Text.IsWord spec.volume)
    (hbuild : Ends (build F O host spec) out (some img) report) :
    ∃ options, (Text.lines (buildCmdline spec)).head?.map Text.trim = some options ∧
      ∀ R : Image.Rest V, Reads F (img.disk R) (builtEsp spec options none) := by
  rcases build_ends hO hbuild with ⟨img', _, _, _, _, _, vol, _, himg, hbuilt, _⟩
  rcases hbuilt.filled with ⟨_, _, hformat, hfill⟩
  rcases fillEsp_ends hF hformat hfill with ⟨bootloader, kernel', initramfs', hsources, hfilled⟩
  -- The files that were copied are the ones the build opened.
  have hk : kernel' = kernel := Except.ok.inj (hsources.kernel.1.symm.trans hkernel)
  have hi : initramfs' = initramfs := Except.ok.inj (hsources.initramfs.1.symm.trans hinitramfs)
  rw [hk, hi] at hfilled
  rw [← Option.some.inj himg] at hbuilt
  rcases hfilled.esp htext.1 htext.2 hdevice hvolume with ⟨options, hline, hesp⟩
  refine ⟨options, hline, fun R => ⟨?_, ?_⟩⟩
  · rw [hbuilt.espWritten.read F R, hesp]
  · -- The volume behind the table is the one that was filled.
    intro start stop vol' hx hm
    rw [hbuilt.espWritten.espExtent_eq R, Option.some_inj, Prod.mk.injEq] at hx
    rw [← hx.1, ← hx.2, hbuilt.espWritten.mount_eq R, Except.ok.injEq] at hm
    rw [← hm]
    exact hfilled.spares hF

/-- A drive that boots and that is the only one of this node is the one the
    intent is about. -/
theorem intent_of_only {s : Survey} {d : Drive} {slabId role slab : String} (hd : d ∈ s.drives)
    (hv : d.verdict = .mine slabId role slab) (hb : d.boots = true)
    (honly : ∀ d' ∈ s.drives, d'.verdict.isMine = true → d' = d) :
    s.intent = .alreadyMine d.path slab slabId := by
  have hmine : d.verdict.isMine = true := (isMine_iff _).mpr ⟨slabId, role, slab, hv⟩
  rcases intent_cases s with ⟨d', slabId', role', slab', hd', hv', _, hi⟩ | ⟨hnone, _⟩ |
    ⟨hnone, _⟩ | ⟨hnone, _⟩
  · have hsame := honly d' hd' ((isMine_iff _).mpr ⟨slabId', role', slab', hv'⟩)
    rw [hsame] at hv' hi
    rw [hv] at hv'
    rcases Verdict.mine.inj hv' with ⟨rfl, rfl, rfl⟩
    exact hi
  · exact absurd (mem_bootable.mpr ⟨hd, hmine, hb⟩) (hnone ▸ List.not_mem_nil)
  all_goals
    exact absurd (mem_mine.mpr ⟨hd, hmine⟩) (hnone ▸ List.not_mem_nil)

/-- A machine that is given the disk, and that owns no other, starts it: off
    its second partition, from the volume it was built for. -/
theorem built_disk_boots (hF : F.Lawful) (hO : O.Lawful)
    (hkernel : host.openFile spec.kernel = .ok kernel)
    (hinitramfs : host.openFile spec.initramfs = .ok initramfs)
    (htext : IsText kernel.content ∧ IsText initramfs.content)
    (hdevice : Text.IsWord spec.diskDevice) (hvolume : Text.IsWord spec.volume)
    (hbuild : Ends (build F O host spec) out (some img) report) {R : Image.Rest V} {os : Os V}
    {m : Machine} {name : FileName} {slabId role : String}
    (hdisk : Presented os m name (img.disk R)) (hslab : SlabSecond os m name.text slabId role)
    {s : Survey} (hs : survey F os m = .ok s)
    (hlisted : lookAt F os m (identityOf os m) name.text ∈ s.drives)
    (honly : ∀ d ∈ s.drives, d.verdict.isMine = true → d.path = "/dev/" ++ name.text)
    (claimIt : Bool) :
    (boot F os m claimIt).outcome = .bootLocal ("/dev/" ++ name.text)
      ("/dev/" ++ kernelPart name.text 2) slabId spec.volume := by
  rcases built_reads hF hO hkernel hinitramfs htext hdevice hvolume hbuild with
    ⟨options, _, hreads⟩
  have hfound : foundOf F os ("/dev/" ++ name.text) = some (builtEsp spec options none) :=
    foundOf_of_read (by rw [hdisk.disk, (hreads R).read])
  have hesp : (lookAt F os m (identityOf os m) name.text).esp =
      some (builtEsp spec options none) := by
    rw [← hfound, ← pathJoin_dev hdisk]
    rfl
  have hpath : (lookAt F os m (identityOf os m) name.text).path = "/dev/" ++ name.text :=
    pathJoin_dev hdisk
  have hun : Unclaimed (identityOf os m) (foundOf F os ("/dev/" ++ name.text)) := by
    intro c hc
    rw [hfound, Option.bind_some] at hc
    exact absurd hc (by simp only [builtEsp, reduceCtorEq, not_false_eq_true])
  have hv := lookAt_presented (identityOf os m) hdisk hslab hun
  have hb : (lookAt F os m (identityOf os m) name.text).boots = true := by
    unfold Drive.boots
    rw [hesp]
    rfl
  -- Drives of one path are one drive.
  have hi := intent_of_only hlisted hv hb fun d hd hmine =>
    surveyed_inj (surveyed_of_mem hs hlisted) (surveyed_of_mem hs hd)
      ((honly d hd hmine).trans hpath.symm)
  rw [boot_alreadyMine hs hi hlisted rfl, hpath]
  unfold volumeOf
  rw [Option.bind_some, hesp]
  rfl

/-- The build of a disk for `sda`, with a kernel that is text. -/
theorem diskSpec_built : ∃ report img,
    Ends (build memory plain (kernelHost (.whole [0x6b] (by decide))) diskSpec) none (some img)
      report := by
  have hends : (build memory plain (kernelHost (.whole [0x6b] (by decide))) diskSpec
      none).2.toBool = true := by
    decide +kernel
  rcases ends_of_toBool hends with ⟨out, report, hbuild⟩
  rcases build_ends plain_lawful hbuild with ⟨img, _, _, _, _, _, _, _, rfl, _, _⟩
  exact ⟨report, img, hbuild⟩

theorem built_disk_boots_sda : ∃ report img,
    Ends (build memory plain (kernelHost (.whole [0x6b] (by decide))) diskSpec) none (some img)
        report ∧
      ∀ R, (boot memory (Bench.slabbed [Bench.sda1, Bench.sda2] (img.disk R)
        Bench.systemSecond).os (Bench.machine none) true).outcome =
          .bootLocal "/dev/sda" "/dev/sda2" Bench.systemId "boot-cp-01" := by
  rcases diskSpec_built with ⟨report, img, hbuild⟩
  refine ⟨report, img, hbuild, fun R => ?_⟩
  have hs := Bench.survey_eq memory (Bench.slabbed [Bench.sda1, Bench.sda2] (img.disk R)
    Bench.systemSecond) none
  have hname : "/dev/sda2" = "/dev/" ++ kernelPart "sda" 2 := by decide
  rw [hname]
  refine built_disk_boots memory_lawful plain_lawful rfl rfl
    ⟨by decide +kernel, by decide +kernel⟩ (by decide) (by decide) hbuild
    (slabbed_presented (img.disk R) Bench.systemSecond none)
    (slabbed_slabSecond (img.disk R) none) hs (List.mem_singleton.mpr rfl) ?_ true
  intro d hd _
  rw [List.mem_singleton.mp hd]
  exact Bench.lookAt_path memory _ none none

/-- Through any run of boots and claims whose writes go through, the disk of a
    build keeps its loader entry, its claim is the one its ledger has come to,
    and whoever boots it is who the claim names and starts from the volume it
    was built for. -/
theorem built_disk_life {I : Type} [DecidableEq I] (hF : F.Lawful) (hopens : F.OpensExisting)
    (hO : O.Lawful) (hkernel : host.openFile spec.kernel = .ok kernel)
    (hinitramfs : host.openFile spec.initramfs = .ok initramfs)
    (htext : IsText kernel.content ∧ IsText initramfs.content)
    (hdevice : Text.IsWord spec.diskDevice) (hvolume : Text.IsWord spec.volume)
    (hbuild : Ends (build F O host spec) out (some img) report) {R : Image.Rest V}
    {w w' : World I V} {acts : List (Option Record)} (hdisk : w.disk = img.disk R)
    (hrun : Trace (World.Acts F) w acts w')
    (hrecords : ∀ r, some r ∈ acts → NodeName r.node ∧ r.answer = .ok ()) :
    ∃ options held, (Text.lines (buildCmdline spec)).head?.map Text.trim = some options ∧
      Trace Ledger none acts held ∧
      Esp.read F w'.disk = .ok (some (builtEsp spec options held)) ∧
      ∀ (m : Machine) (claimIt : Bool) (slab slabId volume : String),
        (boot F (w'.os w'.host) m claimIt).outcome = .bootLocal w'.path slab slabId volume →
          volume = spec.volume ∧
            ∀ me c, held = some c → identityOf (w'.os w'.host) m = some me → me = c.node := by
  rcases built_reads hF hO hkernel hinitramfs htext hdevice hvolume hbuild with
    ⟨options, hline, hreads⟩
  have hstart : Reads F w.disk (builtEsp spec options none) := by
    rw [hdisk]
    exact hreads R
  rcases World.reads_along hF hopens hstart hrun hrecords with ⟨held, hledger, hreads'⟩
  have hread : Esp.read F w'.disk = .ok (some (builtEsp spec options held)) := hreads'.read
  refine ⟨options, held, hline, hledger, hread, ?_⟩
  intro m claimIt slab slabId volume hboot
  refine ⟨?_, fun me c hheld hme => World.Holds.booted ⟨_, hread, hheld⟩ hme hboot⟩
  rcases bootLocal_cases hboot with ⟨s, d, _, hs, hd, hpath, _, _, _, hvol, _⟩
  -- The boot read the ESP of the drive it names.
  rcases surveyed_of_mem hs hd with ⟨name, rfl⟩
  have hfound : foundOf F (w'.os w'.host) w'.path = some (builtEsp spec options held) :=
    foundOf_of_read hread
  rw [hpath] at hfound
  have hesp : (lookAt F (w'.os w'.host) m (identityOf (w'.os w'.host) m) name.text).esp =
      some (builtEsp spec options held) := hfound
  rw [hvol]
  unfold volumeOf
  rw [Option.bind_some, hesp]
  rfl

/-- The claim of the machine the disk is in. -/
def firstClaim : Record where
  node := "r230"
  secs := 0
  forced := false
  answer := .ok ()

/-- A disk that was built is claimed, and is what it was. -/
theorem built_disk_life_r230 : ∃ report img,
    Ends (build memory plain (kernelHost (.whole [0x6b] (by decide))) diskSpec) none (some img)
        report ∧
      ∀ R, ∃ w w' : World Bool Memory, w.disk = img.disk R ∧
        World.Acts memory w (some firstClaim) w' ∧
        ∃ options held, (Text.lines (buildCmdline diskSpec)).head?.map Text.trim = some options ∧
          Trace Ledger none [some firstClaim] held ∧
          Esp.read memory w'.disk = .ok (some (builtEsp diskSpec options held)) := by
  rcases diskSpec_built with ⟨report, img, hbuild⟩
  have htext : IsText (Source.whole [0x6b] (by decide)).content ∧
      IsText (Source.whole [0x2e] (by decide)).content := ⟨by decide +kernel, by decide +kernel⟩
  refine ⟨report, img, hbuild, fun R => ?_⟩
  rcases built_reads memory_lawful plain_lawful rfl rfl htext (by decide) (by decide) hbuild with
    ⟨options, hline, hreads⟩
  have hread : Esp.read memory ((Bench.slabbed [Bench.sda1, Bench.sda2] (img.disk R)
      Bench.systemSecond).os.node "/dev/sda").disk = .ok (some (builtEsp diskSpec options none)) :=
    (hreads R).read
  -- The command finds no claim on the disk, and writes its own.
  have hwrites : claimWrites memory (Bench.slabbed [Bench.sda1, Bench.sda2] (img.disk R)
      Bench.systemSecond).os "/dev/sda" (some "r230") "/sys" false =
        some { node := "r230", claimed := nowRfc3339 0 } :=
    claimWrites_iff.mpr ⟨"r230", _, rfl, hread, rfl, rfl⟩
  -- That is a record of the ledger, and a step of the world.
  have hrecord : claimRecord memory (Bench.slabbed [Bench.sda1, Bench.sda2] (img.disk R)
      Bench.systemSecond).os "/dev/sda" (some "r230") "/sys" false "/dev/sda" =
        some firstClaim :=
    claimRecord_memory hread rfl hwrites
  have hact := World.Acts.claim (World.alike (Bench.slabbed [Bench.sda1, Bench.sda2] (img.disk R)
    Bench.systemSecond).os "/dev/sda" true) true "/dev/sda" (some "r230") "/sys" false (F := memory)
  rw [if_pos (show true = (World.alike _ "/dev/sda" true).host from rfl)] at hact
  have hact' := hrecord ▸ hact
  refine ⟨_, _, rfl, hact', ?_⟩
  have hrecords : ∀ r, some r ∈ [some firstClaim] → NodeName r.node ∧ r.answer = .ok () := by
    intro r hr
    rw [List.mem_singleton, Option.some_inj] at hr
    rw [hr]
    exact ⟨⟨by decide, by decide, by decide⟩, rfl⟩
  rcases built_disk_life memory_lawful memory_opensExisting plain_lawful rfl rfl htext (by decide)
    (by decide) hbuild rfl (.single hact') hrecords with
    ⟨options', held, hline', hledger, hread', _⟩
  exact ⟨options', held, hline', hledger, hread'⟩

end Zeroboot
