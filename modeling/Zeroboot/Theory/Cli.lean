import Zeroboot.Core.Cli
import Zeroboot.Theory.Inventory
import Zeroboot.Theory.Lifetime

/-!
# What Was Typed

From the arguments of `boot-image` to the kernel command line of the disk.

An argument passes through four hands before the initramfs sees it. `main` takes
a `--writable` apart at its first colon, `build_cmdline` puts the halves together
again and strings everything into one line, the loader entry keeps the first
line of that, and the boot looks a key up among its words. Each of them could
lose something: a colon in a mount point, a word that starts like another key, a
line feed in what was added by hand.

Nothing is lost. The words of the line are the ones of `commandWords`, with
those of the caller behind them, and a lookup takes the first that fits. So what
was asked for by name wins over what was added, and what was not asked for can
still be added: `typed_on_disk`.

## Main definitions

* `commandWords`: The words a command line is put together from.

## Theorems

* `writableMounts_eq`: The pairs are what was typed.
* `words_of_options`: The words of the options of an entry.
* `cmdlineValue_append`: A lookup takes the first word that fits.
* `typed_on_disk`: The arguments of `boot-image`, read back off the disk.
-/

namespace Zeroboot

open Run Volume

/-! ## The pairs -/

/-- A pair put together again is what was typed, further colons included. -/
theorem writableMount_eq {w : String} {mount : WritableMount} (h : writableMount w = .ok mount) :
    mount.volume ++ ":" ++ mount.mount = w := by
  have hcolon : String.singleton ':' = ":" := by decide
  unfold writableMount at h
  rcases hsplit : Text.splitOnce ':' w with _ | ⟨vol, mnt⟩
  · rw [hsplit] at h
    exact absurd h (by simp only [reduceCtorEq, not_false_eq_true])
  · rw [hsplit, Except.ok.injEq] at h
    rw [← h, Text.eq_of_splitOnce hsplit, hcolon]

theorem writableMounts_eq {ws : List String} {mounts : List WritableMount}
    (h : writableMounts ws = .ok mounts) :
    mounts.map (fun w => w.volume ++ ":" ++ w.mount) = ws := by
  unfold writableMounts at h
  induction ws generalizing mounts with
  | nil =>
      rw [List.mapM_nil] at h
      rw [← Except.ok.inj h]
      rfl
  | cons w ws ih =>
      rw [List.mapM_cons] at h
      -- The first that is not right stops the rest from being looked at.
      rcases hw : writableMount w with err | mount
      · rw [hw] at h
        exact absurd h (by simp only [bind, Except.bind, reduceCtorEq, not_false_eq_true])
      · rcases hws : ws.mapM writableMount with err | rest
        · rw [hw, hws] at h
          exact absurd h (by simp only [bind, Except.bind, reduceCtorEq, not_false_eq_true])
        · rw [hw, hws] at h
          rw [← Except.ok.inj h, List.map_cons, writableMount_eq hw, ih hws]

/-! ## The words of the line -/

section Words

variable {spec : BootImageSpec}

/-- The word of the image store, if there is one. -/
def storeWords (spec : BootImageSpec) : List String :=
  match spec.imageStore with
  | some store => ["rd.stormblock.image-store=" ++ store]
  | none => []

/-- The pairs as they stand on the line. -/
def writableText (spec : BootImageSpec) : String :=
  Text.join "," (spec.writable.map (fun w => w.volume ++ ":" ++ w.mount))

/-- The word of the writable volumes, if there are any. -/
def writableWords (spec : BootImageSpec) : List String :=
  if spec.writable = [] then [] else ["rd.stormblock.writable=" ++ writableText spec]

/-- Every word of a command line but those that are added. -/
def commandWords (spec : BootImageSpec) : List String :=
  frontWords spec ++ "rd.stormblock.overlay=tmpfs:1G" :: (storeWords spec ++ writableWords spec)

/-- What the arguments have to be for the line to come apart as it was put
    together. -/
structure Typable (spec : BootImageSpec) : Prop where
  device : Text.IsWord spec.diskDevice
  volume : Text.IsWord spec.volume
  store : ∀ store, spec.imageStore = some store → Text.IsWord store
  writable : ∀ w ∈ spec.writable, Text.IsWord (w.volume ++ ":" ++ w.mount)

theorem Typable.isWord_writableText (h : Typable spec) (hne : spec.writable ≠ []) :
    Text.IsWord (writableText spec) := by
  refine Text.IsWord.join (by decide) (fun hnil => hne (List.map_eq_nil_iff.mp hnil)) ?_
  intro w hw
  rcases List.mem_map.mp hw with ⟨mount, hmount, rfl⟩
  exact h.writable mount hmount

theorem Typable.isWord (h : Typable spec) : ∀ w ∈ commandWords spec, Text.IsWord w := by
  intro w hw
  unfold commandWords at hw
  rcases List.mem_append.mp hw with hw | hw
  · exact isWord_frontWords h.device h.volume w hw
  rcases List.mem_cons.mp hw with rfl | hw
  · decide
  rcases List.mem_append.mp hw with hw | hw
  · unfold storeWords at hw
    rcases hstore : spec.imageStore with _ | store
    · rw [hstore] at hw
      exact absurd hw List.not_mem_nil
    · rw [hstore, List.mem_singleton] at hw
      rw [hw]
      exact Text.IsWord.append (by decide) (h.store store hstore)
  · unfold writableWords at hw
    split_ifs at hw with hempty
    · exact absurd hw List.not_mem_nil
    · rw [List.mem_singleton] at hw
      rw [hw]
      exact Text.IsWord.append (by decide) (h.isWord_writableText hempty)

/-- The line up to what is added, a blank behind it. -/
theorem toList_bare (spec : BootImageSpec) (tail : List Char) :
    (buildCmdline { spec with extraCmdline := none }).toList ++ ' ' :: tail =
      Text.withBlanks (commandWords spec) tail := by
  have hconsole : "console=ttyS0 root=/dev/ublkb0 rd.stormblock.slab=".toList =
      "console=ttyS0".toList ++ ' ' :: ("root=/dev/ublkb0".toList ++ ' ' ::
        "rd.stormblock.slab=".toList) := by
    decide +kernel
  have hmeta : "2 rd.stormblock.meta=/etc/stormblock/meta stormblock.volume=".toList =
      "2".toList ++ ' ' :: ("rd.stormblock.meta=/etc/stormblock/meta".toList ++ ' ' ::
        "stormblock.volume=".toList) := by
    decide +kernel
  have hoverlay : " rd.stormblock.overlay=tmpfs:1G".toList =
      ' ' :: "rd.stormblock.overlay=tmpfs:1G".toList := by
    decide +kernel
  have hstore : " rd.stormblock.image-store=".toList =
      ' ' :: "rd.stormblock.image-store=".toList := by
    decide +kernel
  have hwritable : " rd.stormblock.writable=".toList = ' ' :: "rd.stormblock.writable=".toList := by
    decide +kernel
  have hnil : "".toList = [] := by decide
  unfold buildCmdline commandWords frontWords storeWords writableWords writableText
  -- Each of the two words may be there or not.
  rcases spec.imageStore with _ | store
  all_goals
    by_cases hempty : spec.writable = []
    all_goals
      simp only [hempty, if_true, if_false, List.cons_append, List.nil_append, Text.withBlanks,
        String.toList_append, hconsole, hmeta, hoverlay, hstore, hwritable, hnil, List.append_nil,
        List.append_assoc]

theorem buildCmdline_added {extra : String} (h : spec.extraCmdline = some extra) :
    (buildCmdline spec).toList =
      (buildCmdline { spec with extraCmdline := none }).toList ++ ' ' :: extra.toList := by
  have hblank : " ".toList = [' '] := by decide
  have hnil : "".toList = [] := by decide
  unfold buildCmdline
  rw [h]
  simp only [String.toList_append, hblank, hnil, List.append_nil, List.append_assoc,
    List.singleton_append]

/-- The words of the options are those of `commandWords`, and behind them what
    is added up to its first line feed. -/
theorem words_of_options (hwords : ∀ w ∈ commandWords spec, Text.IsWord w) {options : String}
    (h : (Text.lines (buildCmdline spec)).head?.map Text.trim = some options) :
    Text.words options =
      commandWords spec ++ Text.words (Text.firstLine (spec.extraCmdline.getD "")) := by
  rcases Option.map_eq_some_iff.mp h with ⟨line, hline, rfl⟩
  -- The first line of the command line is its words up to the end of the first line
  -- of what was added.
  rw [Text.words_trim, Text.words_of_head_lines hline]
  unfold Text.firstLine
  rcases hextra : spec.extraCmdline with _ | extra
  · -- Nothing is added, so a blank makes no difference.
    have hbare := toList_bare spec []
    have hspec : { spec with extraCmdline := none } = spec := by
      rw [← hextra]
    rw [hspec] at hbare
    have hnl := Text.newline_not_mem_withBlanks hwords (List.not_mem_nil (a := '\n'))
    have hall : ∀ c ∈ (buildCmdline spec).toList, decide (c ≠ '\n') = true := by
      intro c hc
      refine decide_eq_true fun hc' => hnl ?_
      rw [← hbare, ← hc']
      exact List.mem_append_left _ hc
    have hsplit := Text.words_withBlanks hwords []
    rw [← hbare] at hsplit
    unfold Text.words at hsplit ⊢
    rw [String.toList_ofList, Text.wordsFrom_concat_whitespace _ (by decide)] at hsplit
    rw [List.takeWhile_eq_self_iff.mpr hall, String.ofList_toList, hsplit]
    rfl
  · rw [buildCmdline_added hextra, toList_bare, Text.firstLine_withBlanks hwords,
      Text.words_withBlanks hwords, Option.getD_some]

/-! ## Looking a key up -/

/-- A lookup takes the first word that fits, and gives up if it names
    nothing. -/
theorem cmdlineValue_append {options key extra : String} {ws : List String}
    (h : Text.words options = ws ++ Text.words extra)
    (hne : ∀ v, ws.findSome? (Text.stripPrefix key) = some v → v ≠ "") :
    cmdlineValue options key =
      (ws.findSome? (Text.stripPrefix key)).or (cmdlineValue extra key) := by
  unfold cmdlineValue
  rw [h, List.findSome?_append]
  rcases hv : ws.findSome? (Text.stripPrefix key) with _ | v
  · rfl
  · rw [Option.some_or, Option.some_or, Option.filter_some, if_pos (decide_eq_true (hne v hv))]

/-- The two keys that may be missing. -/
inductive Optional : String → Prop where
  | store : Optional "rd.stormblock.image-store="
  | writable : Optional "rd.stormblock.writable="

/-- Neither is found among the words that are always there. -/
theorem Optional.lacks {key : String} (h : Optional key) :
    ∀ w ∈ frontWords spec ++ ["rd.stormblock.overlay=tmpfs:1G"], Text.stripPrefix key w = none := by
  intro w hw
  unfold frontWords at hw
  simp only [List.cons_append, List.nil_append, List.mem_cons, List.not_mem_nil, or_false] at hw
  -- No other key begins like one of the two.
  cases h with
  | store =>
      rcases hw with rfl | rfl | rfl | rfl | rfl | rfl
      · decide
      · decide
      · exact Text.stripPrefix_apart (by decide) (by decide) _
      · decide
      · exact Text.stripPrefix_apart (by decide) (by decide) _
      · decide
  | writable =>
      rcases hw with rfl | rfl | rfl | rfl | rfl | rfl
      · decide
      · decide
      · exact Text.stripPrefix_apart (by decide) (by decide) _
      · decide
      · exact Text.stripPrefix_apart (by decide) (by decide) _
      · decide

theorem Optional.find {key : String} (h : Optional key) :
    (commandWords spec).findSome? (Text.stripPrefix key) =
      (storeWords spec ++ writableWords spec).findSome? (Text.stripPrefix key) := by
  have hwords : commandWords spec = (frontWords spec ++ ["rd.stormblock.overlay=tmpfs:1G"]) ++
      (storeWords spec ++ writableWords spec) := by
    unfold commandWords
    rw [List.append_assoc, List.singleton_append]
  rw [hwords, List.findSome?_append, List.findSome?_eq_none_iff.mpr h.lacks, Option.none_or]

/-- The image store is found exactly if it was asked for. -/
theorem find_store (spec : BootImageSpec) :
    (commandWords spec).findSome? (Text.stripPrefix "rd.stormblock.image-store=") =
      spec.imageStore := by
  have hwritable : Text.stripPrefix "rd.stormblock.image-store="
      ("rd.stormblock.writable=" ++ writableText spec) = none :=
    Text.stripPrefix_apart (by decide) (by decide) _
  rw [Optional.store.find, List.findSome?_append]
  unfold storeWords writableWords
  rcases spec.imageStore with _ | store
  · by_cases hempty : spec.writable = []
    · rw [if_pos hempty]
      rfl
    · rw [if_neg hempty, List.findSome?_singleton, hwritable]
      rfl
  · rw [List.findSome?_singleton, Text.stripPrefix_append, Option.some_or]

/-- And so are the writable volumes. -/
theorem find_writable (spec : BootImageSpec) :
    (commandWords spec).findSome? (Text.stripPrefix "rd.stormblock.writable=") =
      if spec.writable = [] then none else some (writableText spec) := by
  have hlack : (storeWords spec).findSome? (Text.stripPrefix "rd.stormblock.writable=") = none := by
    refine List.findSome?_eq_none_iff.mpr fun w hw => ?_
    unfold storeWords at hw
    rcases hstore : spec.imageStore with _ | store
    · rw [hstore] at hw
      exact absurd hw List.not_mem_nil
    · rw [hstore, List.mem_singleton] at hw
      rw [hw]
      exact Text.stripPrefix_apart (by decide) (by decide) _
  rw [Optional.writable.find, List.findSome?_append, hlack, Option.none_or]
  unfold writableWords
  by_cases hempty : spec.writable = []
  · rw [if_pos hempty, if_pos hempty]
    rfl
  · rw [if_neg hempty, if_neg hempty, List.findSome?_singleton, Text.stripPrefix_append]

end Words

/-! ## The command -/

variable {V N G S : Type} {F : Ops V N} {J : Json.Printer} {D : FileOps S} {O : GptOps G}
  {host : Host} {env : Env} {st st' : Station V S} {exit : Exit} {args : BootImageArgs}

/-- A `boot-image` that exits with 0 took its pairs apart and built the
    image. -/
theorem bootImage_of_exit (hrun : Command.run F J D O host env st (.bootImage args) = (st', exit))
    (hexit : exit.code = 0) : ∃ mounts report, writableMounts args.writable = .ok mounts ∧
      Ends (build F O host (args.spec mounts)) st.image st'.image report := by
  unfold Command.run at hrun
  simp only at hrun
  -- An error of any part of it is an exit with 1.
  rcases hmain : bootImageMain F J O host args st.image with ⟨image, err | text⟩
  · rw [hmain] at hrun
    simp only [Prod.mk.injEq] at hrun
    rw [← hrun.2] at hexit
    exact absurd hexit (by decide)
  · rw [hmain] at hrun
    simp only [Prod.mk.injEq] at hrun
    rw [← hrun.1]
    have hends : Ends (bootImageMain F J O host args) st.image image text := hmain
    unfold bootImageMain at hends
    rcases ends_bind_iff.mp hends with ⟨mounts, _, hmounts, hrest⟩
    rcases ends_ofExcept_iff.mp hmounts with ⟨rfl, hparts⟩
    rcases ends_bind_iff.mp hrest with ⟨report, _, hbuild, hdone⟩
    rcases ends_pure_iff.mp hdone with ⟨rfl, _⟩
    exact ⟨mounts, report, hparts, hbuild⟩

/-- The arguments that go onto the line are one word each, as a shell hands them
    over unless they are quoted. -/
structure BootImageArgs.Words (args : BootImageArgs) : Prop where
  device : Text.IsWord args.diskDevice
  volume : Text.IsWord args.volume
  store : ∀ store, args.imageStore = some store → Text.IsWord store
  writable : ∀ w ∈ args.writable, Text.IsWord w

theorem BootImageArgs.Words.typable {mounts : List WritableMount} (h : args.Words)
    (hmounts : writableMounts args.writable = .ok mounts) : Typable (args.spec mounts) where
  device := h.device
  volume := h.volume
  store := h.store
  writable _ hw := h.writable _ (writableMounts_eq hmounts ▸ List.mem_map_of_mem hw)

/-- Every key is looked up among the words of the build first, and then in what
    was added to them. -/
theorem lookups_of_options {mounts : List WritableMount} {options : String} (hwords : args.Words)
    (hmounts : writableMounts args.writable = .ok mounts)
    (hline : (Text.lines (buildCmdline (args.spec mounts))).head?.map Text.trim = some options) :
    cmdlineValue options "rd.stormblock.image-store=" = args.imageStore.or
        (cmdlineValue (Text.firstLine (args.cmdline.getD "")) "rd.stormblock.image-store=") ∧
      cmdlineValue options "rd.stormblock.writable=" =
        (if args.writable = [] then none else some (Text.join "," args.writable)).or
          (cmdlineValue (Text.firstLine (args.cmdline.getD "")) "rd.stormblock.writable=") := by
  have htypable := hwords.typable hmounts
  have hsplit := words_of_options htypable.isWord hline
  refine ⟨?_, ?_⟩
  · rw [cmdlineValue_append hsplit, find_store]
    · rfl
    · intro store hstore
      rw [find_store] at hstore
      exact (hwords.store store hstore).ne_empty
  · -- The pairs are on the line as they were typed.
    have htext : writableText (args.spec mounts) = Text.join "," args.writable :=
      congrArg (Text.join ",") (writableMounts_eq hmounts)
    have hnone : (args.spec mounts).writable = [] ↔ args.writable = [] := by
      rw [← writableMounts_eq hmounts, List.map_eq_nil_iff]
      exact Iff.rfl
    rw [cmdlineValue_append hsplit, find_writable]
    · simp only [hnone, htext]
      rfl
    · intro text hfound
      rw [find_writable] at hfound
      split_ifs at hfound with hempty
      rw [← Option.some.inj hfound]
      exact (htypable.isWord_writableText hempty).ne_empty

/-- A `boot-image` that exits with 0 leaves a disk whose loader entry says what
    was typed: the slab and the volume, the image store and every `--writable`
    as it was, and where one of these was not given, whatever `--cmdline` says
    of it on its first line. The reader hands over a boot of this entry exactly
    if kernel and initramfs are text. -/
theorem typed_on_disk (hF : F.Lawful) (hO : O.Lawful) (hwords : args.Words)
    (hrun : Command.run F J D O host env st (.bootImage args) = (st', exit))
    (hexit : exit.code = 0) :
    ∃ img vol kernel initramfs options, st'.image = some img ∧
      host.openFile args.kernel = .ok kernel ∧ host.openFile args.initramfs = .ok initramfs ∧
      (∀ R, Esp.read F (img.disk R) = .ok (some (Esp.ofVolume F vol))) ∧
      loaderEntry F vol = some
        { linux := some "/vmlinuz", initrd := some "/initramfs.img", options := some options } ∧
      ((Esp.ofVolume F vol).boot.isSome = true ↔
        IsText kernel.content ∧ IsText initramfs.content) ∧
      (∀ b, (Esp.ofVolume F vol).boot = some b →
        b = { cmdline := options, slabDevice := some (args.diskDevice ++ "2")
              bootVolume := some args.volume }) ∧
      cmdlineValue options "rd.stormblock.slab=" = some (args.diskDevice ++ "2") ∧
      cmdlineValue options "stormblock.volume=" = some args.volume ∧
      cmdlineValue options "rd.stormblock.image-store=" = args.imageStore.or
        (cmdlineValue (Text.firstLine (args.cmdline.getD "")) "rd.stormblock.image-store=") ∧
      cmdlineValue options "rd.stormblock.writable=" =
        (if args.writable = [] then none else some (Text.join "," args.writable)).or
          (cmdlineValue (Text.firstLine (args.cmdline.getD "")) "rd.stormblock.writable=") := by
  -- What exited with 0 took its arguments apart and built the image.
  rcases bootImage_of_exit hrun hexit with ⟨mounts, report, hmounts, hbuild⟩
  rcases built_read hF hO hbuild with
    ⟨img, vol, _, kernel, initramfs, himg, hsources, hfilled, hread⟩
  have hspec : (args.spec mounts).diskDevice = args.diskDevice := rfl
  rcases hfilled.entry hwords.device hwords.volume with
    ⟨options, hline, hentry, hslab, hvolume, hboots⟩
  rw [hspec] at hslab hboots
  exact ⟨img, vol, kernel, initramfs, options, himg, hsources.kernel.1, hsources.initramfs.1,
    hread, hentry, hfilled.boots_iff.1, hboots, hslab, hvolume,
    lookups_of_options hwords hmounts hline⟩

/-- A disk for `sda` with a writable volume, and an image store that is only
    added. -/
def typedArgs : BootImageArgs where
  kernel := "vmlinuz"
  initramfs := "initramfs.img"
  bootloader := "boot.efi"
  slab := "root.slab"
  volume := "boot-cp-01"
  espMib := 64
  imageStore := none
  writable := ["var-0.1.0:/var", "log-0.1.0:/var/log"]
  diskDevice := "/dev/sda"
  cmdline := some "quiet rd.stormblock.writable=x:/ rd.stormblock.image-store=store-0.1.0"
  out := "disk.img"

/-- Where it is typed: a machine without a disk, and no image yet. -/
def typedAt : Station Memory (String → Option (List UInt8)) where
  os := (Bench.slabbed [] Bench.wiped Bench.systemSecond).os
  files _ := none
  image := none

/-- Even with a kernel that is no text, and that nothing boots from. -/
theorem typed_on_disk_sda : ∃ img vol options,
    ∃ st : Station Memory (String → Option (List UInt8)), st.image = some img ∧
      (∀ R, Esp.read memory (img.disk R) = .ok (some (Esp.ofVolume memory vol))) ∧
      loaderEntry memory vol = some
        { linux := some "/vmlinuz", initrd := some "/initramfs.img", options := some options } ∧
      (Esp.ofVolume memory vol).boot = none ∧
      cmdlineValue options "rd.stormblock.slab=" = some "/dev/sda2" ∧
      cmdlineValue options "stormblock.volume=" = some "boot-cp-01" ∧
      cmdlineValue options "rd.stormblock.image-store=" = some "store-0.1.0" ∧
      cmdlineValue options "rd.stormblock.writable=" =
        some "var-0.1.0:/var,log-0.1.0:/var/log" := by
  rcases hrun : Command.run memory Json.pretty FileOps.memory plain
    (kernelHost (.whole [0xff] (by decide))) { path := none, isFile := fun _ => false } typedAt
    (.bootImage typedArgs) with ⟨st, exit⟩
  have hexit : (Command.run memory Json.pretty FileOps.memory plain
      (kernelHost (.whole [0xff] (by decide))) { path := none, isFile := fun _ => false } typedAt
      (.bootImage typedArgs)).2.code = 0 := by
    decide +kernel
  rw [hrun] at hexit
  have hwords : typedArgs.Words :=
    { device := by decide
      volume := by decide
      store := fun store h => absurd h (Option.some_ne_none store).symm
      writable := by decide }
  rcases typed_on_disk memory_lawful plain_lawful hwords hrun hexit with
    ⟨img, vol, kernel, initramfs, options, himg, hkernel, _, hread, hentry, hiff, _, hslab,
      hvolume, hstore, hwritable⟩
  have hbinary : kernel.content = [0xff] := by
    rw [← Except.ok.inj hkernel]
    rfl
  refine ⟨img, vol, options, st, himg, hread, hentry, ?_, hslab.trans (by decide), hvolume,
    hstore.trans ?_, hwritable.trans ?_⟩
  · rw [← Option.not_isSome_iff_eq_none, hiff, hbinary]
    exact fun htext => absurd htext.1 (by decide +kernel)
  · decide +kernel
  · decide +kernel

end Zeroboot
