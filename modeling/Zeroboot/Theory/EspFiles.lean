import Zeroboot.Core.BootImage

/-!
# What the Build Puts on the ESP

The files a finished build leaves on the ESP, and what the reader makes of
them.

Filling the volume is followed one call at a time. Before each call the files
written so far are known, and so is that nothing else is there, so every file
is a new one. At the end the volume shows five files, and the directory the
loader entry is in lists that one file.

The reader finds the entry under its name, and in it a kernel and an initramfs
that are both there. It asks for them with `readFile`, though, which answers
with text, so they count as there when their bytes are text.

## Main definitions

* `EspFilled`: What is on the ESP after a build.

## Theorems

* `copyInto_ends`: A copied file holds what the source handed over.
* `fillEsp_ends`: What is on the ESP after a build.
* `field_linux`, `field_initrd`: What the entry that is written names.
* `EspFilled.loaderEntry`: The reader finds that entry.
* `EspFilled.missing_nil_iff`: Nothing is missing exactly when the kernel and
  the initramfs are text.
* `EspFilled.claim_eq_none`: Nobody has claimed the drive yet.
* `EspFilled.boots_iff`: When the drive boots itself.
-/

namespace Zeroboot

open Run Volume

variable {V N : Type} {F : Ops V N}

/-! ## Filling the volume -/

section Calls

variable {vol vol1 vol2 : V} {files : List (String × List UInt8)} {path : String} {n : N}

theorem apart_of_paths (paths : List String) (hpaths : files.map Prod.fst = paths)
    (hp : ∀ q ∈ paths, Apart path q = true) : ∀ f ∈ files, Apart path f.1 = true := by
  intro f hf
  refine hp f.1 ?_
  rw [← hpaths]
  exact List.mem_map_of_mem hf

/-- A copied file holds what the source handed over, and other directories
    list what they did. -/
theorem copyInto_ends (hF : F.Lawful) (hshows : Shows F vol files) {src : Except String Source}
    (paths : List String) (hpaths : files.map Prod.fst = paths)
    (hp : ∀ q ∈ paths, Apart path q = true) (hc : Ends (createFile F path) vol vol1 n)
    (hw : Ends (copyInto F src n) vol1 vol2 ()) :
    ∃ s, src = .ok s ∧ s.ending = .ok () ∧ Shows F vol2 ((path, s.content) :: files) ∧
      ∀ d, ApartDir d (dirOf path) = true → F.openDir vol2 d = F.openDir vol d := by
  unfold copyInto at hw
  rcases ends_bind_iff.mp hw with ⟨s, v, hsrc, hcopy⟩
  rcases ends_bind_iff.mp hcopy with ⟨_, v', hchunks, hend⟩
  rcases ends_ofExcept_iff.mp hsrc with ⟨rfl, hopen⟩
  rcases ends_ofExcept_iff.mp hend with ⟨rfl, hending⟩
  exact ⟨s, hopen, hending, hshows.createFile hF (apart_of_paths paths hpaths hp) hc hchunks,
    fun d hd => createFile_writeChunks_openDir hF hc hchunks hd⟩

/-- A file written at once holds what was written. -/
theorem writeAll_ends (hF : F.Lawful) (hshows : Shows F vol files) {content : List UInt8}
    (paths : List String) (hpaths : files.map Prod.fst = paths)
    (hp : ∀ q ∈ paths, Apart path q = true) (hc : Ends (createFile F path) vol vol1 n)
    (hw : Ends (writeAll F n content) vol1 vol2 ()) :
    Shows F vol2 ((path, content) :: files) ∧
      ∀ d, ApartDir d (dirOf path) = true → F.openDir vol2 d = F.openDir vol d := by
  have hchunks : writeChunks F vol1 n 0 [content] = (vol2, .ok ()) := by
    rw [writeChunks_singleton]
    exact hw
  have hcontent : [content].flatten = content := by
    rw [List.flatten_cons, List.flatten_nil, List.append_nil]
  constructor
  · have hadded := hshows.createFile hF (apart_of_paths paths hpaths hp) hc hchunks
    rwa [hcontent] at hadded
  · exact fun d hd => createFile_writeChunks_openDir hF hc hchunks hd

theorem createDir_ends (hF : F.Lawful) (hshows : Shows F vol files)
    (hd : Ends (createDir F path) vol vol1 ()) :
    Shows F vol1 files ∧ ∀ d, ApartDir d path = true → ApartDir d (dirOf path) = true →
      F.openDir vol1 d = F.openDir vol d := by
  have hvol : vol1 = (F.createDir vol path).1 := (congrArg Prod.fst hd).symm
  rw [hvol]
  exact ⟨hshows.createDir hF path, fun d => hF.createDir_openDir vol path d⟩

/-- A file written into a directory just created is the only one there. -/
theorem entries_ends (hF : F.Lawful) {d : String} {v v1 v2 v3 : V} {content : List UInt8}
    (habsent : Absent F v1 path) (hnew : F.openDir v d = none)
    (hd : Ends (createDir F d) v v1 ()) (hdir : dirOf path = d)
    (hc : Ends (createFile F path) v1 v2 n) (hw : Ends (writeAll F n content) v2 v3 ()) :
    ∃ es, F.openDir v3 d = some es ∧
      (∀ e, some e ∈ es → e.isDir = true ∨ e.fileName = nameOf path) ∧
      ∃ e, some e ∈ es ∧ e.fileName = nameOf path ∧ e.isDir = false := by
  rcases hF.createDir_new hnew hd with ⟨es, hes, hdirs⟩
  rw [← hdir] at hes
  rcases hF.createFile_entry habsent hc hes with ⟨es', hes', hmem⟩
  -- The new file joins what a new directory lists, which is directories only.
  refine ⟨es', ?_, ?_, ?_⟩
  · rw [(hF.writeAll_untouched hw).openDir, ← hdir, hes']
  · intro e he
    rcases (hmem e).mp he with hold | ⟨hname, _⟩
    · exact Or.inl (hdirs e hold)
    · exact Or.inr hname
  · let e : Volume.Entry := ⟨nameOf path, false, nameOf_noSlash path⟩
    exact ⟨e, (hmem e).mpr (Or.inr ⟨rfl, rfl⟩), rfl, rfl⟩

end Calls

/-- The files a build leaves on the ESP, last one first. -/
def espContents (bootloader kernel initramfs : List UInt8) (cmdline : String) :
    List (String × List UInt8) :=
  [ ("loader/entries/stormcos.conf", Text.asBytes (entryText cmdline)),
    ("loader/loader.conf", Text.asBytes loaderConf), ("initramfs.img", initramfs),
    ("vmlinuz", kernel), ("EFI/BOOT/BOOTX64.EFI", bootloader) ]

/-- What is on the ESP after a build. -/
structure EspFilled (F : Ops V N) (vol : V) (bootloader kernel initramfs : List UInt8)
    (cmdline : String) : Prop where
  shows : Shows F vol (espContents bootloader kernel initramfs cmdline)
  /-- One file in the directory of the loader entries. -/
  entries : ∃ es, F.openDir vol "loader/entries" = some es ∧
    (∀ e, some e ∈ es → e.isDir = true ∨ e.fileName = "stormcos.conf") ∧
    ∃ e, some e ∈ es ∧ e.fileName = "stormcos.conf" ∧ e.isDir = false

/-- What the sources of a build handed over. -/
structure Sources (host : Host) (spec : BootImageSpec) (bootloader kernel initramfs : Source) :
    Prop where
  bootloader : host.openFile spec.bootloader = .ok bootloader ∧ bootloader.ending = .ok ()
  kernel : host.openFile spec.kernel = .ok kernel ∧ kernel.ending = .ok ()
  initramfs : host.openFile spec.initramfs = .ok initramfs ∧ initramfs.ending = .ok ()

/-- What is on the ESP after a build, one call at a time. -/
theorem fillEsp_ends (hF : F.Lawful) {size : UInt64} {host : Host} {spec : BootImageSpec}
    {cmdline : String} {vol vol' : V} (hformat : F.format size = .ok vol)
    (h : Ends (fillEsp F host spec cmdline) vol vol' ()) :
    ∃ bootloader kernel initramfs, Sources host spec bootloader kernel initramfs ∧
      EspFilled F vol' bootloader.content kernel.content initramfs.content cmdline := by
  have hnone := hF.format_openDir hformat "loader/entries" (by decide)
  unfold fillEsp at h
  rcases ends_bind_iff.mp h with ⟨_, v1, hefi, h1⟩
  rcases ends_bind_iff.mp h1 with ⟨_, v2, hboot, h2⟩
  rcases ends_bind_iff.mp h2 with ⟨n3, v3, hc3, h3⟩
  rcases ends_bind_iff.mp h3 with ⟨_, v4, hw3, h4⟩
  rcases ends_bind_iff.mp h4 with ⟨n5, v5, hc5, h5⟩
  rcases ends_bind_iff.mp h5 with ⟨_, v6, hw5, h6⟩
  rcases ends_bind_iff.mp h6 with ⟨n7, v7, hc7, h7⟩
  rcases ends_bind_iff.mp h7 with ⟨_, v8, hw7, h8⟩
  rcases ends_bind_iff.mp h8 with ⟨_, v9, hloader, h9⟩
  rcases ends_bind_iff.mp h9 with ⟨n10, v10, hc10, h10⟩
  rcases ends_bind_iff.mp h10 with ⟨_, v11, hw10, h11⟩
  rcases ends_bind_iff.mp h11 with ⟨_, v12, hentries, h12⟩
  rcases ends_bind_iff.mp h12 with ⟨n13, v13, hc13, hw13⟩
  -- The directories up to the bootloader, and the three files copied.
  rcases createDir_ends hF (shows_format hF hformat) hefi with ⟨hs1, hd1⟩
  rcases createDir_ends hF hs1 hboot with ⟨hs2, hd2⟩
  rcases copyInto_ends hF hs2 [] rfl (by decide) hc3 hw3 with ⟨bootloader, hb, hbe, hs4, hd4⟩
  rcases copyInto_ends hF hs4 ["EFI/BOOT/BOOTX64.EFI"] rfl (by decide) hc5 hw5 with
    ⟨kernel, hk, hke, hs6, hd6⟩
  rcases copyInto_ends hF hs6 ["vmlinuz", "EFI/BOOT/BOOTX64.EFI"] rfl (by decide) hc7 hw7 with
    ⟨initramfs, hi, hie, hs8, hd8⟩
  -- The loader's own files.
  rcases createDir_ends hF hs8 hloader with ⟨hs9, hd9⟩
  rcases writeAll_ends hF hs9 ["initramfs.img", "vmlinuz", "EFI/BOOT/BOOTX64.EFI"] rfl (by decide)
    hc10 hw10 with ⟨hs11, hd11⟩
  rcases createDir_ends hF hs11 hentries with ⟨hs12, -⟩
  rcases writeAll_ends hF hs12 ["loader/loader.conf", "initramfs.img", "vmlinuz",
    "EFI/BOOT/BOOTX64.EFI"] rfl (by decide) hc13 hw13 with ⟨hs13, -⟩
  -- Until it is created the directory of the loader entries is not there.
  have hnew : F.openDir v11 "loader/entries" = none := by
    rw [hd11 _ (by decide), hd9 _ (by decide) (by decide), hd8 _ (by decide), hd6 _ (by decide),
      hd4 _ (by decide), hd2 _ (by decide) (by decide), hd1 _ (by decide) (by decide), hnone]
  have habsent := hs12.absent "loader/entries/stormcos.conf" (apart_of_paths
    ["loader/loader.conf", "initramfs.img", "vmlinuz", "EFI/BOOT/BOOTX64.EFI"] rfl (by decide))
  refine ⟨bootloader, kernel, initramfs, ⟨⟨hb, hbe⟩, ⟨hk, hke⟩, ⟨hi, hie⟩⟩, hs13, ?_⟩
  exact entries_ends hF habsent hnew hentries (by decide) hc13 hw13

/-! ## Reading it back -/

/-- The bytes are text. -/
def IsText (content : List UInt8) : Prop :=
  (Text.fromUtf8 content).isSome = true

instance (content : List UInt8) : Decidable (IsText content) :=
  inferInstanceAs (Decidable (_ = true))

theorem readFile_of_holds {vol : V} {path : String} {content : List UInt8}
    (h : Holds F vol path content) : readFile F vol path = Text.fromUtf8 content := by
  rcases h with ⟨n, hopen, hread⟩
  unfold readFile
  rw [hopen, Option.bind_some, hread, Option.bind_some]

/-- The entry: three lines, and the options behind their key. -/
theorem toList_entryText (cmdline : String) : (entryText cmdline).toList =
    "title   Storm CoreOS".toList ++ '\n' :: ("linux   /vmlinuz".toList ++ '\n' ::
      ("initrd  /initramfs.img".toList ++ '\n' ::
        ("options ".toList ++ (cmdline.toList ++ ['\n'])))) := by
  have hfront : "title   Storm CoreOS\nlinux   /vmlinuz\ninitrd  /initramfs.img\noptions ".toList =
      "title   Storm CoreOS".toList ++ '\n' :: ("linux   /vmlinuz".toList ++ '\n' ::
        ("initrd  /initramfs.img".toList ++ '\n' :: "options ".toList)) := by
    decide +kernel
  unfold entryText
  rw [String.toList_append, String.toList_append, hfront]
  -- What is left is how the pieces are bracketed, whatever they are.
  generalize "title   Storm CoreOS".toList = title, "linux   /vmlinuz".toList = linux,
    "initrd  /initramfs.img".toList = initrd, "options ".toList = options
  simp only [List.append_assoc, List.cons_append]
  rfl

/-- The lines of the entry: the three before the options, and whatever the
    options come to. -/
theorem lines_entryText (cmdline : String) : ∃ rest, Text.lines (entryText cmdline) =
    "title   Storm CoreOS" :: "linux   /vmlinuz" :: "initrd  /initramfs.img" :: rest := by
  -- None of the three lines has a line feed, so they come off one by one.
  unfold Text.lines
  rw [toList_entryText, Text.lineChars_cons _ (by decide), Text.lineChars_cons _ (by decide),
    Text.lineChars_cons _ (by decide)]
  exact ⟨_, rfl⟩

theorem field_linux (cmdline : String) :
    Zeroboot.Entry.field (entryText cmdline) "linux" = some "/vmlinuz" := by
  rcases lines_entryText cmdline with ⟨rest, hlines⟩
  have htitle : Text.stripPrefix "linux" "title   Storm CoreOS" = none := by decide
  have hlinux : Text.stripPrefix "linux" "linux   /vmlinuz" = some "   /vmlinuz" := by decide
  have htrim : Text.trim "   /vmlinuz" = "/vmlinuz" := by decide
  unfold Zeroboot.Entry.field
  rw [hlines]
  simp only [List.findSome?_cons, htitle, hlinux, Option.map_some, htrim]
  decide

theorem field_initrd (cmdline : String) :
    Zeroboot.Entry.field (entryText cmdline) "initrd" = some "/initramfs.img" := by
  rcases lines_entryText cmdline with ⟨rest, hlines⟩
  have htitle : Text.stripPrefix "initrd" "title   Storm CoreOS" = none := by decide
  have hlinux : Text.stripPrefix "initrd" "linux   /vmlinuz" = none := by decide
  have hinitrd : Text.stripPrefix "initrd" "initrd  /initramfs.img" =
      some "  /initramfs.img" := by decide
  have htrim : Text.trim "  /initramfs.img" = "/initramfs.img" := by decide
  unfold Zeroboot.Entry.field
  rw [hlines]
  simp only [List.findSome?_cons, htitle, hlinux, hinitrd, Option.map_some, htrim]
  decide

/-- A search that answers the same wherever it answers, answers that. -/
theorem findSome?_eq_of_mem {α β : Type} {f : α → Option β} {b : β} {l : List α}
    (hall : ∀ x ∈ l, f x = none ∨ f x = some b) (hmem : ∃ x ∈ l, f x = some b) :
    l.findSome? f = some b := by
  rcases h : l.findSome? f with _ | c
  · rcases hmem with ⟨x, hx, hb⟩
    rw [List.findSome?_eq_none_iff.mp h x hx] at hb
    exact absurd hb (by simp only [reduceCtorEq, not_false_eq_true])
  · rcases List.exists_of_findSome?_eq_some h with ⟨x, hx, hc⟩
    rcases hall x hx with hnone | hb
    · rw [hnone] at hc
      exact absurd hc (by simp only [reduceCtorEq, not_false_eq_true])
    · rw [← hc, hb]

section EspFilled

variable {vol : V} {bootloader kernel initramfs : List UInt8} {cmdline : String}

/-- The reader finds the entry that was written. -/
theorem EspFilled.loaderEntry (h : EspFilled F vol bootloader kernel initramfs cmdline) :
    loaderEntry F vol = some (Zeroboot.Entry.ofText (entryText cmdline)) := by
  rcases h.entries with ⟨es, hes, hall, e, he, hname, hfile⟩
  -- The one entry there is the one that was written.
  have htext : readFile F vol "loader/entries/stormcos.conf" = some (entryText cmdline) := by
    rw [readFile_of_holds (h.shows.holds ("loader/entries/stormcos.conf",
      Text.asBytes (entryText cmdline)) List.mem_cons_self), Text.fromUtf8_asBytes]
  have hconf : Text.endsWith (Text.toAsciiLowercase "stormcos.conf") ".conf" = true := by decide
  have hpath : "loader/entries/" ++ "stormcos.conf" = "loader/entries/stormcos.conf" := by decide
  unfold Zeroboot.loaderEntry
  rw [hes, Option.bind_some]
  refine findSome?_eq_of_mem ?_ ⟨some e, he, ?_⟩
  · intro x hx
    cases x with
    | none => exact Or.inl rfl
    | some e' =>
        -- Whatever else the directory lists is a directory, and passed over.
        rcases hall e' hx with hdir | hname'
        · refine Or.inl ?_
          simp only [hdir, Bool.true_or, if_true]
        · cases hdir : e'.isDir with
          | true =>
              refine Or.inl ?_
              simp only [hdir, Bool.true_or, if_true]
          | false =>
              refine Or.inr ?_
              simp only [hdir, hname', hconf, hpath, htext, Bool.not_true, Bool.or_false,
                Bool.false_eq_true, if_false, Option.map_some]
  · simp only [hfile, hname, hconf, hpath, htext, Bool.not_true, Bool.or_false,
      Bool.false_eq_true, if_false, Option.map_some]

theorem missingFile_eq_nil_iff {what p path : String} {content : List UInt8}
    (hpath : Text.trimStartMatches '/' p = path) (h : Holds F vol path content) :
    missingFile F vol what (some p) = [] ↔ IsText content := by
  unfold missingFile IsText
  simp only [hpath, readFile_of_holds h]
  by_cases ht : (Text.fromUtf8 content).isSome = true
  · rw [if_pos ht]
    exact iff_of_true rfl ht
  · rw [if_neg ht]
    exact iff_of_false (List.cons_ne_nil _ _) ht

/-- Nothing is missing exactly when the kernel and the initramfs are text. -/
theorem EspFilled.missing_nil_iff (h : EspFilled F vol bootloader kernel initramfs cmdline) :
    missingOf F vol (Zeroboot.Entry.ofText (entryText cmdline)) = [] ↔
      IsText kernel ∧ IsText initramfs := by
  have hkernel : Holds F vol "vmlinuz" kernel :=
    h.shows.holds ("vmlinuz", kernel) (by simp only [espContents, List.mem_cons, true_or, or_true])
  have hinitramfs : Holds F vol "initramfs.img" initramfs :=
    h.shows.holds ("initramfs.img", initramfs)
      (by simp only [espContents, List.mem_cons, true_or, or_true])
  have hloader : (F.openFile vol "EFI/BOOT/BOOTX64.EFI").isSome = true := by
    rcases h.shows.holds ("EFI/BOOT/BOOTX64.EFI", bootloader)
      (by simp only [espContents, List.mem_cons, true_or, or_true]) with ⟨n, hopen, _⟩
    rw [hopen, Option.isSome_some]
  unfold missingOf Zeroboot.Entry.ofText
  simp only [field_linux, field_initrd, hloader, if_true, List.append_nil,
    List.append_eq_nil_iff]
  rw [missingFile_eq_nil_iff (by decide) hkernel, missingFile_eq_nil_iff (by decide) hinitramfs]

/-- Nobody has claimed it yet. -/
theorem EspFilled.claim_eq_none (h : EspFilled F vol bootloader kernel initramfs cmdline) :
    (Esp.ofVolume F vol).claim = none := by
  -- The claim file is none of the five.
  have habsent : Absent F vol claimPath := h.shows.absent claimPath (apart_of_paths
    ["loader/entries/stormcos.conf", "loader/loader.conf", "initramfs.img", "vmlinuz",
      "EFI/BOOT/BOOTX64.EFI"] rfl (by decide))
  have hnone : readFile F vol claimPath = none := by
    unfold readFile
    rw [show F.openFile vol claimPath = none from habsent, Option.bind_none]
  rw [ofVolume_claim, hnone, Option.bind_none]

/-- The drive boots itself exactly when the kernel and the initramfs are
    text, and says that nothing is missing exactly then. -/
theorem EspFilled.boots_iff (h : EspFilled F vol bootloader kernel initramfs cmdline) :
    ((Esp.ofVolume F vol).boot.isSome = true ↔ IsText kernel ∧ IsText initramfs) ∧
      ((Esp.ofVolume F vol).missing = [] ↔ IsText kernel ∧ IsText initramfs) := by
  rw [← h.missing_nil_iff]
  unfold Esp.ofVolume
  rw [h.loaderEntry]
  by_cases hm : missingOf F vol (Zeroboot.Entry.ofText (entryText cmdline)) = []
  · simp only [hm, ne_eq, not_true_eq_false, if_false, Option.isSome_some, and_self]
  · simp only [hm, ne_eq, not_false_eq_true, if_true, Option.isSome_none, Bool.false_eq_true,
      and_self]

end EspFilled

end Zeroboot
