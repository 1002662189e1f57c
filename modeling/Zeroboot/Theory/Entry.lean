import Zeroboot.Theory.EspFiles

/-!
# The Loader Entry, Read Back

The command line a build writes into its loader entry, and what the reader of
the entry makes of it. The fields the reader wants stand on the fourth line,
behind three that start with other keys, and the two values the survey wants
stand in front of everything a caller can add. So nothing that is added
shadows them: neither lines after the first, nor words that repeat a key.

The device and the volume are put into the line as they are, so each has to be
one word.

## Main definitions

* `frontWords`: The words in front of the command line.

## Theorems

* `toList_buildCmdline`: The command line starts with them.
* `field_options`: The options of an entry are the first line of it.
* `entry_decodes`: What the entry decodes to.
-/

namespace Zeroboot

/-- The words every command line starts with. -/
def frontWords (spec : BootImageSpec) : List String :=
  [ "console=ttyS0", "root=/dev/ublkb0", "rd.stormblock.slab=" ++ (spec.diskDevice ++ "2"),
    "rd.stormblock.meta=/etc/stormblock/meta", "stormblock.volume=" ++ spec.volume ]

section Entries

variable {spec : BootImageSpec}

theorem toList_buildCmdline (spec : BootImageSpec) :
    ∃ tail, (buildCmdline spec).toList = Text.withBlanks (frontWords spec) tail := by
  have hconsole : "console=ttyS0 root=/dev/ublkb0 rd.stormblock.slab=".toList =
      "console=ttyS0".toList ++ ' ' :: ("root=/dev/ublkb0".toList ++ ' ' ::
        "rd.stormblock.slab=".toList) := by
    decide +kernel
  have hmeta : "2 rd.stormblock.meta=/etc/stormblock/meta stormblock.volume=".toList =
      "2".toList ++ ' ' :: ("rd.stormblock.meta=/etc/stormblock/meta".toList ++ ' ' ::
        "stormblock.volume=".toList) := by
    decide +kernel
  have hoverlay : " rd.stormblock.overlay=tmpfs:1G".toList =
      ' ' :: "rd.stormblock.overlay=tmpfs:1G".toList := by
    decide +kernel
  unfold buildCmdline frontWords
  simp only [Text.withBlanks, String.toList_append, hconsole, hmeta, hoverlay]
  -- What is left is how the pieces are bracketed, whatever they are.
  generalize "console=ttyS0".toList = console, "root=/dev/ublkb0".toList = root,
    "rd.stormblock.slab=".toList = slab, "2".toList = second,
    "rd.stormblock.meta=/etc/stormblock/meta".toList = store,
    "stormblock.volume=".toList = volume, "rd.stormblock.overlay=tmpfs:1G".toList = overlay
  simp only [List.append_assoc, List.cons_append]
  exact ⟨_, rfl⟩

theorem isWord_frontWords (hdevice : Text.IsWord spec.diskDevice)
    (hvolume : Text.IsWord spec.volume) : ∀ w ∈ frontWords spec, Text.IsWord w := by
  have hslab : Text.IsWord ("rd.stormblock.slab=" ++ (spec.diskDevice ++ "2")) :=
    Text.IsWord.append (by decide) (hdevice.append (by decide))
  have hvol : Text.IsWord ("stormblock.volume=" ++ spec.volume) :=
    Text.IsWord.append (by decide) hvolume
  intro w hw
  unfold frontWords at hw
  simp only [List.mem_cons, List.not_mem_nil, or_false] at hw
  rcases hw with rfl | rfl | rfl | rfl | rfl
  · decide
  · decide
  · exact hslab
  · decide
  · exact hvol

/-- The lines of an entry, up to the options. -/
theorem lines_entry {cmdline : String} {line : List Char} {rest : List (List Char)}
    (h : Text.lineChars ("options ".toList ++ (cmdline.toList ++ ['\n'])) = line :: rest) :
    ∃ rest', Text.lines (entryText cmdline) = "title   Storm CoreOS" ::
      "linux   /vmlinuz" :: "initrd  /initramfs.img" :: String.ofList line :: rest' := by
  -- The three lines in front of the options come off one by one.
  unfold Text.lines
  rw [toList_entryText, Text.lineChars_cons _ (by decide), Text.lineChars_cons _ (by decide),
    Text.lineChars_cons _ (by decide), h]
  exact ⟨_, rfl⟩

/-- What is found on the options line, whatever it holds. -/
theorem field_of_line {cmdline : String} {line : List Char} {rest : List String}
    (h : Text.lines (entryText cmdline) = "title   Storm CoreOS" :: "linux   /vmlinuz" ::
      "initrd  /initramfs.img" ::
        String.ofList (Text.stripCr ("options ".toList ++ line)) :: rest) :
    Entry.field (entryText cmdline) "options" =
      (some (Text.trim (String.ofList line))).filter (· ≠ "") := by
  have htitle : Text.stripPrefix "options" "title   Storm CoreOS" = none := by decide
  have hlinux : Text.stripPrefix "options" "linux   /vmlinuz" = none := by decide
  have hinitrd : Text.stripPrefix "options" "initrd  /initramfs.img" = none := by decide
  have hline : String.ofList (Text.stripCr ("options ".toList ++ line)) =
      "options" ++ String.ofList (' ' :: Text.stripCr line) := by
    rw [Text.stripCr_append (by decide)]
    refine String.toList_inj.mp ?_
    simp only [String.toList_append, String.toList_ofList]
    rfl
  have htrim : Text.trim (String.ofList (' ' :: Text.stripCr line)) =
      Text.trim (String.ofList line) := by
    unfold Text.trim
    rw [String.toList_ofList, String.toList_ofList,
      Text.trimChars_cons_whitespace (by decide), Text.trimChars_stripCr]
  unfold Entry.field
  rw [h, hline]
  simp only [List.findSome?_cons, htitle, hlinux, hinitrd, Text.stripPrefix_append, Option.map_some,
    htrim]

/-- The options of an entry are the first line of its command line, trimmed,
    unless that is blank. -/
theorem field_options (cmdline : String) :
    Entry.field (entryText cmdline) "options" =
      ((Text.lines cmdline).head?.map Text.trim).filter (· ≠ "") := by
  rcases hsplit : Text.splitOnceChars '\n' cmdline.toList with _ | ⟨line, after⟩
  · -- No line feed: the line ends with the one the entry puts behind it.
    have hnone := Text.splitOnceChars_eq_none_iff.mp hsplit
    have hfirst : Text.lineChars ("options ".toList ++ (cmdline.toList ++ ['\n'])) =
        Text.stripCr ("options ".toList ++ cmdline.toList) :: Text.lineChars [] := by
      rw [← List.append_assoc]
      refine Text.lineChars_cons [] fun hm => ?_
      exact (List.mem_append.mp hm).elim (by decide) hnone
    rcases lines_entry hfirst with ⟨rest, hlines⟩
    rw [field_of_line hlines, String.ofList_toList]
    by_cases hempty : cmdline = ""
    · subst hempty
      decide
    · have hlast := Text.lineChars_last hnone fun h => hempty (String.toList_inj.mp h)
      rw [Text.lines, hlast, List.map_cons, List.head?_cons, Option.map_some,
        String.ofList_toList]
  · rcases Text.eq_of_splitOnceChars hsplit with ⟨heq, hline⟩
    have hfirst : Text.lineChars ("options ".toList ++ (cmdline.toList ++ ['\n'])) =
        Text.stripCr ("options ".toList ++ line) :: Text.lineChars (after ++ ['\n']) := by
      rw [heq, List.append_assoc, ← List.append_assoc]
      refine Text.lineChars_cons _ fun hm => ?_
      exact (List.mem_append.mp hm).elim (by decide) hline
    rcases lines_entry hfirst with ⟨rest, hlines⟩
    rw [field_of_line hlines, Text.lines, heq, Text.lineChars_cons after hline, List.map_cons,
      List.head?_cons, Option.map_some]
    -- The carriage return in front of a line feed is trimmed off as well.
    unfold Text.trim
    rw [String.toList_ofList, String.toList_ofList, Text.trimChars_stripCr]

/-- The first line of a command line that starts with these words has them for
    its first words. -/
theorem words_firstLine {cmdline : String} {ws : List String} {tail : List Char}
    (h : cmdline.toList = Text.withBlanks ws tail) (hws : ∀ w ∈ ws, Text.IsWord w)
    (hne : ws ≠ []) : ∃ line rest, (Text.lines cmdline).head? = some line ∧
      Text.words (Text.trim line) = ws ++ rest := by
  rcases hsplit : Text.splitOnceChars '\n' tail with _ | ⟨front, after⟩
  · have hnone := Text.newline_not_mem_withBlanks hws (Text.splitOnceChars_eq_none_iff.mp hsplit)
    have hnil := Text.withBlanks_ne_nil hne tail
    refine ⟨String.ofList (Text.withBlanks ws tail), _, ?_,
      (Text.words_trim _).trans (Text.words_withBlanks hws tail)⟩
    rw [Text.lines, h, Text.lineChars_last hnone hnil]
    rfl
  · rcases Text.eq_of_splitOnceChars hsplit with ⟨rfl, hfront⟩
    refine ⟨String.ofList (Text.stripCr (Text.withBlanks ws front)),
      Text.words (String.ofList front), ?_, ?_⟩
    · rw [Text.lines, h, ← Text.withBlanks_append,
        Text.lineChars_cons after (Text.newline_not_mem_withBlanks hws hfront)]
      rfl
    · rw [← Text.words_withBlanks hws front,
        ← Text.words_trim (String.ofList (Text.withBlanks _ _))]
      unfold Text.trim
      rw [String.toList_ofList, String.toList_ofList, Text.trimChars_stripCr]

/-- So these are the first words of the options of the entry. -/
theorem options_of_words {cmdline : String} {ws : List String} {tail : List Char}
    (h : cmdline.toList = Text.withBlanks ws tail) (hws : ∀ w ∈ ws, Text.IsWord w)
    (hne : ws ≠ []) : ∃ options rest, Entry.field (entryText cmdline) "options" = some options ∧
      (Text.lines cmdline).head?.map Text.trim = some options ∧
      Text.words options = ws ++ rest := by
  rcases words_firstLine h hws hne with ⟨line, rest, hline, hwords⟩
  have hoptions : Text.trim line ≠ "" := by
    intro hnil
    rw [hnil, show Text.words "" = [] by decide] at hwords
    exact hne (List.append_eq_nil_iff.mp hwords.symm).1
  refine ⟨Text.trim line, rest, ?_, ?_, hwords⟩
  · rw [field_options, hline, Option.map_some, Option.filter_some,
      if_pos (decide_eq_true hoptions)]
  · rw [hline, Option.map_some]

/-! ## What the survey asks for -/

variable {options : String} {rest : List String}

/-- The slab is named by the third word. -/
theorem slab_of_words (h : Text.words options = (frontWords spec).take 3 ++ rest) :
    cmdlineValue options "rd.stormblock.slab=" = some (spec.diskDevice ++ "2") := by
  have hconsole : Text.stripPrefix "rd.stormblock.slab=" "console=ttyS0" = none := by decide
  have hroot : Text.stripPrefix "rd.stormblock.slab=" "root=/dev/ublkb0" = none := by decide
  have hne : spec.diskDevice ++ "2" ≠ "" := by
    intro hnil
    have hlist := congrArg String.toList hnil
    rw [String.toList_append] at hlist
    exact absurd (List.append_eq_nil_iff.mp hlist).2 (by decide)
  unfold cmdlineValue
  rw [h]
  simp only [frontWords, List.take_succ_cons, List.take_zero, List.cons_append,
    List.findSome?_cons, hconsole, hroot, Text.stripPrefix_append, Option.filter_some,
    decide_eq_true hne, if_true]

/-- The key of the volume is no prefix of any word in front of it. -/
theorem volume_of_words (h : Text.words options = frontWords spec ++ rest)
    (hne : spec.volume ≠ "") : cmdlineValue options "stormblock.volume=" = some spec.volume := by
  have hconsole : Text.stripPrefix "stormblock.volume=" "console=ttyS0" = none := by decide
  have hroot : Text.stripPrefix "stormblock.volume=" "root=/dev/ublkb0" = none := by decide
  have hslab : Text.stripPrefix "stormblock.volume="
      ("rd.stormblock.slab=" ++ (spec.diskDevice ++ "2")) = none := by
    refine Text.stripPrefix_head_ne (a := 's') (b := 'r') (by decide) ?_ (by decide)
    rw [String.toList_append, List.head?_append,
      show "rd.stormblock.slab=".toList.head? = some 'r' by decide, Option.some_or]
  have hmeta : Text.stripPrefix "stormblock.volume="
      "rd.stormblock.meta=/etc/stormblock/meta" = none := by decide
  unfold cmdlineValue frontWords at *
  rw [h]
  simp only [List.cons_append, List.findSome?_cons, hconsole, hroot, hslab, hmeta,
    Text.stripPrefix_append, Option.filter_some, decide_eq_true hne, if_true]

/-- The options of the entry a build writes, and what is looked up in them. -/
theorem options_decode (spec : BootImageSpec) (hdevice : Text.IsWord spec.diskDevice)
    (hvolume : Text.IsWord spec.volume) :
    ∃ options, Entry.field (entryText (buildCmdline spec)) "options" = some options ∧
      (Text.lines (buildCmdline spec)).head?.map Text.trim = some options ∧
      cmdlineValue options "rd.stormblock.slab=" = some (spec.diskDevice ++ "2") ∧
      cmdlineValue options "stormblock.volume=" = some spec.volume := by
  rcases toList_buildCmdline spec with ⟨tail, htail⟩
  rcases options_of_words htail (isWord_frontWords hdevice hvolume) (List.cons_ne_nil _ _) with
    ⟨options, rest, hfield, hline, hwords⟩
  exact ⟨options, hfield, hline, slab_of_words hwords, volume_of_words hwords hvolume.ne_empty⟩

/-- The entry a build writes decodes to what was asked for, whatever is added
    to its command line. -/
theorem entry_decodes (spec : BootImageSpec) (hdevice : Text.IsWord spec.diskDevice)
    (hvolume : Text.IsWord spec.volume) :
    ∃ options, Entry.ofText (entryText (buildCmdline spec)) =
        { linux := some "/vmlinuz", initrd := some "/initramfs.img", options := some options } ∧
      (Text.lines (buildCmdline spec)).head?.map Text.trim = some options ∧
      cmdlineValue options "rd.stormblock.slab=" = some (spec.diskDevice ++ "2") ∧
      cmdlineValue options "stormblock.volume=" = some spec.volume := by
  rcases options_decode spec hdevice hvolume with ⟨options, hfield, hdecoded⟩
  refine ⟨options, ?_, hdecoded⟩
  unfold Entry.ofText
  rw [field_linux, field_initrd, hfield]

/-- The slab of an entry a build writes, whatever the volume is called. -/
theorem slab_of_entry (spec : BootImageSpec) (hdevice : Text.IsWord spec.diskDevice) :
    ∃ options, Entry.field (entryText (buildCmdline spec)) "options" = some options ∧
      cmdlineValue options "rd.stormblock.slab=" = some (spec.diskDevice ++ "2") := by
  have hslab : Text.IsWord ("rd.stormblock.slab=" ++ (spec.diskDevice ++ "2")) :=
    Text.IsWord.append (by decide) (hdevice.append (by decide))
  have hwords : ∀ w ∈ (frontWords spec).take 3, Text.IsWord w := by
    intro w hw
    simp only [frontWords, List.take_succ_cons, List.take_zero, List.mem_cons, List.not_mem_nil,
      or_false] at hw
    rcases hw with rfl | rfl | rfl
    · decide
    · decide
    · exact hslab
  rcases toList_buildCmdline spec with ⟨tail, htail⟩
  -- Only the three words up to the device have to be words.
  have hfront : (buildCmdline spec).toList = Text.withBlanks ((frontWords spec).take 3)
      (Text.withBlanks ((frontWords spec).drop 3) tail) := htail
  rcases options_of_words hfront hwords (List.cons_ne_nil _ _) with
    ⟨options, rest, hfield, _, hoptions⟩
  exact ⟨options, hfield, slab_of_words hoptions⟩

/-- A build whose caller adds every key again, on the same line and below
    it. -/
def shadowed : BootImageSpec where
  kernel := "vmlinuz"
  initramfs := "initramfs.img"
  bootloader := "boot.efi"
  slab := "root.slab"
  volume := "boot-cp-01"
  espMib := 64
  imageStore := some "images"
  writable := [{ volume := "var", mount := "/var" }]
  diskDevice := "/dev/sda"
  extraCmdline := some "stormblock.volume=x rd.stormblock.slab=/dev/sdb2\nlinux /other\noptions y"
  out := "disk.img"

theorem entry_decodes_shadowed : ∃ options, Entry.ofText (entryText (buildCmdline shadowed)) =
      { linux := some "/vmlinuz", initrd := some "/initramfs.img", options := some options } ∧
    cmdlineValue options "rd.stormblock.slab=" = some ("/dev/sda" ++ "2") ∧
    cmdlineValue options "stormblock.volume=" = some "boot-cp-01" := by
  rcases entry_decodes shadowed (by decide) (by decide) with ⟨options, hentry, _, hslab, hvolume⟩
  exact ⟨options, hentry, hslab, hvolume⟩

end Entries

end Zeroboot
