import Zeroboot.Core.Geometry
import Zeroboot.Theory.Ownership

/-!
# Block Addresses off a Foreign Drive

What the survey computes from a partition table, and when 64 bits hold it.

The table is taken as it is. A used entry that ends before it starts, or at the
last address there is, is enough for a difference or a sum to run over, in the
report of the partitions and, where the entry says it is an ESP, in the range
the filesystem is read from and a claim is written to. Nothing in front of it
asks. Where every entry starts no later than it ends, and the bytes can be
counted, all of it is exact.

## Main definitions

* `Sized`: A partition whose bytes can be counted.
* `WellPlaced`: A disk all of whose partitions are such, and whose ESP ends
  where an offset can reach.

## Theorems

* `sizeChecked_eq_some_iff`, `rangeChecked_eq_some_iff`: One entry.
* `partitionTableChecked_eq`, `espExtentChecked_eq`: The table, and the ESP.
* `lookAtChecked_eq`: A drive that is well placed is looked at.
* `geometry_safe_iff`: Which drives the survey and a claim get over.
-/

namespace Zeroboot

variable {V N : Type}

/-- A partition whose size in bytes is a number of 64 bits. -/
structure Sized (p : GptPartition) : Prop where
  stop : p.lastLba.toNat + 1 < 2 ^ 64
  ordered : p.firstLba.toNat ≤ p.lastLba.toNat + 1
  size : (p.lastLba.toNat + 1 - p.firstLba.toNat) * 512 < 2 ^ 64

/-- Every partition can be counted, and the ESP ends at an offset that can be
    written down. -/
structure WellPlaced (disk : Disk V) : Prop where
  sized : ∀ table, disk.gpt = some table → ∀ x ∈ table.partitions, Sized x.2
  esp : ∀ p, espOf disk = some p → (p.lastLba.toNat + 1) * 512 < 2 ^ 64

/-! ## One entry -/

section Entry

variable {p : GptPartition} {n : Nat}

theorem sizeChecked_eq_some_iff :
    sizeChecked p = some n ↔ Sized p ∧ n = (p.lastLba.toNat + 1 - p.firstLba.toNat) * 512 := by
  have hlb : lbSize.toNat = 512 := rfl
  unfold sizeChecked
  rw [hlb]
  constructor
  · intro h
    rcases Option.bind_eq_some_iff.mp h with ⟨stop, hstop, hrest⟩
    rcases Option.bind_eq_some_iff.mp hrest with ⟨blocks, hblocks, hsize⟩
    rcases Checked.add_eq_some_iff.mp hstop with ⟨hlt, rfl⟩
    rcases Checked.sub_eq_some_iff.mp hblocks with ⟨hle, rfl⟩
    rcases Checked.mul_eq_some_iff.mp hsize with ⟨hbytes, rfl⟩
    exact ⟨⟨hlt, hle, hbytes⟩, rfl⟩
  · rintro ⟨hs, rfl⟩
    rw [Checked.add_of_lt hs.stop, Option.bind_some, Checked.sub_of_le hs.ordered,
      Option.bind_some, Checked.mul_of_lt hs.size]

/-- The size the report gives, where it fits. -/
theorem Sized.sizeBytes (hs : Sized p) :
    UInt64.ofNat ((p.lastLba.toNat + 1 - p.firstLba.toNat) * 512) =
      (p.lastLba + 1 - p.firstLba) * lbSize := by
  have hstop := hs.stop
  have hordered := hs.ordered
  have hsize := hs.size
  have hnext : (p.lastLba + 1).toNat = p.lastLba.toNat + 1 := by
    rw [UInt64.toNat_add, UInt64.toNat_one, Nat.mod_eq_of_lt hstop]
  have hle : p.firstLba ≤ p.lastLba + 1 := by
    rw [UInt64.le_iff_toNat_le, hnext]
    exact hordered
  have hlb : lbSize.toNat = 512 := rfl
  refine UInt64.toNat_inj.mp ?_
  rw [UInt64.toNat_ofNat_of_lt' hsize, UInt64.toNat_mul, UInt64.toNat_sub_of_le _ _ hle, hnext,
    hlb, Nat.mod_eq_of_lt hsize]

theorem rangeChecked_eq_some_iff {r : Nat × Nat} :
    rangeChecked p = some r ↔ p.firstLba.toNat * 512 < 2 ^ 64 ∧
      (p.lastLba.toNat + 1) * 512 < 2 ^ 64 ∧
      r = (p.firstLba.toNat * 512, (p.lastLba.toNat + 1) * 512) := by
  have hlb : lbSize.toNat = 512 := rfl
  unfold rangeChecked
  rw [hlb]
  constructor
  · intro h
    rcases Option.bind_eq_some_iff.mp h with ⟨start, hstart, hrest⟩
    rcases Option.bind_eq_some_iff.mp hrest with ⟨next, hnext, hmap⟩
    rcases Option.map_eq_some_iff.mp hmap with ⟨stop, hstop, rfl⟩
    rcases Checked.mul_eq_some_iff.mp hstart with ⟨hfirst, rfl⟩
    rcases Checked.add_eq_some_iff.mp hnext with ⟨_, rfl⟩
    rcases Checked.mul_eq_some_iff.mp hstop with ⟨hlast, rfl⟩
    exact ⟨hfirst, hlast, rfl⟩
  · rintro ⟨hfirst, hlast, rfl⟩
    rw [Checked.mul_of_lt hfirst, Option.bind_some, Checked.add_of_lt (by omega), Option.bind_some,
      Checked.mul_of_lt hlast, Option.map_some]

end Entry

/-! ## One disk -/

section Disk

variable {disk : Disk V}

theorem espExtent_eq (disk : Disk V) : espExtent disk =
    (espOf disk).map (fun p => (p.firstLba * lbSize, (p.lastLba + 1) * lbSize)) := by
  unfold espExtent espOf
  rcases disk.gpt with _ | table
  · rfl
  · rfl

/-- The ESP is one of the partitions. -/
theorem WellPlaced.sized_esp (h : WellPlaced disk) {p : GptPartition} (hp : espOf disk = some p) :
    Sized p := by
  rcases Option.bind_eq_some_iff.mp hp with ⟨table, htable, hfind⟩
  rcases List.mem_map.mp (List.mem_of_find?_eq_some hfind) with ⟨x, hx, rfl⟩
  exact h.sized table htable x hx

theorem partitionTableChecked_eq
    (h : ∀ table, disk.gpt = some table → ∀ x ∈ table.partitions, Sized x.2) :
    partitionTableChecked disk = some (partitionTable disk) := by
  unfold partitionTableChecked partitionTable
  rcases hgpt : disk.gpt with _ | table
  · rfl
  · have hall : table.partitions.mapM partitionChecked =
        some (table.partitions.map (fun x =>
          { index := x.1
            name := x.2.name
            guid := x.2.partGuid.text
            typeGuid := x.2.partTypeGuid.text
            firstLba := x.2.firstLba
            lastLba := x.2.lastLba
            sizeBytes := (x.2.lastLba + 1 - x.2.firstLba) * lbSize })) := by
      refine Checked.mapM_eq_some_map fun x hx => ?_
      have hs := h table hgpt x hx
      unfold partitionChecked
      rw [sizeChecked_eq_some_iff.mpr ⟨hs, rfl⟩, Option.map_some, hs.sizeBytes]
    simp only [hall, Option.map_some]

/-- A table that is reported has only partitions that can be counted. -/
theorem sized_of_partitionTableChecked {t : Option Table}
    (h : partitionTableChecked disk = some t) :
    ∀ table, disk.gpt = some table → ∀ x ∈ table.partitions, Sized x.2 := by
  intro table hgpt x hx
  unfold partitionTableChecked at h
  rw [hgpt] at h
  rcases Option.map_eq_some_iff.mp h with ⟨ps, hps, _⟩
  rcases Checked.eq_some_of_mapM hps x hx with ⟨q, hq⟩
  rcases Option.map_eq_some_iff.mp hq with ⟨n, hn, _⟩
  exact (sizeChecked_eq_some_iff.mp hn).1

/-- The range of the ESP, in whole bytes. -/
def bytesOf (p : GptPartition) : Nat × Nat :=
  (p.firstLba.toNat * 512, (p.lastLba.toNat + 1) * 512)

theorem espExtentChecked_eq (h : WellPlaced disk) :
    espExtentChecked disk = some ((espOf disk).map bytesOf) := by
  unfold espExtentChecked
  rcases hp : espOf disk with _ | p
  · rfl
  · have hs := h.sized_esp hp
    have hlast := h.esp p hp
    have hfirst : p.firstLba.toNat * 512 < 2 ^ 64 :=
      (Nat.mul_le_mul_right 512 hs.ordered).trans_lt hlast
    simp only [rangeChecked_eq_some_iff.mpr ⟨hfirst, hlast, rfl⟩]
    rfl

theorem esp_of_espExtentChecked {ext : Option (Nat × Nat)} (h : espExtentChecked disk = some ext) :
    ∀ p, espOf disk = some p → (p.lastLba.toNat + 1) * 512 < 2 ^ 64 := by
  intro p hp
  unfold espExtentChecked at h
  rw [hp] at h
  rcases Option.map_eq_some_iff.mp h with ⟨r, hr, _⟩
  exact (rangeChecked_eq_some_iff.mp hr).2.1

/-- On a disk that is well placed the offsets are the ones of the model, and
    in order. -/
theorem WellPlaced.offsets (h : WellPlaced disk) {p : GptPartition} (hp : espOf disk = some p) :
    (bytesOf p).1 ≤ (bytesOf p).2 ∧ UInt64.ofNat (bytesOf p).1 = p.firstLba * lbSize ∧
      UInt64.ofNat (bytesOf p).2 = (p.lastLba + 1) * lbSize := by
  have hs := h.sized_esp hp
  have hlast := h.esp p hp
  have hlb : lbSize.toNat = 512 := rfl
  have hle : p.firstLba.toNat * 512 ≤ (p.lastLba.toNat + 1) * 512 :=
    Nat.mul_le_mul_right 512 hs.ordered
  have hfirst : p.firstLba.toNat * 512 < 2 ^ 64 := hle.trans_lt hlast
  refine ⟨hle, UInt64.toNat_inj.mp ?_, UInt64.toNat_inj.mp ?_⟩
  · rw [bytesOf, UInt64.toNat_ofNat_of_lt' hfirst, UInt64.toNat_mul, hlb,
      Nat.mod_eq_of_lt hfirst]
  · rw [bytesOf, UInt64.toNat_ofNat_of_lt' hlast, UInt64.toNat_mul, UInt64.toNat_add,
      UInt64.toNat_one, hlb, Nat.mod_eq_of_lt hs.stop, Nat.mod_eq_of_lt hlast]

theorem readChecked_eq (F : Volume.Ops V N) (h : WellPlaced disk) :
    Esp.readChecked F disk = some (Esp.read F disk) := by
  unfold Esp.readChecked Esp.read
  rw [espExtentChecked_eq h, espExtent_eq]
  rcases hp : espOf disk with _ | p
  · rfl
  · rcases h.offsets hp with ⟨hle, hstart, hstop⟩
    simp only [Option.map_some, Option.bind_some]
    rcases disk.openRead with e | ⟨⟩
    · rfl
    · rcases hm : disk.mount (p.firstLba * lbSize) ((p.lastLba + 1) * lbSize) with e | vol
      · simp only [sliceChecked, Checked.sub_of_le hle, Option.map_some, hstart, hstop, hm]
      · simp only [sliceChecked, Checked.sub_of_le hle, Option.map_some, hstart, hstop, hm]

theorem writeClaimChecked_eq (F : Volume.Ops V N) (drive : String) (c : Claim)
    (h : WellPlaced disk) :
    writeClaimChecked F drive disk c = some (writeClaim F drive disk c) := by
  unfold writeClaimChecked writeClaim
  rw [espExtentChecked_eq h, espExtent_eq]
  rcases hp : espOf disk with _ | p
  · rfl
  · rcases h.offsets hp with ⟨hle, hstart, hstop⟩
    simp only [Option.map_some, Option.bind_some]
    rcases disk.openWrite with e | ⟨⟩
    · rfl
    · rcases hm : disk.mount (p.firstLba * lbSize) ((p.lastLba + 1) * lbSize) with e | vol
      · simp only [sliceChecked, Checked.sub_of_le hle, Option.map_some, hstart, hstop, hm]
      · simp only [sliceChecked, Checked.sub_of_le hle, Option.map_some, hstart, hstop, hm]

end Disk

/-! ## The drives -/

section Drives

variable (F : Volume.Ops V N) {os : Os V} {m : Machine} (me : Option String) {name : String}

theorem lookAtChecked_eq (h : WellPlaced (os.node (pathJoin m.dev name)).disk) :
    lookAtChecked F os m me name = some (lookAt F os m me name) := by
  unfold lookAtChecked
  simp only
  rw [readChecked_eq F h, partitionTableChecked_eq h.sized, Option.bind_some, Option.map_some]
  rfl

/-- No report of the table, and nothing is said of the drive. -/
theorem lookAtChecked_eq_none
    (h : partitionTableChecked (os.node (pathJoin m.dev name)).disk = none) :
    lookAtChecked F os m me name = none := by
  unfold lookAtChecked
  simp only [h, Option.map_none]
  rcases Esp.readChecked F (os.node (pathJoin m.dev name)).disk with _ | read
  · rfl
  · rfl

theorem wellPlaced_of_lookAtChecked {d : Drive} (h : lookAtChecked F os m me name = some d) :
    WellPlaced (os.node (pathJoin m.dev name)).disk := by
  unfold lookAtChecked at h
  rcases Option.bind_eq_some_iff.mp h with ⟨read, hread, hrest⟩
  rcases Option.map_eq_some_iff.mp hrest with ⟨t, ht, _⟩
  rcases Option.bind_eq_some_iff.mp hread with ⟨ext, hext, _⟩
  exact ⟨sized_of_partitionTableChecked ht, esp_of_espExtentChecked hext⟩

end Drives

/-- The survey gets over a drive, and a claim onto it, exactly when all of its
    partitions can be counted and its ESP ends where an offset can reach. -/
theorem geometry_safe_iff (F : Volume.Ops V N) :
    (∀ disk : Disk V,
      ((∃ t, partitionTableChecked disk = some t) ∧
        ∃ ext, espExtentChecked disk = some ext ∧
          ∀ start stop, ext = some (start, stop) → start ≤ stop) ↔ WellPlaced disk) ∧
    (∀ (os : Os V) (m : Machine) (entries : List (Option FileName)),
      os.readDir (pathJoin m.sysfs "block") = .ok entries →
        (surveyChecked F os m = some (survey F os m) ↔
          ∀ name ∈ driveNames m entries, WellPlaced (os.node (pathJoin m.dev name)).disk)) ∧
    ∀ (drive : String) (disk : Disk V) (claim : Claim), WellPlaced disk →
      writeClaimChecked F drive disk claim = some (writeClaim F drive disk claim) := by
  refine ⟨fun disk => ⟨?_, fun h => ?_⟩, fun os m entries hread => ⟨fun h => ?_, fun h => ?_⟩,
    fun drive disk claim h => writeClaimChecked_eq F drive claim h⟩
  · rintro ⟨⟨t, ht⟩, ext, hext, _⟩
    exact ⟨sized_of_partitionTableChecked ht, esp_of_espExtentChecked hext⟩
  · refine ⟨⟨_, partitionTableChecked_eq h.sized⟩, _, espExtentChecked_eq h, ?_⟩
    intro start stop hr
    rcases Option.map_eq_some_iff.mp hr with ⟨p, hp, hbytes⟩
    have hle := (h.offsets hp).1
    rw [hbytes] at hle
    exact hle
  · intro name hname
    unfold surveyChecked at h
    rw [hread] at h
    rcases Option.map_eq_some_iff.mp h with ⟨drives, hdrives, _⟩
    rcases Checked.eq_some_of_mapM hdrives name hname with ⟨d, hd⟩
    exact wellPlaced_of_lookAtChecked F _ hd
  · unfold surveyChecked survey
    rw [hread]
    simp only [Checked.mapM_eq_some_map fun name hname => lookAtChecked_eq F _ (h name hname),
      Option.map_some]

/-- An ESP with a mebibyte of room, on a machine with that drive. -/
theorem formatted_wellPlaced (vol : V) : WellPlaced (Bench.formatted vol) where
  sized := by
    intro table htable x hx
    rw [← Option.some.inj htable] at hx
    simp only [Bench.table, List.mem_cons, List.not_mem_nil, or_false] at hx
    rcases hx with rfl | rfl
    · exact ⟨by decide, by decide, by decide⟩
    · exact ⟨by decide, by decide, by decide⟩
  esp := by
    intro p hp
    rw [← Option.some.inj hp]
    decide

theorem geometry_safe_iff_formatted : ∃ s,
    surveyChecked Volume.memory (Bench.slabbed [Bench.sda1, Bench.sda2]
        (Bench.formatted (Bench.espVolume "root=/dev/ublkb0" none)) Bench.systemSecond).os
      (Bench.machine none) = some (.ok s) := by
  have hiff := (geometry_safe_iff Volume.memory).2.1 _ _ _ (Bench.readDir_block
    (Bench.slabbed [Bench.sda1, Bench.sda2]
      (Bench.formatted (Bench.espVolume "root=/dev/ublkb0" none)) Bench.systemSecond) none)
  have hall := hiff.mpr fun name _ => formatted_wellPlaced _
  rw [Bench.survey_eq] at hall
  exact ⟨_, hall⟩

/-- A table whose one entry, an ESP, starts behind its end. -/
def crossed : Disk V where
  gpt := some
    { guid := ⟨0x9a1c7f6e000040008000000000000010⟩
      partitions :=
        [ (1, { name := "esp", partGuid := ⟨0x9a1c7f6e000040008000000000000011⟩,
                partTypeGuid := efiType, firstLba := 2048, lastLba := 34 }) ] }
  openRead := .ok ()
  openWrite := .ok ()
  mount _ _ := .error "no filesystem"

/-- One such drive in a machine, and there is no survey. Where the arithmetic
    wraps instead, the partition is nearly as large as 64 bits allow, and a
    slice is asked for that ends before it starts. -/
theorem crossed_stops_survey :
    surveyChecked Volume.memory (Bench.slabbed [] (crossed (V := Volume.Memory))
      Bench.systemSecond).os (Bench.machine none) = none ∧
    partitionTableChecked (crossed (V := Volume.Memory)) = none ∧
    espExtentChecked (crossed (V := Volume.Memory)) = some (some (1048576, 17920)) ∧
    (partitionTable (crossed (V := Volume.Memory))).map (fun t =>
      t.partitions.map Partition.sizeBytes) = some [18446744073708520960] := by
  have htable : partitionTableChecked (crossed (V := Volume.Memory)) = none := by decide
  refine ⟨?_, htable, by decide, by decide⟩
  unfold surveyChecked
  rw [Bench.readDir_block]
  simp only [Bench.driveNames_sda, List.mapM_cons]
  rw [lookAtChecked_eq_none _ _ htable]
  rfl

end Zeroboot
