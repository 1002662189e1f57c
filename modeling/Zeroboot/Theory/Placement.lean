import Zeroboot.Lib.Fitting
import Zeroboot.Theory.Image

/-!
# The Image, Laid Out to the Block

Where the parts of an image lie, for a `gpt` that takes the lowest place.

`build` counts in bytes, `gpt` in blocks, the reader adds one to the last
block, and the alignment is a MiB for all of them. The requests are whole MiB,
so with the lowest place for each the ESP starts at the first MiB, the slab
right behind it, and the MiB kept at the end is what is left over. Rounding the
slab up to a MiB is the only rounding there is.

## Main definitions

* `GptOps.places`, `GptOps.FirstFit`: A `gpt` that takes the lowest place.
* `imageLen`: The length of an image, as a number.
* `Exact`: The two partitions, to the block.
* `firstFit`: Such a table, in memory.

## Theorems

* `places_behind`: The place for a request behind what is there.
* `Requested.exact`: Where the partitions of a build are.
* `image_layout_exact`: The layout of an image, and that no write meets another.
* `firstFit_lawful`, `firstFit_firstFit`: The table in memory is one.
-/

namespace Zeroboot

open Run Layout

variable {V N G : Type} {F : Volume.Ops V N} {O : GptOps G}

/-! ## The lowest place -/

/-- The blocks of a partition. -/
def GptPartition.blocks (p : GptPartition) : Span :=
  ⟨p.firstLba.toNat, p.lastLba.toNat + 1⟩

/-- The blocks a partition of `size` bytes may start at: on the alignment,
    behind the table and before its copy, and apart from the partitions there
    are. -/
def GptOps.places (O : GptOps G) (g : G) (size align : UInt64) : Set Nat :=
  {a | Fits align.toNat 34 ((O.lastUsable g).toNat + 1)
    ((O.partitions g).map (fun x => x.2.blocks)) ((size.toNat + 511) / 512) a}

/-- A partition is put at the lowest place there is, and if there is one, it is
    taken, at least by a table with no more than one partition. -/
structure GptOps.FirstFit (O : GptOps G) : Prop where
  lowest : ∀ {g name size type flags align g' id p},
    O.addPartition g name size type flags (some align) = .ok (g', id) →
      (id, p) ∈ O.partitions g' → IsLeast (O.places g size align) p.firstLba.toNat
  takes : ∀ {g size align a} (name : String) (type : Uuid) (flags : UInt64), 0 < size.toNat →
    (∀ x ∈ O.partitions g, ∀ y ∈ O.partitions g, x = y) → a ∈ O.places g size align →
      ∃ g' id, O.addPartition g name size type flags (some align) = .ok (g', id)

theorem toNat_alignLba : alignLba.toNat = 2048 :=
  rfl

/-- The lowest place for whole MiB, behind others that lie back to back from
    the first MiB on. -/
theorem places_behind {g : G} {size : UInt64} {n : Nat} (ns : List Nat)
    (hused : ∀ s, s ∈ (O.partitions g).map (fun x => x.2.blocks) ↔ s ∈ stack 2048 ns)
    (hunit : ∀ m ∈ ns, 2048 ∣ m) (hsize : size.toNat = n * 1048576) (hn : 0 < n)
    (hroom : 2048 + ns.sum + n * 2048 ≤ (O.lastUsable g).toNat + 1) :
    IsLeast (O.places g size alignLba) (2048 + ns.sum) := by
  have hblocks : (size.toNat + 511) / 512 = n * 2048 := by omega
  unfold GptOps.places
  rw [hblocks, toNat_alignLba]
  exact isLeast_fits_stack hused (Nat.dvd_refl 2048) (by decide) (by decide) hunit (by omega) hroom

/-! ## The sizes -/

/-- How many MiB the slab takes. -/
def slabMib (slabBytes : Nat) : Nat :=
  (slabBytes + 1048575) / 1048576

/-- The length of an image: a MiB, the ESP, the slab rounded up, and a MiB. -/
def imageLen (espMib slabBytes : Nat) : Nat :=
  1048576 + espMib * 1048576 + slabMib slabBytes * 1048576 + 1048576

section Sizes

variable {spec : BootImageSpec} {slabBytes : UInt64}

theorem toNat_espBytes (h : imageLen spec.espMib.toNat slabBytes.toNat < 2 ^ 63) :
    (spec.espMib * mib).toNat = spec.espMib.toNat * 1048576 := by
  unfold imageLen at h
  rw [UInt64.toNat_mul, toNat_mib, Nat.mod_eq_of_lt (by omega)]

theorem toNat_slabAligned (h : imageLen spec.espMib.toNat slabBytes.toNat < 2 ^ 63) :
    (divCeil slabBytes mib * mib).toNat = slabMib slabBytes.toNat * 1048576 := by
  unfold imageLen slabMib at h
  rw [UInt64.toNat_mul, toNat_divCeil, toNat_mib, Nat.mod_eq_of_lt (by omega)]
  rfl

theorem toNat_imageBytes (h : imageLen spec.espMib.toNat slabBytes.toNat < 2 ^ 63) :
    (imageBytes spec slabBytes).toNat = imageLen spec.espMib.toNat slabBytes.toNat := by
  have hesp := toNat_espBytes h
  have hslab := toNat_slabAligned h
  have hreserve : reserve.toNat = 1048576 := rfl
  unfold imageLen at h ⊢
  unfold imageBytes
  rw [UInt64.toNat_add, UInt64.toNat_add, UInt64.toNat_add, hesp, hslab, hreserve]
  omega

end Sizes

/-! ## To the block -/

/-- The two partitions, to the block: a MiB, the ESP, and the slab behind it. -/
structure Exact (esp slab : GptPartition) (espMib slabMib : Nat) : Prop where
  espFirst : esp.firstLba.toNat = 2048
  espLast : esp.lastLba.toNat + 1 = 2048 + espMib * 2048
  slabFirst : slab.firstLba.toNat = 2048 + espMib * 2048
  slabLast : slab.lastLba.toNat + 1 = 2048 + espMib * 2048 + slabMib * 2048

section Exact

variable {spec : BootImageSpec} {slabBytes : UInt64} {g g' g'' : G} {espId slabId : Nat}
  {esp slab : GptPartition} {table : GptDisk}

/-- The lowest place for the ESP is the first MiB. -/
theorem places_esp (hO : O.Lawful) (hesp : 64 ≤ spec.espMib.toNat)
    (hroom : imageLen spec.espMib.toNat slabBytes.toNat < 2 ^ 63)
    (hcreate : O.create (imageBytes spec slabBytes) = .ok g) :
    IsLeast (O.places g (spec.espMib * mib) alignLba) 2048 := by
  have husable := hO.create_lastUsable hcreate
  rw [toNat_imageBytes hroom] at husable
  have hsize := toNat_espBytes hroom
  unfold imageLen at husable hroom
  refine places_behind [] ?_ (fun m hm => absurd hm List.not_mem_nil) hsize (by omega)
    (by rw [List.sum_nil]; omega)
  intro s
  rw [hO.create_partitions hcreate]
  exact Iff.rfl

/-- A partition that was added to an empty table at the first MiB. -/
theorem esp_of_added (hroom : imageLen spec.espMib.toNat slabBytes.toNat < 2 ^ 63)
    (h : O.Added g g' espId esp (spec.espMib * mib)) (hfirst : esp.firstLba.toNat = 2048) :
    esp.lastLba.toNat + 1 = 2048 + spec.espMib.toNat * 2048 := by
  have hblocks := h.blocks
  rw [toNat_espBytes hroom] at hblocks
  omega

/-- The lowest place for the slab is right behind the ESP. -/
theorem places_slab (hO : O.Lawful) (hpos : 1 ≤ slabBytes.toNat)
    (hroom : imageLen spec.espMib.toNat slabBytes.toNat < 2 ^ 63)
    (hcreate : O.create (imageBytes spec slabBytes) = .ok g)
    (h : O.Added g g' espId esp (spec.espMib * mib)) (hfirst : esp.firstLba.toNat = 2048) :
    IsLeast (O.places g' (divCeil slabBytes mib * mib) alignLba)
      (2048 + spec.espMib.toNat * 2048) := by
  have husable := hO.create_lastUsable hcreate
  rw [toNat_imageBytes hroom, ← h.lastUsable] at husable
  have hsize := toNat_slabAligned hroom
  have hlast := esp_of_added hroom h hfirst
  have hsum : [spec.espMib.toNat * 2048].sum = spec.espMib.toNat * 2048 := List.sum_singleton
  rw [← hsum]
  unfold imageLen slabMib at husable
  refine places_behind [spec.espMib.toNat * 2048] ?_ ?_ hsize (by unfold slabMib; omega)
    (by rw [hsum]; unfold slabMib; omega)
  · -- The ESP is all there is.
    intro s
    unfold stack stack
    rw [List.mem_map, List.mem_singleton, ← hlast, ← hfirst]
    constructor
    · rintro ⟨x, hx, rfl⟩
      rw [h.partitions, hO.create_partitions hcreate] at hx
      rcases hx with rfl | hx
      · rfl
      · exact absurd hx List.not_mem_nil
    · intro hs
      exact ⟨(espId, esp), (h.partitions _).mpr (Or.inl rfl), hs.symm⟩
  · intro m hm
    rw [List.mem_singleton.mp hm]
    exact Nat.dvd_mul_left 2048 _

/-- Where the partitions of a build are. -/
theorem Requested.exact (hO : O.Lawful) (hfirst : O.FirstFit) (hesp : 64 ≤ spec.espMib.toNat)
    (hpos : 1 ≤ slabBytes.toNat) (hroom : imageLen spec.espMib.toNat slabBytes.toNat < 2 ^ 63)
    (h : Requested O (spec.espMib * mib) (divCeil slabBytes mib * mib)
      (imageBytes spec slabBytes) g g' g'' espId slabId esp slab table) :
    Exact esp slab spec.espMib.toNat (slabMib slabBytes.toNat) := by
  rcases h.added hO with ⟨⟨-, hadd⟩, -, hadd'⟩
  have hespFirst : esp.firstLba.toNat = 2048 :=
    (hfirst.lowest h.addEsp ((hadd.partitions _).mpr (Or.inl rfl))).unique
      (places_esp hO hesp hroom h.create)
  have hslabFirst : slab.firstLba.toNat = 2048 + spec.espMib.toNat * 2048 :=
    (hfirst.lowest h.addSlab ((hadd'.partitions _).mpr (Or.inl rfl))).unique
      (places_slab hO hpos hroom h.create hadd hespFirst)
  exact
    { espFirst := hespFirst
      espLast := esp_of_added hroom hadd hespFirst
      slabFirst := hslabFirst
      slabLast := by
        have hblocks := hadd'.blocks
        rw [toNat_slabAligned hroom] at hblocks
        omega }

/-- There is a place for both partitions. -/
theorem requests_fit (hO : O.Lawful) (hfirst : O.FirstFit) (hesp : 64 ≤ spec.espMib.toNat)
    (hpos : 1 ≤ slabBytes.toNat) (hroom : imageLen spec.espMib.toNat slabBytes.toNat < 2 ^ 63)
    (hcreate : O.create (imageBytes spec slabBytes) = .ok g) :
    ∃ g' g'' espId slabId,
      O.addPartition g "ESP" (spec.espMib * mib) efiType 0 (some alignLba) = .ok (g', espId) ∧
      O.addPartition g' "stormblock" (divCeil slabBytes mib * mib) linuxFsType 0
        (some alignLba) = .ok (g'', slabId) := by
  have hnil := hO.create_partitions hcreate
  have hleast := places_esp hO hesp hroom hcreate
  have hespSize : 0 < (spec.espMib * mib).toNat := by
    rw [toNat_espBytes hroom]
    omega
  have hslabSize : 0 < (divCeil slabBytes mib * mib).toNat := by
    rw [toNat_slabAligned hroom]
    unfold slabMib
    omega
  rcases hfirst.takes "ESP" efiType 0 hespSize
    (fun x hx => absurd hx (hnil ▸ List.not_mem_nil)) hleast.1 with ⟨g', espId, hadd⟩
  rcases hO.addPartition hadd with ⟨p, -, -, hp⟩
  have hmem : ∀ x, x ∈ O.partitions g' ↔ x = (espId, p) := by
    intro x
    rw [hp.partitions, hnil, List.mem_nil_iff, or_false]
  have hespFirst : p.firstLba.toNat = 2048 :=
    (hfirst.lowest hadd ((hmem _).mpr rfl)).unique hleast
  rcases hfirst.takes "stormblock" linuxFsType 0 hslabSize
    (fun x hx y hy => ((hmem x).mp hx).trans ((hmem y).mp hy).symm)
    (places_slab hO hpos hroom hcreate hp hespFirst).1 with ⟨g'', slabId, hadd'⟩
  exact ⟨g', g'', espId, slabId, hadd, hadd'⟩

end Exact

/-! ## The layout -/

/-- With a `gpt` that takes the lowest place, every image whose length can be
    counted is laid out to the block. Both partitions are granted. In a
    finished image they are on the alignment, the ESP before the slab and both
    between the copies of the table; the range that was formatted is the one
    read back from the table; the slab is inside its partition. No two writes
    meet, in a finished image, and in one left behind by a build that stopped
    unless the slab file grew while it was copied. -/
theorem image_layout_exact {F : Volume.Ops V N} {O : GptOps G} (hO : O.Lawful)
    (hfirst : O.FirstFit) {host : Host} {spec : BootImageSpec} {slabBytes : UInt64}
    (hslab : host.slabLen = .ok slabBytes) (hesp : 64 ≤ spec.espMib.toNat)
    (hpos : 1 ≤ slabBytes.toNat) (hroom : imageLen spec.espMib.toNat slabBytes.toNat < 2 ^ 63) :
    (∀ g, O.create (imageBytes spec slabBytes) = .ok g →
      ∃ g' g'' espId slabId,
        O.addPartition g "ESP" (spec.espMib * mib) efiType 0 (some alignLba) = .ok (g', espId) ∧
        O.addPartition g' "stormblock" (divCeil slabBytes mib * mib) linuxFsType 0
          (some alignLba) = .ok (g'', slabId)) ∧
    (∀ out report, Ends (build F O host spec) none out report →
      ∃ img table esp slab lastLba vol payload, out = some img ∧
        Built F host spec img table esp slab slabBytes lastLba vol payload ∧
        img.len.toNat = imageLen spec.espMib.toNat slabBytes.toNat ∧
        Exact esp slab spec.espMib.toNat (slabMib slabBytes.toNat) ∧
        2048 ∣ esp.firstLba.toNat ∧ 2048 ∣ slab.firstLba.toNat ∧
        33 < esp.firstLba.toNat ∧ esp.lastLba.toNat < slab.firstLba.toNat ∧
        slab.lastLba.toNat + 33 < img.len.toNat / 512 ∧
        (∀ R, espExtent (img.disk R) =
          some (esp.firstLba * lbSize, esp.firstLba * lbSize + spec.espMib * mib)) ∧
        (slab.firstLba * lbSize).toNat = slab.firstLba.toNat * 512 ∧
        (slab.firstLba * lbSize).toNat + payload.length ≤ (slab.lastLba.toNat + 1) * 512 ∧
        img.Clean) ∧
    ∀ img e, build F O host spec none = (some img, .error e) → host.Steady spec → img.Clean := by
  refine ⟨fun g hcreate => requests_fit hO hfirst hesp hpos hroom hcreate, ?_, ?_⟩
  · intro out report hends
    rcases (build_leaves hO).ends hends with ⟨img, table, esp, slab, slabBytes', lastLba, vol,
      payload, himg, hlen, hbuilt, ⟨g, g', g'', espId, slabId, hreq⟩, _⟩
    have hsame : slabBytes' = slabBytes := Except.ok.inj (hlen.symm.trans hslab)
    rw [hsame] at hbuilt hreq
    have hexact := hreq.exact hO hfirst hesp hpos hroom
    have htotal : img.len.toNat = imageLen spec.espMib.toNat slabBytes.toNat := by
      rw [hbuilt.len, toNat_imageBytes hroom]
    have hespFirst := hexact.espFirst
    have hespLast := hexact.espLast
    have hslabFirst := hexact.slabFirst
    have hslabLast := hexact.slabLast
    refine ⟨img, table, esp, slab, lastLba, vol, payload, himg, hbuilt, htotal, hexact, ?_, ?_,
      by omega, by omega, ?_, hbuilt.espWritten.espExtent_eq, hbuilt.payload_within.1,
      hbuilt.payload_within.2, hbuilt.clean⟩
    · rw [hespFirst]
    · rw [hslabFirst]
      omega
    · -- The MiB behind the slab holds the copy of the table.
      rw [htotal]
      unfold imageLen
      omega
  · intro img e hbuild hsteady
    rcases (build_leaves hO).stops hbuild with hnone | hclean
    · exact absurd hnone (by simp only [reduceCtorEq, not_false_eq_true])
    · exact hclean hsteady img rfl

/-! ## A table that takes the lowest place -/

/-- A partition of so many bytes at block `a`. -/
def partitionAt (name : String) (type : Uuid) (size : UInt64) (a : Nat) : GptPartition where
  name := name
  partGuid := ⟨0⟩
  partTypeGuid := type
  firstLba := UInt64.ofNat a
  lastLba := UInt64.ofNat (a + (size.toNat + 511) / 512 - 1)

/-- What ends at a block that can be counted does not wrap. -/
theorem toNat_partitionAt (name : String) (type : Uuid) {size : UInt64} {a : Nat}
    (hsize : 0 < size.toNat) (h : a + (size.toNat + 511) / 512 ≤ 2 ^ 64) :
    (partitionAt name type size a).firstLba.toNat = a ∧
      (partitionAt name type size a).lastLba.toNat + 1 = a + (size.toNat + 511) / 512 := by
  unfold partitionAt
  simp only
  rw [UInt64.toNat_ofNat', UInt64.toNat_ofNat', Nat.mod_eq_of_lt (by omega),
    Nat.mod_eq_of_lt (by omega)]
  omega

/-- The table in memory, with each partition at the lowest place. -/
def firstFit : GptOps PlainTable where
  create := plain.create
  addPartition g name size type _ align :=
    match search (align.getD 1).toNat 34 (g.lastUsable.toNat + 1)
        (g.parts.map (fun x => x.2.blocks)) ((size.toNat + 511) / 512) with
    | some a =>
        if 0 < size.toNat then
          .ok ({ g with parts := g.parts ++ [(g.nextId, partitionAt name type size a)] }, g.nextId)
        else .error "no size"
    | none => .error "not enough space"
  partitions := PlainTable.parts
  lastUsable := PlainTable.lastUsable
  write := plain.write

/-- What is added is at the place that was found. -/
theorem firstFit_added {g g' : PlainTable} {name : String} {type : Uuid} {size flags : UInt64}
    {align : Option UInt64} {id : Nat}
    (h : firstFit.addPartition g name size type flags align = .ok (g', id)) :
    ∃ p, p.name = name ∧ p.partTypeGuid = type ∧
      IsLeast {a | Fits (align.getD 1).toNat 34 (g.lastUsable.toNat + 1)
        (g.parts.map (fun x => x.2.blocks)) ((size.toNat + 511) / 512) a} p.firstLba.toNat ∧
      firstFit.Added g g' id p size := by
  simp only [firstFit] at h
  rcases hs : search (align.getD 1).toNat 34 (g.lastUsable.toNat + 1)
    (g.parts.map (fun x => x.2.blocks)) ((size.toNat + 511) / 512) with _ | a
  · rw [hs] at h
    exact absurd h (by simp only [reduceCtorEq, not_false_eq_true])
  rw [hs] at h
  simp only at h
  by_cases hsize : 0 < size.toNat
  · rw [if_pos hsize] at h
    rcases Prod.mk.inj (Except.ok.inj h) with ⟨rfl, rfl⟩
    have hleast := search_eq_some_iff.mp hs
    have habove := hleast.1.above
    have hbelow := hleast.1.below
    have husable := g.lastUsable.toNat_lt
    rcases toNat_partitionAt name type hsize (a := a) (by omega) with ⟨hfirst, hlast⟩
    refine ⟨partitionAt name type size a, rfl, rfl, hfirst.symm ▸ hleast,
      PlainTable.added rfl rfl hsize (by omega) (by omega) (by omega) ?_⟩
    intro x hx
    rcases hleast.1.apart _ (List.mem_map_of_mem hx) with hbefore | hbehind
    · unfold GptPartition.blocks at hbefore
      simp only at hbefore
      omega
    · unfold GptPartition.blocks at hbehind
      simp only at hbehind
      omega
  · rw [if_neg hsize] at h
    exact absurd h (by simp only [reduceCtorEq, not_false_eq_true])

theorem firstFit_lawful : firstFit.Lawful where
  create_partitions := plain_lawful.create_partitions
  create_lastUsable := plain_lawful.create_lastUsable
  addPartition := by
    intro g name size type flags align g' id h
    rcases firstFit_added h with ⟨p, hname, htype, _, hadded⟩
    exact ⟨p, hname, htype, hadded⟩
  write := plain_lawful.write

theorem firstFit_firstFit : firstFit.FirstFit where
  lowest := by
    intro g name size type flags align g' id p h hp
    rcases firstFit_added h with ⟨q, _, _, hleast, hadded⟩
    -- The index is a new one, so this is the partition that was added.
    rcases (hadded.partitions _).mp hp with heq | hold
    · rw [(Prod.mk.inj heq).2]
      exact hleast
    · exact absurd hold (hadded.fresh p)
  takes := by
    intro g size align a name type flags hsize _ ha
    have hfits : Fits align.toNat 34 (g.lastUsable.toNat + 1)
        (g.parts.map (fun x => x.2.blocks)) ((size.toNat + 511) / 512) a := ha
    rcases exists_search_eq_some hfits with ⟨b, hb⟩
    simp only [firstFit, Option.getD_some, hb, if_pos hsize]
    exact ⟨_, _, rfl⟩

/-- An image with an ESP of 64 MiB and a slab of one byte. -/
theorem image_layout_exact_byte : ∃ out report img,
    Ends (build Volume.memory firstFit (kernelHost (.whole [0x6b] (by decide))) diskSpec) none out
        report ∧
      out = some img ∧ img.len.toNat = 67 * 1048576 ∧ img.Clean ∧
      ∀ R, espExtent (img.disk R) = some (1048576, 65 * 1048576) := by
  have hends : (build Volume.memory firstFit (kernelHost (.whole [0x6b] (by decide))) diskSpec
      none).2.toBool = true := by
    decide +kernel
  rcases ends_of_toBool hends with ⟨out, report, hbuild⟩
  have hslab : (kernelHost (.whole [0x6b] (by decide))).slabLen = .ok 1 := rfl
  have hesp : 64 ≤ diskSpec.espMib.toNat := by decide
  have hlayout := image_layout_exact (F := Volume.memory) firstFit_lawful firstFit_firstFit hslab
    hesp (by decide) (by decide)
  rcases hlayout.2.1 out report hbuild with ⟨img, table, esp, slab, lastLba, vol, payload, himg,
    -, hlen, hexact, -, -, -, -, -, hextent, -, -, hclean⟩
  have hfirst : esp.firstLba = 2048 := UInt64.toNat_inj.mp hexact.espFirst
  refine ⟨out, report, img, hbuild, himg, hlen, hclean, fun R => ?_⟩
  rw [hextent R, hfirst]
  rfl

end Zeroboot
