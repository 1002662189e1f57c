import Zeroboot.Core.BootImage

/-!
# The Image, Written

What a build leaves behind, finished or not.

The table, the protective MBR, the ESP and the slab are written one after the
other into one file. The partitions lie between the two copies of the table and
apart from each other, and the slab is no longer than its partition, so nothing
that is written later covers anything written before. That is where the sizes
matter: both partitions are whole blocks, and a size in MiB stays whole blocks
even if it wraps.

A build that stops has made some of the writes. The last of them may be cut
short, and then it is as long as the slab file was, so that is where the length
the host gave has to be right.

## Main definitions

* `Placed`, `Laid`: The partitions of an image.
* `Requested`: The calls that put its table together.
* `Image.Clean`: No two writes into an image meet.
* `Built`: What a finished build wrote.
* `Created`: The build gets as far as creating the image.
* `Partial`, `Stopped`: How far a build that stopped got.
* `Unspoilt`: What it may leave.

## Theorems

* `Requested.laid`: The table of a build.
* `Laid.clean_mbr`, `Laid.clean_volume`, `Laid.clean_bytes`: The writes, one
  after the other.
* `build_stages`: A build, part by part.
* `build_leaves`: What a build leaves behind.
* `build_ends`: What a finished build wrote and reported.
-/

namespace Zeroboot

open Run Layout

variable {V N G : Type} {F : Volume.Ops V N} {O : GptOps G}

/-! ## Where the partitions lie -/

/-- A partition of so many bytes, between the two copies of the table. -/
structure Placed (p : GptPartition) (size total : UInt64) : Prop where
  size_pos : 0 < size.toNat
  blocks : p.lastLba.toNat + 1 = p.firstLba.toNat + (size.toNat + 511) / 512
  first : 34 ≤ p.firstLba.toNat
  last : p.lastLba.toNat + 34 ≤ total.toNat / 512

/-- A table with an ESP and a slab partition and no other. -/
structure Laid (table : GptDisk) (esp slab : GptPartition)
    (espBytes slabAligned total : UInt64) : Prop where
  espPlaced : Placed esp espBytes total
  slabPlaced : Placed slab slabAligned total
  apart : esp.lastLba.toNat < slab.firstLba.toNat ∨ slab.lastLba.toNat < esp.firstLba.toNat
  espType : esp.partTypeGuid = efiType
  slabType : slab.partTypeGuid = linuxFsType
  esp_mem : ∃ i, (i, esp) ∈ table.partitions
  only : ∀ x ∈ table.partitions, x.2 = esp ∨ x.2 = slab

theorem mapError_eq_ok_iff {α : Type} {f : String → String} {r : Except String α} {a : α} :
    r.mapError f = .ok a ↔ r = .ok a := by
  cases r with
  | error e =>
      unfold Except.mapError
      exact iff_of_false (by simp only [reduceCtorEq, not_false_eq_true])
        (by simp only [reduceCtorEq, not_false_eq_true])
  | ok b => exact Iff.rfl

theorem recorded_eq_ok_iff {what : String} {r : Option GptPartition} {p : GptPartition} :
    recorded what r = .ok p ↔ r = some p := by
  unfold recorded
  cases r with
  | none =>
      exact iff_of_false (by simp only [reduceCtorEq, not_false_eq_true])
        (by simp only [reduceCtorEq, not_false_eq_true])
  | some q => simp only [Except.ok.injEq, Option.some.injEq]

theorem mem_of_lookup {parts : List (Nat × GptPartition)} {id : Nat} {p : GptPartition}
    (h : parts.lookup id = some p) : (id, p) ∈ parts := by
  rcases List.lookup_eq_some_iff.mp h with ⟨before, behind, rfl, _⟩
  exact List.mem_append_right _ List.mem_cons_self

theorem GptOps.Added.placed {g g' : G} {id : Nat} {p : GptPartition} {size total : UInt64}
    (h : O.Added g g' id p size) (husable : (O.lastUsable g).toNat + 34 = total.toNat / 512) :
    Placed p size total where
  size_pos := h.size_pos
  blocks := h.blocks
  first := h.first
  last := by
    have hlast := h.last
    omega

/-- The calls that put a table together: both partitions are asked for in turn,
    and found again under the indices they were given. -/
structure Requested (O : GptOps G) (espBytes slabAligned total : UInt64) (g g' g'' : G)
    (espId slabId : Nat) (esp slab : GptPartition) (table : GptDisk) : Prop where
  create : O.create total = .ok g
  addEsp : O.addPartition g "ESP" espBytes efiType 0 (some alignLba) = .ok (g', espId)
  addSlab : O.addPartition g' "stormblock" slabAligned linuxFsType 0 (some alignLba) =
    .ok (g'', slabId)
  esp : (O.partitions g'').lookup espId = some esp
  slab : (O.partitions g'').lookup slabId = some slab
  write : O.write g'' = .ok table

section Requested

variable {espBytes slabAligned total : UInt64} {g g' g'' : G} {espId slabId : Nat}
  {esp slab : GptPartition} {table : GptDisk}

/-- What is found again is what was added. -/
theorem Requested.added (hO : O.Lawful)
    (h : Requested O espBytes slabAligned total g g' g'' espId slabId esp slab table) :
    (esp.partTypeGuid = efiType ∧ O.Added g g' espId esp espBytes) ∧
      slab.partTypeGuid = linuxFsType ∧ O.Added g' g'' slabId slab slabAligned := by
  rcases hO.addPartition h.addEsp with ⟨p, -, hp, hp1⟩
  rcases hO.addPartition h.addSlab with ⟨q, -, hq, hq1⟩
  have hnil := hO.create_partitions h.create
  -- After both calls the table holds the two partitions and no other.
  have hall : ∀ x, x ∈ O.partitions g'' ↔ x = (slabId, q) ∨ x = (espId, p) := by
    intro x
    rw [hq1.partitions, hp1.partitions, hnil, List.mem_nil_iff, or_false]
  -- The second index is a new one, so each lookup finds the partition that was
  -- added under it.
  have hne : espId ≠ slabId := fun heq =>
    hq1.fresh p (heq ▸ (hp1.partitions _).mpr (Or.inl rfl))
  have hespEq : esp = p := by
    rcases (hall _).mp (mem_of_lookup h.esp) with h | h
    · exact absurd (Prod.mk.inj h).1 hne
    · exact (Prod.mk.inj h).2
  have hslabEq : slab = q := by
    rcases (hall _).mp (mem_of_lookup h.slab) with h | h
    · exact (Prod.mk.inj h).2
    · exact absurd (Prod.mk.inj h).1.symm hne
  rw [hespEq, hslabEq]
  exact ⟨⟨hp, hp1⟩, hq, hq1⟩

/-- Both partitions are in the table, as they were asked for. -/
theorem Requested.laid (hO : O.Lawful)
    (h : Requested O espBytes slabAligned total g g' g'' espId slabId esp slab table) :
    Laid table esp slab espBytes slabAligned total := by
  rcases h.added hO with ⟨⟨hespType, hesp⟩, hslabType, hslab⟩
  have husable := hO.create_lastUsable h.create
  have hmem : ∀ x, x ∈ table.partitions ↔ x = (slabId, slab) ∨ x = (espId, esp) := by
    intro x
    rw [hO.write h.write, hslab.partitions, hesp.partitions, hO.create_partitions h.create,
      List.mem_nil_iff, or_false]
  exact
    { espPlaced := hesp.placed husable
      slabPlaced := hslab.placed (by rw [hesp.lastUsable, husable])
      apart := hslab.apart _ ((hesp.partitions _).mpr (Or.inl rfl))
      espType := hespType
      slabType := hslabType
      esp_mem := ⟨espId, (hmem _).mpr (Or.inr rfl)⟩
      only := by
        intro x hx
        rcases (hmem x).mp hx with rfl | rfl
        · exact Or.inr rfl
        · exact Or.inl rfl }

end Requested

/-- Putting the table together writes one piece, the table, as its last
    step. -/
theorem partitionImage_leaves {total espBytes slabAligned : UInt64} {img : Image V} :
    Leaves (partitionImage O total espBytes slabAligned) (some img)
      (fun out starts => ∃ table esp slab g g' g'' espId slabId,
        Requested O espBytes slabAligned total g g' g'' espId slabId esp slab table ∧
          starts = (esp.firstLba * lbSize, slab.firstLba * lbSize) ∧
          out = some (img.push (.table table)))
      (fun out => out = some img) := by
  unfold partitionImage
  refine leaves_bind_ofExcept rfl fun g hcreate => ?_
  refine leaves_bind_ofExcept rfl fun ⟨g', espId⟩ haddEsp => ?_
  refine leaves_bind_ofExcept rfl fun ⟨g'', slabId⟩ haddSlab => ?_
  refine leaves_bind_ofExcept rfl fun esp hesp => ?_
  refine leaves_bind_ofExcept rfl fun slab hslab => ?_
  refine leaves_bind_ofExcept rfl fun table hwrite => ?_
  refine leaves_bind_ends (t := some (img.push (.table table))) (a := ()) rfl (leaves_pure ?_)
  refine ⟨table, esp, slab, g, g', g'', espId, slabId, ?_, rfl, rfl⟩
  exact
    { create := mapError_eq_ok_iff.mp hcreate
      addEsp := mapError_eq_ok_iff.mp haddEsp
      addSlab := mapError_eq_ok_iff.mp haddSlab
      esp := recorded_eq_ok_iff.mp hesp
      slab := recorded_eq_ok_iff.mp hslab
      write := mapError_eq_ok_iff.mp hwrite }

/-! ## Where the bytes lie -/

/-- The length of the image. -/
def imageBytes (spec : BootImageSpec) (slabBytes : UInt64) : UInt64 :=
  reserve + spec.espMib * mib + divCeil slabBytes mib * mib + reserve

theorem toNat_lbSize : lbSize.toNat = 512 :=
  rfl

theorem toNat_mib : mib.toNat = 1048576 :=
  rfl

/-- A size in MiB is whole blocks, even if it wraps. -/
theorem blocks_of_mib (n : UInt64) : (n * mib).toNat % 512 = 0 := by
  rw [UInt64.toNat_mul, toNat_mib]
  omega

/-- A size rounded up to MiB. This does not wrap. -/
theorem toNat_divCeil (n : UInt64) : (divCeil n mib).toNat = (n.toNat + 1048575) / 1048576 := by
  have hlt := n.toNat_lt
  have hmod : (n % mib).toNat = n.toNat % 1048576 := by
    rw [UInt64.toNat_mod, toNat_mib]
  have hdiv : (n / mib).toNat = n.toNat / 1048576 := by
    rw [UInt64.toNat_div, toNat_mib]
  unfold divCeil
  by_cases hz : n % mib = 0
  · have hzero : n.toNat % 1048576 = 0 := by
      rw [← hmod, hz]
      rfl
    rw [if_pos hz, hdiv]
    omega
  · have hpos : n.toNat % 1048576 ≠ 0 := by
      intro hzero
      exact hz (UInt64.toNat_inj.mp (hmod.trans hzero))
    rw [if_neg hz, UInt64.toNat_add, hdiv, UInt64.toNat_one, Nat.mod_eq_of_lt (by omega)]
    omega

/-- The slab fits its partition, unless the size of that wraps to nothing. -/
theorem le_divCeil_mib {n : UInt64} (h : 0 < (divCeil n mib * mib).toNat) :
    n.toNat ≤ (divCeil n mib * mib).toNat := by
  have hlt := n.toNat_lt
  rw [UInt64.toNat_mul, toNat_divCeil, toNat_mib] at h ⊢
  omega

section Placed

variable {p : GptPartition} {size total : UInt64}

theorem Placed.start_toNat (h : Placed p size total) :
    (p.firstLba * lbSize).toNat = p.firstLba.toNat * 512 := by
  have hpos := h.size_pos
  have hblocks := h.blocks
  have hlast := h.last
  have htotal := total.toNat_lt
  rw [UInt64.toNat_mul, toNat_lbSize, Nat.mod_eq_of_lt (by omega)]

theorem Placed.stop_toNat (h : Placed p size total) (hsize : size.toNat % 512 = 0) :
    (p.firstLba * lbSize + size).toNat = (p.lastLba.toNat + 1) * 512 := by
  have hblocks := h.blocks
  have hlast := h.last
  have htotal := total.toNat_lt
  rw [UInt64.toNat_add, h.start_toNat, Nat.mod_eq_of_lt (by omega)]
  omega

/-- The range that is formatted is the one that is computed from the table. -/
theorem Placed.stop_eq (h : Placed p size total) (hsize : size.toNat % 512 = 0) :
    (p.lastLba + 1) * lbSize = p.firstLba * lbSize + size := by
  have hlast := h.last
  have htotal := total.toNat_lt
  refine UInt64.toNat_inj.mp ?_
  rw [h.stop_toNat hsize, UInt64.toNat_mul, UInt64.toNat_add, UInt64.toNat_one, toNat_lbSize,
    Nat.mod_eq_of_lt (a := p.lastLba.toNat + 1) (by omega), Nat.mod_eq_of_lt (by omega)]

/-- Bytes inside a partition lie apart from the table and the protective
    MBR. -/
theorem Placed.separate (h : Placed p size total) {w : Piece V}
    (hin : ∀ a ∈ w.spans total,
      p.firstLba.toNat * 512 ≤ a.start ∧ a.stop ≤ (p.lastLba.toNat + 1) * 512) (table : GptDisk)
    (lastLba : UInt32) :
    Separate (Piece.spans total) w (.table table) ∧
      Separate (Piece.spans total) w (.mbr lastLba) := by
  have hfirst := h.first
  have hlast := h.last
  constructor
  · intro a ha b hb
    have hbehind : 17408 ≤ a.start := by
      have hstart := (hin a ha).1
      omega
    have hbefore : a.stop ≤ total.toNat - 16896 := by
      have hstop := (hin a ha).2
      omega
    rcases List.mem_cons.mp hb with hb | hb
    · rw [hb]
      exact Or.inr hbehind
    · rw [List.mem_singleton.mp hb]
      exact Or.inl hbefore
  · intro a ha b hb
    have hbehind : 512 ≤ a.start := by
      have hstart := (hin a ha).1
      omega
    rw [List.mem_singleton.mp hb]
    exact Or.inr hbehind

/-- The protective MBR ends where the table starts. -/
theorem Placed.separate_mbr (h : Placed p size total) (table : GptDisk) (lastLba : UInt32) :
    Separate (Piece.spans (V := V) total) (.mbr lastLba) (.table table) := by
  have hfirst := h.first
  have hblocks := h.blocks
  have hlast := h.last
  have hsize := h.size_pos
  intro a ha b hb
  rw [List.mem_singleton.mp ha]
  rcases List.mem_cons.mp hb with hb | hb
  · rw [hb]
    exact Or.inl (Nat.le_refl 512)
  · rw [List.mem_singleton.mp hb]
    have hbehind : 512 ≤ total.toNat - 16896 := by omega
    exact Or.inl hbehind

end Placed

/-- The range of the ESP. -/
def espSpan (esp : GptPartition) (espBytes : UInt64) : Span :=
  ⟨(esp.firstLba * lbSize).toNat, (esp.firstLba * lbSize + espBytes).toNat⟩

/-! ## No write over another -/

/-- No two writes into the image share a byte. -/
def Image.Clean (img : Image V) : Prop :=
  Layout.Clean (Piece.spans img.len) img.log

section Clean

variable {table : GptDisk} {esp slab : GptPartition} {espBytes slabAligned total : UInt64}

theorem clean_table : Layout.Clean (Piece.spans (V := V) total) [.table table] :=
  List.pairwise_singleton _ _

theorem Laid.clean_mbr (h : Laid table esp slab espBytes slabAligned total) (lastLba : UInt32) :
    Layout.Clean (Piece.spans (V := V) total) [.mbr lastLba, .table table] := by
  refine List.pairwise_cons.mpr ⟨?_, clean_table⟩
  intro x hx
  rw [List.mem_singleton.mp hx]
  exact h.espPlaced.separate_mbr table lastLba

theorem Laid.clean_volume (h : Laid table esp slab espBytes slabAligned total)
    (hesp : espBytes.toNat % 512 = 0) (lastLba : UInt32) (vol : V) :
    Layout.Clean (Piece.spans total)
      [.volume (esp.firstLba * lbSize) (esp.firstLba * lbSize + espBytes) vol, .mbr lastLba,
        .table table] := by
  have hstart := h.espPlaced.start_toNat
  have hstop := h.espPlaced.stop_toNat hesp
  have happart := h.espPlaced.separate (w := .volume (esp.firstLba * lbSize)
    (esp.firstLba * lbSize + espBytes) vol) (by
      intro a ha
      rw [List.mem_singleton.mp ha]
      exact ⟨hstart.ge, hstop.le⟩) table lastLba
  refine List.pairwise_cons.mpr ⟨?_, h.clean_mbr lastLba⟩
  intro x hx
  rcases List.mem_cons.mp hx with rfl | hx
  · exact happart.2
  · rw [List.mem_singleton.mp hx]
    exact happart.1

/-- What is no longer than the slab partition stays in it. -/
theorem Laid.payload_within (h : Laid table esp slab espBytes slabAligned total)
    {payload : List UInt8} (hlen : payload.length ≤ slabAligned.toNat) :
    (slab.firstLba * lbSize).toNat = slab.firstLba.toNat * 512 ∧
      (slab.firstLba * lbSize).toNat + payload.length ≤ (slab.lastLba.toNat + 1) * 512 := by
  have hstart := h.slabPlaced.start_toNat
  have hblocks := h.slabPlaced.blocks
  exact ⟨hstart, by omega⟩

theorem Laid.clean_bytes (h : Laid table esp slab espBytes slabAligned total)
    (hesp : espBytes.toNat % 512 = 0) (lastLba : UInt32) (vol : V) {payload : List UInt8}
    (hlen : payload.length ≤ slabAligned.toNat) :
    Layout.Clean (Piece.spans total)
      [.bytes (slab.firstLba * lbSize) payload,
        .volume (esp.firstLba * lbSize) (esp.firstLba * lbSize + espBytes) vol, .mbr lastLba,
        .table table] := by
  have hwithin := h.payload_within hlen
  have hsep := h.slabPlaced.separate (V := V) (w := .bytes (slab.firstLba * lbSize) payload) (by
      intro a ha
      rw [List.mem_singleton.mp ha]
      exact ⟨hwithin.1.ge, hwithin.2⟩) table lastLba
  refine List.pairwise_cons.mpr ⟨?_, h.clean_volume hesp lastLba vol⟩
  intro x hx
  rcases List.mem_cons.mp hx with rfl | hx
  · -- One partition ends before the other starts, in whichever order they lie.
    have hstart := h.espPlaced.start_toNat
    have hstop := h.espPlaced.stop_toNat hesp
    have happart := h.apart
    intro a ha b hb
    rw [List.mem_singleton.mp ha, List.mem_singleton.mp hb]
    unfold Span.Apart
    simp only
    omega
  · rcases List.mem_cons.mp hx with rfl | hx
    · exact hsep.2
    · rw [List.mem_singleton.mp hx]
      exact hsep.1

end Clean

/-! ## What a finished build wrote -/

/-- What a finished build wrote. -/
structure Built (F : Volume.Ops V N) (host : Host) (spec : BootImageSpec) (img : Image V)
    (table : GptDisk) (esp slab : GptPartition) (slabBytes : UInt64) (lastLba : UInt32) (vol : V)
    (payload : List UInt8) : Prop where
  laid : Laid table esp slab (spec.espMib * mib) (divCeil slabBytes mib * mib)
    (imageBytes spec slabBytes)
  len : img.len = imageBytes spec slabBytes
  log : img.log =
    [ .bytes (slab.firstLba * lbSize) payload,
      .volume (esp.firstLba * lbSize) (esp.firstLba * lbSize + spec.espMib * mib) vol,
      .mbr lastLba, .table table ]
  payload : payload.length = slabBytes.toNat
  filled : ∃ size vol0, F.format size = .ok vol0 ∧
    Ends (fillEsp F host spec (buildCmdline spec)) vol0 vol ()

/-- The ESP is formatted and filled, or not written at all, or written as far as
    the filling got. -/
theorem writeEsp_leaves {host : Host} {spec : BootImageSpec} {cmdline : String}
    {start stop : UInt64} {img : Image V} :
    Leaves (writeEsp F host spec cmdline start stop) (some img)
      (fun out _ => ∃ size vol0 vol, F.format size = .ok vol0 ∧
        Ends (fillEsp F host spec cmdline) vol0 vol () ∧
        out = some (img.push (.volume start stop vol)))
      (fun out => out = some img ∨ ∃ vol, out = some (img.push (.volume start stop vol))) := by
  unfold writeEsp
  refine leaves_bind_ofExcept (Or.inl rfl) fun vol0 hformat => ?_
  refine leaves_bind_ends
    (t := some (img.push (.volume start stop (fillEsp F host spec cmdline vol0).1))) (a := ())
    rfl ?_
  refine leaves_ofExcept (Or.inr ⟨_, rfl⟩) fun _ hfilled => ?_
  exact ⟨_, vol0, _, hformat, Prod.ext rfl hfilled, rfl⟩

theorem copySlab_length (s : Source) (room : Option (Nat × String)) :
    (copySlab s room).1.length ≤ s.content.length ∧
      ∀ n, (copySlab s room).2 = .ok n → (copySlab s room).1.length = n := by
  -- A copy that ends well says how many bytes it took.
  have hmap : ∀ n, s.ending.map (fun _ => s.content.length) = .ok n → s.content.length = n := by
    intro n hn
    cases hending : s.ending with
    | error e =>
        rw [hending] at hn
        exact absurd hn (by simp only [Except.map, reduceCtorEq, not_false_eq_true])
    | ok u =>
        rw [hending] at hn
        exact Except.ok.inj hn
  unfold copySlab
  cases room with
  | none => exact ⟨Nat.le_refl _, hmap⟩
  | some r =>
      simp only
      by_cases hk : r.1 < s.content.length
      · rw [if_pos hk]
        refine ⟨List.length_take_le' _ _, fun n hn => ?_⟩
        exact absurd hn (by simp only [reduceCtorEq, not_false_eq_true])
      · rw [if_neg hk]
        exact ⟨Nat.le_refl _, hmap⟩

/-- The slab is copied whole, or as far as it went. -/
theorem writeSlab_leaves {host : Host} {spec : BootImageSpec} {start slabBytes : UInt64}
    {img : Image V} :
    Leaves (writeSlab host spec start slabBytes) (some img)
      (fun out _ => ∃ payload : List UInt8, payload.length = slabBytes.toNat ∧
        out = some (img.push (.bytes start payload)))
      (fun out => out = some img ∨ ∃ (s : Source) (payload : List UInt8),
        host.openFile spec.slab = .ok s ∧ payload.length ≤ s.content.length ∧
          out = some (img.push (.bytes start payload))) := by
  unfold writeSlab
  refine leaves_bind_ofExcept (Or.inl rfl) fun _ _ => ?_
  refine leaves_bind_ofExcept (Or.inl rfl) fun s hopen => ?_
  have hlen := copySlab_length s host.slabRoom
  refine leaves_bind_ends
    (t := some (img.push (.bytes start (copySlab s host.slabRoom).1))) (a := ()) rfl ?_
  refine leaves_bind_ofExcept (Or.inr ⟨s, _, hopen, hlen.1, rfl⟩) fun n hcopied => ?_
  refine leaves_bind_ensure (Or.inr ⟨s, _, hopen, hlen.1, rfl⟩) fun hall => ?_
  refine leaves_ofExcept (Or.inr ⟨s, _, hopen, hlen.1, rfl⟩) fun _ _ => ?_
  exact ⟨_, (hlen.2 n hcopied).trans hall, rfl⟩

/-! ## How far a build gets -/

/-- The files a build reads are there. -/
structure FilesThere (host : Host) (spec : BootImageSpec) : Prop where
  kernel : host.isFile spec.kernel = true
  initramfs : host.isFile spec.initramfs = true
  bootloader : host.isFile spec.bootloader = true
  slab : host.isFile spec.slab = true

/-- Whatever a build asks before there is an image is answered well, the last
    of it being the creation of the file. -/
structure Created (host : Host) (spec : BootImageSpec) (out : Output V) : Prop where
  files : FilesThere host spec
  noImage : out = none
  espMib : 64 ≤ spec.espMib
  slabLen : ∃ slabBytes, host.slabLen = .ok slabBytes
  parent : host.createParent = .ok ()
  file : host.createOut = .ok ()

/-- The ESP was formatted, and every file was put on it. -/
def FillEnds (F : Volume.Ops V N) (host : Host) (spec : BootImageSpec) (vol : V) : Prop :=
  ∃ size vol0, F.format size = .ok vol0 ∧
    Ends (fillEsp F host spec (buildCmdline spec)) vol0 vol ()

/-- What a build that stops has written into the image, newest first. -/
inductive Partial (F : Volume.Ops V N) (O : GptOps G) (host : Host) (spec : BootImageSpec)
    (slabBytes : UInt64) : List (Piece V) → Prop where
  | nothing : Partial F O host spec slabBytes []
  | table {g g' g'' espId slabId esp slab table}
      (requested : Requested O (spec.espMib * mib) (divCeil slabBytes mib * mib)
        (imageBytes spec slabBytes) g g' g'' espId slabId esp slab table) :
      Partial F O host spec slabBytes [.table table]
  | mbr {g g' g'' espId slabId esp slab table}
      (requested : Requested O (spec.espMib * mib) (divCeil slabBytes mib * mib)
        (imageBytes spec slabBytes) g g' g'' espId slabId esp slab table) :
      Partial F O host spec slabBytes
        [.mbr (mbrLastLba (imageBytes spec slabBytes)), .table table]
  | volume {g g' g'' espId slabId esp slab table}
      (requested : Requested O (spec.espMib * mib) (divCeil slabBytes mib * mib)
        (imageBytes spec slabBytes) g g' g'' espId slabId esp slab table) (vol : V) :
      Partial F O host spec slabBytes
        [.volume (esp.firstLba * lbSize) (esp.firstLba * lbSize + spec.espMib * mib) vol,
          .mbr (mbrLastLba (imageBytes spec slabBytes)), .table table]
  | slab {g g' g'' espId slabId esp slab table}
      (requested : Requested O (spec.espMib * mib) (divCeil slabBytes mib * mib)
        (imageBytes spec slabBytes) g g' g'' espId slabId esp slab table) {vol : V}
      (filled : FillEnds F host spec vol) {s : Source} {payload : List UInt8}
      (opened : host.openFile spec.slab = .ok s)
      (copied : payload.length ≤ s.content.length) :
      Partial F O host spec slabBytes
        [.bytes (slab.firstLba * lbSize) payload,
          .volume (esp.firstLba * lbSize) (esp.firstLba * lbSize + spec.espMib * mib) vol,
          .mbr (mbrLastLba (imageBytes spec slabBytes)), .table table]

/-- The output path after a build that stopped: as it was when the image was
    not created, and otherwise with the image as far as it got, without a
    length at first. -/
inductive Stopped (F : Volume.Ops V N) (O : GptOps G) (host : Host) (spec : BootImageSpec)
    (out : Output V) : Output V → Prop where
  | before (notCreated : ¬ Created host spec out) : Stopped F O host spec out out
  | empty (created : Created host spec out) :
      Stopped F O host spec out (some { len := 0, log := [] })
  | sized {slabBytes : UInt64} {log : List (Piece V)} (created : Created host spec out)
      (slabLen : host.slabLen = .ok slabBytes) (soFar : Partial F O host spec slabBytes log) :
      Stopped F O host spec out (some { len := imageBytes spec slabBytes, log := log })

theorem ensureFiles_leaves {host : Host} {spec : BootImageSpec} {out : Output V}
    {E : Output V → Prop} (hE : ¬ FilesThere host spec → E out) :
    Leaves (ensureFiles host spec) out (fun out' _ => out' = out ∧ FilesThere host spec) E := by
  unfold ensureFiles
  refine leaves_bind_ensure_not (fun hno => hE fun h => hno h.kernel) fun hkernel => ?_
  refine leaves_bind_ensure_not (fun hno => hE fun h => hno h.initramfs) fun hinitramfs => ?_
  refine leaves_bind_ensure_not (fun hno => hE fun h => hno h.bootloader) fun hbootloader => ?_
  refine leaves_ensure_not (fun hno => hE fun h => hno h.slab) fun hslab => ?_
  exact ⟨rfl, hkernel, hinitramfs, hbootloader, hslab⟩

/-- A build, part by part: what a finished one wrote, and how far one that
    stopped got. -/
theorem build_stages {host : Host} {spec : BootImageSpec} {out : Output V} :
    Leaves (build F O host spec) out
      (fun out' report => ∃ table esp slab slabBytes vol payload, Created host spec out ∧
        host.slabLen = .ok slabBytes ∧ out' = some
          { len := imageBytes spec slabBytes
            log :=
              [ .bytes (slab.firstLba * lbSize) payload,
                .volume (esp.firstLba * lbSize) (esp.firstLba * lbSize + spec.espMib * mib) vol,
                .mbr (mbrLastLba (imageBytes spec slabBytes)), .table table ] } ∧
        payload.length = slabBytes.toNat ∧
        FillEnds F host spec vol ∧
        (∃ g g' g'' espId slabId, Requested O (spec.espMib * mib) (divCeil slabBytes mib * mib)
          (imageBytes spec slabBytes) g g' g'' espId slabId esp slab table) ∧
        report.slabPartition = spec.diskDevice ++ "2")
      (Stopped F O host spec out) := by
  unfold build
  refine leaves_bind (ensureFiles_leaves fun hno => .before fun h => hno h.files) ?_
  intro _ _ ⟨hsame, hfiles⟩
  rw [hsame]
  refine leaves_bind_ends (t := out) (a := out) rfl ?_
  refine leaves_bind_ensure_not (fun hno => .before fun h => hno ?_) fun hnone => ?_
  · rw [h.noImage]
    rfl
  refine leaves_bind_ensure_not (fun hno => .before fun h => hno h.espMib) fun hespMib => ?_
  refine leaves_bind_ofExcept_error (fun e he => .before fun h => ?_) fun slabBytes hslabLen => ?_
  · rcases h.slabLen with ⟨n, hn⟩
    exact absurd (he.symm.trans hn) (by simp only [reduceCtorEq, not_false_eq_true])
  refine leaves_bind_ofExcept_error (fun e he => .before fun h => ?_) fun _ hparent => ?_
  · exact absurd (he.symm.trans h.parent) (by simp only [reduceCtorEq, not_false_eq_true])
  refine leaves_bind_ofExcept_error (fun e he => .before fun h => ?_) fun _ hfile => ?_
  · exact absurd (he.symm.trans h.file) (by simp only [reduceCtorEq, not_false_eq_true])
  -- From here on there is an image, and its log only grows.
  have hcreated : Created host spec out :=
    { files := hfiles
      noImage := Option.isNone_iff_eq_none.mp hnone
      espMib := hespMib
      slabLen := ⟨slabBytes, hslabLen⟩
      parent := hparent
      file := hfile }
  refine leaves_bind_ends (t := some { len := 0, log := [] }) (a := ()) rfl ?_
  refine leaves_bind_ofExcept (.empty hcreated) fun _ _ => ?_
  refine leaves_bind_ends (t := some { len := imageBytes spec slabBytes, log := [] }) (a := ())
    rfl ?_
  refine leaves_bind ((partitionImage_leaves (O := O)).mono (fun _ _ h => h)
    fun _ hsame => hsame ▸ .sized hcreated hslabLen .nothing) ?_
  intro _ _ ⟨table, esp, slab, g, g', g'', espId, slabId, hreq, hstarts, hout⟩
  rw [hstarts, hout]
  have htable := Stopped.sized (F := F) hcreated hslabLen (.table hreq)
  refine leaves_bind_ofExcept htable fun _ _ => ?_
  refine leaves_bind_ofExcept htable fun _ _ => ?_
  refine leaves_bind_ends
    (t := some { len := imageBytes spec slabBytes,
                 log := [.mbr (mbrLastLba (imageBytes spec slabBytes)), .table table] })
    (a := ()) rfl ?_
  have hmbr := Stopped.sized (F := F) hcreated hslabLen (.mbr hreq)
  refine leaves_bind_ofExcept hmbr fun _ _ => ?_
  refine leaves_bind_ofExcept hmbr fun _ _ => ?_
  refine leaves_bind (writeEsp_leaves.mono (fun _ _ h => h) ?_) ?_
  · intro out' hout
    rcases hout with rfl | ⟨vol, rfl⟩
    · exact hmbr
    · exact .sized hcreated hslabLen (.volume hreq vol)
  intro _ _ ⟨size, vol0, vol, hformat, hends, hout⟩
  have hfill : FillEnds F host spec vol := ⟨size, vol0, hformat, hends⟩
  rw [hout]
  refine leaves_bind (writeSlab_leaves.mono (fun _ _ h => h) ?_) ?_
  · intro out' hout
    rcases hout with rfl | ⟨s, payload, hopen, hlen, rfl⟩
    · exact .sized hcreated hslabLen (.volume hreq vol)
    · exact .sized hcreated hslabLen (.slab hreq hfill hopen hlen)
  intro _ _ ⟨payload, hpayload, hout⟩
  rw [hout]
  exact leaves_pure ⟨table, esp, slab, slabBytes, vol, payload, hcreated, hslabLen, rfl, hpayload,
    hfill, ⟨g, g', g'', espId, slabId, hreq⟩, rfl⟩

/-! ## What is left is in order -/

/-- The slab file holds no more than its length, as the host gave it. -/
def Host.Steady (host : Host) (spec : BootImageSpec) : Prop :=
  ∀ slabBytes s, host.slabLen = .ok slabBytes → host.openFile spec.slab = .ok s →
    s.content.length ≤ slabBytes.toNat

/-- The output path is as it was, or holds an image in which no two writes
    meet, as long as the slab file did not grow while it was copied. -/
def Unspoilt (host : Host) (spec : BootImageSpec) (out out' : Output V) : Prop :=
  out' = out ∨ (host.Steady spec → ∀ img, out' = some img → img.Clean)

theorem unspoilt_of_clean {host : Host} {spec : BootImageSpec} {out : Output V} {len : UInt64}
    {log : List (Piece V)} (h : host.Steady spec → Layout.Clean (Piece.spans len) log) :
    Unspoilt host spec out (some { len := len, log := log }) := by
  refine Or.inr fun hsteady img himg => ?_
  rw [← Option.some.inj himg]
  exact h hsteady

/-- A build that stopped spoilt nothing. -/
theorem Stopped.unspoilt (hO : O.Lawful) {host : Host} {spec : BootImageSpec} {out out' : Output V}
    (h : Stopped F O host spec out out') : Unspoilt host spec out out' := by
  have hmib := blocks_of_mib spec.espMib
  cases h with
  | before _ => exact Or.inl rfl
  | empty _ => exact unspoilt_of_clean fun _ => List.Pairwise.nil
  | sized _ hslabLen hlog =>
      refine unspoilt_of_clean fun hsteady => ?_
      cases hlog with
      | nothing => exact List.Pairwise.nil
      | table hreq => exact clean_table
      | mbr hreq => exact (hreq.laid hO).clean_mbr _
      | volume hreq vol => exact (hreq.laid hO).clean_volume hmib _ vol
      | slab hreq _ hopen hlen =>
          -- A copy that stopped took no more than the file holds.
          have hfit := le_divCeil_mib (hreq.laid hO).slabPlaced.size_pos
          exact (hreq.laid hO).clean_bytes hmib _ _
            (hlen.trans ((hsteady _ _ hslabLen hopen).trans hfit))

/-- What a build leaves behind. A finished one made its requests and its four
    writes, and one that stopped spoilt nothing. -/
theorem build_leaves (hO : O.Lawful) {host : Host} {spec : BootImageSpec} {out : Output V} :
    Leaves (build F O host spec) out
      (fun out' report => ∃ img table esp slab slabBytes lastLba vol payload,
        out' = some img ∧ host.slabLen = .ok slabBytes ∧
        Built F host spec img table esp slab slabBytes lastLba vol payload ∧
        (∃ g g' g'' espId slabId, Requested O (spec.espMib * mib) (divCeil slabBytes mib * mib)
          (imageBytes spec slabBytes) g g' g'' espId slabId esp slab table) ∧
        report.slabPartition = spec.diskDevice ++ "2")
      (Unspoilt host spec out) := by
  refine build_stages.mono ?_ fun _ h => h.unspoilt hO
  intro out' report ⟨table, esp, slab, slabBytes, vol, payload, _, hslabLen, hout, hpayload,
    hfilled, ⟨g, g', g'', espId, slabId, hreq⟩, hreport⟩
  refine ⟨_, table, esp, slab, slabBytes, mbrLastLba (imageBytes spec slabBytes), vol, payload,
    hout, hslabLen, ?_, ⟨g, g', g'', espId, slabId, hreq⟩, hreport⟩
  exact
    { laid := hreq.laid hO
      len := rfl
      log := rfl
      payload := hpayload
      filled := hfilled }

/-- What a finished build wrote and reported. -/
theorem build_ends (hO : O.Lawful) {host : Host} {spec : BootImageSpec} {out out' : Output V}
    {report : BootImageReport} (h : Ends (build F O host spec) out out' report) :
    ∃ img table esp slab slabBytes lastLba vol payload, out' = some img ∧
      Built F host spec img table esp slab slabBytes lastLba vol payload ∧
      report.slabPartition = spec.diskDevice ++ "2" := by
  rcases (build_leaves hO).ends h with ⟨img, table, esp, slab, slabBytes, lastLba, vol, payload,
    himg, _, hbuilt, _, hreport⟩
  exact ⟨img, table, esp, slab, slabBytes, lastLba, vol, payload, himg, hbuilt, hreport⟩

end Zeroboot
