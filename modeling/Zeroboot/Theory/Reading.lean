import Zeroboot.Theory.Evidence

/-!
# Reading a Drive That Answers

On a handle that delivers, no region is short: every region is a piece of the
content, sniffing gives its two ends, and the scan finds nothing exactly when
every byte it examines is zero. The handle may still read short as often as it
likes.

## Main definitions

* `headOf`, `tailOf`: The two ends of a content.
* `StartsWith`: The content starts with these bytes.

## Theorems

* `region_delivers`: A region is a piece of the content.
* `firstNonzero_delivers`: The scan finds nothing exactly when every examined
  byte is zero.
* `sniff_delivers`, `sniff_empty`: What sniffing gives.
* `starts_headOf`: The slab magic is found at the start of the content.
-/

namespace Zeroboot

open Medium

section Delivers

variable {h : Handle} {c : Content}

/-- On a handle that delivers, the scan finds nothing exactly when every
    examined byte is zero. -/
theorem firstNonzero_delivers (hd : Delivers h c) :
    (firstNonzero h).1 = .ok none ↔ ∀ o, Examined c.len o → c.byte o = 0 := by
  rcases firstNonzero_spec h hd.seekEnd with ⟨hphase, hall⟩
  have hwithin : Within (· < c.len) (firstNonzero h).2 := hphase.within.mono fun _ => examined_lt
  -- A handle that delivers leaves nothing out, so there is nothing to make good.
  have hgood : MadeGood (firstNonzero h).2 := fun o hl =>
    absurd hl (hd.not_leftOut hphase.answered hwithin o)
  constructor
  · intro hnone o ho
    rcases hall hnone hgood o ho with ⟨b, hb⟩
    have hzero := (quiet_iff.mp (hphase.quiet.mp hnone)).2 o b hb
    rw [← (hd.gave hphase.answered hb).2, hzero]
  · intro hzero
    refine hphase.quiet.mpr (quiet_iff.mpr ⟨hd.succeeded hphase.answered, ?_⟩)
    intro o b hb
    rw [(hd.gave hphase.answered hb).2]
    exact hzero o (hphase.answered.gave_within hphase.within hb)

theorem region_delivers (hd : Delivers h c) (off want : Nat) (log : List ReadCall)
    (hle : off + want ≤ c.len) : (region h off want log).1 = .ok (c.slice off want) := by
  rcases region_spec h off want log with ⟨calls, _, hf⟩
  rcases hans : (region h off want log).1 with e | chunk
  · rw [hans] at hf
    exact absurd (hd.succeeded hf.answered) (hf.failed e rfl)
  · rw [hans] at hf
    have hwithin : Within (· < c.len) calls := hf.within.mono fun o ho => by omega
    -- A short region would have left something out.
    have hfull : chunk.length = want := by
      by_contra hne
      have hlen := hf.length_le chunk rfl
      exact hd.not_leftOut hf.answered hwithin (off + chunk.length)
        (hf.short chunk rfl _ (Nat.le_refl _) (by omega))
    congr 1
    refine List.ext_getElem (by rw [hfull, Content.length_slice]) ?_
    intro i h1 h2
    -- Each byte of the chunk was handed over, and is the content's at its place.
    have hg : Gave calls (off + i) chunk[i] := (hf.gave chunk rfl _ _).mpr
      ⟨Nat.le_add_right _ _, by rw [Nat.add_sub_cancel_left, List.getElem?_eq_getElem h1]⟩
    have hs := Content.getElem?_slice c off want i (by omega)
    rw [List.getElem?_eq_getElem h2] at hs
    rw [(hd.gave hf.answered hg).2, Option.some.inj hs]

/-- The first megabyte of a content. -/
def headOf (c : Content) : List UInt8 :=
  c.slice 0 (min HEAD c.len)

/-- The last megabyte, when it is apart from the first. -/
def tailOf (c : Content) : List UInt8 :=
  if HEAD + TAIL < c.len then c.slice (c.len - TAIL) TAIL else []

theorem sniff_delivers (hd : Delivers h c) (hpos : 0 < c.len) :
    (sniff h).1 = .ok { head := headOf c, tail := tailOf c } := by
  unfold sniff
  rw [hd.seekEnd]
  have hhead := region_delivers hd 0 (min HEAD c.len) [] (by omega)
  rcases hreg : region h 0 (min HEAD c.len) [] with ⟨_, log⟩
  rw [hreg] at hhead
  subst hhead
  have hne : c.slice 0 (min HEAD c.len) ≠ [] := by
    rw [ne_eq, ← List.length_eq_zero_iff, Content.length_slice]
    simp only [HEAD]
    omega
  simp only [hreg, if_neg hne, headOf, tailOf]
  by_cases hlong : HEAD + TAIL < c.len
  · rw [if_pos hlong, if_pos hlong]
    have htail := region_delivers hd (c.len - TAIL) TAIL log (by omega)
    rcases hreg2 : region h (c.len - TAIL) TAIL log with ⟨_, log2⟩
    rw [hreg2] at htail
    subst htail
    rfl
  · rw [if_neg hlong, if_neg hlong]

theorem sniff_empty (hd : Delivers h c) (hzero : c.len = 0) :
    (sniff h).1 = .error "read returned no bytes" := by
  unfold sniff
  rw [hd.seekEnd]
  have hhead := region_delivers hd 0 (min HEAD c.len) [] (by omega)
  rcases hreg : region h 0 (min HEAD c.len) [] with ⟨_, log⟩
  rw [hreg] at hhead
  subst hhead
  rw [hzero, Nat.min_zero, Content.slice_zero] at hreg
  simp only [hzero, Nat.min_zero, hreg, if_true]

end Delivers

/-- The content starts with these bytes. -/
def StartsWith (c : Content) (magic : List UInt8) : Prop :=
  magic.length ≤ c.len ∧ c.slice 0 magic.length = magic

theorem starts_headOf (c : Content) (tail : List UInt8) :
    ({ head := headOf c, tail := tail } : Sniff).starts 0 slabMagic = true ↔
      StartsWith c slabMagic := by
  have hmagic : slabMagic.length = 8 := by decide
  unfold Sniff.starts Sniff.bytesAt StartsWith headOf
  rw [hmagic, Content.length_slice, Nat.zero_add, List.drop_zero]
  by_cases hlong : 8 ≤ c.len
  · have hmin : 8 ≤ min HEAD c.len := by
      simp only [HEAD]
      omega
    -- The magic is shorter than the head, so the head decides it.
    have htake : (c.slice 0 (min HEAD c.len)).take 8 = c.slice 0 8 := by
      rw [show min HEAD c.len = 8 + (min HEAD c.len - 8) by omega, ← Content.slice_append,
        List.take_left' (Content.length_slice c 0 8)]
    rw [if_pos hmin, beq_iff_eq, Option.some_inj, htake]
    exact (and_iff_right hlong).symm
  · -- A content too short for the magic does not start with it.
    rw [if_neg (by omega)]
    refine iff_of_false ?_ (fun hs => hlong hs.1)
    simp only [Option.none_beq_some, Bool.false_eq_true, not_false_eq_true]

end Zeroboot
