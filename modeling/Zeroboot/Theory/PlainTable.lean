import Zeroboot.Core.BootImage

/-!
# A Partition Table in Memory

A partition table kept as a list, each new partition behind those that are
there, at the next aligned block. It satisfies what the build relies on, so
that can be satisfied, and it can be evaluated.

## Main definitions

* `PlainTable`, `plain`: The table, and the table as the crate.

## Theorems

* `plain_lawful`: The table in memory is lawful.
-/

namespace Zeroboot

/-- A partition table kept in memory. -/
structure PlainTable where
  lastUsable : UInt64
  parts : List (Nat × GptPartition)

namespace PlainTable

/-- One more than any of these numbers, and at least `b`. -/
def above {α : Type} (f : α → Nat) (b : Nat) : List α → Nat
  | [] => b
  | x :: l => max (f x + 1) (above f b l)

theorem above_spec {α : Type} (f : α → Nat) (b : Nat) (l : List α) :
    b ≤ above f b l ∧ ∀ x ∈ l, f x < above f b l := by
  induction l with
  | nil => exact ⟨Nat.le_refl b, fun x hx => absurd hx List.not_mem_nil⟩
  | cons y l ih =>
      unfold above
      constructor
      · omega
      · intro x hx
        rcases List.mem_cons.mp hx with rfl | hx
        · omega
        · have hlt := ih.2 x hx
          omega

def roundUp (a unit : Nat) : Nat :=
  (a + unit - 1) / unit * unit

theorem le_roundUp (a : Nat) {unit : Nat} (h : 0 < unit) : a ≤ roundUp a unit := by
  -- Rounding up falls short of the next unit but one.
  have hlt := Nat.lt_mul_div_succ (a + unit - 1) h
  rw [Nat.mul_add, Nat.mul_one, Nat.mul_comm] at hlt
  unfold roundUp
  omega

variable (g : PlainTable) (name : String) (type : Uuid) (size : UInt64) (align : Option UInt64)

def nextId : Nat :=
  above Prod.fst 1 g.parts

def nextLba : Nat :=
  roundUp (above (fun x => x.2.lastLba.toNat) 34 g.parts) (max 1 (align.getD 1).toNat)

def lastLba : Nat :=
  g.nextLba align + (size.toNat + 511) / 512 - 1

/-- The partition put behind the others. -/
def next : GptPartition where
  name := name
  partGuid := ⟨0⟩
  partTypeGuid := type
  firstLba := UInt64.ofNat (g.nextLba align)
  lastLba := UInt64.ofNat (g.lastLba size align)

/-- The partition is there, and ends where the usable blocks do at the
    latest. -/
def Fits : Prop :=
  0 < size.toNat ∧ g.lastLba size align ≤ g.lastUsable.toNat

instance : Decidable (g.Fits size align) :=
  inferInstanceAs (Decidable (_ ∧ _))

theorem nextLba_spec :
    34 ≤ g.nextLba align ∧ ∀ x ∈ g.parts, x.2.lastLba.toNat < g.nextLba align := by
  have habove := above_spec (fun x : Nat × GptPartition => x.2.lastLba.toNat) 34 g.parts
  have hround : above (fun x : Nat × GptPartition => x.2.lastLba.toNat) 34 g.parts ≤
      g.nextLba align := le_roundUp _ (by omega)
  constructor
  · omega
  · intro x hx
    have hlt := habove.2 x hx
    omega

variable {g size align}

theorem next_firstLba (h : g.Fits size align) :
    (g.next name type size align).firstLba.toNat = g.nextLba align := by
  -- What fits below the last usable block does not wrap.
  have husable := g.lastUsable.toNat_lt
  have hlast := h.2
  have hpos := h.1
  unfold lastLba at hlast
  unfold next
  rw [UInt64.toNat_ofNat', Nat.mod_eq_of_lt (by omega)]

theorem next_lastLba (h : g.Fits size align) :
    (g.next name type size align).lastLba.toNat = g.lastLba size align := by
  have husable := g.lastUsable.toNat_lt
  have hlast := h.2
  unfold next
  rw [UInt64.toNat_ofNat', Nat.mod_eq_of_lt (by omega)]

/-- Whoever keeps such a table, a partition of the right size between the
    copies of the table and apart from the others may be put into it. -/
theorem added {O : GptOps PlainTable} (hparts : O.partitions = PlainTable.parts)
    (husable : O.lastUsable = PlainTable.lastUsable) {p : GptPartition} (hsize : 0 < size.toNat)
    (hblocks : p.lastLba.toNat + 1 = p.firstLba.toNat + (size.toNat + 511) / 512)
    (hfirst : 34 ≤ p.firstLba.toNat) (hlast : p.lastLba.toNat ≤ g.lastUsable.toNat)
    (hapart : ∀ x ∈ g.parts, x.2.lastLba.toNat < p.firstLba.toNat ∨
      p.lastLba.toNat < x.2.firstLba.toNat) :
    O.Added g { g with parts := g.parts ++ [(g.nextId, p)] } g.nextId p size where
  partitions := by
    intro x
    simp only [hparts, List.mem_append, List.mem_singleton]
    exact Or.comm
  fresh := by
    intro q hq
    rw [hparts] at hq
    -- The index is above all that are taken.
    exact absurd ((above_spec Prod.fst 1 g.parts).2 _ hq) (Nat.lt_irrefl _)
  lastUsable := by rw [husable]
  size_pos := hsize
  blocks := hblocks
  first := hfirst
  last := by
    rw [husable]
    exact hlast
  apart := by
    rw [hparts]
    exact hapart

end PlainTable

/-- The table in memory, as the crate. -/
def plain : GptOps PlainTable where
  create len :=
    if 68 ≤ len.toNat / 512 then .ok ⟨UInt64.ofNat (len.toNat / 512 - 34), []⟩
    else .error "too small"
  addPartition g name size type _ align :=
    if g.Fits size align then
      .ok ({ g with parts := g.parts ++ [(g.nextId, g.next name type size align)] }, g.nextId)
    else .error "not enough space"
  partitions := PlainTable.parts
  lastUsable := PlainTable.lastUsable
  write g := .ok { guid := ⟨0⟩, partitions := g.parts }

theorem plain_lawful : plain.Lawful where
  create_partitions := by
    intro len g h
    simp only [plain] at h
    split_ifs at h
    rw [← Except.ok.inj h]
    rfl
  create_lastUsable := by
    intro len g h
    have hlen := len.toNat_lt
    simp only [plain] at h
    split_ifs at h with hbig
    rw [← Except.ok.inj h]
    simp only [plain]
    rw [UInt64.toNat_ofNat', Nat.mod_eq_of_lt (by omega)]
    omega
  addPartition := by
    intro g name size type flags align g' id h
    simp only [plain] at h
    split_ifs at h with hfits
    rcases Prod.mk.inj (Except.ok.inj h) with ⟨rfl, rfl⟩
    have hfirst := PlainTable.next_firstLba name type hfits
    have hlast := PlainTable.next_lastLba name type hfits
    have hspec := g.nextLba_spec align
    refine ⟨g.next name type size align, rfl, rfl,
      PlainTable.added rfl rfl hfits.1 ?_ (hfirst.symm ▸ hspec.1) (hlast.symm ▸ hfits.2) ?_⟩
    · have hpos := hfits.1
      rw [hfirst, hlast]
      unfold PlainTable.lastLba
      omega
    · -- The blocks lie behind all that are taken.
      intro x hx
      rw [hfirst]
      exact Or.inl (hspec.2 x hx)
  write := by
    intro g t h
    rw [← Except.ok.inj h]
    rfl

end Zeroboot
