import Mathlib.Algebra.Ring.Nat
import Mathlib.Data.List.Basic
import Mathlib.Data.List.Range
import Mathlib.Tactic.Common

/-!
# Media Read Through an Unreliable Handle

An open file whose reads may do anything a read may do: fail, hand back fewer
bytes than were asked for, or hand back none at all before the end the medium
reported. What a read answers may depend on everything read before it through
the same handle, so no interleaving of short reads and errors is excluded.

A run of reads keeps its log, failed calls included. The log is what a claim
about evidence is stated on: `Gave log off b` says some successful read of the
log handed over the byte `b` at that offset.

Three things are said of a whole log. It is `Answered` by a handle when every
call was put to that handle; it is `Quiet` when every call succeeded and
brought nothing but zeros; and it is `MadeGood` when whatever an empty answer
withheld was handed over by some other call.

`Delivers` singles out the handles that behave: the length is the content's,
and a read inside the content hands over a non-empty piece of it. Such a
handle still reads short, and only never falls silent.

## Main definitions

* `ReadCall`: One read and its answer.
* `Handle`: An open file.
* `Content`: The bytes of a medium.
* `Gave`: A read handed over this byte.
* `LeftOut`: A read that came back empty had asked for this offset.
* `Answered`, `Quiet`, `MadeGood`: What is said of a log.
* `Delivers`: The handle reads the content in full.
* `steady`: The handle that answers every read with the whole piece.

## Theorems

* `Content.slice_append`: Adjacent pieces join.
* `Content.forall_mem_slice`: A piece is the bytes of its range.
* `quiet_iff`: A quiet log is one without errors in which every byte handed
  over is zero.
* `Delivers.gave`: A handle that delivers hands over the bytes of its content.
* `Delivers.not_leftOut`: It leaves nothing out.
* `steady_delivers`: The steady handle reads its content in full.
-/

namespace Medium

/-- One call of `read`: where, how many bytes were asked for, and the
    answer. -/
structure ReadCall where
  off : Nat
  asked : Nat
  answer : Except String (List UInt8)

/-- An open file. `seekEnd` is the length it reports; `read` answers at an
    offset, given the calls made before it through this handle. A failing seek
    is the failure of the read behind it. -/
structure Handle where
  seekEnd : Except String Nat
  seekEnd_lt : ∀ n, seekEnd = .ok n → n < 2 ^ 63
  read : List ReadCall → Nat → Nat → Except String (List UInt8)
  read_le : ∀ log off asked bs, read log off asked = .ok bs → bs.length ≤ asked

/-- Some successful read handed over byte `b` at offset `o`. -/
def Gave (log : List ReadCall) (o : Nat) (b : UInt8) : Prop :=
  ∃ c ∈ log, ∃ bs, c.answer = .ok bs ∧ c.off ≤ o ∧ bs[o - c.off]? = some b

/-- Some read that came back empty had asked for offset `o`. -/
def LeftOut (log : List ReadCall) (o : Nat) : Prop :=
  ∃ c ∈ log, c.answer = .ok [] ∧ c.off ≤ o ∧ o < c.off + c.asked

/-- Every call asked this handle for something. -/
def Answered (h : Handle) (log : List ReadCall) : Prop :=
  ∀ c ∈ log, 0 < c.asked ∧ ∃ before, c.answer = h.read before c.off c.asked

/-- Every call asked for offsets of this area only. -/
def Within (area : Nat → Prop) (log : List ReadCall) : Prop :=
  ∀ c ∈ log, ∀ o, c.off ≤ o → o < c.off + c.asked → area o

/-- Every call succeeded. -/
def Succeeded (log : List ReadCall) : Prop :=
  ∀ c ∈ log, ∃ bs, c.answer = .ok bs

/-- Every call succeeded, and brought nothing but zeros. -/
def Quiet (log : List ReadCall) : Prop :=
  ∀ c ∈ log, ∃ bs, c.answer = .ok bs ∧ ∀ b ∈ bs, b = 0

/-- What an empty answer withheld, another call handed over. -/
def MadeGood (log : List ReadCall) : Prop :=
  ∀ o, LeftOut log o → ∃ b, Gave log o b

section Logs

variable {h : Handle} {area : Nat → Prop} {l₁ l₂ log : List ReadCall}

theorem gave_append (o : Nat) (b : UInt8) :
    Gave (l₁ ++ l₂) o b ↔ Gave l₁ o b ∨ Gave l₂ o b := by
  simp only [Gave, List.mem_append, or_and_right, exists_or]

theorem leftOut_append (o : Nat) :
    LeftOut (l₁ ++ l₂) o ↔ LeftOut l₁ o ∨ LeftOut l₂ o := by
  simp only [LeftOut, List.mem_append, or_and_right, exists_or]

theorem answered_append : Answered h (l₁ ++ l₂) ↔ Answered h l₁ ∧ Answered h l₂ :=
  List.forall_mem_append

theorem within_append : Within area (l₁ ++ l₂) ↔ Within area l₁ ∧ Within area l₂ :=
  List.forall_mem_append

theorem succeeded_append : Succeeded (l₁ ++ l₂) ↔ Succeeded l₁ ∧ Succeeded l₂ :=
  List.forall_mem_append

theorem quiet_append : Quiet (l₁ ++ l₂) ↔ Quiet l₁ ∧ Quiet l₂ :=
  List.forall_mem_append

theorem Within.mono {area' : Nat → Prop} (hw : Within area log) (hsub : ∀ o, area o → area' o) :
    Within area' log :=
  fun c hc o hlo hhi => hsub o (hw c hc o hlo hhi)

theorem quiet_iff : Quiet log ↔ Succeeded log ∧ ∀ o b, Gave log o b → b = 0 := by
  constructor
  · intro hq
    refine ⟨fun c hc => ?_, ?_⟩
    · rcases hq c hc with ⟨bs, hbs, _⟩
      exact ⟨bs, hbs⟩
    · rintro o b ⟨c, hc, bs, hbs, _, hb⟩
      rcases hq c hc with ⟨bs', hbs', hz⟩
      rw [hbs] at hbs'
      rw [← Except.ok.inj hbs'] at hz
      exact hz b (List.mem_of_getElem? hb)
  · rintro ⟨hs, hz⟩ c hc
    rcases hs c hc with ⟨bs, hbs⟩
    refine ⟨bs, hbs, fun b hb => ?_⟩
    -- A byte of an answer was handed over at its place behind the call's offset.
    rcases List.getElem?_of_mem hb with ⟨i, hi⟩
    exact hz (c.off + i) b ⟨c, hc, bs, hbs, Nat.le_add_right _ _, by
      rwa [Nat.add_sub_cancel_left]⟩

/-- What was handed over had been asked for. -/
theorem Answered.gave_within (ha : Answered h log) (hw : Within area log) {o : Nat} {b : UInt8}
    (hg : Gave log o b) : area o := by
  rcases hg with ⟨c, hc, bs, hbs, hlo, hb⟩
  rcases ha c hc with ⟨_, before, hans⟩
  -- No read brings more than was asked for, so the byte lies in the asked range.
  have hle := h.read_le before c.off c.asked bs (by rw [← hans, hbs])
  have hlt : o - c.off < bs.length := (List.getElem?_eq_some_iff.mp hb).1
  exact hw c hc o hlo (by omega)

theorem LeftOut.within {o : Nat} (hl : LeftOut log o) (hw : Within area log) : area o := by
  rcases hl with ⟨c, hc, _, hlo, hhi⟩
  exact hw c hc o hlo hhi

end Logs

/-- The bytes of a medium: its length, and the byte at each offset below
    it. -/
structure Content where
  len : Nat
  byte : Nat → UInt8
  len_lt : len < 2 ^ 63

/-- The `n` bytes from an offset on. -/
def Content.slice (c : Content) (off n : Nat) : List UInt8 :=
  (List.range n).map (fun i => c.byte (off + i))

@[simp] theorem Content.length_slice (c : Content) (off n : Nat) : (c.slice off n).length = n := by
  simp only [slice, List.length_map, List.length_range]

@[simp] theorem Content.slice_zero (c : Content) (off : Nat) : c.slice off 0 = [] := rfl

theorem Content.slice_append (c : Content) (off m n : Nat) :
    c.slice off m ++ c.slice (off + m) n = c.slice off (m + n) := by
  simp only [slice, List.range_add, List.map_append, List.map_map, Function.comp_def,
    Nat.add_assoc]

theorem Content.getElem?_slice (c : Content) (off n i : Nat) (h : i < n) :
    (c.slice off n)[i]? = some (c.byte (off + i)) := by
  simp only [slice, List.getElem?_map, List.getElem?_range h, Option.map_some]

theorem Content.forall_mem_slice (c : Content) (off n : Nat) (p : UInt8 → Prop) :
    (∀ b ∈ c.slice off n, p b) ↔ ∀ o, off ≤ o → o < off + n → p (c.byte o) := by
  simp only [slice, List.mem_map, List.mem_range, forall_exists_index, and_imp,
    forall_apply_eq_imp_iff₂]
  constructor
  · intro h o hlo hhi
    have ho := h (o - off) (by omega)
    rwa [Nat.add_sub_cancel' hlo] at ho
  · intro h i hi
    exact h (off + i) (by omega) (by omega)

/-- The handle reads the content in full: a read inside it succeeds and hands
    over a non-empty piece, however short. -/
structure Delivers (h : Handle) (c : Content) : Prop where
  seekEnd : h.seekEnd = .ok c.len
  read : ∀ log off asked, 0 < asked → off < c.len →
    ∃ k, 0 < k ∧ k ≤ asked ∧ off + k ≤ c.len ∧ h.read log off asked = .ok (c.slice off k)
  read_end : ∀ log off asked, c.len ≤ off → h.read log off asked = .ok []

section Delivers

variable {h : Handle} {c : Content} {log : List ReadCall}

theorem Delivers.succeeded (hd : Delivers h c) (ha : Answered h log) : Succeeded log := by
  intro r hr
  rcases ha r hr with ⟨hpos, before, hans⟩
  rw [hans]
  by_cases hin : r.off < c.len
  · rcases hd.read before r.off r.asked hpos hin with ⟨k, _, _, _, hread⟩
    exact ⟨_, hread⟩
  · exact ⟨[], hd.read_end before r.off r.asked (by omega)⟩

/-- What such a handle hands over is the content. -/
theorem Delivers.gave (hd : Delivers h c) (ha : Answered h log) {o : Nat} {b : UInt8}
    (hg : Gave log o b) : o < c.len ∧ b = c.byte o := by
  rcases hg with ⟨r, hr, bs, hbs, hlo, hb⟩
  rcases ha r hr with ⟨hpos, before, hans⟩
  rw [hans] at hbs
  by_cases hin : r.off < c.len
  · rcases hd.read before r.off r.asked hpos hin with ⟨k, _, _, hk, hread⟩
    rw [hread] at hbs
    rw [← Except.ok.inj hbs] at hb
    have hlt : o - r.off < k := by
      have := (List.getElem?_eq_some_iff.mp hb).1
      rwa [Content.length_slice] at this
    rw [Content.getElem?_slice c r.off k _ hlt, Option.some_inj, Nat.add_sub_cancel' hlo] at hb
    exact ⟨by omega, hb.symm⟩
  -- Behind the end the answer is empty, and no byte came from it.
  · rw [hd.read_end before r.off r.asked (by omega)] at hbs
    rw [← Except.ok.inj hbs, List.getElem?_nil] at hb
    exact absurd hb (by simp only [reduceCtorEq, not_false_eq_true])

/-- It leaves nothing out of what it has. -/
theorem Delivers.not_leftOut (hd : Delivers h c) (ha : Answered h log)
    (hw : Within (· < c.len) log) (o : Nat) : ¬ LeftOut log o := by
  rintro ⟨r, hr, hempty, hlo, hhi⟩
  rcases ha r hr with ⟨hpos, before, hans⟩
  -- The call asked for at least one offset, all of them inside the content.
  have hin : r.off < c.len := hw r hr r.off (Nat.le_refl _) (by omega)
  rcases hd.read before r.off r.asked hpos hin with ⟨k, hk, _, _, hread⟩
  rw [hans, hread] at hempty
  have hlen := congrArg List.length (Except.ok.inj hempty)
  rw [Content.length_slice, List.length_nil] at hlen
  omega

end Delivers

/-- The handle that answers every read with as much as there is. -/
def steady (c : Content) : Handle where
  seekEnd := .ok c.len
  seekEnd_lt := by
    intro n h
    rw [← Except.ok.inj h]
    exact c.len_lt
  read _ off asked := .ok (c.slice off (min asked (c.len - off)))
  read_le := by
    intro log off asked bs h
    rw [← Except.ok.inj h, Content.length_slice]
    exact Nat.min_le_left _ _

theorem steady_delivers (c : Content) : Delivers (steady c) c where
  seekEnd := rfl
  read := by
    intro log off asked ha ho
    exact ⟨min asked (c.len - off), by omega, by omega, by omega, rfl⟩
  read_end := by
    intro log off asked ho
    simp only [steady, Nat.sub_eq_zero_of_le ho, Nat.min_zero, Content.slice_zero]

end Medium
