import Zeroboot.Lib.Volume

/-!
# Volumes Filled File by File

A program that formats a volume and then makes directories and writes files,
each once, wants to know at the end what is on it. Two facts about a path
survive every call that is about other paths: it holds certain bytes, or it
names nothing yet. `Shows` puts them together. It is the list of files written
so far, and says that every one of them reads back and that whatever is
certainly none of them is not there.

A file may be written piece by piece, as long as each piece starts where the
file ends.

## Main definitions

* `Holds`, `Absent`: A path holds these bytes, or names nothing.
* `writeChunks`: Writing a file piece by piece.
* `Shows`: The files on a volume.

## Theorems

* `Holds.createDir`, `Holds.createFile`, `Holds.untouched`: What a path holds
  survives calls about other paths.
* `holds_of_writeChunks`: A new file holds the pieces written to it.
* `Shows.createFile`: A file is added to those that are there.
-/

namespace Volume

variable {V N : Type}

/-- A path names a file holding exactly these bytes. -/
def Holds (F : Ops V N) (v : V) (p : String) (bs : List UInt8) : Prop :=
  ∃ n, F.openFile v p = some n ∧ F.readToEnd v n = some bs

/-- A path names no file. -/
def Absent (F : Ops V N) (v : V) (p : String) : Prop :=
  F.openFile v p = none

/-- Write a file piece by piece, from a position on. -/
def writeChunks (F : Ops V N) (v : V) (n : N) (k : Nat) : List (List UInt8) →
    V × Except String Unit
  | [] => (v, .ok ())
  | c :: cs => match F.writeAll v n k c with
    | (v', .ok ()) => writeChunks F v' n (k + c.length) cs
    | (v', .error e) => (v', .error e)

theorem writeChunks_untouched {F : Ops V N} (hF : F.Lawful) {n : N} :
    ∀ (cs : List (List UInt8)) (k : Nat) (v v' : V),
      writeChunks F v n k cs = (v', .ok ()) → Untouched F v v' n := by
  -- Each piece leaves the rest alone, so all of them together do.
  intro cs
  induction cs with
  | nil =>
      intro k v v' h
      simp only [writeChunks, Prod.mk.injEq, and_true] at h
      rw [← h]
      exact ⟨fun _ => rfl, fun _ => rfl, fun _ _ => rfl⟩
  | cons c cs ih =>
      intro k v v' h
      rcases hw : F.writeAll v n k c with ⟨v1, _ | _⟩
      · simp only [writeChunks, hw, Prod.mk.injEq, reduceCtorEq, and_false] at h
      · simp only [writeChunks, hw] at h
        exact (hF.writeAll_untouched hw).trans (ih _ v1 v' h)

/-- A file grown from its end holds what it held and then the pieces. -/
theorem writeChunks_readToEnd {F : Ops V N} (hF : F.Lawful) {n : N} :
    ∀ (cs : List (List UInt8)) (v v' : V) (old : List UInt8), F.readToEnd v n = some old →
      writeChunks F v n old.length cs = (v', .ok ()) →
      F.readToEnd v' n = some (old ++ cs.flatten) := by
  intro cs
  induction cs with
  | nil =>
      intro v v' old hold h
      simp only [writeChunks, Prod.mk.injEq, and_true] at h
      rw [← h, hold, List.flatten_nil, List.append_nil]
  | cons c cs ih =>
      intro v v' old hold h
      rcases hw : F.writeAll v n old.length c with ⟨v1, _ | _⟩
      · simp only [writeChunks, hw, Prod.mk.injEq, reduceCtorEq, and_false] at h
      · simp only [writeChunks, hw] at h
        -- A piece written at the end of the file is appended: nothing of the old bytes
        -- lies behind it.
        have hread : F.readToEnd v1 n = some (old ++ c) := by
          rw [hF.writeAll_readToEnd hw hold (Nat.le_refl _), List.take_length,
            List.drop_eq_nil_of_le (by omega), List.append_nil]
        have hrest := ih v1 v' (old ++ c) hread (by rw [List.length_append]; exact h)
        rw [hrest, List.flatten_cons, List.append_assoc]

theorem Holds.createDir {F : Ops V N} (hF : F.Lawful) {v : V} {p : String} {bs : List UInt8}
    (h : Holds F v p bs) (d : String) : Holds F (F.createDir v d).1 p bs := by
  rcases h with ⟨n, ho, hr⟩
  exact ⟨n, by rw [hF.createDir_openFile, ho], by rw [hF.createDir_readToEnd, hr]⟩

theorem Absent.createDir {F : Ops V N} (hF : F.Lawful) {v : V} {p : String}
    (h : Absent F v p) (d : String) : Absent F (F.createDir v d).1 p := by
  unfold Absent
  rw [hF.createDir_openFile, h]

theorem Absent.createFile {F : Ops V N} (hF : F.Lawful) {v v' : V} {p q : String} {n : N}
    (h : Absent F v p) (hpq : Apart p q = true) (hc : F.createFile v q = (v', .ok n)) :
    Absent F v' p := by
  unfold Absent
  rcases hF.createFile_openFile hc p with hsame | ⟨_, hnew⟩
  · rw [hsame, h]
  -- A path apart from the new one cannot name the new file.
  · exact absurd rfl (hF.apart hpq hnew (hF.createFile_self hc))

theorem Holds.createFile {F : Ops V N} (hF : F.Lawful) {v v' : V} {p q : String} {n : N}
    {bs : List UInt8} (h : Holds F v p bs) (hc : F.createFile v q = (v', .ok n)) :
    Holds F v' p bs := by
  rcases h with ⟨m, ho, hr⟩
  have ho' : F.openFile v' p = some m := by
    rcases hF.createFile_openFile hc p with hsame | ⟨hnone, _⟩
    · rw [hsame, ho]
    · rw [ho] at hnone
      exact absurd hnone (by simp only [reduceCtorEq, not_false_eq_true])
  refine ⟨m, ho', ?_⟩
  -- The call either makes a new file or empties no file but the one it names.
  rcases hq : F.openFile v q with _ | k
  · rw [((hF.createFile_new hq hc).2 p m ho).2, hr]
  · rw [(hF.createFile_old hq hc).2 m, hr]

theorem Absent.untouched {F : Ops V N} {v v' : V} {p : String} {n : N} (h : Absent F v p)
    (hu : Untouched F v v' n) : Absent F v' p := by
  unfold Absent
  rw [hu.openFile, h]

theorem Holds.untouched {F : Ops V N} (hF : F.Lawful) {v v' : V} {p q : String} {n : N}
    {bs : List UInt8} (h : Holds F v p bs) (hpq : Apart p q = true)
    (hq : F.openFile v q = some n) (hu : Untouched F v v' n) : Holds F v' p bs := by
  rcases h with ⟨m, ho, hr⟩
  exact ⟨m, by rw [hu.openFile, ho], by rw [hu.readToEnd m (hF.apart hpq ho hq), hr]⟩

/-- A file made new and written piece by piece holds the pieces. -/
theorem holds_of_writeChunks {F : Ops V N} (hF : F.Lawful) {v v1 v2 : V} {p : String} {n : N}
    {cs : List (List UInt8)} (habs : Absent F v p) (hc : F.createFile v p = (v1, .ok n))
    (hw : writeChunks F v1 n 0 cs = (v2, .ok ())) : Holds F v2 p cs.flatten := by
  refine ⟨n, ?_, ?_⟩
  · rw [(writeChunks_untouched hF cs 0 v1 v2 hw).openFile, hF.createFile_self hc]
  · have h := writeChunks_readToEnd hF cs v1 v2 [] (hF.createFile_new habs hc).1 hw
    rwa [List.nil_append] at h

/-! ## The files on a volume -/

/-- The files on a volume: they read back, and what is apart from all of them
    is not there. -/
structure Shows (F : Ops V N) (v : V) (files : List (String × List UInt8)) : Prop where
  holds : ∀ f ∈ files, Holds F v f.1 f.2
  absent : ∀ q, (∀ f ∈ files, Apart q f.1 = true) → Absent F v q

theorem apartDir_comm (d e : String) : ApartDir d e = ApartDir e d := by
  unfold ApartDir
  rw [Bool.and_comm (d == "" || plainPath d), bne_comm]

theorem apart_comm (p q : String) : Apart p q = Apart q p := by
  unfold Apart
  rw [apartDir_comm, Bool.and_comm (plainPath p), bne_comm]

variable {F : Ops V N} {v v1 v2 : V} {files : List (String × List UInt8)}

theorem shows_format (hF : F.Lawful) {size : UInt64} (h : F.format size = .ok v) :
    Shows F v [] where
  holds _ hf := absurd hf List.not_mem_nil
  absent q _ := hF.format_openFile h q

theorem Shows.createDir (hF : F.Lawful) (h : Shows F v files) (d : String) :
    Shows F (F.createDir v d).1 files where
  holds f hf := (h.holds f hf).createDir hF d
  absent q hq := (h.absent q hq).createDir hF d

/-- A file apart from those that are there is added to them. -/
theorem Shows.createFile (hF : F.Lawful) (h : Shows F v files) {p : String} {n : N}
    {cs : List (List UInt8)} (hp : ∀ f ∈ files, Apart p f.1 = true)
    (hc : F.createFile v p = (v1, .ok n)) (hw : writeChunks F v1 n 0 cs = (v2, .ok ())) :
    Shows F v2 ((p, cs.flatten) :: files) := by
  have hunt := writeChunks_untouched hF cs 0 v1 v2 hw
  constructor
  · intro f hf
    rcases List.mem_cons.mp hf with rfl | hf
    · exact holds_of_writeChunks hF (h.absent p hp) hc hw
    -- An older file is apart from the new path, so neither call reaches it.
    · have hfp : Apart f.1 p = true := by
        rw [apart_comm]
        exact hp f hf
      exact ((h.holds f hf).createFile hF hc).untouched hF hfp (hF.createFile_self hc) hunt
  · intro q hq
    have hqp : Apart q p = true := hq (p, cs.flatten) List.mem_cons_self
    have hold : Absent F v q := h.absent q fun f hf => hq f (List.mem_cons_of_mem _ hf)
    exact (hold.createFile hF hqp hc).untouched hunt

/-- Filling a new file leaves the listings of other directories alone. -/
theorem createFile_writeChunks_openDir (hF : F.Lawful) {p d : String} {n : N}
    {cs : List (List UInt8)} (hc : F.createFile v p = (v1, .ok n))
    (hw : writeChunks F v1 n 0 cs = (v2, .ok ())) (hd : ApartDir d (dirOf p) = true) :
    F.openDir v2 d = F.openDir v d := by
  rw [(writeChunks_untouched hF cs 0 v1 v2 hw).openDir, hF.createFile_openDir hc hd]

/-- One piece is all of it. -/
theorem writeChunks_singleton (F : Ops V N) (v : V) (n : N) (c : List UInt8) :
    writeChunks F v n 0 [c] = F.writeAll v n 0 c := by
  unfold writeChunks
  rcases hw : F.writeAll v n 0 c with ⟨v', e | ⟨⟩⟩
  · rfl
  · rfl

end Volume
