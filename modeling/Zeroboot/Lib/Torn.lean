import Zeroboot.Lib.Filling

/-!
# Calls That Fail

What a driver leaves behind when a call fails.

Little is promised, and not all of it by everybody. A write that fails has put
a part of its text there, from the front: `FailsShort`. Nothing like that can be
said of the other calls, which may have done their work in part or not at all.
But a call is about one file, and however it fails, the others are left alone:
`FailsApart`. The calls before it stand.

`tornMemory` is the volume in memory on a medium that fills up, so every write
of more than so many bytes is torn there.

## Main definitions

* `Ops.FailsShort`: What a write that fails leaves of its file.
* `Ops.FailsApart`: What calls that fail leave of the other files.
* `tornMemory`: The volume in memory with writes that are cut off.

## Theorems

* `readToEnd_torn`: An empty file holds the part that was written.
* `tornMemory_lawful`, `tornMemory_failsShort`, `tornMemory_failsApart`: The torn
  volume meets all of the laws.
-/

namespace Volume

variable {V N : Type}

/-- A write that fails has written a part of its text, and only that. -/
structure Ops.FailsShort (F : Ops V N) : Prop where
  untouched : ∀ {v n k bs v' e}, F.writeAll v n k bs = (v', .error e) → Untouched F v v' n
  readToEnd : ∀ {v n k bs v' e old}, F.writeAll v n k bs = (v', .error e) →
    F.readToEnd v n = some old → k ≤ old.length → ∃ j,
      F.readToEnd v' n = some (old.take k ++ bs.take j ++ old.drop (k + (bs.take j).length))

/-- A call that fails is about no other file than one that goes through. -/
structure Ops.FailsApart (F : Ops V N) : Prop where
  createFile : ∀ {v p v' e q bs}, F.createFile v p = (v', .error e) → Apart q p = true →
    Holds F v q bs → Holds F v' q bs
  truncate : ∀ {v n k v' e}, F.truncate v n k = (v', .error e) → Untouched F v v' n
  writeAll : ∀ {v n k bs v' e}, F.writeAll v n k bs = (v', .error e) → Untouched F v v' n
  flush : ∀ {v n v' e}, F.flush v n = (v', .error e) → Untouched F v v' n

/-- An empty file holds the part that was written before the error. -/
theorem readToEnd_torn {F : Ops V N} (hshort : F.FailsShort) {v v' : V} {n : N} {bs : List UInt8}
    {e : String} (h : F.writeAll v n 0 bs = (v', .error e)) (hempty : F.readToEnd v n = some []) :
    ∃ j, F.readToEnd v' n = some (bs.take j) := by
  rcases hshort.readToEnd h hempty (Nat.zero_le _) with ⟨j, hj⟩
  refine ⟨j, ?_⟩
  rw [hj, List.take_nil, List.nil_append, List.drop_nil, List.append_nil]

/-- The volume in memory on a medium that takes `room` bytes of each write. -/
def tornMemory (room : Nat) : Ops Memory String :=
  { memory with
    writeAll := fun v n k bs =>
      if room < bs.length then
        ((memory.writeAll v n k (bs.take room)).1, .error "no space left on device")
      else memory.writeAll v n k bs }

theorem tornMemory_ok {room : Nat} {v v' : Memory} {n : String} {k : Nat} {bs : List UInt8}
    (h : (tornMemory room).writeAll v n k bs = (v', .ok ())) :
    memory.writeAll v n k bs = (v', .ok ()) := by
  simp only [tornMemory] at h
  by_cases hroom : room < bs.length
  · rw [if_pos hroom, Prod.mk.injEq] at h
    exact absurd h.2 (by simp only [reduceCtorEq, not_false_eq_true])
  · rwa [if_neg hroom] at h

theorem tornMemory_error {room : Nat} {v v' : Memory} {n : String} {k : Nat} {bs : List UInt8}
    {e : String} (h : (tornMemory room).writeAll v n k bs = (v', .error e)) :
    memory.writeAll v n k (bs.take room) = (v', .ok ()) := by
  simp only [tornMemory] at h
  by_cases hroom : room < bs.length
  · rw [if_pos hroom, Prod.mk.injEq] at h
    exact Prod.ext h.1 rfl
  · rw [if_neg hroom] at h
    exact absurd (Prod.mk.inj h).2 (by simp only [reduceCtorEq, not_false_eq_true])

/-- Both volumes are read the same way. -/
theorem untouched_torn {room : Nat} {v v' : Memory} {n : String} (h : Untouched memory v v' n) :
    Untouched (tornMemory room) v v' n where
  openFile := h.openFile
  openDir := h.openDir
  readToEnd := h.readToEnd

theorem tornMemory_lawful (room : Nat) : (tornMemory room).Lawful :=
  { memory_lawful with
    truncate_untouched := fun h => untouched_torn (memory_lawful.truncate_untouched h)
    writeAll_untouched := fun h =>
      untouched_torn (memory_lawful.writeAll_untouched (tornMemory_ok h))
    writeAll_readToEnd := fun h => memory_lawful.writeAll_readToEnd (tornMemory_ok h)
    flush_untouched := fun h => untouched_torn (memory_lawful.flush_untouched h) }

theorem tornMemory_failsShort (room : Nat) : (tornMemory room).FailsShort where
  untouched h := untouched_torn (memory_lawful.writeAll_untouched (tornMemory_error h))
  readToEnd h hold hk := ⟨room, memory_lawful.writeAll_readToEnd (tornMemory_error h) hold hk⟩

theorem tornMemory_failsApart (room : Nat) : (tornMemory room).FailsApart where
  createFile := by
    intro v p v' e q bs h _ hholds
    -- Only a new file in a directory that is not there is refused.
    have hsame : v' = v := by
      simp only [tornMemory, memory, Memory.createFile] at h
      split_ifs at h
      · exact absurd (Prod.mk.inj h).2 (by simp only [reduceCtorEq, not_false_eq_true])
      · exact absurd (Prod.mk.inj h).2 (by simp only [reduceCtorEq, not_false_eq_true])
      · exact (Prod.mk.inj h).1.symm
    rw [hsame]
    exact hholds
  truncate h := absurd (Prod.mk.inj h).2 (by simp only [reduceCtorEq, not_false_eq_true])
  writeAll := (tornMemory_failsShort room).untouched
  flush h := absurd (Prod.mk.inj h).2 (by simp only [reduceCtorEq, not_false_eq_true])

end Volume
