import Zeroboot.Core.Bytes
import Zeroboot.Lib.Checked

/-!
# The Scan, Every Sum Checked

The functions of the scan once more, as the source writes them, on arithmetic
that gives up where 64 bits do not hold the result. What the model computes
with natural numbers is what the program computes exactly when these have a
result.

The position of the file is kept by the kernel, so it is not among the sums.
The index behind what was read so far is.

## Main definitions

* `regionChecked`, `wholeLoopChecked`, `sampleLoopChecked`, `tailScanChecked`:
  A region, and the three phases.
* `firstNonzeroChecked`: The whole scan.
-/

namespace Zeroboot

open Medium

/-- The loop of `region`, with `got` bytes of the buffer filled. -/
def fillChecked (h : Handle) (off got len : Nat) (log : List ReadCall) :
    Option (Scanned (List UInt8)) :=
  if _hlt : got < len then
    match Checked.sub len got with
    | none => none
    | some want =>
        match h.read log (off + got) want with
        | .error e => some (.error e, log ++ [⟨off + got, want, .error e⟩])
        | .ok [] => some (.ok [], log ++ [⟨off + got, want, .ok []⟩])
        | .ok (b :: bs) =>
            match _hadd : Checked.add got (b :: bs).length with
            | none => none
            | some got' =>
                match fillChecked h off got' len (log ++ [⟨off + got, want, .ok (b :: bs)⟩]) with
                | none => none
                | some (.ok rest, log') => some (.ok (b :: bs ++ rest), log')
                | some (.error e, log') => some (.error e, log')
  else some (.ok [], log)
termination_by len - got
decreasing_by
  have hsum := (Checked.add_eq_some_iff.mp _hadd).2
  rw [List.length_cons] at hsum
  omega

def regionChecked (h : Handle) (off len : Nat) (log : List ReadCall) :
    Option (Scanned (List UInt8)) :=
  fillChecked h off 0 len log

def wholeLoopChecked (h : Handle) (off whole : Nat) (log : List ReadCall) :
    Option (Scanned (Option Nat)) :=
  if _hlt : off < whole then
    match Checked.sub whole off with
    | none => none
    | some rest =>
        match regionChecked h off (min (2 ^ 20) rest) log with
        | none => none
        | some (.error e, log) => some (.error e, log)
        | some (.ok chunk, log) =>
            if _hne : chunk = [] then some (.ok none, log)
            else
              match position chunk with
              | some i => (Checked.add off i).map (fun o => (.ok (some o), log))
              | none =>
                  match _hadd : Checked.add off chunk.length with
                  | none => none
                  | some off' => wholeLoopChecked h off' whole log
  else some (.ok none, log)
termination_by whole - off
decreasing_by
  have hsum := (Checked.add_eq_some_iff.mp _hadd).2
  have hpos := List.length_pos_iff.mpr _hne
  omega

def sampleLoopChecked (h : Handle) (pos len : Nat) (log : List ReadCall) :
    Option (Scanned (Option Nat)) :=
  match _hend : Checked.add pos SAMPLE with
  | none => none
  | some stop =>
      if _hle : stop ≤ len then
        match regionChecked h pos SAMPLE log with
        | none => none
        | some (.error e, log) => some (.error e, log)
        | some (.ok chunk, log) =>
            match position chunk with
            | some i => (Checked.add pos i).map (fun o => (.ok (some o), log))
            | none =>
                match _hadd : Checked.add pos STRIDE with
                | none => none
                | some pos' => sampleLoopChecked h pos' len log
      else some (.ok none, log)
termination_by len - pos
decreasing_by
  have hstop := (Checked.add_eq_some_iff.mp _hend).2
  have hsum := (Checked.add_eq_some_iff.mp _hadd).2
  simp only [SAMPLE, STRIDE] at hstop hsum
  omega

def tailScanChecked (h : Handle) (whole len : Nat) (log : List ReadCall) :
    Option (Scanned (Option Nat)) :=
  match Checked.add whole TAIL with
  | none => none
  | some stop =>
      if stop < len then
        match Checked.sub len TAIL with
        | none => none
        | some start =>
            match regionChecked h start TAIL log with
            | none => none
            | some (.error e, log) => some (.error e, log)
            | some (.ok chunk, log) =>
                match position chunk with
                | some i => (Checked.add start i).map (fun o => (.ok (some o), log))
                | none => some (.ok none, log)
      else some (.ok none, log)

def firstNonzeroChecked (h : Handle) : Option (Scanned (Option Nat)) :=
  match h.seekEnd with
  | .error e => some (.error e, [])
  | .ok len =>
      match wholeLoopChecked h 0 (wholeOf len) [] with
      | some (.ok none, log) =>
          match sampleLoopChecked h (wholeOf len) len log with
          | some (.ok none, log) => tailScanChecked h (wholeOf len) len log
          | found => found
      | found => found

end Zeroboot
