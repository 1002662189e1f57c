import Zeroboot.Core.Esp

/-!
# The Judgement

`survey.rs`: what a drive turned out to be, whether it starts the node, and
what follows from all the drives together.

Whose a drive is and whether it boots stay two questions. The verdict answers
the first. `Drive.boots` answers the second from the ESP when there is one,
and from the role of the slab when there is none.

Both sorts of the source are stable. Insertion sort is, too, and it recurses
on the list, so an intent can be evaluated.

## Main definitions

* `Verdict`: What a drive turned out to be.
* `Drive`: One drive, judged.
* `Drive.boots`, `Drive.whyNot`: Whether it starts the node, and why not.
* `Survey.mine`, `Survey.bootable`, `Survey.available`: The drives that
  matter, in the order they are considered.
* `Intent`, `Survey.intent`: What the survey concludes.
-/

namespace Zeroboot

inductive Verdict where
  | mine (slabId role slab : String)
  | anotherNode (slabId owner : String)
  | foreign (what : String)
  | blank
  | unreadable (why : String)
  deriving DecidableEq

namespace Verdict

/-- Whether zeroboot may format this drive. -/
def isAvailable : Verdict → Bool
  | blank => true
  | _ => false

/-- Whether this node is already set up here. -/
def isMine : Verdict → Bool
  | mine _ _ _ => true
  | _ => false

def slabRole : Verdict → Option String
  | mine _ role _ => some role
  | _ => none

def display : Verdict → String
  | mine slabId role slab =>
      "mine - stormblock slab " ++ slabId ++ " on " ++ slab ++ " (" ++ role ++ ")"
  | anotherNode slabId owner => "another node's - slab " ++ slabId ++ " owned by " ++ owner
  | foreign what => "not ours - " ++ what
  | blank => "blank - available"
  | unreadable why => "unreadable - " ++ why

end Verdict

structure Drive where
  path : String
  sizeBytes : UInt64
  rotational : Bool
  model : Option String
  wwid : Option String
  serial : Option String
  table : Option Table
  esp : Option Esp
  verdict : Verdict
  deriving DecidableEq

/-- Whether this drive can start the node. Without an ESP there is nothing to
    check, and a system slab is taken at its word. -/
def Drive.boots (d : Drive) : Bool :=
  match d.esp with
  | some e => e.boot.isSome
  | none => d.verdict.slabRole == some "system"

/-- Why it does not, in the drive's own words. -/
def Drive.whyNot (d : Drive) : String :=
  match d.esp with
  | none =>
      match d.verdict.slabRole with
      | some role => "a " ++ role ++ " slab, which does not boot a node"
      | none => "nothing on it that boots"
  | some e => if e.missing = [] then "nothing bootable on its ESP" else Text.join "; " e.missing

structure Survey where
  drives : List Drive
  deriving DecidableEq

inductive Intent where
  | alreadyMine (drive slab slabId : String)
  | mineButNoneBoots (because : List String)
  | takeOver (path : String)
  | nothingToTake (because : List String)
  deriving DecidableEq

namespace Survey

/-- The key `mine` sorts by: system slabs first. -/
def roleKey (d : Drive) : Nat :=
  if d.verdict.slabRole = some "system" then 0 else 1

/-- Drives this node already owns, the one that boots first. -/
def mine (s : Survey) : List Drive :=
  (s.drives.filter (fun d => d.verdict.isMine)).insertionSort
    (fun a b => roleKey a ≤ roleKey b)

/-- Drives this node owns and can boot from. -/
def bootable (s : Survey) : List Drive :=
  s.mine.filter Drive.boots

/-- The order of `available`: solid state before spinning, and then the
    larger drive first. -/
def preferred (a b : Drive) : Bool :=
  if a.rotational = b.rotational then b.sizeBytes ≤ a.sizeBytes else !a.rotational

/-- Drives that may be taken, the most welcome first. -/
def available (s : Survey) : List Drive :=
  (s.drives.filter (fun d => d.verdict.isAvailable)).insertionSort
    (fun a b => preferred a b = true)

/-- What `intent` makes of a bootable drive. -/
def already (d : Drive) : Option Intent :=
  match d.verdict with
  | .mine slabId _ slab => some (.alreadyMine d.path slab slabId)
  | _ => none

/-- Is there anything to do, and may it be done? -/
def intent (s : Survey) : Intent :=
  match s.bootable.findSome? already with
  | some i => i
  | none =>
      -- A node that owns a drive takes no other, even when none of its own boots.
      if s.mine ≠ [] then
        .mineButNoneBoots
          (s.mine.map (fun d => d.path ++ " " ++ d.verdict.display ++ " - " ++ d.whyNot))
      else
        match s.available with
        | d :: _ => .takeOver d.path
        | [] => .nothingToTake (s.drives.map (fun d => d.path ++ " " ++ d.verdict.display))

end Survey

end Zeroboot
