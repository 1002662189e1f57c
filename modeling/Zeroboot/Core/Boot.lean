import Zeroboot.Core.Probe

/-!
# The Boot Step and the Claim Command

`main.rs`: the decision `init` evaluates, the claim a boot leaves on the drive
it boots, and the `claim` command.

A run of `boot` answers with its outcome, which fixes the pairs it emits and
its exit code, and with the machine it leaves behind. The only thing it can
change is the disk under the drive it boots. Progress lines go to stderr and
the inventory goes to a file of its own; neither is read by anything here, and
neither is kept. What writing the claim answered is kept, as `claimed`,
although the source only says it on stderr: a boot goes on either way.

`emit` is the text on stdout, the interface to a shell that evaluates it.

`nowRfc3339` counts years and then months off the days since the epoch. Its
month table is indexed without a check in the source, so running off its end
would stop the program; here that is the month after the last.

## Main definitions

* `nowRfc3339`: The clock as text.
* `shQuote`, `emit`: What goes to stdout.
* `Os.setDisk`: The machine after one disk was written to.
* `claimOnBoot`: The claim a boot leaves.
* `Outcome`: How a boot ends.
* `boot`: The boot step.
* `claim`: The claim command.
-/

namespace Zeroboot

/-! ## The clock -/

def isLeap (y : Nat) : Bool :=
  (y % 4 == 0 && y % 100 != 0) || y % 400 == 0

def yearLength (y : Nat) : Nat :=
  if isLeap y then 366 else 365

theorem yearLength_pos (y : Nat) : 0 < yearLength y := by
  unfold yearLength
  split_ifs <;> omega

/-- The year `d` days after the start of year `y` lies in, and the day of
    that year. -/
def yearLoop (y d : Nat) : Nat × Nat :=
  if d < yearLength y then (y, d) else yearLoop (y + 1) (d - yearLength y)
termination_by d
decreasing_by
  have hpos := yearLength_pos y
  omega

def monthLengths (y : Nat) : List Nat :=
  [31, if isLeap y then 29 else 28, 31, 30, 31, 30, 31, 31, 30, 31, 30, 31]

/-- The month a day of the year lies in, counted from `m`, and the day of that
    month. -/
def monthLoop : List Nat → Nat → Nat → Nat × Nat
  | [], m, d => (m, d)
  | len :: rest, m, d => if len ≤ d then monthLoop rest (m + 1) (d - len) else (m, d)

/-- A number in decimal, padded with zeros to a width. -/
def padded (width n : Nat) : String :=
  String.ofList (List.replicate (width - (Nat.toDigits 10 n).length) '0' ++ Nat.toDigits 10 n)

/-- RFC 3339, from the clock. -/
def nowRfc3339 (secs : Nat) : String :=
  let days := secs / 86400
  let rem := secs % 86400
  let (y, d) := yearLoop 1970 days
  let (m, d) := monthLoop (monthLengths y) 0 d
  padded 4 y ++ "-" ++ padded 2 (m + 1) ++ "-" ++ padded 2 (d + 1) ++ "T" ++
    padded 2 (rem / 3600) ++ ":" ++ padded 2 (rem % 3600 / 60) ++ ":" ++ padded 2 (rem % 60) ++ "Z"

/-! ## What goes to the shell -/

/-- One value, one line. -/
def flattenLines (v : String) : String :=
  String.ofList (v.toList.map (fun c => if c = '\n' ∨ c = '\r' then ' ' else c))

/-- Quote a value so `eval` can only ever see it as one string. -/
def shQuote (v : String) : String :=
  String.ofList ('\'' :: (flattenLines v).toList.flatMap
    (fun c => if c = '\'' then ['\'', '\\', '\'', '\''] else [c]) ++ ['\''])

/-- `KEY=value` for a shell to `eval`. -/
def emit (pairs : List (String × String)) : String :=
  String.join (pairs.map (fun p => p.1 ++ "=" ++ shQuote p.2 ++ "\n"))

/-! ## The boot step -/

variable {V N : Type}

/-- The machine after the disk of one device node was written to. -/
def Os.setDisk (os : Os V) (path : String) (disk : Disk V) : Os V :=
  { os with node := fun p => if p = path then { os.node p with disk := disk } else os.node p }

/-- Claim a drive the node is about to boot, when nobody has claimed it yet.
    Answers with what writing the claim answered, when it was tried. -/
def claimOnBoot (F : Volume.Ops V N) (os : Os V) (m : Machine) (drive : Option Drive) :
    Os V × Option (Except String Unit) :=
  match drive with
  | none => (os, none)
  | some d =>
      -- A claim is never overwritten here, whoever it names.
      if (d.esp.bind Esp.claim).isSome then (os, none)
      else
        match identityOf os m with
        | none => (os, none)
        | some me =>
            let written := writeClaim F d.path (os.node d.path).disk
              { node := me, claimed := nowRfc3339 os.secs }
            (os.setDisk d.path written.1, some written.2)

/-- How a boot ends, with every value it carries. -/
inductive Outcome where
  | bootLocal (drive slab slabId volume : String)
  | askAppliance (reason takeable : String)
  | error (reason : String)
  deriving DecidableEq

namespace Outcome

/-- The pairs handed to `emit`. -/
def emitted : Outcome → List (String × String)
  | bootLocal drive slab slabId volume =>
      [ ("ZB_ACTION", "boot-local"), ("ZB_DRIVE", drive), ("ZB_SLAB", slab),
        ("ZB_SLAB_ID", slabId), ("ZB_VOLUME", volume) ]
  | askAppliance reason takeable =>
      [("ZB_ACTION", "ask-appliance"), ("ZB_REASON", reason), ("ZB_TAKEABLE", takeable)]
  | error reason => [("ZB_ACTION", "error"), ("ZB_REASON", reason)]

def exitCode : Outcome → Nat
  | bootLocal _ _ _ _ => 0
  | askAppliance _ _ => 2
  | error _ => 1

/-- Everything on stdout. -/
def stdout (o : Outcome) : String :=
  emit o.emitted

end Outcome

/-- A run of the boot step: how it ends, what writing the claim answered, and
    the machine it leaves. -/
structure BootRun (V : Type) where
  outcome : Outcome
  claimed : Option (Except String Unit)
  os : Os V

/-- Boot from the appliance, and name a drive that is nobody's. -/
def ask (os : Os V) (reason takeable : String) : BootRun V where
  outcome := .askAppliance reason takeable
  claimed := none
  os := os

/-- The volume a drive's own loader entry asks for. -/
def volumeOf (d : Option Drive) : String :=
  (((d.bind Drive.esp).bind Esp.boot).bind Boot.bootVolume).getD ""

/-- The boot decision, as `init` consumes it. -/
def boot (F : Volume.Ops V N) (os : Os V) (m : Machine) (claimIt : Bool) : BootRun V :=
  match survey F os m with
  | .error e => { outcome := .error e, claimed := none, os := os }
  | .ok s =>
      match s.intent with
      | .alreadyMine drive slab slabId =>
          -- The loader entry is that of the drive the verdict named, found by its path.
          let d := s.drives.find? (fun d => d.path == drive)
          let claimed := if claimIt then claimOnBoot F os m d else (os, none)
          { outcome := .bootLocal drive slab slabId (volumeOf d)
            claimed := claimed.2
            os := claimed.1 }
      | .takeOver path => ask os ("nothing of ours here yet; " ++ path ++ " is free") path
      | .mineButNoneBoots because => ask os (Text.join "; " because) ""
      | .nothingToTake because => ask os (Text.join "; " because) ""

/-! ## The claim command -/

/-- Write this node's name onto a drive it owns. Answers with the line it
    prints, or its error, and the machine it leaves. -/
def claim (F : Volume.Ops V N) (os : Os V) (device : String) (node : Option String)
    (sysfs : String) (force : Bool) : Os V × Except String String :=
  match node.or (machineIdentity os sysfs) with
  | none =>
      (os, .error ("this machine will not say who it is - no usable SMBIOS serial in " ++
        sysfs ++ "/class/dmi/id/product_serial. Pass --node."))
  | some me =>
      match Esp.read F (os.node device).disk with
      | .error e => (os, .error e)
      | .ok none =>
          (os, .error (device ++ " has no EFI System Partition to claim in - a claim lives on " ++
            "the ESP, so a drive carrying a bare slab has nowhere to put one"))
      | .ok (some existing) =>
          let write :=
            let c : Claim := { node := me, claimed := nowRfc3339 os.secs }
            let written := writeClaim F device (os.node device).disk c
            (os.setDisk device written.1,
              written.2.map (fun _ => device ++ " claimed by " ++ me ++ " at " ++ c.claimed))
          match existing.claim with
          | none => write
          | some held =>
              -- Another node's claim needs the operator's word; one's own needs nothing.
              if held.node ≠ me ∧ force = false then
                (os, .error (device ++ " is claimed by node " ++ held.node ++ " (on " ++
                  held.claimed ++ "). That claim is what stops a disk changing hands by " ++
                  "accident; pass --force to take it anyway."))
              else if held.node = me then (os, .ok (device ++ " is already claimed by " ++ me))
              else write

end Zeroboot
