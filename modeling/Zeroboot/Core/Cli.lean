import Zeroboot.Core.Report

/-!
# The Command Line

`main.rs`: the commands of zeroboot, and what each comes down to.

How `clap` takes the arguments apart is not modelled. A `Command` is what it
hands over, with its defaults filled in. What `main` does with it is: find the
stormblock binary when none was named, take the `volume:mount` pairs apart, call
the function behind the command, print what it answers, and exit.

An error that `main` returns is said on stderr and exits with 1. The table that
`survey` prints for a person is kept as the survey it shows.

## Main definitions

* `findStormblock`: Where the stormblock binary is.
* `writableMount`, `writableMounts`: The `volume:mount` pairs.
* `Command`, `Command.run`: The commands.
-/

namespace Zeroboot

/-! ## Defaults -/

/-- What is asked of the environment: `PATH`, and whether a file is there. -/
structure Env where
  path : Option String
  isFile : String → Bool

/-- `str::split` with a character. -/
def splitAll (c : Char) (s : String) : List String :=
  (s.toList.splitOn c).map String.ofList

/-- The initramfs path first, since that is where this runs. -/
def findStormblock (env : Env) : Option String :=
  let fixed := ["/usr/sbin/stormblock", "/sbin/stormblock", "/usr/bin/stormblock"]
  let onPath := match env.path with
    | some path => ((splitAll ':' path).filter (· ≠ "")).map (pathJoin · "stormblock")
    | none => []
  (fixed ++ onPath).find? env.isFile

def Machine.default (env : Env) : Machine where
  sysfs := "/sys"
  dev := "/dev"
  stormblock := findStormblock env
  only := []
  identity := none

/-! ## Arguments that are taken apart -/

/-- One `--writable`. -/
def writableMount (w : String) : Except String WritableMount :=
  match Text.splitOnce ':' w with
  | some (vol, mnt) => .ok { volume := vol, mount := mnt }
  | none => .error ("--writable must be volume:mount, got " ++ w)

/-- All of them, or what is wrong with the first that is not right. -/
def writableMounts (ws : List String) : Except String (List WritableMount) :=
  ws.mapM writableMount

/-- The arguments of `boot-image`. -/
structure BootImageArgs where
  kernel : String
  initramfs : String
  bootloader : String
  slab : String
  volume : String
  espMib : UInt64
  imageStore : Option String
  writable : List String
  diskDevice : String
  cmdline : Option String
  out : String

def BootImageArgs.spec (args : BootImageArgs) (writable : List WritableMount) : BootImageSpec where
  kernel := args.kernel
  initramfs := args.initramfs
  bootloader := args.bootloader
  slab := args.slab
  volume := args.volume
  espMib := args.espMib
  imageStore := args.imageStore
  writable := writable
  diskDevice := args.diskDevice
  extraCmdline := args.cmdline
  out := args.out

/-! ## The commands -/

inductive Command where
  | boot (report : String) (noClaim : Bool) (sysfs dev : String) (stormblock node : Option String)
  | survey (json : Bool) (devices : List String) (stormblock : Option String) (sysfs dev : String)
      (node : Option String)
  | claim (device : String) (node : Option String) (sysfs : String) (force : Bool)
  | bootImage (args : BootImageArgs)

/-- Everything a command can touch: the machine, its files, and the output path
    of an image build. -/
structure Station (V S : Type) where
  os : Os V
  files : S
  image : Output V

/-- What is on stdout. -/
inductive Printed where
  | text (s : String)
  | table (s : Survey)

structure Exit where
  code : Nat
  stdout : Printed

/-- An error that `main` returns. -/
def Exit.failed : Exit where
  code := 1
  stdout := .text ""

variable {V N G S : Type}

def bootImageMain (F : Volume.Ops V N) (J : Json.Printer) (O : GptOps G) (host : Host)
    (args : BootImageArgs) : Run (Output V) String := do
  let writable ← Run.ofExcept (writableMounts args.writable)
  let report ← build F O host (args.spec writable)
  return J report.toJson ++ "\n"

def Command.run (F : Volume.Ops V N) (J : Json.Printer) (D : FileOps S) (O : GptOps G)
    (host : Host) (env : Env) (st : Station V S) : Command → Station V S × Exit
  | boot report noClaim sysfs dev stormblock node =>
      let machine : Machine :=
        { sysfs := sysfs, dev := dev,
          stormblock := stormblock.or (Machine.default env).stormblock, only := [],
          identity := node }
      let booted := bootReported F J D st.os st.files machine report (!noClaim)
      ({ st with os := booted.1.os, files := booted.2.1 },
        { code := booted.1.outcome.exitCode, stdout := .text booted.1.outcome.stdout })
  | survey json devices stormblock sysfs dev node =>
      let machine : Machine :=
        { sysfs := sysfs, dev := dev,
          stormblock := stormblock.or (Machine.default env).stormblock, only := devices,
          identity := node }
      match Zeroboot.survey F st.os machine with
      | .error _ => (st, .failed)
      | .ok s =>
          if json then (st, { code := 0, stdout := .text (reportText J s ++ "\n") })
          else (st, { code := 0, stdout := .table s })
  | claim device node sysfs force =>
      match Zeroboot.claim F st.os device node sysfs force with
      | (os, .error _) => ({ st with os := os }, .failed)
      | (os, .ok line) => ({ st with os := os }, { code := 0, stdout := .text (line ++ "\n") })
  | bootImage args =>
      match bootImageMain F J O host args st.image with
      | (image, .error _) => ({ st with image := image }, .failed)
      | (image, .ok text) => ({ st with image := image }, { code := 0, stdout := .text text })

end Zeroboot
