import Zeroboot.Lib.Run
import Zeroboot.Theory.Ownership

/-!
# One Claim after Another

A drive that is claimed again and again.

Each write replaces the claim file whole, so what an earlier one left there
does not matter, nor what stood there before the first. The frame is the other
half: an ESP that is read before and after differs in its claim and in nothing
else. That fails for one kind of loader entry only, one that names the claim
file as its kernel or its initramfs, under whatever spelling. Which paths
these are cannot be read off a volume without the file, so it is asked of the
volume with the file made.

## Main definitions

* `writeClaims`: Claims written one after the other.
* `NamesClaim`: A path to the claim file.
* `SparesClaim`: No file of the loader entry is the claim file.

## Theorems

* `ofVolume_reclaimed`: One claim changes nothing but the claim.
* `SparesClaim.written`: And leaves the loader entry apart from it.
* `claims_replace`: Nor do any number of them.
-/

namespace Zeroboot

open Run Volume

variable {V N : Type} {F : Ops V N}

/-- Claims written one after the other, up to one that fails. -/
def writeClaims (F : Ops V N) (drive : String) : List Claim → Run (Disk V) Unit
  | [] => pure ()
  | c :: cs => do
      fun disk => writeClaim F drive disk c
      writeClaims F drive cs

/-- The path opens the claim file, once that is there. -/
def NamesClaim (F : Ops V N) (vol : V) (path : String) : Prop :=
  ∃ n, F.openFile (withClaimFile F vol) path = some n ∧
    F.openFile (withClaimFile F vol) claimPath = some n

/-- The loader entry names the claim file neither as its kernel nor as its
    initramfs. -/
def SparesClaim (F : Ops V N) (vol : V) : Prop :=
  ∀ entry, loaderEntry F vol = some entry → ∀ p, entry.linux = some p ∨ entry.initrd = some p →
    ¬ NamesClaim F vol (Text.trimStartMatches '/' p)

/-! ## One claim -/

section Once

variable {vol : V} {c : Claim} {path : String}

/-- A path to another file names what it did, and reads as it did. -/
theorem spared_written (hF : F.Lawful) (h : (writeClaimFile F vol c).2 = .ok ())
    (hp : ¬ NamesClaim F vol path) :
    F.openFile (writeClaimFile F vol c).1 path = F.openFile vol path ∧
      readFile F (writeClaimFile F vol c).1 path = readFile F vol path := by
  rcases writeClaimFile_ok hF h with ⟨hr, hnames⟩
  rcases hr.self with ⟨n, hself, _⟩
  -- The file a path comes to name is not the claim file.
  have hother : F.openFile (writeClaimFile F vol c).1 path ≠ some n := by
    intro hn
    rw [hnames] at hn hself
    exact hp ⟨n, hn, hself⟩
  have hopen : F.openFile (writeClaimFile F vol c).1 path = F.openFile vol path := by
    rw [← hF.createDir_openFile vol "stormcos" path]
    rcases hold : F.openFile (F.createDir vol "stormcos").1 path with _ | m
    · rcases hr.fresh path hold with hnone | hsame
      · exact hnone
      · rw [hself] at hsame
        exact absurd hsame hother
    · exact (hr.others path m hold).1
  refine ⟨hopen, ?_⟩
  unfold readFile
  rw [hopen]
  rcases hold : F.openFile vol path with _ | m
  · rfl
  · rw [← hF.createDir_openFile vol "stormcos"] at hold
    rcases hr.others path m hold with ⟨hnow, hclaim | hkeep⟩
    · rw [hself] at hclaim
      exact absurd (hnow.trans hclaim.symm) hother
    · rw [Option.bind_some, Option.bind_some, hkeep, hF.createDir_readToEnd]

theorem not_namesClaim_of_apart (hF : F.Lawful) (hp : Apart path claimPath = true) :
    ¬ NamesClaim F vol path := by
  rintro ⟨n, hopen, hclaim⟩
  exact hF.apart hp hopen hclaim rfl

theorem missingFile_reclaimed (hF : F.Lawful) (h : (writeClaimFile F vol c).2 = .ok ())
    {what : String} {p : Option String}
    (hp : ∀ q, p = some q → ¬ NamesClaim F vol (Text.trimStartMatches '/' q)) :
    missingFile F (writeClaimFile F vol c).1 what p = missingFile F vol what p := by
  cases p with
  | none => rfl
  | some q =>
      unfold missingFile
      simp only [(spared_written hF h (hp q rfl)).2]

/-- One claim changes nothing but the claim. -/
theorem ofVolume_reclaimed (hF : F.Lawful) (h : (writeClaimFile F vol c).2 = .ok ())
    (hs : SparesClaim F vol) :
    Esp.ofVolume F (writeClaimFile F vol c).1 =
      { Esp.ofVolume F vol with claim := Claim.parse c.render } := by
  have hr := writeClaimFile_replaced hF h
  have hclaim : (readFile F (writeClaimFile F vol c).1 claimPath).bind Claim.parse =
      Claim.parse c.render := by
    rw [readFile_claim_written hr, Option.bind_some]
  unfold Esp.ofVolume
  rw [loaderEntry_written hF hr, hclaim]
  rcases hentry : loaderEntry F vol with _ | entry
  · rfl
  · -- Everything the entry needs is there now if it was there before.
    have hmissing : missingOf F (writeClaimFile F vol c).1 entry = missingOf F vol entry := by
      unfold missingOf
      rw [missingFile_reclaimed hF h fun p hp => hs entry hentry p (Or.inl hp),
        missingFile_reclaimed hF h fun p hp => hs entry hentry p (Or.inr hp),
        (spared_written hF h (not_namesClaim_of_apart hF (by decide))).1]
    simp only [hmissing]
    split_ifs
    · rfl
    · rfl

/-- After a write the claim file is there, so making it adds no name. -/
theorem namesClaim_written_iff (hF : F.Lawful) (hopens : F.OpensExisting)
    (h : (writeClaimFile F vol c).2 = .ok ()) :
    NamesClaim F (writeClaimFile F vol c).1 path ↔ NamesClaim F vol path := by
  rcases writeClaimFile_ok hF h with ⟨hr, hnames⟩
  rcases hr.self with ⟨n, hself, _⟩
  have hthere : F.openFile (F.createDir (writeClaimFile F vol c).1 "stormcos").1 claimPath =
      some n := by
    rw [hF.createDir_openFile, hself]
  have hsame (q : String) : F.openFile (withClaimFile F (writeClaimFile F vol c).1) q =
      F.openFile (withClaimFile F vol) q := by
    unfold withClaimFile at hnames ⊢
    rw [hopens _ _ n hthere q, hF.createDir_openFile, hnames]
  unfold NamesClaim
  rw [hsame, hsame]

theorem SparesClaim.written (hF : F.Lawful) (hopens : F.OpensExisting) (hs : SparesClaim F vol)
    (h : (writeClaimFile F vol c).2 = .ok ()) : SparesClaim F (writeClaimFile F vol c).1 := by
  intro entry hentry p hp
  rw [loaderEntry_written hF (writeClaimFile_replaced hF h)] at hentry
  rw [namesClaim_written_iff hF hopens h]
  exact hs entry hentry p hp

end Once

/-! ## One claim after another -/

variable {drive : String} {disk disk' : Disk V} {start stop : UInt64} {vol : V} {e : Esp}

/-- A disk whose ESP is read: the volume on it, and that no claim is in the way
    of the loader entry. -/
structure Reads (F : Ops V N) (disk : Disk V) (e : Esp) : Prop where
  read : Esp.read F disk = .ok (some e)
  spares : ∀ start stop vol, espExtent disk = some (start, stop) →
    disk.mount start stop = .ok vol → SparesClaim F vol

/-- One claim on a disk. -/
theorem Reads.claim (hF : F.Lawful) (hopens : F.OpensExisting) (h : Reads F disk e) {c : Claim}
    (hw : writeClaim F drive disk c = (disk', .ok ())) :
    Reads F disk' { e with claim := Claim.parse c.render } := by
  rcases read_eq_some h.read with ⟨start, stop, vol, hx, hopen, hm, rfl⟩
  have hs := h.spares start stop vol hx hm
  rcases writeClaim_cases F drive disk c with ⟨err, herr⟩ |
    ⟨start', stop', vol', hx', _, hm', hput⟩
  · rw [herr] at hw
    exact absurd (Prod.mk.inj hw).2 (by simp only [reduceCtorEq, not_false_eq_true])
  · -- The volume that was written to is the one that was read.
    rw [hx, Option.some_inj, Prod.mk.injEq] at hx'
    rw [← hx'.1, ← hx'.2] at hm' hput
    rw [hm, Except.ok.injEq] at hm'
    rw [← hm'] at hput
    rw [hput] at hw
    rcases Prod.mk.inj hw with ⟨rfl, hok⟩
    have hxput : espExtent (disk.put start stop (writeClaimFile F vol c).1) = some (start, stop) :=
      hx
    constructor
    · rw [read_put _ hx hopen, ofVolume_reclaimed hF hok hs]
    · intro a b v hab hv
      rw [hxput, Option.some_inj, Prod.mk.injEq] at hab
      rw [← hab.1, ← hab.2, Disk.put_mount_self, Except.ok.injEq] at hv
      rw [← hv]
      exact hs.written hF hopens hok

/-- Claims before the last leave no trace, by induction along them. -/
theorem Reads.claims (hF : F.Lawful) (hopens : F.OpensExisting) {cs : List Claim} {last : Claim}
    (h : Reads F disk e) (hends : Ends (writeClaims F drive (cs ++ [last])) disk disk' ()) :
    Reads F disk' { e with claim := Claim.parse last.render } := by
  induction cs generalizing disk e with
  | nil =>
      rcases ends_bind_iff.mp hends with ⟨_, disk1, hw, hrest⟩
      rcases ends_pure_iff.mp hrest with ⟨rfl, _⟩
      exact h.claim hF hopens hw
  | cons c cs ih =>
      rcases ends_bind_iff.mp hends with ⟨_, disk1, hw, hrest⟩
      have hlast := ih (h.claim hF hopens hw) hrest
      exact hlast

/-- After any number of claims an ESP that was read is read as it was, with
    the last claim on it. -/
theorem claims_replace (hF : F.Lawful) (hopens : F.OpensExisting)
    (hread : Esp.read F disk = .ok (some e))
    (hspares : ∀ start stop vol, espExtent disk = some (start, stop) →
      disk.mount start stop = .ok vol → SparesClaim F vol)
    {cs : List Claim} {last : Claim}
    (hnode : last.node ≠ "" ∧ Text.trim last.node = last.node ∧ '\n' ∉ last.node.toList)
    (hclaimed : Text.trim last.claimed = last.claimed ∧ '\n' ∉ last.claimed.toList)
    (hends : Ends (writeClaims F drive (cs ++ [last])) disk disk' ()) :
    Esp.read F disk' = .ok (some { boot := e.boot, claim := some last, missing := e.missing }) := by
  have hreads : Reads F disk' { e with claim := Claim.parse last.render } :=
    Reads.claims hF hopens ⟨hread, hspares⟩ hends
  have hparse : Claim.parse last.render = some last :=
    parse_render_eq ⟨hnode.1, hnode.2.1, hnode.2.2⟩ ⟨hclaimed.1, hclaimed.2⟩
  rw [hreads.read, hparse]

/-- An ESP with a long claim on it already. -/
def claimedVolume : Memory :=
  Bench.espVolume "rd.stormblock.slab=/dev/sda2 stormblock.volume=root"
    (some "node=worker-17.storage.example\nclaimed=a while ago\n")

theorem claimedVolume_entry : loaderEntry memory claimedVolume =
    some { linux := some "/vmlinuz", initrd := some "/initramfs.img",
           options := some "rd.stormblock.slab=/dev/sda2 stormblock.volume=root" } := by
  decide +kernel

theorem claimedVolume_spares : SparesClaim memory claimedVolume := by
  intro entry hentry p hp
  rw [claimedVolume_entry, Option.some_inj] at hentry
  rw [← hentry] at hp
  simp only [Option.some_inj] at hp
  refine not_namesClaim_of_apart memory_lawful ?_
  rcases hp with rfl | rfl
  · decide
  · decide

theorem claimedVolume_esp : Esp.ofVolume memory claimedVolume =
    { boot := some
        { cmdline := "rd.stormblock.slab=/dev/sda2 stormblock.volume=root"
          slabDevice := some "/dev/sda2"
          bootVolume := some "root" }
      claim := some { node := "worker-17.storage.example", claimed := "a while ago" }
      missing := [] } := by
  have hclaim : (readFile memory claimedVolume claimPath).bind Claim.parse =
      some { node := "worker-17.storage.example", claimed := "a while ago" } := by
    decide +kernel
  have hmissing : missingOf memory claimedVolume
      { linux := some "/vmlinuz", initrd := some "/initramfs.img",
        options := some "rd.stormblock.slab=/dev/sda2 stormblock.volume=root" } = [] := by
    decide +kernel
  unfold Esp.ofVolume
  rw [claimedVolume_entry, hclaim]
  simp only [hmissing, ne_eq, not_true_eq_false, if_false, Option.getD_some]
  decide +kernel

/-- It is claimed by two nodes, one after the other, with shorter names. -/
theorem claims_replace_twice : ∃ disk,
    Ends (writeClaims memory "/dev/sda" ([{ node := "r640", claimed := "then" }] ++
      [{ node := "r230", claimed := "now" }])) (Bench.formatted claimedVolume) disk () ∧
    Esp.read memory disk = .ok (some
      { boot := some
          { cmdline := "rd.stormblock.slab=/dev/sda2 stormblock.volume=root"
            slabDevice := some "/dev/sda2"
            bootVolume := some "root" }
        claim := some { node := "r230", claimed := "now" }
        missing := [] }) := by
  have hok : (writeClaims memory "/dev/sda" ([{ node := "r640", claimed := "then" }] ++
      [{ node := "r230", claimed := "now" }]) (Bench.formatted claimedVolume)).2.toBool = true := by
    decide +kernel
  rcases hrun : writeClaims memory "/dev/sda" ([{ node := "r640", claimed := "then" }] ++
      [{ node := "r230", claimed := "now" }]) (Bench.formatted claimedVolume) with ⟨disk, e | ⟨⟩⟩
  · rw [hrun] at hok
    exact absurd hok Bool.false_ne_true
  · refine ⟨disk, hrun, ?_⟩
    have hread := Bench.read_formatted memory claimedVolume
    rw [claimedVolume_esp] at hread
    refine claims_replace memory_lawful memory_opensExisting hread ?_
      ⟨by decide, by decide, by decide⟩ ⟨by decide, by decide⟩ hrun
    intro start stop vol hx hm
    rw [Bench.espExtent_formatted, Option.some_inj, Prod.mk.injEq] at hx
    rw [← hx.1, ← hx.2, Bench.mount_formatted, Except.ok.injEq] at hm
    rw [← hm]
    exact claimedVolume_spares

end Zeroboot
