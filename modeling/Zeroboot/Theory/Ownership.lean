import Zeroboot.Theory.Claim
import Zeroboot.Theory.Loader

/-!
# A Node and Its Own Claim

What a claim does to the boot after it.

A boot that claims its drive changes the claim file and nothing else that a
later boot looks at: every other file an ESP is judged by reads as it did or
is still there. So the next boot sees the same drives, save for the claim, and
comes out the same exactly when the claim is read back as this node's own, or
not at all. Which names those are is settled in the text of the claim.

## Main definitions

* `Os.atTime`: The machine at another time.
* `Claimed`: A boot that claimed its drive.

## Theorems

* `writeClaimFile_replaced`: Writing a claim replaces the claim file.
* `ofVolume_written`: What an ESP says after it was claimed.
* `judge_setDisk`: The verdict looks at a disk only through its ESP.
* `claimOnBoot_cases`: What a boot does to a drive.
* `bootLocal_unclaimed`: No claim speaks against a drive that is booted.
* `boot_again_iff`: When a node recognises its own claim.
-/

namespace Zeroboot

open Medium Volume

variable {V N : Type}

/-! ## The claim file -/

section ClaimFile

variable {F : Ops V N} {vol : V} {c : Claim}

/-- The volume with the claim file sure to be there. -/
def withClaimFile (F : Ops V N) (vol : V) : V :=
  (F.createFile (F.createDir vol "stormcos").1 claimPath).1

/-- Writing a claim replaces the claim file, once its directory was seen to,
    and adds no name but the claim file's. -/
theorem writeClaimFile_ok (hF : F.Lawful) (h : (writeClaimFile F vol c).2 = .ok ()) :
    Replaced F (F.createDir vol "stormcos").1 (writeClaimFile F vol c).1 claimPath
      (Text.asBytes c.render) ∧
    ∀ q, F.openFile (writeClaimFile F vol c).1 q = F.openFile (withClaimFile F vol) q := by
  rcases writeClaimFile_cases F vol c with ⟨v, e, _, hw⟩ | ⟨v1, n, h1, ⟨v, e, _, hw⟩ |
    ⟨v2, h2, ⟨v, e, _, hw⟩ | ⟨v3, h3, hw⟩⟩⟩
  · rw [hw] at h
    exact absurd h (by simp only [reduceCtorEq, not_false_eq_true])
  · rw [hw] at h
    exact absurd h (by simp only [reduceCtorEq, not_false_eq_true])
  · rw [hw] at h
    exact absurd h (by simp only [reduceCtorEq, not_false_eq_true])
  · rw [hw] at h ⊢
    have h4 : F.flush v3 n = ((F.flush v3 n).1, .ok ()) := Prod.ext rfl h
    refine ⟨replaced_of_calls hF h1 h2 h3 h4, fun q => ?_⟩
    unfold withClaimFile
    rw [h1, (hF.flush_untouched h4).openFile, (hF.writeAll_untouched h3).openFile,
      (hF.truncate_untouched h2).openFile]

theorem writeClaimFile_replaced (hF : F.Lawful) (h : (writeClaimFile F vol c).2 = .ok ()) :
    Replaced F (F.createDir vol "stormcos").1 (writeClaimFile F vol c).1 claimPath
      (Text.asBytes c.render) :=
  (writeClaimFile_ok hF h).1

theorem readFile_eq (path : String) :
    readFile F vol path = (contentOf F vol path).bind Text.fromUtf8 := by
  unfold readFile contentOf
  rw [Option.bind_assoc]

theorem entry_apart (e : Volume.Entry) :
    Apart ("loader/entries/" ++ e.fileName) claimPath = true := by
  -- The name of an entry has no slash, so the entry lies in that very directory.
  have hdir : dirOf ("loader/entries/" ++ e.fileName) = "loader/entries" := by
    have hlist : ("loader/entries/" ++ e.fileName).toList =
        "loader/entries".toList ++ '/' :: e.fileName.toList := by
      rw [String.toList_append]
      rfl
    unfold dirOf Text.rsplitOnce
    rw [hlist, Text.rsplitOnceChars_append _ e.noSlash, Option.map_some, String.ofList_toList]
  unfold Apart
  rw [hdir, Bool.or_eq_true]
  exact Or.inr (by decide)

section Written

variable {vol' : V} (hF : F.Lawful)
  (hr : Replaced F (F.createDir vol "stormcos").1 vol' claimPath (Text.asBytes c.render))

include hr in
theorem readFile_claim_written : readFile F vol' claimPath = some c.render := by
  rw [readFile_eq, hr.contentOf_self, Option.bind_some, Text.fromUtf8_asBytes]

include hF hr

theorem readFile_apart_written {path : String} (hp : Apart path claimPath = true) :
    readFile F vol' path = readFile F vol path := by
  rw [readFile_eq, readFile_eq, hr.contentOf_apart hF hp, contentOf_createDir hF]

/-- A file that was there for the loader is there after the claim, even if it
    is the claim. -/
theorem readFile_isSome_written {path : String} (hp : (readFile F vol path).isSome = true) :
    (readFile F vol' path).isSome = true := by
  rw [readFile_eq] at hp ⊢
  rcases hold : contentOf F vol path with _ | bs
  · rw [hold] at hp
    exact absurd hp (by decide)
  · rw [hold] at hp
    rw [← contentOf_createDir hF vol "stormcos"] at hold
    rcases hr.contentOf_old hold with hsame | hnew
    · rwa [hsame]
    · -- A name for the claim file itself reads as the claim, which is text.
      rw [hnew, Option.bind_some, Text.fromUtf8_asBytes]
      rfl

theorem openFile_isSome_written {path : String} (hp : (F.openFile vol path).isSome = true) :
    (F.openFile vol' path).isSome = true := by
  rcases Option.isSome_iff_exists.mp hp with ⟨n, hn⟩
  rw [← hF.createDir_openFile vol "stormcos"] at hn
  rw [(hr.others path n hn).1]
  rfl

theorem loaderEntry_written : loaderEntry F vol' = loaderEntry F vol := by
  -- The claim lies in another directory, so the entries are listed as they were.
  have hlist : F.openDir vol' "loader/entries" = F.openDir vol "loader/entries" := by
    rw [hr.openDir _ (by decide), hF.createDir_openDir _ _ _ (by decide) (by decide)]
  unfold loaderEntry
  rw [hlist]
  congr 1
  funext es
  congr 1
  funext e
  cases e with
  | none => rfl
  | some e =>
      simp only
      rw [readFile_apart_written hF hr (entry_apart e)]

theorem missingFile_written {what : String} {p : Option String}
    (h : missingFile F vol what p = []) : missingFile F vol' what p = [] := by
  unfold missingFile at h ⊢
  cases p with
  | none => exact h
  | some p =>
      simp only at h ⊢
      by_cases hp : (readFile F vol (Text.trimStartMatches '/' p)).isSome = true
      · rw [if_pos (readFile_isSome_written hF hr hp)]
      · rw [if_neg hp] at h
        exact absurd h (List.cons_ne_nil _ _)

theorem missingOf_written {entry : Zeroboot.Entry} (h : missingOf F vol entry = []) :
    missingOf F vol' entry = [] := by
  unfold missingOf at h ⊢
  rw [List.append_eq_nil_iff, List.append_eq_nil_iff] at h ⊢
  refine ⟨⟨missingFile_written hF hr h.1.1, missingFile_written hF hr h.1.2⟩, ?_⟩
  by_cases hp : (F.openFile vol "EFI/BOOT/BOOTX64.EFI").isSome = true
  · rw [if_pos (openFile_isSome_written hF hr hp)]
  · rw [if_neg hp] at h
    exact absurd h.2 (List.cons_ne_nil _ _)

/-- After it was claimed an ESP carries what was written, and boots as it
    did. -/
theorem ofVolume_written :
    (Esp.ofVolume F vol').claim = Claim.parse c.render ∧
      ∀ b, (Esp.ofVolume F vol).boot = some b → (Esp.ofVolume F vol').boot = some b := by
  constructor
  · rw [ofVolume_claim, readFile_claim_written hr, Option.bind_some]
  · intro b hb
    -- What booted had everything its entry names, and nothing has gone since.
    rcases ofVolume_boot hb with ⟨entry, hentry, hmissing, rfl⟩
    unfold Esp.ofVolume
    rw [loaderEntry_written hF hr, hentry]
    simp only [missingOf_written hF hr hmissing, ne_eq, not_true_eq_false, if_false]

end Written

end ClaimFile

/-! ## A machine with one disk written to -/

section SetDisk

variable {F : Ops V N} {os : Os V} {m : Machine} {me : Option String} {path : String}
  {disk : Disk V}

theorem setDisk_opened (p : String) :
    ((os.setDisk path disk).node p).opened = (os.node p).opened := by
  unfold Os.setDisk
  simp only
  split_ifs
  · rfl
  · rfl

theorem setDisk_self : ((os.setDisk path disk).node path).disk = disk := by
  unfold Os.setDisk
  simp only [if_true]

theorem setDisk_ne {p : String} (h : p ≠ path) : (os.setDisk path disk).node p = os.node p := by
  unfold Os.setDisk
  simp only [if_neg h]

/-- Putting back the disk that is there changes nothing. -/
theorem setDisk_disk (os : Os V) (path : String) : os.setDisk path (os.node path).disk = os := by
  unfold Os.setDisk
  have hnode : (fun p => if p = path then { os.node p with disk := (os.node path).disk }
      else os.node p) = os.node := by
    funext p
    by_cases hp : p = path
    · rw [if_pos hp, ← hp]
    · rw [if_neg hp]
  rw [hnode]

theorem sniffNode_setDisk (p : String) (k : Nat) :
    sniffNode (os.setDisk path disk) p k = sniffNode os p k := by
  unfold sniffNode
  rw [setDisk_opened]

theorem firstNonzeroNode_setDisk (p : String) (k : Nat) :
    firstNonzeroNode (os.setDisk path disk) p k = firstNonzeroNode os p k := by
  unfold firstNonzeroNode
  rw [setDisk_opened]

/-- The verdict looks at a disk only through what was found on its ESP. -/
theorem judge_setDisk (sys name p : String) (sizeBytes : UInt64) (removable : Bool)
    (found : Option Esp) :
    judge (os.setDisk path disk) m sys name p sizeBytes removable me found =
      judge os m sys name p sizeBytes removable me found := by
  have hprobe : ∀ remote, judgeProbe (os.setDisk path disk) m p remote me found =
      judgeProbe os m p remote me found := by
    intro remote
    funext q
    unfold judgeProbe
    rw [sniffNode_setDisk]
    rfl
  unfold judge
  simp only [hprobe, sniffNode_setDisk, firstNonzeroNode_setDisk]
  rfl

theorem lookAt_setDisk_ne {name : String} (h : pathJoin m.dev name ≠ path) :
    lookAt F (os.setDisk path disk) m me name = lookAt F os m me name := by
  have hfound : foundOf F (os.setDisk path disk) (pathJoin m.dev name) =
      foundOf F os (pathJoin m.dev name) := by
    unfold foundOf
    rw [setDisk_ne h]
  unfold lookAt
  simp only [judge_setDisk, hfound, setDisk_ne h]
  rfl

theorem firstSlab_setDisk {sys name p slab slabId role : String} :
    FirstSlab (os.setDisk path disk) m sys name p slab slabId role ↔
      FirstSlab os m sys name p slab slabId role := by
  have hcarries : ∀ q, Carries (os.setDisk path disk) q ↔ Carries os q := by
    intro q
    unfold Carries
    rw [sniffNode_setDisk]
  have hpassed : ∀ q, Passed (os.setDisk path disk) p q ↔ Passed os p q := by
    intro q
    unfold Passed
    rw [sniffNode_setDisk]
  constructor
  · rintro ⟨hc, hid, before, behind, hp, hall⟩
    exact ⟨(hcarries _).mp hc, hid, before, behind, hp, fun q hq => (hpassed q).mp (hall q hq)⟩
  · rintro ⟨hc, hid, before, behind, hp, hall⟩
    exact ⟨(hcarries _).mpr hc, hid, before, behind, hp, fun q hq => (hpassed q).mpr (hall q hq)⟩

theorem admitted_setDisk {sys : String}
    (h : Admitted os sys (sizeBytesOf os sys) (removableOf os sys)) :
    Admitted (os.setDisk path disk) sys (sizeBytesOf (os.setDisk path disk) sys)
      (removableOf (os.setDisk path disk) sys) :=
  ⟨h.size, h.fixed, h.localOnly⟩

theorem pathJoin_inj {dir a b : String} (h : pathJoin dir a = pathJoin dir b) : a = b := by
  unfold pathJoin at h
  split_ifs at h
  · exact String.append_right_inj _ |>.mp h
  · exact String.append_right_inj _ |>.mp h

end SetDisk

/-! ## The next boot -/

section NextBoot

variable {F : Ops V N} {os : Os V} {m : Machine}

/-- What a boot does to the machine: nothing, or it writes its claim to the
    drive it boots, which carries none. -/
theorem claimOnBoot_cases (F : Ops V N) (os : Os V) (m : Machine) (d : Drive) :
    claimOnBoot F os m (some d) = (os, none) ∨
    ∃ me, identityOf os m = some me ∧ d.esp.bind Esp.claim = none ∧
      claimOnBoot F os m (some d) =
        (os.setDisk d.path (writeClaim F d.path (os.node d.path).disk
            { node := me, claimed := nowRfc3339 os.secs }).1,
          some (writeClaim F d.path (os.node d.path).disk
            { node := me, claimed := nowRfc3339 os.secs }).2) := by
  unfold claimOnBoot
  rcases hclaim : d.esp.bind Esp.claim with _ | c
  · rcases hme : identityOf os m with _ | me
    · refine Or.inl ?_
      simp only [hclaim, Option.isSome_none, Bool.false_eq_true, if_false]
    · refine Or.inr ⟨me, rfl, rfl, ?_⟩
      simp only [hclaim, Option.isSome_none, Bool.false_eq_true, if_false]
  · refine Or.inl ?_
    simp only [hclaim, Option.isSome_some, if_true]

/-- A claim that was written went into the volume on the ESP of the drive. -/
theorem claimOnBoot_written {d : Drive} (h : (claimOnBoot F os m (some d)).2 = some (.ok ())) :
    ∃ me start stop vol, identityOf os m = some me ∧ d.esp.bind Esp.claim = none ∧
      espExtent (os.node d.path).disk = some (start, stop) ∧
      (os.node d.path).disk.mount start stop = .ok vol ∧
      (writeClaimFile F vol { node := me, claimed := nowRfc3339 os.secs }).2 = .ok () ∧
      (claimOnBoot F os m (some d)).1 = os.setDisk d.path ((os.node d.path).disk.put start stop
        (writeClaimFile F vol { node := me, claimed := nowRfc3339 os.secs }).1) := by
  rcases claimOnBoot_cases F os m d with hsame | ⟨me, hme, hclaim, hwrite⟩
  · rw [hsame] at h
    exact absurd h (by simp only [reduceCtorEq, not_false_eq_true])
  · rw [hwrite] at h ⊢
    rcases writeClaim_cases F d.path (os.node d.path).disk
      { node := me, claimed := nowRfc3339 os.secs } with ⟨e, herr⟩ |
        ⟨start, stop, vol, hx, _, hm, hput⟩
    · rw [herr] at h
      exact absurd h (by simp only [Option.some.injEq, reduceCtorEq, not_false_eq_true])
    · rw [hput] at h ⊢
      exact ⟨me, start, stop, vol, hme, hclaim, hx, hm, Option.some.inj h, rfl⟩

theorem read_put {disk : Disk V} {start stop : UInt64} (vol : V)
    (hx : espExtent disk = some (start, stop)) (hopen : disk.openRead = .ok ()) :
    Esp.read F (disk.put start stop vol) = .ok (some (Esp.ofVolume F vol)) := by
  have hx' : espExtent (disk.put start stop vol) = some (start, stop) := hx
  unfold Esp.read
  rw [hx']
  simp only [Disk.put_openRead, hopen, Disk.put_mount_self]

theorem foundOf_unopenable {path e : String} (hopen : (os.node path).disk.openRead = .error e) :
    foundOf F os path = none := by
  unfold foundOf Esp.read
  rcases espExtent (os.node path).disk with _ | ⟨start, stop⟩
  · rfl
  · simp only [hopen]

/-- What the next boot finds on the drive: what it found before with the claim
    added, or nothing as before. -/
theorem foundOf_claimed (hF : F.Lawful) {disk : Disk V} {start stop : UInt64} {vol : V} {c : Claim}
    {path : String} (hdisk : (os.node path).disk = disk)
    (hx : espExtent disk = some (start, stop)) (hm : disk.mount start stop = .ok vol)
    (hw : (writeClaimFile F vol c).2 = .ok ()) :
    (∃ e, disk.openRead = .error e ∧ foundOf F os path = none ∧
      foundOf F (os.setDisk path (disk.put start stop (writeClaimFile F vol c).1)) path = none) ∨
    (disk.openRead = .ok () ∧ foundOf F os path = some (Esp.ofVolume F vol) ∧
      ∃ e, foundOf F (os.setDisk path (disk.put start stop (writeClaimFile F vol c).1)) path =
        some e ∧ e.claim = Claim.parse c.render ∧
          ∀ b, (Esp.ofVolume F vol).boot = some b → e.boot = some b) := by
  rcases hopen : disk.openRead with e | ⟨⟩
  · -- A device that does not open for reading hides its ESP before and after.
    refine Or.inl ⟨e, rfl, foundOf_unopenable (by rw [hdisk, hopen]), ?_⟩
    exact foundOf_unopenable (by rw [setDisk_self, Disk.put_openRead, hopen])
  · have hbefore : Esp.read F (os.node path).disk = .ok (some (Esp.ofVolume F vol)) := by
      unfold Esp.read
      rw [hdisk, hx]
      simp only [hopen, hm]
    have hafter : Esp.read F ((os.setDisk path
        (disk.put start stop (writeClaimFile F vol c).1)).node path).disk =
          .ok (some (Esp.ofVolume F (writeClaimFile F vol c).1)) := by
      rw [setDisk_self, read_put _ hx hopen]
    exact Or.inr ⟨rfl, foundOf_of_read hbefore, _, foundOf_of_read hafter,
      ofVolume_written hF (writeClaimFile_replaced hF hw)⟩

/-- No claim that is read off a drive that is booted speaks against it. -/
theorem bootLocal_unclaimed {claimIt : Bool} {drive slab slabId volume : String}
    (h : (boot F os m claimIt).outcome = .bootLocal drive slab slabId volume) :
    Unclaimed (identityOf os m) (foundOf F os drive) := by
  rcases bootLocal_cases h with ⟨s, d, _, hs, hd, rfl, hv, _⟩
  rcases surveyed_of_mem hs hd with ⟨name, rfl⟩
  exact ((lookAt_eq_mine_iff F _).mp hv).2.1

/-- A drive of this node is this node's on the next boot exactly when no claim
    speaks against it by then. -/
theorem lookAt_setDisk_mine {disk' : Disk V} {me : Option String} {name slabId role slab : String}
    (hv : (lookAt F os m me name).verdict = .mine slabId role slab) :
    (lookAt F (os.setDisk (pathJoin m.dev name) disk') m me name).verdict =
        .mine slabId role slab ↔
      Unclaimed me (foundOf F (os.setDisk (pathJoin m.dev name) disk') (pathJoin m.dev name)) := by
  rcases (lookAt_eq_mine_iff F me).mp hv with ⟨hadm, _, hfirst⟩
  rw [lookAt_eq_mine_iff]
  constructor
  · exact fun h => h.2.1
  · exact fun hun => ⟨admitted_setDisk hadm, hun, firstSlab_setDisk.mpr hfirst⟩

/-- The names of the drives a survey looked at. Writing to a disk changes none
    of them. -/
theorem survey_names {s : Survey} (hs : survey F os m = .ok s) :
    ∃ names : List String, s = { drives := names.map (lookAt F os m (identityOf os m)) } ∧
      ∀ path disk', survey F (os.setDisk path disk') m =
        .ok { drives := (names.map (lookAt F (os.setDisk path disk') m (identityOf os m))) } := by
  unfold survey at hs
  rcases hr : os.readDir (pathJoin m.sysfs "block") with e | entries
  · rw [hr] at hs
    exact absurd hs (by simp only [reduceCtorEq, not_false_eq_true])
  · rw [hr] at hs
    refine ⟨driveNames m entries, (Except.ok.inj hs).symm, fun path disk' => ?_⟩
    have hr' : (os.setDisk path disk').readDir (pathJoin m.sysfs "block") = .ok entries := hr
    unfold survey
    rw [hr']
    rfl

/-- The next boot comes out the same when the drive is still this node's, and
    still boots, and from the same volume. -/
theorem boot_again_of_unclaimed {s : Survey} {name : FileName} {slabId role slab : String}
    {disk' : Disk V} (claimIt : Bool) (hs : survey F os m = .ok s)
    (hd : lookAt F os m (identityOf os m) name.text ∈ s.drives)
    (hi : s.intent = .alreadyMine (pathJoin m.dev name.text) slab slabId)
    (hv : (lookAt F os m (identityOf os m) name.text).verdict = .mine slabId role slab)
    (hun : Unclaimed (identityOf os m)
      (foundOf F (os.setDisk (pathJoin m.dev name.text) disk') (pathJoin m.dev name.text)))
    (hboots : (lookAt F (os.setDisk (pathJoin m.dev name.text) disk') m (identityOf os m)
      name.text).boots = (lookAt F os m (identityOf os m) name.text).boots) :
    (boot F (os.setDisk (pathJoin m.dev name.text) disk') m claimIt).outcome =
      .bootLocal (pathJoin m.dev name.text) slab slabId (volumeOf
        (some (lookAt F (os.setDisk (pathJoin m.dev name.text) disk') m (identityOf os m)
          name.text))) := by
  rcases survey_names hs with ⟨names, rfl, hs'⟩
  have hv' := (lookAt_setDisk_mine hv).mpr hun
  -- Only the drive itself is looked at with other eyes.
  have hother : ∀ n, n ≠ name.text →
      lookAt F (os.setDisk (pathJoin m.dev name.text) disk') m (identityOf os m) n =
        lookAt F os m (identityOf os m) n := fun n hn =>
    lookAt_setDisk_ne fun h => hn (pathJoin_inj h)
  have hi' : Survey.intent { drives := (names.map
      (lookAt F (os.setDisk (pathJoin m.dev name.text) disk') m (identityOf os m))) } =
        .alreadyMine (pathJoin m.dev name.text) slab slabId := by
    refine intent_congr names ?_ ?_ ?_ hi
    · exact fun _ => rfl
    · intro n
      by_cases hn : n = name.text
      · rw [hn, hv', hv]
      · rw [hother n hn]
    · intro n
      by_cases hn : n = name.text
      · rw [hn, hboots]
      · rw [hother n hn]
  -- The drive is one of those the survey names.
  have hmem : name.text ∈ names := by
    rcases List.mem_map.mp hd with ⟨n, hn, heq⟩
    have hpath : pathJoin m.dev n = pathJoin m.dev name.text := congrArg Drive.path heq
    rwa [pathJoin_inj hpath] at hn
  rw [boot_alreadyMine (hs' _ disk') hi' (List.mem_map_of_mem hmem) rfl]

/-- The machine at another time. -/
def Os.atTime (os : Os V) (secs : Nat) : Os V :=
  { os with secs := secs }

/-- A boot that claimed its drive: what it saw, and what it leaves. -/
structure Claimed (F : Ops V N) (os : Os V) (m : Machine) (me : String) (name : FileName)
    (slab slabId volume : String) (start stop : UInt64) (vol : V) : Prop where
  surveyed : ∃ s, survey F os m = .ok s ∧
    lookAt F os m (identityOf os m) name.text ∈ s.drives ∧
    s.intent = .alreadyMine (pathJoin m.dev name.text) slab slabId
  verdict : ∃ role, (lookAt F os m (identityOf os m) name.text).verdict = .mine slabId role slab
  boots : (lookAt F os m (identityOf os m) name.text).boots = true
  volume : volume = volumeOf (some (lookAt F os m (identityOf os m) name.text))
  extent : espExtent (os.node (pathJoin m.dev name.text)).disk = some (start, stop)
  mount : (os.node (pathJoin m.dev name.text)).disk.mount start stop = .ok vol
  written : (writeClaimFile F vol { node := me, claimed := nowRfc3339 os.secs }).2 = .ok ()
  leaves : (boot F os m true).os = os.setDisk (pathJoin m.dev name.text)
    ((os.node (pathJoin m.dev name.text)).disk.put start stop
      (writeClaimFile F vol { node := me, claimed := nowRfc3339 os.secs }).1)

theorem claimed_of_boot {me drive slab slabId volume : String} (hme : identityOf os m = some me)
    (hout : (boot F os m true).outcome = .bootLocal drive slab slabId volume)
    (hclaimed : (boot F os m true).claimed = some (.ok ())) :
    ∃ name start stop vol, drive = pathJoin m.dev name.text ∧
      Claimed F os m me name slab slabId volume start stop vol := by
  rcases bootLocal_cases hout with ⟨s, d, role, hs, hd, rfl, hv, hb, hi, rfl, hos⟩
  rw [boot_alreadyMine hs hi hd rfl] at hclaimed
  simp only [if_true] at hclaimed hos
  rcases claimOnBoot_written hclaimed with ⟨me', start, stop, vol, hme', _, hx, hm, hw, hset⟩
  rw [hme] at hme'
  rw [← Option.some.inj hme'] at hw hset
  rw [hset] at hos
  rcases surveyed_of_mem hs hd with ⟨name, rfl⟩
  exact ⟨name, start, stop, vol, rfl,
    { surveyed := ⟨s, hs, hd, hi⟩
      verdict := ⟨role, hv⟩
      boots := hb
      volume := rfl
      extent := hx
      mount := hm
      written := hw
      leaves := hos }⟩

/-- What is read off a claimed drive carries the claim. -/
theorem Claimed.found (hF : F.Lawful) {me slab slabId volume : String} {name : FileName}
    {start stop : UInt64} {vol : V} (hc : Claimed F os m me name slab slabId volume start stop vol)
    (hopen : (os.node (pathJoin m.dev name.text)).disk.openRead = .ok ()) :
    ∃ e, foundOf F (boot F os m true).os (pathJoin m.dev name.text) = some e ∧
      e.claim = Claim.parse (Claim.render { node := me, claimed := nowRfc3339 os.secs }) := by
  rw [hc.leaves]
  rcases foundOf_claimed hF rfl hc.extent hc.mount hc.written with ⟨e, herr, _⟩ |
    ⟨_, _, e, hafter, hclaim, _⟩
  · rw [hopen] at herr
    exact absurd herr (by simp only [reduceCtorEq, not_false_eq_true])
  · exact ⟨e, hafter, hclaim⟩

/-- A node that boots a drive and claims it boots the same drive, slab and
    volume the next time exactly when the drive could not be opened for reading
    to begin with, or its claim is read back as its own or as none. -/
theorem boot_again_iff {F : Ops V N} (hF : F.Lawful) (os : Os V) (m : Machine)
    {me drive slab slabId volume : String} (hme : identityOf os m = some me)
    (hout : (boot F os m true).outcome = .bootLocal drive slab slabId volume)
    (hclaimed : (boot F os m true).claimed = some (.ok ())) (later : Nat) (claimIt : Bool) :
    (boot F ((boot F os m true).os.atTime later) m claimIt).outcome =
        .bootLocal drive slab slabId volume ↔
      (∃ e, (os.node drive).disk.openRead = .error e) ∨ ReadsBack me os.secs := by
  rcases claimed_of_boot hme hout hclaimed with ⟨name, start, stop, vol, rfl,
    ⟨⟨s, hs, hd, hi⟩, ⟨role, hv⟩, hb, rfl, hx, hm, hw, hos⟩⟩
  have hsame : (boot F ((boot F os m true).os.atTime later) m claimIt).outcome =
      (boot F (boot F os m true).os m claimIt).outcome := boot_outcome_congr claimIt rfl
  rw [hsame, hos]
  rcases foundOf_claimed hF rfl hx hm hw with ⟨e, hopen, hbefore, hafter⟩ |
    ⟨hopen, hbefore, e, hafter, hclaim, hboot⟩
  · -- Nothing is read off the ESP on either boot.
    refine iff_of_true ?_ (Or.inl ⟨e, hopen⟩)
    rw [boot_again_of_unclaimed claimIt hs hd hi hv (unclaimed_of_none hafter) ?_]
    · simp only [volumeOf, lookAt, hbefore, hafter, Option.bind_some]
    · have hverdict := (lookAt_setDisk_mine hv).mpr (unclaimed_of_none hafter)
      unfold Drive.boots
      rw [hverdict, hv]
      simp only [lookAt, hbefore, hafter]
  · -- The claim that comes back speaks against this node unless it names it.
    have hunclaimed : Unclaimed (identityOf os m) (some e) ↔ ReadsBack me os.secs := by
      rw [readsBack_iff, hme]
      unfold Unclaimed
      simp only [Option.bind_some, hclaim, Option.some.injEq, forall_eq']
    constructor
    · intro hagain
      have hun := bootLocal_unclaimed hagain
      rw [hafter] at hun
      exact Or.inr (hunclaimed.mp hun)
    · rintro (⟨e', he'⟩ | hback)
      · rw [hopen] at he'
        exact absurd he' (by simp only [reduceCtorEq, not_false_eq_true])
      · -- The ESP boots as it did, off the same loader entry.
        have hbefore' : (lookAt F os m (identityOf os m) name.text).esp =
            some (Esp.ofVolume F vol) := hbefore
        have hafter' : (lookAt F (os.setDisk (pathJoin m.dev name.text)
            ((os.node (pathJoin m.dev name.text)).disk.put start stop
              (writeClaimFile F vol { node := me, claimed := nowRfc3339 os.secs }).1)) m
                (identityOf os m) name.text).esp = some e := hafter
        unfold Drive.boots at hb
        rw [hbefore'] at hb
        rcases Option.isSome_iff_exists.mp hb with ⟨b, hvb⟩
        rw [boot_again_of_unclaimed claimIt hs hd hi hv (by
          rw [hafter]
          exact hunclaimed.mpr hback) ?_]
        · simp only [volumeOf, hbefore', hafter', Option.bind_some, hboot b hvb, hvb]
        · unfold Drive.boots
          rw [hbefore', hafter']
          simp only [hboot b hvb, hvb]

end NextBoot

/-- A machine told to be this node, with a boot disk that nobody claimed. -/
def unclaimedDisk : Bench Memory :=
  pointing "rd.stormblock.slab=/dev/sda2 stormblock.volume=root"

/-- The directory is made by the call before, so the claim file can be. -/
theorem unclaimedDisk_created : ∃ v, memory.createFile (memory.createDir (Bench.espVolume
    "rd.stormblock.slab=/dev/sda2 stormblock.volume=root" none) "stormcos").1 claimPath =
      (v, .ok claimPath) := by
  have hnew : claimPath ∉ (memory.createDir (Bench.espVolume
      "rd.stormblock.slab=/dev/sda2 stormblock.volume=root" none) "stormcos").1.files := by
    decide
  have hroot : dirOf claimPath = "" ∨ dirOf claimPath ∈ (memory.createDir (Bench.espVolume
      "rd.stormblock.slab=/dev/sda2 stormblock.volume=root" none) "stormcos").1.dirs := by
    decide
  refine ⟨Memory.addFile _ claimPath hroot, ?_⟩
  simp only [memory, Memory.createFile] at hnew hroot ⊢
  rw [if_neg hnew, dif_pos hroot]

theorem unclaimedDisk_written (c : Claim) :
    (writeClaimFile memory (Bench.espVolume
      "rd.stormblock.slab=/dev/sda2 stormblock.volume=root" none) c).2 = .ok () := by
  rcases unclaimedDisk_created with ⟨v, hv⟩
  rw [writeClaimFile_eq]
  simp only [hv]
  rfl

/-- The first boot of that machine boots the disk and claims it. -/
theorem unclaimedDisk_boot (node : String) :
    (boot memory unclaimedDisk.os (Bench.machine (some node)) true).outcome =
        .bootLocal "/dev/sda" "/dev/sda2" Bench.systemId "root" ∧
      (boot memory unclaimedDisk.os (Bench.machine (some node)) true).claimed = some (.ok ()) := by
  rcases pointing_intent (some node) own_esp with ⟨s, hs, hd, hi⟩
  have hesp := pointing_esp "rd.stormblock.slab=/dev/sda2 stormblock.volume=root" (some node)
  have hdrive := Bench.lookAt_path memory unclaimedDisk (some node) (some node)
  have hrun : boot memory unclaimedDisk.os (Bench.machine (some node)) true = _ :=
    boot_alreadyMine hs hi hd hdrive
  rw [hrun]
  refine ⟨?_, ?_⟩
  · simp only [volumeOf, Option.bind_some, hesp, own_esp, Option.getD_some]
  · simp only [if_true]
    unfold claimOnBoot
    have hme : identityOf unclaimedDisk.os (Bench.machine (some node)) = some node :=
      Bench.identityOf_machine _ _
    have hdisk : (unclaimedDisk.os.node "/dev/sda").disk = Bench.formatted (Bench.espVolume
        "rd.stormblock.slab=/dev/sda2 stormblock.volume=root" none) := rfl
    simp only [hesp, Option.bind_some, own_esp, Option.isSome_none, Bool.false_eq_true, if_false,
      hme]
    rw [Bench.lookAt_path, hdisk, Bench.writeClaim_formatted, unclaimedDisk_written]

theorem boot_again_iff_r230 :
    (boot memory ((boot memory unclaimedDisk.os (Bench.machine (some "r230")) true).os.atTime 600)
      (Bench.machine (some "r230")) true).outcome =
        .bootLocal "/dev/sda" "/dev/sda2" Bench.systemId "root" := by
  rcases unclaimedDisk_boot "r230" with ⟨hout, hclaimed⟩
  refine (boot_again_iff memory_lawful unclaimedDisk.os (Bench.machine (some "r230"))
    (Bench.identityOf_machine _ _) hout hclaimed 600 true).mpr (Or.inr (Or.inl ?_))
  exact ⟨by decide, by decide, by decide⟩

/-- A node told its name with a blank behind it boots its disk once, claims
    it, and from then on takes the disk for another node's. -/
theorem untrimmed_node_locked_out :
    let os := unclaimedDisk.os
    let m := Bench.machine (some "r230 ")
    (boot memory os m true).outcome = .bootLocal "/dev/sda" "/dev/sda2" Bench.systemId "root" ∧
      (boot memory os m true).claimed = some (.ok ()) ∧
      ∀ claimIt slab slabId volume, (boot memory (boot memory os m true).os m claimIt).outcome ≠
        .bootLocal "/dev/sda" slab slabId volume := by
  rcases unclaimedDisk_boot "r230 " with ⟨hout, hclaimed⟩
  refine ⟨hout, hclaimed, ?_⟩
  intro claimIt slab slabId volume hagain
  rcases claimed_of_boot (Bench.identityOf_machine _ _) hout hclaimed with
    ⟨name, start, stop, vol, hdrive, hc⟩
  rcases hc.found memory_lawful rfl with ⟨e, hfound, hclaim⟩
  have hme : identityOf (boot memory unclaimedDisk.os (Bench.machine (some "r230 ")) true).os
      (Bench.machine (some "r230 ")) = some "r230 " := by
    rw [hc.leaves]
    exact Bench.identityOf_machine unclaimedDisk (some "r230 ")
  have hun := bootLocal_unclaimed hagain
  rw [hdrive, hfound, hme] at hun
  -- The blank is trimmed off on the way back in.
  have hparse : Claim.parse (Claim.render { node := "r230 ", claimed := nowRfc3339 0 }) =
      some { node := "r230", claimed := "1970-01-01T00:00:00Z" } := by
    rw [nowRfc3339_zero]
    decide
  exact absurd (hun _ (hclaim.trans hparse) "r230 " rfl) (by decide)

end Zeroboot
