import Zeroboot.Theory.Image

/-!
# A Build That Fails

What a failed build leaves at the output path, and what that does to the next
one.

Nothing in a build takes back what it did. Up to the creation of the file there
is nothing to take back; from then on a build that stops leaves the image as
far as it got, and nothing on the image says that it is not finished. The next
build for the same path finds a file there and refuses to touch it, whatever it
is, so the path stays as it is until somebody removes the file.

An image whose slab copy stopped has a table, a protective MBR and a full ESP,
and whatever reads it takes it for a disk that boots.

## Main definitions

* `Image.slabBegun`: The copy of the slab has begun.

## Theorems

* `build_refuses`: An image that is there is neither written over nor built
  again.
* `failed_build_leaves`: What a failed build leaves.
* `unfinished_boots_iff`: When it looks like a boot disk.
-/

namespace Zeroboot

open Run

variable {V N G : Type} {F : Volume.Ops V N} {O : GptOps G}

/-! ## An image that is there -/

theorem ensureFiles_ends {host : Host} {spec : BootImageSpec} {out : Output V}
    (h : FilesThere host spec) : Ends (ensureFiles host spec) out out () := by
  unfold ensureFiles ensure
  simp only [h.kernel, h.initramfs, h.bootloader, h.slab, if_true]
  rfl

/-- Where there is an image, a build ends with an error and leaves it alone. -/
theorem build_refuses (F : Volume.Ops V N) (O : GptOps G) (host : Host) (spec : BootImageSpec)
    (img : Image V) : ∃ e, build F O host spec (some img) = (some img, .error e) := by
  have hnot : ¬ Created host spec (some img) := fun h =>
    absurd h.noImage (by simp only [reduceCtorEq, not_false_eq_true])
  rcases hb : build F O host spec (some img) with ⟨out', e | report⟩
  · rcases build_stages.stops hb with _ | hcreated | hcreated
    · exact ⟨e, rfl⟩
    · exact absurd hcreated hnot
    · exact absurd hcreated hnot
  · rcases build_stages.ends hb with ⟨_, _, _, _, _, _, hcreated, _⟩
    exact absurd hcreated hnot

/-- And with this one, when it gets as far as looking. -/
theorem build_refuses_with {host : Host} {spec : BootImageSpec} (h : FilesThere host spec)
    (img : Image V) :
    build F O host spec (some img) =
      (some img, .error ("refusing to overwrite " ++ spec.out)) := by
  have hget : Ends (get : Run (Output V) (Output V)) (some img) (some img) (some img) := rfl
  unfold build
  rw [bind_of_ends (ensureFiles_ends h), bind_of_ends hget]
  exact bind_of_stops rfl

/-! ## What a failed build leaves -/

section Stopped

variable {host : Host} {spec : BootImageSpec} {out out' : Output V}

/-- An image that was created is there, and before it was not. -/
theorem Stopped.unchanged_iff (h : Stopped F O host spec out out') :
    out' = out ↔ ¬ Created host spec out := by
  cases h with
  | before hnot => exact iff_of_true rfl hnot
  | empty hcreated =>
      refine iff_of_false ?_ (not_not_intro hcreated)
      rw [hcreated.noImage]
      exact Option.some_ne_none _
  | sized hcreated _ _ =>
      refine iff_of_false ?_ (not_not_intro hcreated)
      rw [hcreated.noImage]
      exact Option.some_ne_none _

theorem Stopped.leftover (h : Stopped F O host spec out out') (hcreated : Created host spec out) :
    ∃ img, out' = some img ∧
      (img = { len := 0, log := [] } ∨ ∃ slabBytes, host.slabLen = .ok slabBytes ∧
        img.len = imageBytes spec slabBytes ∧ Partial F O host spec slabBytes img.log) := by
  cases h with
  | before hnot => exact absurd hcreated hnot
  | empty _ => exact ⟨_, rfl, Or.inl rfl⟩
  | sized _ hslabLen hlog => exact ⟨_, rfl, Or.inr ⟨_, hslabLen, rfl, hlog⟩⟩

end Stopped

/-- A failed build leaves a file that was there untouched, and leaves the path
    as it was exactly when it stopped before it had created the file. Otherwise
    it leaves the image as far as it got, and every later build for the path
    fails and leaves that. -/
theorem failed_build_leaves {F : Volume.Ops V N} {O : GptOps G} {host : Host}
    {spec : BootImageSpec} {out out' : Output V} {e : String}
    (h : build F O host spec out = (out', .error e)) :
    (∀ img, out = some img → out' = some img) ∧
    (out' = out ↔ ¬ Created host spec out) ∧
    (Created host spec out → ∃ img, out' = some img ∧
      (img = { len := 0, log := [] } ∨ ∃ slabBytes, host.slabLen = .ok slabBytes ∧
        img.len = imageBytes spec slabBytes ∧ Partial F O host spec slabBytes img.log) ∧
      ∀ (F' : Volume.Ops V N) (O' : GptOps G) (host' : Host) (spec' : BootImageSpec),
        spec'.out = spec.out →
          (∃ e', build F' O' host' spec' out' = (out', .error e')) ∧
          (FilesThere host' spec' → build F' O' host' spec' out' =
            (out', .error ("refusing to overwrite " ++ spec.out)))) := by
  have hstopped := build_stages.stops h
  refine ⟨?_, hstopped.unchanged_iff, ?_⟩
  · intro img himg
    rw [himg] at h
    rcases build_refuses F O host spec img with ⟨e', he'⟩
    exact (Prod.mk.inj (h.symm.trans he')).1
  · intro hcreated
    rcases hstopped.leftover hcreated with ⟨img, himg, hleft⟩
    refine ⟨img, himg, hleft, ?_⟩
    -- Whatever it is that is there, the next build says the same.
    intro F' O' host' spec' hpath
    rw [himg]
    refine ⟨build_refuses F' O' host' spec' img, fun hfiles => ?_⟩
    rw [build_refuses_with hfiles, hpath]

/-! ## A copy that stops -/

/-- Whether the copy of the slab into an image has begun. -/
def Image.slabBegun (img : Image V) : Bool :=
  img.log.any fun
    | .bytes _ _ => true
    | _ => false

/-- Where the copy of the slab has begun, everything before it is in place. -/
theorem Partial.espWritten (hO : O.Lawful) {host : Host} {spec : BootImageSpec}
    {slabBytes : UInt64} {img : Image V} (hlog : Partial F O host spec slabBytes img.log)
    (hclean : img.Clean) (hbegun : img.slabBegun = true) :
    ∃ table esp slab vol, FillEnds F host spec vol ∧
      EspWritten spec slabBytes img table esp slab vol := by
  unfold Image.slabBegun at hbegun
  generalize hl : img.log = log at hlog hbegun
  cases hlog with
  | nothing => exact absurd hbegun Bool.false_ne_true
  | table _ => exact absurd hbegun Bool.false_ne_true
  | mbr _ => exact absurd hbegun Bool.false_ne_true
  | volume _ _ => exact absurd hbegun Bool.false_ne_true
  | slab hreq hfill _ _ =>
      refine ⟨_, _, _, _, hfill, hreq.laid hO, hclean, ?_, ?_⟩
      · rw [hl]
        exact List.mem_append_right [_, _, _] List.mem_cons_self
      · rw [hl]
        exact List.mem_cons_of_mem _ List.mem_cons_self

/-- An image whose slab was not copied to the end boots like one whose slab
    was. -/
theorem unfinished_boots_iff (hF : F.Lawful) (hO : O.Lawful) {host : Host} {spec : BootImageSpec}
    {img : Image V} {e : String} {kernel initramfs : Source} (hsteady : host.Steady spec)
    (hkernel : host.openFile spec.kernel = .ok kernel)
    (hinitramfs : host.openFile spec.initramfs = .ok initramfs)
    (h : build F O host spec none = (some img, .error e)) (hbegun : img.slabBegun = true)
    (R : Image.Rest V) : ∃ esp, Esp.read F (img.disk R) = .ok (some esp) ∧
      (esp.boot.isSome = true ↔ IsText kernel.content ∧ IsText initramfs.content) := by
  have hstopped := build_stages.stops h
  have hclean : img.Clean := by
    rcases hstopped.unspoilt hO with hnone | hclean
    · exact absurd hnone (Option.some_ne_none img)
    · exact hclean hsteady img rfl
  have hcreated : Created host spec (none : Output V) := by
    by_contra hnot
    exact Option.some_ne_none img (hstopped.unchanged_iff.mpr hnot)
  rcases hstopped.leftover hcreated with ⟨img', himg, hleft⟩
  rw [← Option.some.inj himg] at hleft
  rcases hleft with hempty | ⟨_, _, _, hlog⟩
  · rw [hempty] at hbegun
    exact absurd hbegun Bool.false_ne_true
  · rcases Partial.espWritten hO hlog hclean hbegun with
      ⟨_, _, _, vol, ⟨_, _, hformat, hfill⟩, hwritten⟩
    rcases fillEsp_ends hF hformat hfill with ⟨_, kernel', initramfs', hsources, hfilled⟩
    have hk : kernel' = kernel := Except.ok.inj (hsources.kernel.1.symm.trans hkernel)
    have hi : initramfs' = initramfs :=
      Except.ok.inj (hsources.initramfs.1.symm.trans hinitramfs)
    rw [hk, hi] at hfilled
    exact ⟨_, hwritten.read F R, hfilled.boots_iff.1⟩

/-- A host whose slab file is shorter than its length was when it was asked
    for. -/
def shortHost : Host :=
  { kernelHost (.whole [0x6b] (by decide)) with slabLen := .ok 2 }

theorem shortHost_created : Created shortHost diskSpec (none : Output Volume.Memory) where
  files := ⟨rfl, rfl, rfl, rfl⟩
  noImage := rfl
  espMib := by decide
  slabLen := ⟨2, rfl⟩
  parent := rfl
  file := rfl

theorem shortHost_steady : shortHost.Steady diskSpec := by
  intro slabBytes s hlen hopen
  rw [← Except.ok.inj hlen, ← Except.ok.inj hopen]
  decide

/-- Whether a run stopped with the copy of the slab begun. -/
def stoppedInSlab (run : Output V × Except String BootImageReport) : Bool :=
  match run with
  | (some img, .error _) => img.slabBegun
  | _ => false

theorem stoppedInSlab_cases {run : Output V × Except String BootImageReport}
    (h : stoppedInSlab run = true) :
    ∃ img e, run = (some img, .error e) ∧ img.slabBegun = true := by
  rcases run with ⟨_ | img, e | report⟩
  · exact absurd h Bool.false_ne_true
  · exact absurd h Bool.false_ne_true
  · exact ⟨img, e, rfl, h⟩
  · exact absurd h Bool.false_ne_true

theorem shortHost_stops :
    stoppedInSlab (build Volume.memory plain shortHost diskSpec none) = true := by
  decide +kernel

theorem failed_build_leaves_short : ∃ out e,
    build Volume.memory plain shortHost diskSpec none = (out, .error e) ∧ out ≠ none ∧
      ∃ e', build Volume.memory plain (kernelHost (.whole [0x6b] (by decide))) diskSpec out =
        (out, .error e') := by
  rcases stoppedInSlab_cases shortHost_stops with ⟨_, e, hrun, _⟩
  rcases (failed_build_leaves hrun).2.2 shortHost_created with ⟨img, himg, _, hnext⟩
  refine ⟨_, e, hrun, ?_, (hnext Volume.memory plain _ diskSpec rfl).1⟩
  rw [himg]
  exact Option.some_ne_none img

/-- Nothing was at the path. A build whose slab copy is short leaves an image
    there whose ESP boots, and the same build on a host where everything goes
    well is refused. -/
theorem unfinished_image_left : ∃ img e,
    build Volume.memory plain shortHost diskSpec none = (some img, .error e) ∧
      (∀ R, ∃ esp, Esp.read Volume.memory (img.disk R) = .ok (some esp) ∧
        esp.boot.isSome = true) ∧
      build Volume.memory plain (kernelHost (.whole [0x6b] (by decide))) diskSpec (some img) =
        (some img, .error "refusing to overwrite disk.img") := by
  rcases stoppedInSlab_cases shortHost_stops with ⟨img, e, hrun, hbegun⟩
  have hpath : "refusing to overwrite " ++ diskSpec.out = "refusing to overwrite disk.img" := by
    decide
  refine ⟨img, e, hrun, fun R => ?_, ?_⟩
  · rcases unfinished_boots_iff Volume.memory_lawful plain_lawful shortHost_steady rfl rfl hrun
      hbegun R with ⟨esp, hread, hboots⟩
    exact ⟨esp, hread, hboots.mpr ⟨by decide +kernel, by decide +kernel⟩⟩
  · rw [← hpath]
    exact build_refuses_with ⟨rfl, rfl, rfl, rfl⟩ img

end Zeroboot
