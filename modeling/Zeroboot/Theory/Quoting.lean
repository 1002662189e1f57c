import Zeroboot.Core.Boot
import Zeroboot.Lib.Shell

/-!
# What the Shell Makes of It

`init` evaluates the standard output of a boot as PID 1. This is the proof
that doing so assigns the emitted values and runs nothing.

`emit` writes one line per pair, and each line is a name, an equals sign and a
text quoted the one way a POSIX shell takes wholly literally. `toList_emit`
identifies the output with the lines of `Lib.Shell`, whose evaluation is
known. What remains is that the emitted keys are names, and that flattening a
value leaves it without a character no text can hold.

## Theorems

* `toList_shQuote`: A quoted value is the flattened value, spliced.
* `toList_emit`: The output is a list of assignment lines.
* `isName_emitted`: Every emitted key is a name.
* `valueOf_action`: What the action evaluates to.
* `boot_stdout_evaluates`: Evaluating the output assigns the emitted values,
  and the exit code says which action it was.
-/

namespace Zeroboot

theorem toList_shQuote (v : String) :
    (shQuote v).toList = Shell.quoted (flattenLines v).toList := by
  simp only [shQuote, String.toList_ofList, Shell.quoted, Shell.spliced]

theorem toList_emit (pairs : List (String × String)) :
    (emit pairs).toList =
      Shell.assignLines (pairs.map (fun p => (p.1.toList, (flattenLines p.2).toList))) := by
  unfold emit
  induction pairs with
  | nil => rfl
  | cons p pairs ih =>
      rw [List.map_cons, List.map_cons, Shell.assignLines, List.flatMap_cons, String.join_cons,
        String.toList_append, ih, Shell.assignLines]
      simp only [String.toList_append, toList_shQuote, List.append_assoc]
      rfl

/-- Every key a boot emits is a name a shell can assign to. -/
theorem isName_emitted (o : Outcome) : ∀ p ∈ o.emitted, Shell.IsName p.1.toList = true := by
  cases o with
  | bootLocal drive slab slabId volume =>
      simp only [Outcome.emitted, List.forall_mem_cons, List.not_mem_nil, false_implies,
        implies_true, and_true]
      decide
  | askAppliance reason takeable =>
      simp only [Outcome.emitted, List.forall_mem_cons, List.not_mem_nil, false_implies,
        implies_true, and_true]
      decide
  | error reason =>
      simp only [Outcome.emitted, List.forall_mem_cons, List.not_mem_nil, false_implies,
        implies_true, and_true]
      decide

theorem nul_not_mem_flattenLines {v : String} (h : '\x00' ∉ v.toList) :
    '\x00' ∉ (flattenLines v).toList := by
  rw [flattenLines, String.toList_ofList, List.mem_map]
  rintro ⟨c, hc, heq⟩
  -- A character is replaced by a blank or left as it was.
  by_cases hnl : c = '\n' ∨ c = '\r'
  · rw [if_pos hnl] at heq
    exact absurd heq (by decide)
  · rw [if_neg hnl] at heq
    exact h (heq ▸ hc)

/-- The assignments evaluating an outcome performs. -/
def Outcome.assigned (o : Outcome) : List Shell.Effect :=
  o.emitted.map (fun p => .assign p.1 (flattenLines p.2))

/-- The action each outcome is. -/
def Outcome.action : Outcome → String
  | bootLocal _ _ _ _ => "boot-local"
  | askAppliance _ _ => "ask-appliance"
  | error _ => "error"

theorem valueOf_action (o : Outcome) :
    Shell.valueOf "ZB_ACTION" o.assigned = some o.action := by
  cases o with
  | bootLocal drive slab slabId volume => rfl
  | askAppliance reason takeable => rfl
  | error reason => rfl

/-- Evaluating the output of a boot assigns exactly the emitted keys, each to
    its value on one line, and does nothing else; the exit code says which
    action was assigned. -/
theorem boot_stdout_evaluates (o : Outcome) (hnul : ∀ p ∈ o.emitted, '\x00' ∉ p.2.toList) :
    Shell.eval o.stdout = some o.assigned ∧
    (o.exitCode = 0 ↔ Shell.valueOf "ZB_ACTION" o.assigned = some "boot-local") ∧
    (o.exitCode = 2 ↔ Shell.valueOf "ZB_ACTION" o.assigned = some "ask-appliance") ∧
    (o.exitCode = 1 ↔ Shell.valueOf "ZB_ACTION" o.assigned = some "error") := by
  refine ⟨?_, ?_⟩
  · have hlines := toList_emit o.emitted
    have hnames : ∀ p ∈ o.emitted.map (fun p => (p.1.toList, (flattenLines p.2).toList)),
        Shell.IsName p.1 = true := by
      intro p hp
      rcases List.mem_map.mp hp with ⟨q, hq, rfl⟩
      exact isName_emitted o q hq
    have hvalues : ∀ p ∈ o.emitted.map (fun p => (p.1.toList, (flattenLines p.2).toList)),
        '\x00' ∉ p.2 := by
      intro p hp
      rcases List.mem_map.mp hp with ⟨q, hq, rfl⟩
      exact nul_not_mem_flattenLines (hnul q hq)
    -- The output is a list of such lines, so the shell evaluates it line by line.
    have heval := Shell.eval_assignments hnames hvalues
    rw [← hlines, String.ofList_toList, List.map_map] at heval
    rw [Outcome.stdout, heval]
    simp only [Outcome.assigned, Function.comp_def, String.ofList_toList]
  · rw [valueOf_action]
    cases o with
    | bootLocal drive slab slabId volume =>
        simp only [Outcome.exitCode, Outcome.action]
        decide
    | askAppliance reason takeable =>
        simp only [Outcome.exitCode, Outcome.action]
        decide
    | error reason =>
        simp only [Outcome.exitCode, Outcome.action]
        decide

/-- A drive path with quotes in it, a slab id, and a volume on two lines. -/
theorem boot_stdout_evaluates_quotes :
    Shell.eval (Outcome.bootLocal "/dev/it's" "/dev/sda2" "7661cf8b" "$(reboot)\n;x").stdout =
      some [.assign "ZB_ACTION" "boot-local", .assign "ZB_DRIVE" "/dev/it's",
        .assign "ZB_SLAB" "/dev/sda2", .assign "ZB_SLAB_ID" "7661cf8b",
        .assign "ZB_VOLUME" "$(reboot) ;x"] :=
  (boot_stdout_evaluates (.bootLocal "/dev/it's" "/dev/sda2" "7661cf8b" "$(reboot)\n;x")
    (by decide)).1

end Zeroboot
