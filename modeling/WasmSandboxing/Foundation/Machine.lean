import Mathlib.Init

namespace WasmSandboxing
namespace Foundation

/-!
# Deterministic machines

A machine takes one step at a time and may end with an outcome.  A run is
measured by its number of steps, so that a translation can be shown to keep
divergence as well as results: a source that is still running after any number
of rounds is matched by a machine that is still running after as many steps.
-/

/-- What one step leads to. -/
inductive Progress (Config : Type u) (Outcome : Type v) where
  | running (config : Config)
  | ended (outcome : Outcome)

/-- A machine by its step function. -/
structure Machine (Config : Type u) (Outcome : Type v) where
  step : Config -> Progress Config Outcome

namespace Machine

variable {Config : Type u} {Outcome : Type v}

/-- At most `count` steps. -/
def run (machine : Machine Config Outcome) : Nat -> Config -> Progress Config Outcome
  | 0, config => .running config
  | count + 1, config =>
      match machine.step config with
      | .running next => machine.run count next
      | .ended outcome => .ended outcome

/-- The machine comes to `target` in at least `count` steps. -/
def Reaches (machine : Machine Config Outcome) (count : Nat) (source target : Config) : Prop :=
  ∃ steps, count ≤ steps ∧ machine.run steps source = .running target

/-- The machine ends with the outcome. -/
def Ends (machine : Machine Config Outcome) (source : Config) (outcome : Outcome) : Prop :=
  ∃ steps, machine.run steps source = .ended outcome

/-- The machine is still running after `count` steps. -/
def Survives (machine : Machine Config Outcome) (count : Nat) (source : Config) : Prop :=
  ∃ target, machine.Reaches count source target

variable {machine : Machine Config Outcome}

theorem run_add (first second : Nat) (config : Config) :
    machine.run (first + second) config =
      match machine.run first config with
      | .running next => machine.run second next
      | .ended outcome => .ended outcome := by
  induction first generalizing config with
  | zero => rw [Nat.zero_add]; rfl
  | succ first inductionHypothesis =>
      rw [Nat.succ_add, run, run]
      cases machine.step config with
      | running next => exact inductionHypothesis next
      | ended outcome => rfl

theorem Reaches.refl (config : Config) : machine.Reaches 0 config config := ⟨0, Nat.le_refl 0, rfl⟩

theorem Reaches.step {source next : Config} (stepped : machine.step source = .running next) :
    machine.Reaches 1 source next :=
  ⟨1, Nat.le_refl 1, by rw [run, stepped]; rfl⟩

theorem Reaches.weaken {count fewer : Nat} {source target : Config}
    (reaches : machine.Reaches count source target) (below : fewer ≤ count) :
    machine.Reaches fewer source target := by
  rcases reaches with ⟨steps, enough, arrives⟩
  exact ⟨steps, Nat.le_trans below enough, arrives⟩

theorem Reaches.trans {first second : Nat} {source middle target : Config}
    (before : machine.Reaches first source middle)
    (after : machine.Reaches second middle target) :
    machine.Reaches (first + second) source target := by
  rcases before with ⟨beforeSteps, beforeEnough, arrives⟩
  rcases after with ⟨afterSteps, afterEnough, continues⟩
  exact ⟨beforeSteps + afterSteps, by omega, by rw [run_add, arrives]; exact continues⟩

theorem Ends.step {source : Config} {outcome : Outcome}
    (stepped : machine.step source = .ended outcome) : machine.Ends source outcome :=
  ⟨1, by rw [run, stepped]⟩

theorem Reaches.ends {count : Nat} {source target : Config} {outcome : Outcome}
    (reaches : machine.Reaches count source target) (ends : machine.Ends target outcome) :
    machine.Ends source outcome := by
  rcases reaches with ⟨before, _enough, arrives⟩
  rcases ends with ⟨after, finishes⟩
  exact ⟨before + after, by rw [run_add, arrives]; exact finishes⟩

theorem Reaches.survives {first second : Nat} {source middle : Config}
    (reaches : machine.Reaches first source middle) (survives : machine.Survives second middle) :
    machine.Survives (first + second) source := by
  rcases survives with ⟨target, arrives⟩
  exact ⟨target, reaches.trans arrives⟩

theorem Survives.weaken {count fewer : Nat} {source : Config}
    (survives : machine.Survives count source) (below : fewer ≤ count) :
    machine.Survives fewer source := by
  rcases survives with ⟨target, reaches⟩
  exact ⟨target, reaches.weaken below⟩

/-- A configuration that steps to itself runs for ever. -/
theorem survives_of_loop {source : Config} (stepped : machine.step source = .running source)
    (count : Nat) : machine.Survives count source := by
  induction count with
  | zero => exact ⟨source, Reaches.refl source⟩
  | succ count inductionHypothesis =>
      exact ((Reaches.step stepped).survives inductionHypothesis).weaken (by omega)

/-- Once ended, a run stays ended. -/
theorem run_mono {steps more : Nat} {source : Config} {outcome : Outcome}
    (ended : machine.run steps source = .ended outcome) (below : steps ≤ more) :
    machine.run more source = .ended outcome := by
  rcases Nat.exists_eq_add_of_le below with ⟨extra, rfl⟩
  rw [run_add, ended]

theorem Ends.unique {source : Config} {first second : Outcome}
    (endsFirst : machine.Ends source first) (endsSecond : machine.Ends source second) :
    first = second := by
  rcases endsFirst with ⟨firstSteps, firstEnded⟩
  rcases endsSecond with ⟨secondSteps, secondEnded⟩
  have both := run_mono firstEnded (Nat.le_add_right firstSteps secondSteps)
  rw [run_mono secondEnded (Nat.le_add_left secondSteps firstSteps)] at both
  cases both
  rfl

/-- A run that ends does not survive longer than its number of steps. -/
theorem Ends.bounded {source : Config} {outcome : Outcome} (ends : machine.Ends source outcome) :
    ∃ bound, ¬ machine.Survives bound source := by
  rcases ends with ⟨steps, ended⟩
  refine ⟨steps, fun ⟨target, more, enough, arrives⟩ => ?_⟩
  rw [run_mono ended enough] at arrives
  cases arrives

end Machine

end Foundation
end WasmSandboxing
