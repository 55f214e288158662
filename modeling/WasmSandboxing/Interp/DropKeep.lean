import WasmSandboxing.Foundation.InPlace
import WasmSandboxing.Interp.Thread

namespace WasmSandboxing
namespace Interp

open Foundation

/-!
# What `DropKeep` keeps

The values are copied from the top of the stack down.  A value that is dropped
less than `keep_count` places below the top is overwritten before it is itself
copied, so that the values kept are right only where they repeat.
-/

namespace Thread

variable {Host : Type} {thread : Thread Host} {dropCount keepCount : BitVec 32}

/-- The loop stays on the stack, and moves what it keeps from the front. -/
theorem keepValues_eq {dropped kept : Nat} {stack : List Value}
    (enough : dropped + kept ≤ stack.length) :
    keepValues dropped kept stack = some (moveForward dropped kept stack) := by
  induction kept with
  | zero => rfl
  | succ kept inductionHypothesis =>
      have inRange : kept < (moveForward dropped kept stack).length := by
        rw [moveForward_length]
        omega
      rw [keepValues, List.range_succ, List.foldlM_append]
      change (keepValues dropped kept stack).bind _ = _
      rw [inductionHypothesis (by omega), Option.bind_some, moveForward_succ, copyWithin,
        List.foldlM_cons, keepValue, List.getElem?_eq_getElem inRange]
      simp only [moveForward_length]
      rw [if_pos (by omega)]
      rfl

/-- On a stack that is high enough nothing beyond it is accessed. -/
theorem dropKeep_eq (enough : dropCount.toNat + keepCount.toNat ≤ thread.valueStack.length) :
    thread.dropKeep dropCount keepCount = .ok { thread with
      valueStack := (moveForward dropCount.toNat keepCount.toNat thread.valueStack).drop
        dropCount.toNat } := by
  rw [dropKeep, keepValues_eq enough]
  change (if _ then _ else _) = _
  rw [if_neg (by rw [moveForward_length]; omega)]

/-- The state that `DropKeep` is for: the values beneath those on top are gone. -/
def dropBeneath (thread : Thread Host) (dropped kept : Nat) : Thread Host :=
  { thread with
    valueStack := thread.valueStack.take kept ++ thread.valueStack.drop (dropped + kept) }

theorem dropKeep_right_iff
    (enough : dropCount.toNat + keepCount.toNat ≤ thread.valueStack.length) :
    thread.dropKeep dropCount keepCount =
        .ok (thread.dropBeneath dropCount.toNat keepCount.toNat) ↔
      Repeats dropCount.toNat keepCount.toNat thread.valueStack := by
  rw [dropKeep_eq enough, ← moveForward_drop_iff enough, Except.ok.injEq, dropBeneath]
  constructor
  · exact congrArg Thread.valueStack
  · intro same
    rw [same]

/-- Of what is dropped and kept without overlapping nothing is lost. -/
theorem dropKeep_apart (enough : dropCount.toNat + keepCount.toNat ≤ thread.valueStack.length)
    (apart : dropCount.toNat = 0 ∨ keepCount.toNat ≤ dropCount.toNat) :
    thread.dropKeep dropCount keepCount =
      .ok (thread.dropBeneath dropCount.toNat keepCount.toNat) := by
  rw [dropKeep_eq enough, dropBeneath, (moveForward_drop_iff enough).mpr (repeats_of_few apart)]

/-- Three values, the top one first. -/
def threeValues : Thread Unit :=
  ⟨(), [], [], [3, 2, 1], [], 0⟩

theorem dropKeep_right_iff_three :
    (1#32).toNat + (1#32).toNat ≤ threeValues.valueStack.length ∧
      (threeValues.dropKeep 1 1 = .ok (threeValues.dropBeneath 1 1) ↔
        Repeats 1 1 threeValues.valueStack) :=
  ⟨by decide, dropKeep_right_iff (by decide)⟩

/-- Of two values that are kept above one that is dropped the lower is lost. -/
theorem dropKeep_loses : (1#32).toNat + (2#32).toNat ≤ threeValues.valueStack.length ∧
    threeValues.dropKeep 1 2 ≠ .ok (threeValues.dropBeneath 1 2) := by
  refine ⟨by decide, fun same => ?_⟩
  rw [dropKeep_eq (by decide), Except.ok.injEq] at same
  exact absurd (congrArg Thread.valueStack same) (by decide)

end Thread

end Interp
end WasmSandboxing
