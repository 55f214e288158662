import WasmSandboxing.Foundation.Emitting

namespace WasmSandboxing
namespace Foundation
namespace Emitting

/-!
# Computations that emit nothing

A check emits what it objects to, and does not fail.  That it is silent is told
from its parts: a sequence is silent if both of its computations are.
-/

variable {Item Error First Second : Type}

/-- The computation emits nothing and gives a result. -/
def Silent (computation : Emitting Unit Item Error First) (result : First) : Prop :=
  computation.run () = ([], .ok (result, ()))

@[simp] theorem silent_pure {value result : First} :
    Silent (Pure.pure value : Emitting Unit Item Error First) result ↔ value = result := by
  change (([], Except.ok (value, ())) : List Item × Except Error (First × Unit)) =
    ([], Except.ok (result, ())) ↔ _
  simp only [Prod.mk.injEq, Except.ok.injEq, true_and, and_true]

@[simp] theorem silent_emit {item : Unit -> Item} {result : Unit} :
    Silent (emit item : Emitting Unit Item Error Unit) result ↔ False :=
  iff_of_false nofun id

@[simp] theorem silent_fail {error : Error} {result : First} :
    Silent (fail error : Emitting Unit Item Error First) result ↔ False :=
  iff_of_false nofun id

@[simp] theorem silent_bind {first : Emitting Unit Item Error First}
    {later : First -> Emitting Unit Item Error Second} {result : Second} :
    Silent (first >>= later) result ↔ ∃ value, Silent first value ∧ Silent (later value) result := by
  simp only [Silent]
  cases ran : first.run () with
  | mk items outcome =>
      rcases outcome with error | ⟨value, after⟩
      · rw [run_bind_error ran]
        constructor
        · intro same
          cases same
        · rintro ⟨value, same, -⟩
          cases same
      · rw [run_bind_ok ran, Prod.mk.injEq, List.append_eq_nil_iff]
        constructor
        · rintro ⟨⟨rfl, quiet⟩, gave⟩
          exact ⟨value, rfl, Prod.ext quiet gave⟩
        · rintro ⟨other, same, later_silent⟩
          cases same
          exact ⟨⟨rfl, congrArg Prod.fst later_silent⟩, congrArg Prod.snd later_silent⟩

/-- One computation for each element, in their order. -/
def forEach (body : First -> Emitting Unit Item Error Unit) :
    List First -> Emitting Unit Item Error Unit
  | [] => Pure.pure ()
  | element :: rest => do
      body element
      forEach body rest

@[simp] theorem silent_forEach {body : First -> Emitting Unit Item Error Unit}
    {elements : List First} :
    Silent (forEach body elements) () ↔
      forall element, element ∈ elements -> Silent (body element) () := by
  induction elements with
  | nil => simp only [forEach, silent_pure, List.not_mem_nil, false_implies, implies_true]
  | cons element rest inductionHypothesis =>
      simp only [forEach, silent_bind, inductionHypothesis, List.forall_mem_cons]
      constructor
      · rintro ⟨_, here, later⟩
        exact ⟨here, later⟩
      · rintro ⟨here, later⟩
        exact ⟨(), here, later⟩

end Emitting
end Foundation
end WasmSandboxing
