import Mathlib.Init

namespace WasmSandboxing
namespace Foundation

/-!
# Computations that can fail

How a composed computation comes to its result, and what a fold of such
computations keeps.
-/

theorem bind_ok {Error First Second : Type} {first : Except Error First}
    {later : First -> Except Error Second} {result : Second} :
    first.bind later = .ok result ↔ ∃ value, first = .ok value ∧ later value = .ok result := by
  cases first with
  | error error =>
      constructor
      · intro impossible
        cases impossible
      · rintro ⟨_, impossible, _⟩
        cases impossible
  | ok value =>
      constructor
      · exact fun rest => ⟨value, rfl, rest⟩
      · rintro ⟨_, same, rest⟩
        cases same
        exact rest

end Foundation
end WasmSandboxing
