import WasmSandboxing.Loading.Spectest

namespace WasmSandboxing
namespace Loading

open Binary

/-!
# A load that fails

The environment is what it was before, but for what the imports have added to
the exports of host modules.
-/

variable {Code : Type} {compiler : Compiler Code} {env after : Environment} {loads : List Load}

theorem Fails.unchanged_iff {start : ModuleReader} {reached final : Loader Code}
    (fails : Fails compiler env start after reached final) (wellFormed : env.WellFormed) :
    after = env ↔ Loader.hostImports env
      (delivered (Loader.answer compiler) (Read.readModule.run start).1 (.start compiler env)) = 0 := by
  rw [fails.result, reset_environment wellFormed fails.spoils.1, fails.spoils.2]
  have counted := fails.behind.numExports
  constructor
  · intro same
    have modules := congrArg Environment.modules same
    change reached.env.modules = env.modules at modules
    rw [Environment.numExports, modules] at counted
    exact Nat.left_eq_add.mp counted
  · intro none_
    rw [fails.behind.modules none_]

/-- A load that fails leaves the environment as it was if and only if no import
that it linked before it failed was one from a module of the host. -/
theorem failed_load_iff (run : Run compiler env loads) (data : List (BitVec 8))
    (features : Features) (readDebugNames failOnCustomSectionError : Bool) (message : Message)
    (failed : readBinaryInterp compiler env
      (.start data features readDebugNames failOnCustomSectionError) =
        (after, some (.error message))) :
    after = env ↔
      forall item, item ∈ delivered (Loader.answer compiler)
        (Read.readModule.run (.start data features readDebugNames failOnCustomSectionError)).1
        (.start compiler env) -> env.importsFromHost item.1 = false := by
  rcases readBinaryInterp_error run.wellFormed failed with ⟨reached, final, fails⟩
  rw [fails.unchanged_iff run.wellFormed, Loader.hostImports, List.countP_eq_zero]
  constructor
  · exact fun none_ item isMember => Bool.eq_false_iff.mpr (none_ item isMember)
  · exact fun none_ item isMember => Bool.eq_false_iff.mp (none_ item isMember)

/-- A module that imports `spectest.print` and then `spectest.nope`. -/
def unknownSpectestImport : List (BitVec 8) :=
  [0x00, 0x61, 0x73, 0x6d, 0x01, 0x00, 0x00, 0x00, 0x01, 0x04, 0x01, 0x60, 0x00, 0x00,
    0x02, 0x22, 0x02,
    0x08, 0x73, 0x70, 0x65, 0x63, 0x74, 0x65, 0x73, 0x74, 0x05, 0x70, 0x72, 0x69, 0x6e, 0x74,
    0x00, 0x00,
    0x08, 0x73, 0x70, 0x65, 0x63, 0x74, 0x65, 0x73, 0x74, 0x04, 0x6e, 0x6f, 0x70, 0x65,
    0x00, 0x00]

/-- The second import is refused, and the first has left an export behind. -/
theorem failed_load_changes :
    exists after, readBinaryInterp noBodies spectest
      (.start unknownSpectestImport noFeatures false true) =
        (after, some (.error (.text "unknown host function import \"spectest.nope\""))) ∧
      after ≠ spectest := by
  have failed : (readBinaryInterp noBodies spectest
      (.start unknownSpectestImport noFeatures false true)).2 =
        some (.error (.text "unknown host function import \"spectest.nope\"")) := by
    decide +kernel
  have added : (readBinaryInterp noBodies spectest
      (.start unknownSpectestImport noFeatures false true)).1.numExports = 1 := by
    decide +kernel
  generalize readBinaryInterp noBodies spectest
    (.start unknownSpectestImport noFeatures false true) = outcome at failed added
  refine ⟨outcome.1, Prod.ext rfl failed, fun same => ?_⟩
  rw [same] at added
  cases added

/-- The magic number alone is no module, and imports nothing. -/
theorem failed_load_of_magic : (readBinaryInterp noBodies spectest
    (.start [0x00, 0x61, 0x73, 0x6d] noFeatures false true)).1 = spectest := by
  have failed : (readBinaryInterp noBodies spectest
      (.start [0x00, 0x61, 0x73, 0x6d] noFeatures false true)).2 =
        some (.error (.unableToRead "uint32_t" "version")) := by
    decide +kernel
  refine (failed_load_iff (run_spectest noBodies) [0x00, 0x61, 0x73, 0x6d] noFeatures false true
    (.unableToRead "uint32_t" "version") (Prod.ext rfl failed)).mpr ?_
  have none_ : (delivered (Loader.answer noBodies)
      (Read.readModule.run (.start [0x00, 0x61, 0x73, 0x6d] noFeatures false true)).1
      (.start noBodies spectest)) = [] := by
    decide +kernel
  rw [none_]
  exact fun item isMember => (List.not_mem_nil isMember).elim

end Loading
end WasmSandboxing
