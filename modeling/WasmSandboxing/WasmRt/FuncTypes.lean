import WasmSandboxing.Foundation.Interning
import WasmSandboxing.Wasm.Opcode
import Mathlib.Algebra.Ring.Nat

namespace WasmSandboxing
namespace WasmRt

open Foundation Wasm

/-!
# Function types of the runtime

`g_func_types` and the two functions that register a type, one for generated
code and one for the host.  Both end in the same search, and a type's id is its
position counted from one.
-/

/-- `FuncType`: two arrays with their counts.  `wasm_rt_type_t` and its copy in
the host have the four value types. -/
structure FuncType where
  paramCount : BitVec 32
  params : List ValueType
  resultCount : BitVec 32
  results : List ValueType

/-- A loop of `func_types_are_equal`. -/
def typesAreEqual (count : BitVec 32) (first second : List ValueType) : Bool :=
  (List.range count.toNat).all fun index => first[index]? == second[index]?

def funcTypesAreEqual (first second : FuncType) : Bool :=
  if first.paramCount ≠ second.paramCount || first.resultCount ≠ second.resultCount then false
  else
    typesAreEqual first.paramCount first.params second.params &&
      typesAreEqual first.resultCount first.results second.results

/-- How both registrations end: the id of the first equal type, or of a new
one. -/
def registerType (types : List FuncType) (funcType : FuncType) : BitVec 32 × List FuncType :=
  let (index, types) := intern funcTypesAreEqual types funcType
  (BitVec.ofNat 32 index + 1, types)

/-- `wasm_rt_register_func_type`; reading an argument that was not passed is
undefined. -/
def registerFuncType (types : List FuncType) (paramCount resultCount : BitVec 32)
    (arguments : List ValueType) : Option (BitVec 32 × List FuncType) :=
  if arguments.length < paramCount.toNat + resultCount.toNat then none
  else
    some (registerType types ⟨paramCount, arguments.take paramCount.toNat, resultCount,
      (arguments.drop paramCount.toNat).take resultCount.toNat⟩)

/-- `wasm_rt_register_func_type_with_lists`: a `size()` is narrowed to a count. -/
def registerFuncTypeWithLists (types : List FuncType) (params results : List ValueType) :
    BitVec 32 × List FuncType :=
  let paramCount := BitVec.ofNat 32 params.length
  let resultCount := BitVec.ofNat 32 results.length
  registerType types
    ⟨paramCount, params.take paramCount.toNat, resultCount, results.take resultCount.toNat⟩

/-! ## The types of signatures -/

/-- The types of a C signature, of which a call or a parameter pack has far
fewer than an `int` can count. -/
structure TypeLists where
  params : List ValueType
  results : List ValueType
  paramsShort : params.length < 2 ^ 31
  resultsShort : results.length < 2 ^ 31
  deriving DecidableEq

namespace TypeLists

def funcType (lists : TypeLists) : FuncType where
  paramCount := BitVec.ofNat 32 lists.params.length
  params := lists.params
  resultCount := BitVec.ofNat 32 lists.results.length
  results := lists.results

variable (lists : TypeLists)

theorem toNat_paramCount :
    (BitVec.ofNat 32 lists.params.length).toNat = lists.params.length := by
  have short := lists.paramsShort
  rw [BitVec.toNat_ofNat, Nat.mod_eq_of_lt (by omega)]

theorem toNat_resultCount :
    (BitVec.ofNat 32 lists.results.length).toNat = lists.results.length := by
  have short := lists.resultsShort
  rw [BitVec.toNat_ofNat, Nat.mod_eq_of_lt (by omega)]

end TypeLists

/-- A loop over arrays of the same length compares them. -/
theorem typesAreEqual_iff {count : BitVec 32} {first second : List ValueType}
    (firstLength : first.length = count.toNat) (secondLength : second.length = count.toNat) :
    typesAreEqual count first second = true ↔ first = second := by
  rw [typesAreEqual, List.all_eq_true]
  constructor
  · intro equal
    apply List.ext_getElem?
    intro index
    by_cases inside : index < count.toNat
    · exact eq_of_beq (equal index (List.mem_range.mpr inside))
    · rw [List.getElem?_eq_none (by omega), List.getElem?_eq_none (by omega)]
  · rintro rfl index _
    exact beq_self_eq_true _

theorem funcTypesAreEqual_iff (first second : TypeLists) :
    funcTypesAreEqual first.funcType second.funcType = decide (first = second) := by
  rw [Bool.eq_iff_iff, decide_eq_true_iff, funcTypesAreEqual]
  constructor
  · intro equal
    split at equal
    · cases equal
    · rename_i counts
      simp only [Bool.or_eq_true, decide_eq_true_eq, ne_eq, not_or, not_not] at counts
      rcases Bool.and_eq_true_iff.mp equal with ⟨params, results⟩
      have sameParams : first.params = second.params :=
        (typesAreEqual_iff first.toNat_paramCount.symm
          (second.toNat_paramCount.symm.trans (congrArg BitVec.toNat counts.1.symm))).mp params
      have sameResults : first.results = second.results :=
        (typesAreEqual_iff first.toNat_resultCount.symm
          (second.toNat_resultCount.symm.trans (congrArg BitVec.toNat counts.2.symm))).mp results
      cases first
      cases second
      cases sameParams
      cases sameResults
      rfl
  · rintro rfl
    rw [if_neg (by simp), Bool.and_eq_true]
    exact ⟨(typesAreEqual_iff first.toNat_paramCount.symm first.toNat_paramCount.symm).mpr rfl,
      (typesAreEqual_iff first.toNat_resultCount.symm first.toNat_resultCount.symm).mpr rfl⟩

/-! ## The registrations of signatures -/

section Registration

variable (types : List FuncType) (known : List TypeLists) (lists : TypeLists)

/-- Generated code passes the counts and then the parameters and results. -/
theorem registerFuncType_lists :
    registerFuncType types (BitVec.ofNat 32 lists.params.length)
      (BitVec.ofNat 32 lists.results.length) (lists.params ++ lists.results) =
        some (registerType types lists.funcType) := by
  rw [registerFuncType, lists.toNat_paramCount, lists.toNat_resultCount, List.length_append,
    if_neg (Nat.lt_irrefl _), List.take_left, List.drop_left, List.take_length]
  rfl

theorem registerFuncTypeWithLists_lists :
    registerFuncTypeWithLists types lists.params lists.results =
      registerType types lists.funcType := by
  simp only [registerFuncTypeWithLists]
  rw [lists.toNat_paramCount, lists.toNat_resultCount, List.take_length, List.take_length]
  rfl

/-- Registering is interning the lists. -/
theorem registerType_known :
    registerType (known.map TypeLists.funcType) lists.funcType =
      (BitVec.ofNat 32 (internEqual known lists).1 + 1,
        (internEqual known lists).2.map TypeLists.funcType) := by
  rw [registerType, intern_map funcTypesAreEqual_iff]
  rfl

end Registration

end WasmRt
end WasmSandboxing
