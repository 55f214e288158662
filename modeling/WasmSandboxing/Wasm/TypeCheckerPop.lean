import WasmSandboxing.Wasm.TypeChecker
import Mathlib.Data.List.Basic
import Mathlib.Data.List.Infix

namespace WasmSandboxing
namespace Wasm

/-!
# Operands of the type checker

The checker peeks at all operands of an instruction and then drops them, and
the validation algorithm pops one after the other.  Both agree as long as
nothing has failed.
-/

namespace Result

theorem or_assoc (first second third : Result) :
    (first.or second).or third = first.or (second.or third) := by
  cases first <;> cases second <;> cases third <;> rfl

theorem or_comm (first second : Result) : first.or second = second.or first := by
  cases first <;> cases second <;> rfl

@[simp] theorem ok_or (result : Result) : ok.or result = result := by
  cases result <;> rfl

theorem ext_ok {first second : Result} (same : first = ok ↔ second = ok) : first = second := by
  cases first <;> cases second <;> simp_all

theorem ne_ok_iff {result : Result} : result ≠ ok ↔ result = error := by
  cases result <;> decide

end Result

def CheckerLabel.frame (label : CheckerLabel) : ControlFrame :=
  ⟨label.labelType, label.paramTypes, label.resultTypes, label.typeStackLimit, label.unreachable⟩

@[simp] theorem CheckerLabel.frame_labelTypes (label : CheckerLabel) :
    label.frame.labelTypes = label.brTypes := rfl

namespace TypeChecker

/-- The checker's stacks as those of the algorithm. -/
def validation (checker : TypeChecker) : ValidationState :=
  ⟨checker.typeStack, checker.labelStack.map CheckerLabel.frame⟩

/-- No label starts above the operands or above a label inside it. -/
structure Bounded (checker : TypeChecker) : Prop where
  height : forall label, label ∈ checker.labelStack ->
    label.typeStackLimit ≤ checker.typeStack.length
  nested : checker.labelStack.Pairwise fun inner outer =>
    outer.typeStackLimit ≤ inner.typeStackLimit

/-- The outermost label, and no other, is the function's. -/
def Nested : List CheckerLabel -> Prop
  | [] => False
  | [label] => label.labelType = .func
  | label :: labels => label.labelType ≠ .func ∧ Nested labels

/-- An unknown operand is the first one behind some label's start. -/
structure WellFormed (checker : TypeChecker) : Prop extends checker.Bounded where
  labelled : Nested checker.labelStack
  unknown : forall position : Nat, checker.typeStack.reverse[position]? = some .unknown ->
    ∃ label, label ∈ checker.labelStack ∧ label.typeStackLimit = position

/-- A callback fails where the algorithm does, and leaves the algorithm's state
where it does not. -/
def Follows (made : Result × TypeChecker) (valid : Option ValidationState) : Prop :=
  match made.1 with
  | .ok => valid = some made.2.validation ∧ made.2.WellFormed
  | .error => valid = none

theorem Follows.ok {checker : TypeChecker} (wellFormed : checker.WellFormed) :
    Follows (.ok, checker) (some checker.validation) :=
  ⟨rfl, wellFormed⟩

theorem Follows.error {checker : TypeChecker} : Follows (.error, checker) none := rfl

/-- One after the other. -/
theorem Follows.bind {first second : Result} {between after : TypeChecker}
    {valid : Option ValidationState} {next : ValidationState -> Option ValidationState}
    (follows : Follows (first, between) valid)
    (later : between.WellFormed -> Follows (second, after) (next between.validation)) :
    Follows (first.or second, after) (valid.bind next) := by
  cases first with
  | error =>
      have failed : valid = none := follows
      rw [failed]
      exact Follows.error
  | ok =>
      rcases follows with ⟨reached, wellFormed⟩
      rw [Result.ok_or, reached]
      exact later wellFormed

section Operands

variable {checker : TypeChecker}

theorem WellFormed.top (wellFormed : checker.WellFormed) : ∃ label labels,
    checker.labelStack = label :: labels ∧ label.typeStackLimit ≤ checker.typeStack.length := by
  cases stack : checker.labelStack with
  | nil =>
      have labelled := wellFormed.labelled
      rw [stack] at labelled
      exact labelled.elim
  | cons label labels =>
      exact ⟨label, labels, rfl, wellFormed.height label (stack ▸ List.mem_cons_self)⟩

/-- Dropping operands above the top label keeps the checker in order. -/
theorem WellFormed.of_suffix (wellFormed : checker.WellFormed) {operands : List OperandType}
    (suffix : operands <:+ checker.typeStack)
    (above : forall label, label ∈ checker.labelStack -> label.typeStackLimit ≤ operands.length) :
    WellFormed ⟨operands, checker.labelStack⟩ where
  height := above
  nested := wellFormed.nested
  labelled := wellFormed.labelled
  unknown position found := by
    rcases suffix with ⟨dropped, whole⟩
    apply wellFormed.unknown position
    rw [← whole, List.reverse_append,
      List.getElem?_append_left (List.getElem?_eq_some_iff.mp found).1]
    exact found

theorem pushTypes_eq (checker : TypeChecker) (types : List ValueType) :
    checker.pushTypes types =
      ⟨types.reverse.map .value ++ checker.typeStack, checker.labelStack⟩ := by
  induction types generalizing checker with
  | nil => rfl
  | cons type types inductionHypothesis =>
      rw [pushTypes, List.foldl_cons, ← pushTypes, inductionHypothesis]
      simp [pushOperand]

theorem pushTypes_validation (checker : TypeChecker) (types : List ValueType) :
    (checker.pushTypes types).validation = checker.validation.pushOperands types := by
  rw [pushTypes_eq]
  rfl

theorem WellFormed.pushTypes (wellFormed : checker.WellFormed) (types : List ValueType) :
    (checker.pushTypes types).WellFormed := by
  rw [pushTypes_eq]
  constructor
  · constructor
    · intro label member
      have below := wellFormed.height label member
      rw [List.length_append]
      omega
    · exact wellFormed.nested
  · exact wellFormed.labelled
  · intro position found
    rw [List.reverse_append, List.getElem?_append] at found
    split at found
    · exact wellFormed.unknown position found
    · rw [← List.map_reverse, List.getElem?_map] at found
      rcases Option.map_eq_some_iff.mp found with ⟨_, _, impossible⟩
      cases impossible

/-! ## Popping -/

theorem peekType_cons {label : CheckerLabel} {labels : List CheckerLabel}
    {operands : List OperandType} (depth : Nat) :
    peekType ⟨operands, label :: labels⟩ depth =
      if operands.length ≤ label.typeStackLimit + depth then
        (.ofBool label.unreachable, .unknown)
      else (.ok, operands.getD depth .unknown) := rfl

theorem dropTypes_cons {label : CheckerLabel} {labels : List CheckerLabel}
    {operands : List OperandType} (dropCount : Nat) :
    dropTypes ⟨operands, label :: labels⟩ dropCount =
      if operands.length < label.typeStackLimit + dropCount then
        (.ofBool label.unreachable,
          ⟨operands.drop (operands.length - label.typeStackLimit), label :: labels⟩)
      else (.ok, ⟨operands.drop dropCount, label :: labels⟩) := rfl

theorem peekAndCheckType_cons {label : CheckerLabel} {labels : List CheckerLabel}
    {operands : List OperandType} (depth : Nat) (expected : OperandType) :
    peekAndCheckType ⟨operands, label :: labels⟩ depth expected =
      if operands.length ≤ label.typeStackLimit + depth then .ofBool label.unreachable
      else checkType (operands.getD depth .unknown) expected := by
  unfold peekAndCheckType
  rw [peekType_cons]
  by_cases outside : operands.length ≤ label.typeStackLimit + depth
  · have any : checkType .unknown expected = .ok := by simp [checkType]
    rw [if_pos outside, if_pos outside]
    simp only [any]
    cases label.unreachable <;> rfl
  · rw [if_neg outside, if_neg outside]
    exact Result.ok_or _

/-- Behind the end of a frame that cannot be reached nothing is dropped. -/
theorem dropTypes_atLimit {label : CheckerLabel} {labels : List CheckerLabel}
    {operands : List OperandType} (atLimit : operands.length = label.typeStackLimit)
    (dropCount : Nat) :
    (dropTypes ⟨operands, label :: labels⟩ dropCount).2 = ⟨operands, label :: labels⟩ := by
  rw [dropTypes_cons]
  split
  · simp [atLimit]
  · rename_i inside
    have none : dropCount = 0 := by omega
    rw [none]
    rfl

/-- What is peeked at below the top is what is on the top when that is gone. -/
theorem peekAndCheckType_succ (wellFormed : checker.WellFormed) {type : OperandType}
    (first : checker.peekAndCheckType 0 type = .ok) (depth : Nat) (expected : OperandType) :
    (checker.dropTypes 1).2.peekAndCheckType depth expected =
      checker.peekAndCheckType (depth + 1) expected := by
  rcases wellFormed.top with ⟨label, labels, stack, above⟩
  rcases checker with ⟨operands, labelStack⟩
  simp only at stack above
  subst stack
  by_cases atLimit : operands.length = label.typeStackLimit
  · rw [dropTypes_atLimit atLimit, peekAndCheckType_cons, peekAndCheckType_cons,
      if_pos (by omega), if_pos (by omega)]
  · have dropped : (dropTypes ⟨operands, label :: labels⟩ 1).2 =
        ⟨operands.drop 1, label :: labels⟩ := by
      rw [dropTypes_cons, if_neg (by omega)]
    rw [dropped, peekAndCheckType_cons, peekAndCheckType_cons, List.length_drop]
    have same : operands.length - 1 ≤ label.typeStackLimit + depth ↔
        operands.length ≤ label.typeStackLimit + (depth + 1) := by omega
    simp only [same, List.getD_eq_getElem?_getD, List.getElem?_drop, Nat.add_comm 1 depth]

theorem dropTypes_succ (wellFormed : checker.WellFormed) {type : OperandType}
    (first : checker.peekAndCheckType 0 type = .ok) (dropCount : Nat) :
    checker.dropTypes (dropCount + 1) = (checker.dropTypes 1).2.dropTypes dropCount := by
  rcases wellFormed.top with ⟨label, labels, stack, above⟩
  rcases checker with ⟨operands, labelStack⟩
  simp only at stack above
  subst stack
  rw [peekAndCheckType_cons] at first
  by_cases atLimit : operands.length = label.typeStackLimit
  · rw [if_pos (by omega), Result.ofBool_eq_ok] at first
    apply Prod.ext
    · rw [dropTypes_atLimit atLimit, dropTypes_cons, dropTypes_cons, first]
      split <;> split <;> rfl
    · rw [dropTypes_atLimit atLimit, dropTypes_atLimit atLimit, dropTypes_atLimit atLimit]
  · have dropped : (dropTypes ⟨operands, label :: labels⟩ 1).2 =
        ⟨operands.drop 1, label :: labels⟩ := by
      rw [dropTypes_cons, if_neg (by omega)]
    rw [dropped, dropTypes_cons, dropTypes_cons]
    simp only [List.length_drop, List.drop_drop]
    have same : operands.length < label.typeStackLimit + (dropCount + 1) ↔
        operands.length - 1 < label.typeStackLimit + dropCount := by omega
    have reset : 1 + (operands.length - 1 - label.typeStackLimit) =
        operands.length - label.typeStackLimit := by omega
    rw [reset, Nat.add_comm 1 dropCount]
    simp only [same]

/-- Checking and dropping one operand is popping it. -/
theorem pop_one (wellFormed : checker.WellFormed) (type : ValueType) :
    Follows ((checker.peekAndCheckType 0 (.value type)).or (checker.dropTypes 1).1,
        (checker.dropTypes 1).2)
      ((checker.validation.popExpected (.value type)).map Prod.snd) := by
  rcases wellFormed.top with ⟨label, labels, stack, above⟩
  rcases checker with ⟨operands, labelStack⟩
  simp only at stack above
  subst stack
  rw [peekAndCheckType_cons]
  by_cases atLimit : operands.length = label.typeStackLimit
  · rw [if_pos (by omega), dropTypes_atLimit atLimit]
    have popped : (validation ⟨operands, label :: labels⟩).popOperand =
        if label.unreachable then some (.unknown, validation ⟨operands, label :: labels⟩)
        else none := by
      simp [ValidationState.popOperand, validation, CheckerLabel.frame, atLimit]
    have result : (dropTypes ⟨operands, label :: labels⟩ 1).1 = .ofBool label.unreachable := by
      rw [dropTypes_cons, if_pos (by omega)]
    rw [result, ValidationState.popExpected, popped]
    cases label.unreachable with
    | false => exact Follows.error
    | true => exact Follows.ok wellFormed
  · rw [if_neg (by omega)]
    have dropped : dropTypes ⟨operands, label :: labels⟩ 1 =
        (.ok, ⟨operands.drop 1, label :: labels⟩) := by
      rw [dropTypes_cons, if_neg (by omega)]
    rw [dropped]
    cases operands with
    | nil => simp at atLimit above; omega
    | cons operand rest =>
        have kept : WellFormed ⟨rest, label :: labels⟩ := by
          refine wellFormed.of_suffix (List.suffix_cons operand rest) fun other member => ?_
          have below : other.typeStackLimit ≤ label.typeStackLimit := by
            rcases List.mem_cons.mp member with rfl | inner
            · exact le_refl _
            · exact List.rel_of_pairwise_cons wellFormed.nested inner
          simp only [List.length_cons] at above atLimit
          omega
        have popped : (validation ⟨operand :: rest, label :: labels⟩).popOperand =
            some (operand, validation ⟨rest, label :: labels⟩) := by
          have different : rest.length + 1 ≠ label.typeStackLimit := atLimit
          simp [ValidationState.popOperand, validation, CheckerLabel.frame, different]
        rw [ValidationState.popExpected, popped]
        cases operand with
        | unknown => exact ⟨rfl, kept⟩
        | value actual =>
            by_cases same : actual = type
            · subst same
              simpa [checkType, Result.ofBool] using Follows.ok kept
            · have other : ¬ type = actual := fun equal => same equal.symm
              simp [checkType, same, other, Follows, Result.or, Result.ofBool]

theorem dropTypes_one_ok (wellFormed : checker.WellFormed) {type : OperandType}
    (first : checker.peekAndCheckType 0 type = .ok) : (checker.dropTypes 1).1 = .ok := by
  rcases wellFormed.top with ⟨label, labels, stack, above⟩
  rcases checker with ⟨operands, labelStack⟩
  simp only at stack above
  subst stack
  rw [peekAndCheckType_cons] at first
  rw [dropTypes_cons]
  split
  · rw [if_pos (by omega)] at first
    exact first
  · rfl

/-- The checks of a signature from its last type on. -/
def checkReversed (checker : TypeChecker) : List ValueType -> Nat -> Result
  | [], _ => .ok
  | type :: types, depth =>
      (checker.peekAndCheckType depth (.value type)).or (checkReversed checker types (depth + 1))

theorem checkReversed_ok (types : List ValueType) (depth : Nat) :
    checker.checkReversed types depth = .ok ↔ forall (index : Nat) (type : ValueType),
      types[index]? = some type -> checker.peekAndCheckType (depth + index) (.value type) = .ok := by
  induction types generalizing depth with
  | nil => simp [checkReversed]
  | cons first types inductionHypothesis =>
      rw [checkReversed, Result.or_eq_ok, inductionHypothesis]
      constructor
      · rintro ⟨here, later⟩ index type found
        cases index with
        | zero =>
            cases found
            exact here
        | succ index =>
            have shifted : depth + (index + 1) = depth + 1 + index := by omega
            rw [shifted]
            exact later index type found
      · intro all
        refine ⟨all 0 first rfl, fun index type found => ?_⟩
        rw [Nat.add_right_comm, Nat.add_assoc]
        exact all (index + 1) type found

theorem foldl_or_ok {Item : Type} (check : Item -> Result) (items : List Item) (start : Result) :
    items.foldl (fun result item => result.or (check item)) start = .ok ↔
      start = .ok ∧ forall item, item ∈ items -> check item = .ok := by
  induction items generalizing start with
  | nil => simp
  | cons item items inductionHypothesis =>
      rw [List.foldl_cons, inductionHypothesis, Result.or_eq_ok]
      simp [and_assoc]

/-- The order in which a signature is checked does not matter. -/
theorem checkSignature_eq (checker : TypeChecker) (sig : List ValueType) :
    checker.checkSignature sig = checker.checkReversed sig.reverse 0 := by
  have same : checker.checkSignature sig = .ok ↔ checker.checkReversed sig.reverse 0 = .ok := by
    unfold checkSignature
    rw [foldl_or_ok (fun item : ValueType × Nat =>
      checker.peekAndCheckType (sig.length - item.2 - 1) (.value item.1)), checkReversed_ok]
    constructor
    · rintro ⟨_, all⟩ index type found
      have below : index < sig.length := by
        have inside := (List.getElem?_eq_some_iff.mp found).1
        rwa [List.length_reverse] at inside
      rw [List.getElem?_reverse below] at found
      have checked := all (type, sig.length - 1 - index) (List.mem_zipIdx_iff_getElem?.mpr found)
      have depth : sig.length - (sig.length - 1 - index) - 1 = 0 + index := by omega
      rwa [depth] at checked
    · intro all
      refine ⟨rfl, fun item member => ?_⟩
      have found := List.mem_zipIdx_iff_getElem?.mp member
      have below := (List.getElem?_eq_some_iff.mp found).1
      have checked := all (sig.length - item.2 - 1) item.1 (by
        rw [List.getElem?_reverse (by omega)]
        have index : sig.length - 1 - (sig.length - item.2 - 1) = item.2 := by omega
        rw [index, found])
      rwa [Nat.zero_add] at checked
  cases first : checker.checkSignature sig with
  | ok => exact (same.mp first).symm
  | error =>
      rw [first] at same
      exact (Result.ne_ok_iff.mp fun succeeded => nomatch same.mpr succeeded).symm

/-- Checking and dropping operands is popping them. -/
theorem pop_reversed (wellFormed : checker.WellFormed) (types : List ValueType) :
    Follows ((checker.checkReversed types 0).or (checker.dropTypes types.length).1,
        (checker.dropTypes types.length).2)
      (checker.validation.popReversed types) := by
  induction types generalizing checker with
  | nil =>
      rcases wellFormed.top with ⟨label, labels, stack, above⟩
      rcases checker with ⟨operands, labelStack⟩
      simp only at stack above
      subst stack
      rw [List.length_nil, dropTypes_cons, if_neg (by omega)]
      exact Follows.ok wellFormed
  | cons type types inductionHypothesis =>
      have popped := pop_one wellFormed type
      have unfolded : checker.validation.popReversed (type :: types) =
          ((checker.validation.popExpected (.value type)).map Prod.snd).bind
            (ValidationState.popReversed types) := by
        rw [ValidationState.popReversed]
        cases checker.validation.popExpected (.value type) <;> rfl
      rw [unfolded, checkReversed]
      cases first : checker.peekAndCheckType 0 (.value type) with
      | error =>
          rw [first] at popped
          have failed : (checker.validation.popExpected (.value type)).map Prod.snd = none := popped
          rw [failed]
          exact Follows.error
      | ok =>
          rw [first, dropTypes_one_ok wellFormed first] at popped
          rcases popped with ⟨reached, kept⟩
          have rest : checker.checkReversed types 1 =
              (checker.dropTypes 1).2.checkReversed types 0 := by
            have shifted : forall depth, checker.checkReversed types (depth + 1) =
                (checker.dropTypes 1).2.checkReversed types depth := by
              clear inductionHypothesis unfolded
              induction types with
              | nil => exact fun _ => rfl
              | cons other types inductionHypothesis =>
                  intro depth
                  rw [checkReversed, checkReversed, peekAndCheckType_succ wellFormed first,
                    inductionHypothesis]
            exact shifted 0
          rw [reached, Result.ok_or, rest, List.length_cons,
            dropTypes_succ wellFormed first types.length]
          exact inductionHypothesis kept

theorem pop_signature (wellFormed : checker.WellFormed) (sig : List ValueType) :
    Follows (checker.popAndCheckSignature sig) (checker.validation.popOperands sig) := by
  have popped := pop_reversed wellFormed sig.reverse
  rw [List.length_reverse] at popped
  unfold popAndCheckSignature
  rw [checkSignature_eq]
  exact popped

end Operands

/-! ## Labels -/

section Labels

variable {checker : TypeChecker}

theorem Nested.cons {label : CheckerLabel} {labels : List CheckerLabel} (nested : Nested labels)
    (inner : label.labelType ≠ .func) : Nested (label :: labels) := by
  cases labels with
  | nil => exact nested.elim
  | cons outer labels => exact ⟨inner, nested⟩

/-- What is known of a label does not change the nesting, nor does its kind. -/
theorem Nested.update {label other : CheckerLabel} {labels : List CheckerLabel}
    (nested : Nested (label :: labels))
    (same : other.labelType = .func ↔ label.labelType = .func) : Nested (other :: labels) := by
  cases labels with
  | nil => exact same.mpr nested
  | cons outer labels => exact ⟨fun func => nested.1 (same.mp func), nested.2⟩

theorem Nested.tail {label : CheckerLabel} {labels : List CheckerLabel}
    (nested : Nested (label :: labels)) (inner : label.labelType ≠ .func) : Nested labels := by
  cases labels with
  | nil => exact absurd nested inner
  | cons outer labels => exact nested.2

theorem WellFormed.pushLabel (wellFormed : checker.WellFormed) {labelType : LabelType}
    (inner : labelType ≠ .func) (paramTypes resultTypes : List ValueType) :
    (checker.pushLabel labelType paramTypes resultTypes).WellFormed where
  height label member := by
    rcases List.mem_cons.mp member with rfl | old
    · exact le_refl _
    · exact wellFormed.height label old
  nested := List.pairwise_cons.mpr ⟨wellFormed.height, wellFormed.nested⟩
  labelled := wellFormed.labelled.cons inner
  unknown position found := by
    rcases wellFormed.unknown position found with ⟨label, member, same⟩
    exact ⟨label, List.mem_cons_of_mem _ member, same⟩

/-- Go on with a state of the same kind. -/
theorem Follows.map {result : Result} {after : TypeChecker} {valid : Option ValidationState}
    (follows : Follows (result, after) valid) (change : TypeChecker -> TypeChecker)
    {next : ValidationState -> ValidationState}
    (changes : after.WellFormed ->
      (change after).WellFormed ∧ (change after).validation = next after.validation) :
    Follows (result, change after) (valid.map next) := by
  cases result with
  | error =>
      have failed : valid = none := follows
      rw [failed]
      exact Follows.error
  | ok =>
      rcases follows with ⟨reached, wellFormed⟩
      rcases changes wellFormed with ⟨kept, same⟩
      rw [reached]
      exact ⟨congrArg some same.symm, kept⟩

/-- Enter a construct with its parameters. -/
theorem enter_follows {result : Result} {after : TypeChecker} {valid : Option ValidationState}
    (follows : Follows (result, after) valid) {labelType : LabelType}
    (inner : labelType ≠ .func) (paramTypes resultTypes : List ValueType) :
    Follows (result, (after.pushLabel labelType paramTypes resultTypes).pushTypes paramTypes)
      (valid.map fun state => state.pushControl labelType paramTypes resultTypes) :=
  follows.map (fun after => (after.pushLabel labelType paramTypes resultTypes).pushTypes paramTypes)
    fun wellFormed => ⟨(wellFormed.pushLabel inner paramTypes resultTypes).pushTypes paramTypes,
      pushTypes_validation _ paramTypes⟩

/-- Back to the start of the top label, which may be changed. -/
theorem WellFormed.reset (wellFormed : checker.WellFormed) {label : CheckerLabel}
    {labels : List CheckerLabel} (stack : checker.labelStack = label :: labels)
    (other : CheckerLabel)
    (limit : other.typeStackLimit = label.typeStackLimit)
    (kind : other.labelType = .func ↔ label.labelType = .func) :
    WellFormed { checker.resetTypeStackToLabel label with labelStack := other :: labels } := by
  rcases checker with ⟨operands, labelStack⟩
  simp only at stack
  subst stack
  have above : label.typeStackLimit ≤ operands.length :=
    wellFormed.height label List.mem_cons_self
  have length : (operands.drop (operands.length - label.typeStackLimit)).length =
      label.typeStackLimit := by
    rw [List.length_drop]
    omega
  have inner := List.pairwise_cons.mp wellFormed.nested
  have kept := wellFormed.of_suffix (List.drop_suffix
    (operands.length - label.typeStackLimit) operands) fun found member => by
      rw [length]
      rcases List.mem_cons.mp member with rfl | outer
      · exact le_refl _
      · exact inner.1 found outer
  constructor
  · constructor
    · intro found member
      change found.typeStackLimit ≤ (operands.drop (operands.length - label.typeStackLimit)).length
      rw [length]
      rcases List.mem_cons.mp member with rfl | outer
      · exact limit.le
      · exact inner.1 found outer
    · exact List.pairwise_cons.mpr ⟨fun found member => limit ▸ inner.1 found member, inner.2⟩
  · exact wellFormed.labelled.update kind
  · intro position found
    rcases kept.unknown position found with ⟨owner, member, same⟩
    rcases List.mem_cons.mp member with rfl | outer
    · exact ⟨other, List.mem_cons_self, limit.trans same⟩
    · exact ⟨owner, List.mem_cons_of_mem _ outer, same⟩

theorem setUnreachable_follows (wellFormed : checker.WellFormed) :
    Follows checker.setUnreachable checker.validation.setUnreachable := by
  rcases wellFormed.top with ⟨label, labels, stack, above⟩
  have reset := wellFormed.reset stack { label with unreachable := true } rfl Iff.rfl
  rcases checker with ⟨operands, labelStack⟩
  simp only at stack
  subst stack
  exact ⟨rfl, reset⟩

theorem setUnreachable_cons (operands : List OperandType) (label : CheckerLabel)
    (labels : List CheckerLabel) : setUnreachable ⟨operands, label :: labels⟩ =
      (.ok, ⟨operands.drop (operands.length - label.typeStackLimit),
        { label with unreachable := true } :: labels⟩) := rfl

/-- What is dropped above a label is gone when the stack is reset to it. -/
theorem setUnreachable_dropTypes (wellFormed : checker.WellFormed) (dropCount : Nat) :
    (checker.dropTypes dropCount).2.setUnreachable = checker.setUnreachable := by
  rcases wellFormed.top with ⟨label, labels, stack, above⟩
  rcases checker with ⟨operands, labelStack⟩
  simp only at stack above
  subst stack
  rw [dropTypes_cons, setUnreachable_cons]
  by_cases short : operands.length < label.typeStackLimit + dropCount
  · have back : operands.length - label.typeStackLimit + (operands.length -
        (operands.length - label.typeStackLimit) - label.typeStackLimit) =
        operands.length - label.typeStackLimit := by omega
    rw [if_pos short, setUnreachable_cons, List.length_drop, List.drop_drop, back]
  · have back : dropCount + (operands.length - dropCount - label.typeStackLimit) =
        operands.length - label.typeStackLimit := by omega
    rw [if_neg short, setUnreachable_cons, List.length_drop, List.drop_drop, back]

/-- Operands that pass their check can be dropped. -/
theorem dropTypes_ok (wellFormed : checker.WellFormed) {sig : List ValueType}
    (checked : checker.checkSignature sig = .ok) : (checker.dropTypes sig.length).1 = .ok := by
  rw [checkSignature_eq, checkReversed_ok] at checked
  rcases wellFormed.top with ⟨label, labels, stack, above⟩
  rcases checker with ⟨operands, labelStack⟩
  simp only at stack above
  subst stack
  rw [dropTypes_cons]
  split
  · rename_i short
    have inside : sig.length - 1 < sig.reverse.length := by
      rw [List.length_reverse]
      omega
    have last := checked (sig.length - 1) _ (List.getElem?_eq_getElem inside)
    rw [peekAndCheckType_cons, if_pos (by omega)] at last
    exact last
  · rfl

end Labels

end TypeChecker

end Wasm
end WasmSandboxing
