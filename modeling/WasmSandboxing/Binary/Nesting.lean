import WasmSandboxing.Binary.ReaderIr

namespace WasmSandboxing
namespace Binary

/-!
# How constructs nest

A sequence of opcodes is balanced when the grammar derives it: every construct
has an `end` of its own, with an `else` or a `catch` in between where it can
have one.  Scanning the opcodes with the constructs that are open decides it.
-/

/-- The label that a construct is entered with. -/
def ConstructType.label : ConstructType -> LabelType
  | .block => .block
  | .loop => .loop
  | .if_ => .if_
  | .ifExcept => .ifExcept
  | .try_ => .try_

/-- The label of a construct behind its `else` or `catch`, if it can have one. -/
def LabelType.secondArm : LabelType -> Callback -> Option LabelType
  | .if_, .onElse => some .else_
  | .ifExcept, .onElse => some .ifExceptElse
  | .try_, .onCatch => some .catch_
  | _, _ => none

/-- Balanced sequences of opcodes, without the `end` of the function. -/
inductive Balanced : List Callback -> Prop where
  | nil : Balanced []
  | expr {rest : List Callback} (type : ExprType) (later : Balanced rest) :
      Balanced (.expr type :: rest)
  | construct {inner rest : List Callback} (type : ConstructType) (inside : Balanced inner)
      (later : Balanced rest) : Balanced (.construct type :: inner ++ .onEnd :: rest)
  | arms {first second rest : List Callback} {middle : Callback} {label : LabelType}
      (type : ConstructType) (divides : type.label.secondArm middle = some label)
      (inFirst : Balanced first) (inSecond : Balanced second) (later : Balanced rest) :
      Balanced (.construct type :: first ++ middle :: second ++ .onEnd :: rest)

/-- The constructs open behind an opcode, the innermost first; nothing if the
opcode belongs to none of those before it. -/
def nestingStep (opened : List LabelType) : Callback -> Option (List LabelType)
  | .expr _ => some opened
  | .construct type => some (type.label :: opened)
  | .onEnd =>
      match opened with
      | [] => none
      | _ :: rest => some rest
  | middle =>
      match opened with
      | [] => none
      | label :: rest => (label.secondArm middle).map (· :: rest)

def nesting : List LabelType -> List Callback -> Option (List LabelType)
  | opened, [] => some opened
  | opened, callback :: rest => (nestingStep opened callback).bind (nesting · rest)

/-! ## The scan accepts what the grammar derives -/

theorem nestingStep_middle {middle : Callback} {label second : LabelType}
    (divides : label.secondArm middle = some second) (opened : List LabelType) :
    nestingStep (label :: opened) middle = some (second :: opened) := by
  cases middle with
  | onElse => exact congrArg (Option.map (· :: opened)) divides
  | onCatch => exact congrArg (Option.map (· :: opened)) divides
  | expr type => cases label <;> exact nomatch divides
  | construct type => cases label <;> exact nomatch divides
  | onEnd => cases label <;> exact nomatch divides

/-- Behind a balanced sequence the same constructs are open as before it. -/
theorem Balanced.nesting_append {callbacks : List Callback} (balanced : Balanced callbacks)
    (opened : List LabelType) (later : List Callback) :
    nesting opened (callbacks ++ later) = nesting opened later := by
  induction balanced generalizing opened later with
  | nil => rfl
  | expr type _ inductionHypothesis => exact inductionHypothesis opened later
  | @construct inner rest type _ _ inner_ih rest_ih =>
      change nesting (type.label :: opened) (inner ++ .onEnd :: rest ++ later) = _
      rw [List.append_assoc, inner_ih]
      exact rest_ih opened later
  | @arms first second rest middle label type divides _ _ _ first_ih second_ih rest_ih =>
      change nesting (type.label :: opened)
        (first ++ middle :: second ++ .onEnd :: rest ++ later) = _
      rw [List.append_assoc, List.append_assoc, first_ih, List.cons_append, nesting,
        nestingStep_middle divides, Option.bind_some, second_ih]
      exact rest_ih opened later

/-! ## The grammar derives what the scan accepts -/

theorem Balanced.append {first second : List Callback} (inFirst : Balanced first)
    (inSecond : Balanced second) : Balanced (first ++ second) := by
  induction inFirst with
  | nil => exact inSecond
  | expr type _ inductionHypothesis => exact .expr type inductionHypothesis
  | construct type inside _ _ rest_ih =>
      rw [List.append_assoc]
      exact .construct type inside rest_ih
  | arms type divides inFirst inSecond _ _ _ rest_ih =>
      rw [List.append_assoc]
      exact .arms type divides inFirst inSecond rest_ih

/-- The opcodes of a construct from the label on that it is under. -/
def Inside (label : LabelType) (callbacks : List Callback) : Prop :=
  Balanced callbacks ∨ exists first middle second after, label.secondArm middle = some after ∧
    Balanced first ∧ Balanced second ∧ callbacks = first ++ middle :: second

/-- The opcodes behind open constructs that end all of them. -/
inductive Closes : List LabelType -> List Callback -> Prop where
  | nil {callbacks : List Callback} (balanced : Balanced callbacks) : Closes [] callbacks
  | cons {label : LabelType} {opened : List LabelType} {inner later : List Callback}
      (inside : Inside label inner) (closes : Closes opened later) :
      Closes (label :: opened) (inner ++ .onEnd :: later)

theorem Inside.prepend {label : LabelType} {first second : List Callback}
    (balanced : Balanced first) (inside : Inside label second) :
    Inside label (first ++ second) := by
  rcases inside with whole | ⟨left, middle, right, after, divides, inLeft, inRight, rfl⟩
  · exact .inl (balanced.append whole)
  · rw [← List.append_assoc]
    exact .inr ⟨_, middle, right, after, divides, balanced.append inLeft, inRight, rfl⟩

theorem Closes.prepend {opened : List LabelType} {first second : List Callback}
    (balanced : Balanced first) (closes : Closes opened second) :
    Closes opened (first ++ second) := by
  cases closes with
  | nil whole => exact .nil (balanced.append whole)
  | cons inside closes =>
      rw [← List.append_assoc]
      exact .cons (inside.prepend balanced) closes

theorem Inside.construct {type : ConstructType} {inner : List Callback}
    (inside : Inside type.label inner) : Balanced (.construct type :: inner ++ [.onEnd]) := by
  rcases inside with whole | ⟨first, middle, second, after, divides, inFirst, inSecond, rfl⟩
  · exact .construct type whole .nil
  · exact .arms type divides inFirst inSecond .nil

/-- Behind its middle a construct has no other one. -/
theorem Inside.behind {label after : LabelType} {middle : Callback} {inner : List Callback}
    (divides : label.secondArm middle = some after) (inside : Inside after inner) :
    Inside label (middle :: inner) := by
  rcases inside with whole | ⟨_, again, _, _, divided, _⟩
  · exact .inr ⟨[], middle, inner, after, divides, .nil, whole, rfl⟩
  · exfalso
    revert divides divided
    cases label <;> cases middle <;> cases after <;> cases again <;> exact nofun

theorem closes_of_nesting {opened : List LabelType} {callbacks : List Callback}
    (closed : nesting opened callbacks = some []) : Closes opened callbacks := by
  induction callbacks generalizing opened with
  | nil =>
      cases Option.some.inj closed
      exact .nil .nil
  | cons callback rest inductionHypothesis =>
      rcases Option.bind_eq_some_iff.mp closed with ⟨next, stepped, closed⟩
      have later := inductionHypothesis closed
      cases callback with
      | expr type =>
          cases Option.some.inj stepped
          exact later.prepend (.expr type .nil)
      | construct type =>
          cases Option.some.inj stepped
          cases later with
          | @cons _ _ inner after inside closes =>
              have whole := closes.prepend inside.construct
              simpa using whole
      | onEnd =>
          cases opened with
          | nil => exact nomatch stepped
          | cons label opened =>
              cases Option.some.inj stepped
              exact .cons (.inl .nil) later
      | onElse =>
          cases opened with
          | nil => exact nomatch stepped
          | cons label opened =>
              rcases Option.map_eq_some_iff.mp stepped with ⟨after, divides, rfl⟩
              cases later with
              | cons inside closes => exact .cons (inside.behind divides) closes
      | onCatch =>
          cases opened with
          | nil => exact nomatch stepped
          | cons label opened =>
              rcases Option.map_eq_some_iff.mp stepped with ⟨after, divides, rfl⟩
              cases later with
              | cons inside closes => exact .cons (inside.behind divides) closes

/-- The scan decides the grammar. -/
theorem nesting_closed_iff (callbacks : List Callback) :
    nesting [] callbacks = some [] ↔ Balanced callbacks := by
  constructor
  · intro closed
    cases closes_of_nesting closed with
    | nil balanced => exact balanced
  · intro balanced
    rw [← List.append_nil callbacks, balanced.nesting_append]
    rfl

end Binary
end WasmSandboxing
