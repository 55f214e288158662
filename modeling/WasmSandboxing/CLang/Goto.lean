import WasmSandboxing.Foundation.Machine
import Mathlib.Data.List.Nodup

namespace WasmSandboxing
namespace CLang

open Foundation

/-!
# Statements with labels and gotos

The statements of one C function over any simple commands and expressions.
The machine keeps the statements still to be executed, those after an enclosing
block included, and a `goto` continues where its label stands in the function.
When the labels of a function are distinct, a `goto` from anywhere reaches the
same statements.
-/

/-- A statement list by its first statement. -/
inductive Code (Command : Type u) (Test : Type v) (Label : Type w) where
  | done
  | basic (command : Command) (rest : Code Command Test Label)
  | label (name : Label) (rest : Code Command Test Label)
  | goto (name : Label) (rest : Code Command Test Label)
  | branch (condition : Test) (yes no rest : Code Command Test Label)
  | switch (scrutinee : Test) (body rest : Code Command Test Label)
  | case (value : Nat) (rest : Code Command Test Label)
  | default (rest : Code Command Test Label)

namespace Code

variable {Command : Type u} {Test : Type v} {Label : Type w}

/-- Sequential composition. -/
def append : Code Command Test Label -> Code Command Test Label -> Code Command Test Label
  | done, next => next
  | basic command rest, next => basic command (rest.append next)
  | label name rest, next => label name (rest.append next)
  | goto name rest, next => goto name (rest.append next)
  | branch condition yes no rest, next => branch condition yes no (rest.append next)
  | switch scrutinee body rest, next => switch scrutinee body (rest.append next)
  | case value rest, next => case value (rest.append next)
  | default rest, next => default (rest.append next)

instance : Append (Code Command Test Label) := ⟨append⟩

@[simp] theorem done_append (next : Code Command Test Label) : done ++ next = next := rfl

@[simp] theorem basic_append (command : Command) (rest next : Code Command Test Label) :
    basic command rest ++ next = basic command (rest ++ next) := rfl

@[simp] theorem label_append (name : Label) (rest next : Code Command Test Label) :
    label name rest ++ next = label name (rest ++ next) := rfl

@[simp] theorem goto_append (name : Label) (rest next : Code Command Test Label) :
    goto name rest ++ next = goto name (rest ++ next) := rfl

@[simp] theorem branch_append (condition : Test) (yes no rest next : Code Command Test Label) :
    branch condition yes no rest ++ next = branch condition yes no (rest ++ next) := rfl

@[simp] theorem switch_append (scrutinee : Test) (body rest next : Code Command Test Label) :
    switch scrutinee body rest ++ next = switch scrutinee body (rest ++ next) := rfl

@[simp] theorem case_append (value : Nat) (rest next : Code Command Test Label) :
    case value rest ++ next = case value (rest ++ next) := rfl

@[simp] theorem default_append (rest next : Code Command Test Label) :
    default rest ++ next = default (rest ++ next) := rfl

@[simp] theorem append_done (code : Code Command Test Label) : code ++ done = code := by
  induction code <;> simp_all

theorem append_assoc (first second third : Code Command Test Label) :
    first ++ second ++ third = first ++ (second ++ third) := by
  induction first <;> simp_all

/-- The labels declared in the code, those of nested blocks included. -/
def labels : Code Command Test Label -> List Label
  | done => []
  | basic _ rest => rest.labels
  | label name rest => name :: rest.labels
  | goto _ rest => rest.labels
  | branch _ yes no rest => yes.labels ++ (no.labels ++ rest.labels)
  | switch _ body rest => body.labels ++ rest.labels
  | case _ rest => rest.labels
  | default rest => rest.labels

@[simp] theorem labels_append (first second : Code Command Test Label) :
    (first ++ second).labels = first.labels ++ second.labels := by
  induction first <;> simp_all [labels]

/-- The statements that follow a label, to the end of the function. -/
def findLabel [DecidableEq Label] (target : Label) :
    Code Command Test Label -> Option (Code Command Test Label)
  | done => none
  | basic _ rest => rest.findLabel target
  | label name rest => if name = target then some rest else rest.findLabel target
  | goto _ rest => rest.findLabel target
  | branch _ yes no rest =>
      match yes.findLabel target with
      | some found => some (found ++ rest)
      | none =>
          match no.findLabel target with
          | some found => some (found ++ rest)
          | none => rest.findLabel target
  | switch _ body rest =>
      match body.findLabel target with
      | some found => some (found ++ rest)
      | none => rest.findLabel target
  | case _ rest => rest.findLabel target
  | default rest => rest.findLabel target

/-- The statements from the case of a `switch` that a value selects, without
looking for `default`. -/
def findCase (target : Nat) : Code Command Test Label -> Option (Code Command Test Label)
  | done => none
  | basic _ rest => rest.findCase target
  | label _ rest => rest.findCase target
  | goto _ rest => rest.findCase target
  | branch _ _ _ rest => rest.findCase target
  | switch _ _ rest => rest.findCase target
  | case value rest => if value = target then some rest else rest.findCase target
  | default rest => rest.findCase target

def findDefault : Code Command Test Label -> Option (Code Command Test Label)
  | done => none
  | basic _ rest => rest.findDefault
  | label _ rest => rest.findDefault
  | goto _ rest => rest.findDefault
  | branch _ _ _ rest => rest.findDefault
  | switch _ _ rest => rest.findDefault
  | case _ rest => rest.findDefault
  | default rest => some rest

/-- Where a `switch` continues inside its body, if anywhere. -/
def select (target : Nat) (body : Code Command Test Label) :
    Option (Code Command Test Label) :=
  match body.findCase target with
  | some found => some found
  | none => body.findDefault

/-! ## Positions -/

/-- `code` is what remains to be executed at some point inside `program`. -/
inductive At (program : Code Command Test Label) : Code Command Test Label -> Prop
  | start : At program program
  | basic : At program (.basic command rest) -> At program rest
  | label : At program (.label name rest) -> At program rest
  | goto : At program (.goto name rest) -> At program rest
  | yes : At program (.branch condition yes no rest) -> At program (yes ++ rest)
  | no : At program (.branch condition yes no rest) -> At program (no ++ rest)
  | branch : At program (.branch condition yes no rest) -> At program rest
  | body : At program (.switch scrutinee body rest) -> At program (body ++ rest)
  | switch : At program (.switch scrutinee body rest) -> At program rest
  | case : At program (.case value rest) -> At program rest
  | default : At program (.default rest) -> At program rest

theorem At.skip {program : Code Command Test Label} {first rest : Code Command Test Label}
    (here : At program (first ++ rest)) : At program rest := by
  induction first with
  | done => exact here
  | basic _ _ inductionHypothesis => exact inductionHypothesis here.basic
  | label _ _ inductionHypothesis => exact inductionHypothesis here.label
  | goto _ _ inductionHypothesis => exact inductionHypothesis here.goto
  | branch _ _ _ _ _ _ inductionHypothesis => exact inductionHypothesis here.branch
  | switch _ _ _ _ inductionHypothesis => exact inductionHypothesis here.switch
  | case _ _ inductionHypothesis => exact inductionHypothesis here.case
  | default _ inductionHypothesis => exact inductionHypothesis here.default

/-- What remains to be executed declares labels of the program, in its order. -/
theorem At.labels_sublist {program code : Code Command Test Label} (here : At program code) :
    code.labels.Sublist program.labels := by
  induction here with
  | start => exact List.Sublist.refl _
  | basic _ inductionHypothesis => exact inductionHypothesis
  | label _ inductionHypothesis => exact (List.sublist_cons_self _ _).trans inductionHypothesis
  | goto _ inductionHypothesis => exact inductionHypothesis
  | yes _ inductionHypothesis =>
      refine List.Sublist.trans ?_ inductionHypothesis
      rw [labels_append, labels]
      exact (List.sublist_append_right _ _).append_left _
  | no _ inductionHypothesis =>
      refine List.Sublist.trans ?_ inductionHypothesis
      rw [labels_append, labels]
      exact List.sublist_append_right _ _
  | branch _ inductionHypothesis =>
      refine List.Sublist.trans ?_ inductionHypothesis
      exact (List.sublist_append_right _ _).trans (List.sublist_append_right _ _)
  | body _ inductionHypothesis =>
      refine List.Sublist.trans ?_ inductionHypothesis
      rw [labels_append, labels]
  | switch _ inductionHypothesis =>
      exact (List.sublist_append_right _ _).trans inductionHypothesis
  | case _ inductionHypothesis => exact inductionHypothesis
  | default _ inductionHypothesis => exact inductionHypothesis

variable [DecidableEq Label]

theorem findLabel_isSome_iff (target : Label) (code : Code Command Test Label) :
    (code.findLabel target).isSome ↔ target ∈ code.labels := by
  induction code with
  | done => simp [findLabel, labels]
  | basic _ _ inductionHypothesis => exact inductionHypothesis
  | label name rest inductionHypothesis =>
      by_cases same : name = target
      · simp [findLabel, labels, same]
      · simp [findLabel, labels, same, inductionHypothesis, Ne.symm same]
  | goto _ _ inductionHypothesis => exact inductionHypothesis
  | branch _ yes no rest yesHypothesis noHypothesis restHypothesis =>
      rw [labels, List.mem_append, List.mem_append, ← yesHypothesis, ← noHypothesis,
        ← restHypothesis, findLabel]
      cases yes.findLabel target <;> cases no.findLabel target <;> simp
  | switch _ body rest bodyHypothesis restHypothesis =>
      rw [labels, List.mem_append, ← bodyHypothesis, ← restHypothesis, findLabel]
      cases body.findLabel target <;> simp
  | case _ _ inductionHypothesis => exact inductionHypothesis
  | default _ inductionHypothesis => exact inductionHypothesis

theorem findLabel_eq_none {target : Label} {code : Code Command Test Label}
    (absent : target ∉ code.labels) : code.findLabel target = none := by
  rw [← Option.not_isSome_iff_eq_none, findLabel_isSome_iff]
  exact absent

theorem findLabel_append (target : Label) (first second : Code Command Test Label) :
    (first ++ second).findLabel target =
      match first.findLabel target with
      | some found => some (found ++ second)
      | none => second.findLabel target := by
  induction first with
  | done => rfl
  | basic _ _ inductionHypothesis => exact inductionHypothesis
  | label name rest inductionHypothesis =>
      by_cases same : name = target
      · simp [findLabel, same]
      · simp [findLabel, same, inductionHypothesis]
  | goto _ _ inductionHypothesis => exact inductionHypothesis
  | branch _ yes no rest _ _ inductionHypothesis =>
      rw [branch_append, findLabel, findLabel, inductionHypothesis]
      cases yes.findLabel target <;> cases no.findLabel target <;> simp [append_assoc]
  | switch _ body rest _ inductionHypothesis =>
      rw [switch_append, findLabel, findLabel, inductionHypothesis]
      cases body.findLabel target <;> simp [append_assoc]
  | case _ _ inductionHypothesis => exact inductionHypothesis
  | default _ inductionHypothesis => exact inductionHypothesis

/-- With distinct labels, a label still ahead is found from the start of the
function exactly as from here. -/
theorem At.findLabel_eq {program code : Code Command Test Label} (here : At program code)
    (distinct : program.labels.Nodup) {target : Label} (ahead : target ∈ code.labels) :
    program.findLabel target = code.findLabel target := by
  induction here with
  | start => rfl
  | basic _ inductionHypothesis => exact inductionHypothesis ahead
  | @label name rest before inductionHypothesis =>
      have unique := before.labels_sublist.nodup distinct
      rw [labels, List.nodup_cons] at unique
      have different : name ≠ target := fun same => unique.1 (same ▸ ahead)
      rw [inductionHypothesis (List.mem_cons_of_mem _ ahead), findLabel, if_neg different]
  | goto _ inductionHypothesis => exact inductionHypothesis ahead
  | @yes condition yes no rest before inductionHypothesis =>
      have unique := before.labels_sublist.nodup distinct
      rw [labels, List.nodup_append'] at unique
      rw [labels_append, List.mem_append] at ahead
      have present : target ∈ (Code.branch condition yes no rest).labels := by
        rw [labels, List.mem_append, List.mem_append]
        tauto
      rw [inductionHypothesis present, findLabel, findLabel_append]
      cases found : yes.findLabel target with
      | some code => rfl
      | none =>
          have absent : target ∉ yes.labels := by
            rw [← findLabel_isSome_iff, found]; simp
          have later : target ∈ rest.labels := ahead.resolve_left absent
          have notElse : target ∉ no.labels := by
            have split := unique.2.1
            rw [List.nodup_append'] at split
            exact fun member => split.2.2 member later
          rw [findLabel_eq_none notElse]
  | @no condition yes no rest before inductionHypothesis =>
      have unique := before.labels_sublist.nodup distinct
      rw [labels, List.nodup_append'] at unique
      have present : target ∈ (Code.branch condition yes no rest).labels := by
        rw [labels, List.mem_append]
        rw [labels_append] at ahead
        exact Or.inr ahead
      have notThen : target ∉ yes.labels := by
        rw [labels_append] at ahead
        exact fun member => unique.2.2 member ahead
      rw [inductionHypothesis present, findLabel, findLabel_append, findLabel_eq_none notThen]
  | @branch condition yes no rest before inductionHypothesis =>
      have unique := before.labels_sublist.nodup distinct
      rw [labels, List.nodup_append'] at unique
      have present : target ∈ (Code.branch condition yes no rest).labels := by
        rw [labels, List.mem_append, List.mem_append]
        tauto
      have notThen : target ∉ yes.labels := fun member =>
        unique.2.2 member (List.mem_append_right _ ahead)
      have notElse : target ∉ no.labels := by
        have split := unique.2.1
        rw [List.nodup_append'] at split
        exact fun member => split.2.2 member ahead
      rw [inductionHypothesis present, findLabel, findLabel_eq_none notThen,
        findLabel_eq_none notElse]
  | @body scrutinee body rest before inductionHypothesis =>
      have present : target ∈ (Code.switch scrutinee body rest).labels := by
        rwa [labels_append] at ahead
      rw [inductionHypothesis present, findLabel, findLabel_append]
  | @switch scrutinee body rest before inductionHypothesis =>
      have unique := before.labels_sublist.nodup distinct
      rw [labels, List.nodup_append'] at unique
      have present : target ∈ (Code.switch scrutinee body rest).labels := by
        rw [labels, List.mem_append]
        exact Or.inr ahead
      have notBody : target ∉ body.labels := fun member => unique.2.2 member ahead
      rw [inductionHypothesis present, findLabel, findLabel_eq_none notBody]
  | case _ inductionHypothesis => exact inductionHypothesis ahead
  | default _ inductionHypothesis => exact inductionHypothesis ahead

/-- A `goto` reaches the statements after its label. -/
theorem At.resolve {program rest : Code Command Test Label} {name : Label}
    (here : At program (.label name rest)) (distinct : program.labels.Nodup) :
    program.findLabel name = some rest := by
  rw [here.findLabel_eq distinct (List.mem_cons_self ..), findLabel, if_pos rfl]

end Code

/-! ## Execution -/

/-- The effect of a command: the next state, an end of the whole execution, or
a call that does not return. -/
inductive Effect (State : Type u) (Stop : Type v) where
  | next (state : State)
  | stop (reason : Stop)
  | hang

/-- The meaning of commands and of tests. -/
structure Meaning (Command : Type u) (Test : Type v) (State : Type w) (Stop : Type x) where
  run : Command -> State -> Effect State Stop
  condition : Test -> State -> Except Stop Bool
  scrutinee : Test -> State -> Except Stop Nat

/-- How the statements of a function end.  `stuck` is a `goto` without its
label, which a C compiler rejects. -/
inductive Finish (State : Type u) (Stop : Type v) where
  | fell (state : State)
  | stopped (reason : Stop)
  | stuck
  deriving DecidableEq

variable {Command : Type u} {Test : Type v} {Label : Type w} {State : Type x} {Stop : Type y}

/-- The machine that executes a function's statements. -/
def machine [DecidableEq Label] (meaning : Meaning Command Test State Stop)
    (program : Code Command Test Label) :
    Machine (Code Command Test Label × State) (Finish State Stop) where
  step
    | (.done, state) => .ended (.fell state)
    | (.basic command rest, state) =>
        match meaning.run command state with
        | .next after => .running (rest, after)
        | .stop reason => .ended (.stopped reason)
        | .hang => .running (.basic command rest, state)
    | (.label _ rest, state) => .running (rest, state)
    | (.goto name _, state) =>
        match program.findLabel name with
        | some target => .running (target, state)
        | none => .ended .stuck
    | (.branch condition yes no rest, state) =>
        match meaning.condition condition state with
        | .ok true => .running (yes ++ rest, state)
        | .ok false => .running (no ++ rest, state)
        | .error reason => .ended (.stopped reason)
    | (.switch scrutinee body rest, state) =>
        match meaning.scrutinee scrutinee state with
        | .ok value =>
            match body.select value with
            | some found => .running (found ++ rest, state)
            | none => .running (rest, state)
        | .error reason => .ended (.stopped reason)
    | (.case _ rest, state) => .running (rest, state)
    | (.default rest, state) => .running (rest, state)

end CLang
end WasmSandboxing
