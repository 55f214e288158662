import WasmSandboxing.Foundation.Silent
import WasmSandboxing.Text.Ir

namespace WasmSandboxing
namespace Text
namespace Scripts

open Foundation
open Foundation.Emitting (emit fail forEach Silent silent_emit silent_pure silent_fail silent_bind
  silent_forEach)
open Wasm (Name IterationOrder)

/-!
# Actions of a script

The part of `validator.cc` that checks the commands of a script.  An action
names a module of the script and one of its exports, and what is expected of
the action is compared with what the export gives.
-/

/-! ## Scripts -/

/-- The types of values. -/
inductive ValueType where
  | i32 | i64 | f32 | f64 | v128
  deriving Repr, DecidableEq

/-- `Type`, as far as the checks tell its values apart. -/
inductive CheckedType where
  | value (type : ValueType)
  | void
  | any
  deriving Repr, DecidableEq

structure FuncSignature where
  paramTypes : List ValueType
  resultTypes : List ValueType
  deriving Repr, DecidableEq

structure Global where
  type : ValueType
  isMutable : Bool
  deriving Repr, DecidableEq

/-- An export, whose `var` is an index once names have been resolved. -/
structure Export where
  name : Name
  kind : ExternalKind
  var : Nat
  deriving DecidableEq

/-- What exports refer to, and the `rest` of a module, which only the checks of
that rest look at. -/
structure Module (Rest : Type) where
  funcs : List FuncSignature
  tables : Nat
  memories : Nat
  globals : List Global
  excepts : Nat
  exports : List Export
  rest : Rest

/-- `Const`; its value is not looked at. -/
structure Const where
  type : ValueType
  deriving Repr, DecidableEq

inductive ActionType where
  | invoke (args : List Const)
  | get

structure Action where
  moduleVar : Var
  name : Name
  type : ActionType

/-- `Command`, with the actions, constants and modules that are looked at. -/
inductive Command (Rest : Type) where
  | module (module : Module Rest)
  | action (action : Action)
  | register
  | assertMalformed
  | assertInvalid
  | assertUnlinkable
  | assertUninstantiable
  | assertReturn (action : Action) (expected : List Const)
  | assertReturnCanonicalNan (action : Action)
  | assertReturnArithmeticNan (action : Action)
  | assertTrap (action : Action)
  | assertExhaustion (action : Action)

structure Script (Rest : Type) where
  commands : List (Command Rest)
  moduleBindings : BindingHash

variable {Rest : Type}

namespace Module

/-- `export_bindings`, as `AppendField` adds to it. -/
def exportBindings (module : Module Rest) : BindingHash :=
  module.exports.zipIdx.map fun (item, index) => (item.name, index)

/-- `GetExport` -/
def getExport (iteration : IterationOrder) (module : Module Rest) (name : Name) : Option Export :=
  match (iteration.order module.exportBindings).lookup name with
  | some index => module.exports[index]?
  | none => none

/-- `GetFunc` -/
def getFunc (module : Module Rest) (index : Nat) : Option FuncSignature := module.funcs[index]?

/-- `GetGlobal` -/
def getGlobal (module : Module Rest) (index : Nat) : Option Global := module.globals[index]?

end Module

/-! ## Errors -/

/-- `GetTypeName` -/
def ValueType.name : ValueType -> String
  | i32 => "i32" | i64 => "i64" | f32 => "f32" | f64 => "f64" | v128 => "v128"

def CheckedType.name : CheckedType -> String
  | value type => type.name | void => "void" | any => "any"

/-- The messages of the checks, by what is put into them. -/
inductive ScriptError where
  | unknownModule
  | unknownFunctionExport (name : Name)
  | unknownGlobalExport (name : Name)
  | parameterCount (got expected : Nat)
  | resultCount (got expected : Nat)
  | typeMismatch (indexKind : String) (index : Nat) (desc : String) (got expected : CheckedType)
  | nanType (desc : String) (got : CheckedType)
  | nanResultCount (got : Nat)
  | variableOutOfRange (desc : String) (maxIndex : Nat)
  | mutableGlobalExported
  | redefinition (name : Name)
  /-- an error of a check of the rest of a module -/
  | inModule (message : String)
  deriving DecidableEq

/-- What `%s` prints of a name. -/
def printed (name : Name) : String :=
  String.ofList ((Wasm.cStr name).map fun byte => Char.ofNat byte.toNat)

def ScriptError.message : ScriptError -> String
  | unknownModule => "unknown module"
  | unknownFunctionExport name => "unknown function export \"" ++ printed name ++ "\""
  | unknownGlobalExport name => "unknown global export \"" ++ printed name ++ "\""
  | parameterCount got expected =>
      "too " ++ (if got > expected then "many" else "few") ++ " parameters to function. got " ++
        toString got ++ ", expected " ++ toString expected
  | resultCount got expected =>
      "expected " ++ toString expected ++ " results, got " ++ toString got
  | typeMismatch indexKind index desc got expected =>
      "type mismatch for " ++ indexKind ++ " " ++ toString index ++ " of " ++ desc ++ ". got " ++
        got.name ++ ", expected " ++ expected.name
  | nanType desc got =>
      "type mismatch at " ++ desc ++ ". got " ++ got.name ++ ", expected f32 or f64"
  | nanResultCount got => "expected 1 result, got " ++ toString got
  | variableOutOfRange desc maxIndex =>
      desc ++ " variable out of range (max " ++ toString maxIndex ++ ")"
  | mutableGlobalExported => "mutable globals cannot be exported"
  | redefinition name => "redefinition of export \"" ++ printed name ++ "\""
  | inModule message => message

/-- `cast<ModuleCommand>` asserts that the command is one. -/
inductive Abort where
  | failedCast
  deriving DecidableEq

abbrev Validator := Emitting Unit ScriptError Abort

/-- `PrintError` -/
def printError (error : ScriptError) : Validator Unit := emit fun _ => error

/-- `result_` is still `Ok` when nothing has been printed. -/
def Succeeds (validator : Validator Unit) : Prop := Silent validator ()

@[simp] theorem silent_printError {error : ScriptError} {result : Unit} :
    Silent (printError error) result ↔ False :=
  silent_emit

/-! ## Modules -/

/-- `CheckVar` -/
def checkVar (maxIndex index : Nat) (desc : String) : Validator Bool :=
  if index < maxIndex then pure true
  else do
    printError (.variableOutOfRange desc maxIndex)
    pure false

/-- `CheckExport` -/
def checkExport (mutableGlobalsEnabled : Bool) (module : Module Rest) (item : Export) :
    Validator Unit :=
  match item.kind with
  | .except => do
      let _ <- checkVar module.excepts item.var "except"
  | .func => do
      let _ <- checkVar module.funcs.length item.var "function"
  | .table => do
      let _ <- checkVar module.tables item.var "table"
  | .memory => do
      let _ <- checkVar module.memories item.var "memory"
  | .global => do
      let inRange <- checkVar module.globals.length item.var "global"
      match module.globals[item.var]? with
      | some global =>
          if inRange && global.isMutable && !mutableGlobalsEnabled then
            printError .mutableGlobalExported
          else pure ()
      | none => pure ()

local instance lawfulBEq_name : LawfulBEq Name := inferInstance

def checkRedefinition (earlier : List Name) (item : Export) : Validator Unit :=
  if item.name ∈ earlier then printError (.redefinition item.name) else pure ()

/-- `CheckDuplicateExportBindings`: an error for each export of a name that an
earlier one has. -/
def checkDuplicateExportBindings : List Name -> List Export -> Validator Unit
  | _, [] => pure ()
  | earlier, item :: rest => do
      checkRedefinition earlier item
      checkDuplicateExportBindings (item.name :: earlier) rest

/-- `CheckModule`.  The checks of fields that are no exports are given; they look
at function bodies, limits and initialisers, and only report. -/
def checkModule (checkRest : Module Rest -> Validator Unit) (mutableGlobalsEnabled : Bool)
    (module : Module Rest) : Validator Unit := do
  checkRest module
  forEach (checkExport mutableGlobalsEnabled module) module.exports
  checkDuplicateExportBindings [] module.exports

/-! ## Types -/

/-- `CheckTypeIndex` -/
def checkTypeIndex (actual expected : CheckedType) (desc : String) (index : Nat)
    (indexKind : String) : Validator Unit :=
  if expected ≠ actual ∧ expected ≠ .any ∧ actual ≠ .any then
    printError (.typeMismatch indexKind index desc actual expected)
  else pure ()

/-- The loops that call `CheckTypeIndex`, over lists of one length. -/
def checkTypesFrom (desc indexKind : String) :
    Nat -> List ValueType -> List ValueType -> Validator Unit
  | index, actual :: actuals, expected :: expecteds => do
      checkTypeIndex (.value actual) (.value expected) desc index indexKind
      checkTypesFrom desc indexKind (index + 1) actuals expecteds
  | _, _, _ => pure ()

/-- `CheckConstTypes` -/
def checkConstTypes (actual : List ValueType) (expected : List Const) (desc : String) :
    Validator Unit :=
  if actual.length = expected.length then
    checkTypesFrom desc "result" 0 actual (expected.map Const.type)
  else
    printError (.resultCount actual.length expected.length)

/-- `CheckConstType`, for `Void` without a type. -/
def checkConstType (actual : CheckedType) (expected : List Const) (desc : String) :
    Validator Unit :=
  match actual with
  | .value type => checkConstTypes [type] expected desc
  | .void => checkConstTypes [] expected desc
  | .any =>
      -- `CheckTypeIndex` is content with it.
      if expected.length = 1 then pure () else printError (.resultCount 1 expected.length)

/-- `CheckAssertReturnNanType` -/
def checkAssertReturnNanType (actual : CheckedType) (desc : String) : Validator Unit :=
  -- the result can be either a f32 or f64 type
  if actual ≠ .value .f32 ∧ actual ≠ .value .f64 then printError (.nanType desc actual)
  else pure ()

/-! ## Actions -/

/-- `ActionResult` -/
inductive ActionResult where
  | error
  | types (types : List ValueType)
  | type (type : CheckedType)
  deriving DecidableEq

variable (iteration : IterationOrder) (script : Script Rest)

/-- `Script::GetModule`, which asserts that the command is a module. -/
def getModule (var : Var) : Validator (Option (Module Rest)) :=
  match findIndex iteration script.moduleBindings var with
  | none => pure none
  | some index =>
      match script.commands[index]? with
      | none => pure none
      | some (.module module) => pure (some module)
      | some _ => fail .failedCast

/-- `CheckInvoke`: the result types, or none after an error. -/
def checkInvoke (action : Action) (args : List Const) : Validator (Option (List ValueType)) := do
  match <- getModule iteration script action.moduleVar with
  | none =>
      printError .unknownModule
      pure none
  | some module =>
      match module.getExport iteration action.name with
      | none =>
          printError (.unknownFunctionExport action.name)
          pure none
      | some item =>
          match module.getFunc item.var with
          | none =>
              -- This error will have already been reported, just skip it.
              pure none
          | some func =>
              if func.paramTypes.length ≠ args.length then
                printError (.parameterCount args.length func.paramTypes.length)
                pure none
              else
                checkTypesFrom "invoke" "argument" 0 (args.map Const.type) func.paramTypes
                pure (some func.resultTypes)

/-- `CheckGet`: the type of the global, or none for `Result::Error`. -/
def checkGet (action : Action) : Validator (Option ValueType) := do
  match <- getModule iteration script action.moduleVar with
  | none =>
      printError .unknownModule
      pure none
  | some module =>
      match module.getExport iteration action.name with
      | none =>
          printError (.unknownGlobalExport action.name)
          pure none
      | some item =>
          match module.getGlobal item.var with
          | none =>
              -- This error will have already been reported, just skip it.
              pure none
          | some global => pure (some global.type)

/-- `CheckAction` -/
def checkAction (action : Action) : Validator ActionResult := do
  match action.type with
  | .invoke args =>
      match <- checkInvoke iteration script action args with
      | some types => pure (.types types)
      | none => pure .error
  | .get =>
      match <- checkGet iteration script action with
      | some type => pure (.type (.value type))
      | none => pure .error

/-- `CheckAssertReturnNanCommand` -/
def checkAssertReturnNanCommand (action : Action) : Validator Unit := do
  -- `Types` is made a `Type`; `Type::Any` is not checked, an error has been printed.
  let result <- checkAction iteration script action
  match result with
  | .types [type] => checkAssertReturnNanType (.value type) "action"
  | .types types => printError (.nanResultCount types.length)
  | .type type =>
      if type ≠ .any then checkAssertReturnNanType type "action" else pure ()
  | .error => pure ()

/-- The check of `AssertReturn`. -/
def checkAssertReturn (action : Action) (expected : List Const) : Validator Unit := do
  match <- checkAction iteration script action with
  | .types types => checkConstTypes types expected "action"
  | .type type => checkConstType type expected "action"
  | .error => pure ()

/-- An action whose result is ignored. -/
def checkActionOnly (action : Action) : Validator Unit := do
  let _ <- checkAction iteration script action

variable (checkRest : Module Rest -> Validator Unit) (mutableGlobalsEnabled : Bool)

/-- `CheckCommand` -/
def checkCommand : Command Rest -> Validator Unit
  | .module module => checkModule checkRest mutableGlobalsEnabled module
  | .action action => checkActionOnly iteration script action
  | .register | .assertMalformed | .assertInvalid | .assertUnlinkable | .assertUninstantiable =>
      pure ()
  | .assertReturn action expected => checkAssertReturn iteration script action expected
  | .assertReturnCanonicalNan action => checkAssertReturnNanCommand iteration script action
  | .assertReturnArithmeticNan action => checkAssertReturnNanCommand iteration script action
  | .assertTrap action => checkActionOnly iteration script action
  | .assertExhaustion action => checkActionOnly iteration script action

/-- `CheckScript`: a command is checked whatever was wrong with those before. -/
def checkScript : Validator Unit :=
  forEach (checkCommand iteration script checkRest mutableGlobalsEnabled) script.commands

/-! ## What an action refers to -/

/-- The module that a variable refers to. -/
def moduleOf (var : Var) : Option (Module Rest) :=
  (findIndex iteration script.moduleBindings var).bind fun index =>
    match script.commands[index]? with
    | some (.module module) => some module
    | _ => none

/-- The kind of export that an action is meant for. -/
def ActionType.kind : ActionType -> ExternalKind
  | invoke _ => .func
  | get => .global

def Command.action? : Command Rest -> Option Action
  | action called | assertReturn called _ | assertReturnCanonicalNan called
  | assertReturnArithmeticNan called | assertTrap called | assertExhaustion called => some called
  | module _ | register | assertMalformed | assertInvalid | assertUnlinkable
  | assertUninstantiable => none

/-- The action can be performed, with results of these types: a function that is
exported is called with arguments of its parameters' types, or a global that is
exported is read. -/
inductive Performs (action : Action) : List ValueType -> Prop
  | invoke {module : Module Rest} {item : Export} {func : FuncSignature} {args : List Const}
      (refers : moduleOf iteration script action.moduleVar = some module)
      (exported : item ∈ module.exports) (named : item.name = action.name)
      (isFunc : item.kind = .func) (found : module.getFunc item.var = some func)
      (invoked : action.type = .invoke args)
      (fits : args.map Const.type = func.paramTypes) : Performs action func.resultTypes
  | get {module : Module Rest} {item : Export} {global : Global}
      (refers : moduleOf iteration script action.moduleVar = some module)
      (exported : item ∈ module.exports) (named : item.name = action.name)
      (isGlobal : item.kind = .global) (found : module.getGlobal item.var = some global)
      (read : action.type = .get) : Performs action [global.type]

/-- What a script that has been validated promises of a command. -/
def Conforms : Command Rest -> Prop
  | .action action | .assertTrap action | .assertExhaustion action =>
      ∃ results, Performs iteration script action results
  | .assertReturn action expected => Performs iteration script action (expected.map Const.type)
  | .assertReturnCanonicalNan action | .assertReturnArithmeticNan action =>
      Performs iteration script action [.f32] ∨ Performs iteration script action [.f64]
  | .module _ | .register | .assertMalformed | .assertInvalid | .assertUnlinkable
  | .assertUninstantiable => True

/-- No action names an export of another kind than it is meant for. -/
def KindsAgree : Prop :=
  forall command, command ∈ script.commands -> forall action, command.action? = some action ->
    forall module, moduleOf iteration script action.moduleVar = some module ->
      forall item, item ∈ module.exports -> item.name = action.name ->
        item.kind = action.type.kind

/-! ## Checked modules -/

variable {iteration script checkRest mutableGlobalsEnabled}

/-- An export that `GetExport` finds has the name it is asked for. -/
theorem Module.getExport_eq_some {module : Module Rest} {name : Name} {item : Export}
    (found : module.getExport iteration name = some item) :
    item ∈ module.exports ∧ item.name = name := by
  rw [getExport] at found
  split at found
  · rename_i index bound
    rcases List.lookup_eq_some_iff.mp bound with ⟨front, back, split, -⟩
    have isMember : (name, index) ∈ module.exportBindings := by
      rw [← (iteration.perm _).mem_iff, split]
      exact List.mem_append_right _ List.mem_cons_self
    rw [exportBindings, List.mem_map] at isMember
    rcases isMember with ⟨⟨other, position⟩, isMember, same⟩
    cases same
    have placed := List.mem_zipIdx_iff_getElem?.mp isMember
    cases placed.symm.trans found
    exact ⟨List.mem_of_getElem? found, rfl⟩
  · cases found

/-- What the checks of a module establish of its exports. -/
structure Checked (module : Module Rest) : Prop where
  distinct : (module.exports.map Export.name).Nodup
  func : forall item, item ∈ module.exports -> item.kind = .func ->
    item.var < module.funcs.length
  global : forall item, item ∈ module.exports -> item.kind = .global ->
    item.var < module.globals.length

@[simp] theorem silent_checkVar {maxIndex index : Nat} {desc : String} {result : Bool} :
    Silent (checkVar maxIndex index desc) result ↔ index < maxIndex ∧ result = true := by
  rw [checkVar]
  split
  · rename_i inRange
    simp only [silent_pure, inRange, true_and, eq_comm]
  · rename_i outside
    simp only [silent_bind, silent_printError, false_and, exists_false, outside]

theorem silent_checkDuplicateExportBindings {earlier : List Name} {exports : List Export}
    (silent : Succeeds (checkDuplicateExportBindings earlier exports)) :
    (exports.map Export.name).Nodup ∧ forall item, item ∈ exports -> item.name ∉ earlier := by
  induction exports generalizing earlier with
  | nil => exact ⟨List.nodup_nil, fun item isMember => absurd isMember List.not_mem_nil⟩
  | cons item rest inductionHypothesis =>
      rw [checkDuplicateExportBindings, Succeeds, silent_bind] at silent
      rcases silent with ⟨_, here, later⟩
      rcases inductionHypothesis later with ⟨distinct, apart⟩
      have isNew : item.name ∉ earlier := by
        intro isMember
        rw [checkRedefinition, if_pos isMember] at here
        exact silent_printError.mp here
      refine ⟨List.nodup_cons.mpr ⟨fun again => ?_, distinct⟩, fun other isMember => ?_⟩
      · rcases List.mem_map.mp again with ⟨other, isMember, same⟩
        exact apart other isMember (same ▸ List.mem_cons_self)
      · rcases List.mem_cons.mp isMember with rfl | isLater
        · exact isNew
        · exact fun isEarlier => apart other isLater (List.mem_cons_of_mem _ isEarlier)

theorem checkModule_checked {module : Module Rest}
    (silent : Succeeds (checkModule checkRest mutableGlobalsEnabled module)) :
    Checked module := by
  rw [checkModule, Succeeds, silent_bind] at silent
  rcases silent with ⟨_, -, silent⟩
  rcases silent_bind.mp silent with ⟨_, each, duplicates⟩
  have ranges := silent_forEach.mp each
  refine ⟨(silent_checkDuplicateExportBindings duplicates).1, ?_, ?_⟩
  · intro item isMember isFunc
    have checked := ranges item isMember
    simp only [checkExport, isFunc, silent_bind, silent_checkVar] at checked
    rcases checked with ⟨_, ⟨inRange, -⟩, -⟩
    exact inRange
  · intro item isMember isGlobal
    have checked := ranges item isMember
    simp only [checkExport, isGlobal, silent_bind, silent_checkVar] at checked
    rcases checked with ⟨_, ⟨inRange, -⟩, -⟩
    exact inRange

theorem Checked.unique {module : Module Rest} (checked : Checked module) {first second : Export}
    (isFirst : first ∈ module.exports) (isSecond : second ∈ module.exports)
    (same : first.name = second.name) : first = second :=
  List.inj_on_of_nodup_map checked.distinct isFirst isSecond same

/-! ## Checked actions -/

theorem silent_getModule {var : Var} {found : Option (Module Rest)}
    (silent : Silent (getModule iteration script var) found) :
    moduleOf iteration script var = found := by
  rw [getModule] at silent
  rw [moduleOf]
  cases index_eq : findIndex iteration script.moduleBindings var with
  | none =>
      rw [index_eq] at silent
      exact silent_pure.mp silent
  | some index =>
      rw [index_eq] at silent
      dsimp only at silent
      rw [Option.bind_some]
      split at silent
      · rename_i outside
        rw [outside]
        exact silent_pure.mp silent
      · rename_i module isModule
        rw [isModule]
        exact silent_pure.mp silent
      · exact (silent_fail.mp silent).elim

theorem moduleOf_mem {var : Var} {module : Module Rest}
    (refers : moduleOf iteration script var = some module) :
    Command.module module ∈ script.commands := by
  rw [moduleOf, Option.bind_eq_some_iff] at refers
  rcases refers with ⟨index, -, refers⟩
  split at refers
  · rename_i other isModule
    cases refers
    exact List.mem_of_getElem? isModule
  · cases refers

@[simp] theorem silent_checkTypeIndex {actual expected : ValueType} {desc indexKind : String}
    {index : Nat} {result : Unit} :
    Silent (checkTypeIndex (.value actual) (.value expected) desc index indexKind) result ↔
      actual = expected := by
  rw [checkTypeIndex]
  by_cases same : actual = expected
  · subst same
    rw [if_neg (fun apart => apart.1 rfl)]
    exact iff_of_true (silent_pure.mpr rfl) rfl
  · have apart : CheckedType.value expected ≠ .value actual :=
      fun both => same (CheckedType.value.inj both).symm
    rw [if_pos ⟨apart, nofun, nofun⟩]
    exact iff_of_false silent_printError.mp same

/-- Lists of one length that pass are equal. -/
theorem silent_checkTypesFrom {desc indexKind : String} {index : Nat}
    {actuals expecteds : List ValueType} (sameLength : actuals.length = expecteds.length)
    {result : Unit}
    (silent : Silent (checkTypesFrom desc indexKind index actuals expecteds) result) :
    actuals = expecteds := by
  induction actuals generalizing index expecteds with
  | nil => exact (List.eq_nil_of_length_eq_zero sameLength.symm).symm
  | cons actual actuals inductionHypothesis =>
      cases expecteds with
      | nil => cases sameLength
      | cons expected expecteds =>
          rw [checkTypesFrom, silent_bind] at silent
          rcases silent with ⟨_, here, later⟩
          have first := silent_checkTypeIndex.mp here
          have others := inductionHypothesis (Nat.succ.inj sameLength) later
          rw [first, others]

/-- The results that an action has been found to have. -/
inductive ActionResult.Has : ActionResult -> List ValueType -> Prop
  | types (results : List ValueType) : Has (.types results) results
  | type (result : ValueType) : Has (.type (.value result)) [result]

/-- What is known of the modules and kinds behind an action. -/
structure Sound (iteration : IterationOrder) (script : Script Rest) (action : Action) :
    Prop where
  checked : forall module, moduleOf iteration script action.moduleVar = some module ->
    Checked module
  agrees : forall module, moduleOf iteration script action.moduleVar = some module ->
    forall item, item ∈ module.exports -> item.name = action.name ->
      item.kind = action.type.kind

theorem silent_checkInvoke {action : Action} {args : List Const}
    (sound : Sound iteration script action) (invoked : action.type = .invoke args)
    {result : Option (List ValueType)}
    (silent : Silent (checkInvoke iteration script action args) result) :
    ∃ results, result = some results ∧ Performs iteration script action results := by
  rw [checkInvoke, silent_bind] at silent
  rcases silent with ⟨found, got, silent⟩
  have refers := silent_getModule got
  cases found with
  | none =>
      simp only [silent_bind, silent_printError, false_and, exists_false] at silent
  | some module =>
      dsimp only at silent
      cases exported : module.getExport iteration action.name with
      | none =>
          simp only [exported, silent_bind, silent_printError, false_and, exists_false] at silent
      | some item =>
          rcases Module.getExport_eq_some exported with ⟨isMember, named⟩
          have isFunc : item.kind = .func := by
            rw [sound.agrees module refers item isMember named, invoked]
            rfl
          have inRange := (sound.checked module refers).func item isMember isFunc
          have found : module.getFunc item.var = some module.funcs[item.var] :=
            List.getElem?_eq_getElem inRange
          simp only [exported, found] at silent
          split at silent
          · simp only [silent_bind, silent_printError, false_and, exists_false] at silent
          · rename_i sameLength
            rw [silent_bind] at silent
            rcases silent with ⟨_, types, silent⟩
            have count : (args.map Const.type).length =
                module.funcs[item.var].paramTypes.length := by
              rw [List.length_map]
              exact (Decidable.not_not.mp sameLength).symm
            have fits := silent_checkTypesFrom count types
            exact ⟨_, (silent_pure.mp silent).symm,
              .invoke refers isMember named isFunc found invoked fits⟩

theorem silent_checkGet {action : Action} (sound : Sound iteration script action)
    (read : action.type = .get) {result : Option ValueType}
    (silent : Silent (checkGet iteration script action) result) :
    ∃ type, result = some type ∧ Performs iteration script action [type] := by
  rw [checkGet, silent_bind] at silent
  rcases silent with ⟨found, got, silent⟩
  have refers := silent_getModule got
  cases found with
  | none =>
      simp only [silent_bind, silent_printError, false_and, exists_false] at silent
  | some module =>
      dsimp only at silent
      cases exported : module.getExport iteration action.name with
      | none =>
          simp only [exported, silent_bind, silent_printError, false_and, exists_false] at silent
      | some item =>
          rcases Module.getExport_eq_some exported with ⟨isMember, named⟩
          have isGlobal : item.kind = .global := by
            rw [sound.agrees module refers item isMember named, read]
            rfl
          have inRange := (sound.checked module refers).global item isMember isGlobal
          have found : module.getGlobal item.var = some module.globals[item.var] :=
            List.getElem?_eq_getElem inRange
          simp only [exported, found, silent_pure] at silent
          exact ⟨_, silent.symm, .get refers isMember named isGlobal found read⟩

/-- An action that passes can be performed, with the results that are reported. -/
theorem silent_checkAction {action : Action} (sound : Sound iteration script action)
    {result : ActionResult} (silent : Silent (checkAction iteration script action) result) :
    ∃ results, result.Has results ∧ Performs iteration script action results := by
  rw [checkAction] at silent
  cases type_eq : action.type with
  | invoke args =>
      simp only [type_eq, silent_bind] at silent
      rcases silent with ⟨found, checked, silent⟩
      rcases silent_checkInvoke sound type_eq checked with ⟨results, rfl, performs⟩
      cases silent_pure.mp silent
      exact ⟨results, .types results, performs⟩
  | get =>
      simp only [type_eq, silent_bind] at silent
      rcases silent with ⟨found, checked, silent⟩
      rcases silent_checkGet sound type_eq checked with ⟨type, rfl, performs⟩
      cases silent_pure.mp silent
      exact ⟨[type], .type type, performs⟩

/-! ## Checked commands -/

theorem silent_checkConstTypes {actual : List ValueType} {expected : List Const} {desc : String}
    {result : Unit} (silent : Silent (checkConstTypes actual expected desc) result) :
    actual = expected.map Const.type := by
  rw [checkConstTypes] at silent
  split at silent
  · rename_i sameLength
    have count : actual.length = (expected.map Const.type).length :=
      sameLength.trans (List.length_map Const.type).symm
    exact silent_checkTypesFrom count silent
  · exact (silent_printError.mp silent).elim

theorem silent_checkAssertReturnNanType {type : ValueType} {desc : String} {result : Unit}
    (silent : Silent (checkAssertReturnNanType (.value type) desc) result) :
    type = .f32 ∨ type = .f64 := by
  rw [checkAssertReturnNanType] at silent
  split at silent
  · exact (silent_printError.mp silent).elim
  · rename_i isFloat
    simpa only [ne_eq, CheckedType.value.injEq, not_and_or, Decidable.not_not] using isFloat

theorem silent_checkActionOnly {action : Action} (sound : Sound iteration script action)
    (silent : Succeeds (checkActionOnly iteration script action)) :
    ∃ results, Performs iteration script action results := by
  rw [checkActionOnly, Succeeds, silent_bind] at silent
  rcases silent with ⟨_, checked, -⟩
  rcases silent_checkAction sound checked with ⟨results, -, performs⟩
  exact ⟨results, performs⟩

theorem silent_checkAssertReturn {action : Action} {expected : List Const}
    (sound : Sound iteration script action)
    (silent : Succeeds (checkAssertReturn iteration script action expected)) :
    Performs iteration script action (expected.map Const.type) := by
  rw [checkAssertReturn, Succeeds, silent_bind] at silent
  rcases silent with ⟨found, checked, silent⟩
  rcases silent_checkAction sound checked with ⟨results, has, performs⟩
  cases has with
  | types results => exact silent_checkConstTypes silent ▸ performs
  | type result => exact silent_checkConstTypes silent ▸ performs

theorem silent_checkAssertReturnNanCommand {action : Action}
    (sound : Sound iteration script action)
    (silent : Succeeds (checkAssertReturnNanCommand iteration script action)) :
    Performs iteration script action [.f32] ∨ Performs iteration script action [.f64] := by
  have one {type : ValueType} (performs : Performs iteration script action [type])
      (silent : Succeeds (checkAssertReturnNanType (.value type) "action")) :
      Performs iteration script action [.f32] ∨ Performs iteration script action [.f64] := by
    rcases silent_checkAssertReturnNanType silent with rfl | rfl
    · exact .inl performs
    · exact .inr performs
  rw [checkAssertReturnNanCommand, Succeeds, silent_bind] at silent
  rcases silent with ⟨found, checked, silent⟩
  rcases silent_checkAction sound checked with ⟨results, has, performs⟩
  cases has with
  | types results =>
      split at silent
      · rename_i type same
        cases same
        exact one performs silent
      · exact (silent_printError.mp silent).elim
      · rename_i same
        cases same
      · rename_i same
        cases same
  | type result =>
      dsimp only at silent
      rw [if_pos nofun] at silent
      exact one performs silent

theorem silent_checkCommand {command : Command Rest}
    (sound : forall action, command.action? = some action -> Sound iteration script action)
    (silent : Succeeds (checkCommand iteration script checkRest mutableGlobalsEnabled command)) :
    Conforms iteration script command := by
  cases command with
  | module | register | assertMalformed | assertInvalid | assertUnlinkable
  | assertUninstantiable => trivial
  | action called => exact silent_checkActionOnly (sound called rfl) silent
  | assertTrap called => exact silent_checkActionOnly (sound called rfl) silent
  | assertExhaustion called => exact silent_checkActionOnly (sound called rfl) silent
  | assertReturn called expected => exact silent_checkAssertReturn (sound called rfl) silent
  | assertReturnCanonicalNan called =>
      exact silent_checkAssertReturnNanCommand (sound called rfl) silent
  | assertReturnArithmeticNan called =>
      exact silent_checkAssertReturnNanCommand (sound called rfl) silent

/-- An action that can be performed names an export of its kind. -/
theorem Performs.kind {action : Action} {results : List ValueType} {module : Module Rest}
    {item : Export} (performs : Performs iteration script action results)
    (refers : moduleOf iteration script action.moduleVar = some module)
    (checked : Checked module) (isMember : item ∈ module.exports)
    (named : item.name = action.name) : item.kind = action.type.kind := by
  cases performs with
  | invoke otherRefers exported otherNamed isFunc found invoked fits =>
      cases refers.symm.trans otherRefers
      rw [checked.unique isMember exported (named.trans otherNamed.symm), isFunc, invoked]
      rfl
  | get otherRefers exported otherNamed isGlobal found read =>
      cases refers.symm.trans otherRefers
      rw [checked.unique isMember exported (named.trans otherNamed.symm), isGlobal, read]
      rfl

theorem Conforms.performs {command : Command Rest} {action : Action}
    (conforms : Conforms iteration script command) (acts : command.action? = some action) :
    ∃ results, Performs iteration script action results := by
  cases command with
  | module | register | assertMalformed | assertInvalid | assertUnlinkable
  | assertUninstantiable => cases acts
  | action called | assertTrap called | assertExhaustion called =>
      cases acts
      exact conforms
  | assertReturn called expected =>
      cases acts
      exact ⟨_, conforms⟩
  | assertReturnCanonicalNan called | assertReturnArithmeticNan called =>
      cases acts
      rcases conforms with performs | performs
      · exact ⟨_, performs⟩
      · exact ⟨_, performs⟩

/-- The kind of the export that an action names is never looked at, so that a
script that passes conforms exactly when every kind is the right one. -/
theorem validated_conforms_iff (iteration : IterationOrder) (script : Script Rest)
    (checkRest : Module Rest -> Validator Unit) (mutableGlobalsEnabled : Bool)
    (passed : Succeeds (checkScript iteration script checkRest mutableGlobalsEnabled)) :
    (forall command, command ∈ script.commands -> Conforms iteration script command) ↔
      KindsAgree iteration script := by
  have each := silent_forEach.mp passed
  have checked {var : Var} {module : Module Rest}
      (refers : moduleOf iteration script var = some module) : Checked module :=
    checkModule_checked (each _ (moduleOf_mem refers))
  constructor
  · intro conforms command isMember action acts module refers item exported named
    rcases (conforms command isMember).performs acts with ⟨results, performs⟩
    exact performs.kind refers (checked refers) exported named
  · intro agree command isMember
    refine silent_checkCommand (fun action acts => ?_) (each command isMember)
    exact ⟨fun module refers => checked refers, agree command isMember action acts⟩

/-! ## A script that passes -/

/-- A module with a function, a global, and an export of the global. -/
def globalModule : Module Unit where
  funcs := [⟨[], [.i32]⟩]
  tables := 0
  memories := 0
  globals := [⟨.i64, false⟩]
  excepts := 0
  exports := [⟨[0x67], .global, 0⟩]
  rest := ()

/-- The function `"g"`, which is a global, is expected to return an `i32`. -/
def invokedGlobal : Script Unit where
  commands := [.module globalModule, .assertReturn ⟨.index 0, [0x67], .invoke []⟩ [⟨.i32⟩]]
  moduleBindings := []

/-- The script passes, and the function that is found is not exported at all. -/
theorem invokedGlobal_passes :
    Succeeds (checkScript .inserted invokedGlobal (fun _ => pure ()) false) ∧
      ¬ forall command, command ∈ invokedGlobal.commands ->
        Conforms .inserted invokedGlobal command := by
  refine ⟨rfl, fun conforms => ?_⟩
  have performs := conforms _ (List.mem_cons_of_mem _ List.mem_cons_self)
  have no_func {results : List ValueType}
      (performs : Performs .inserted invokedGlobal ⟨.index 0, [0x67], .invoke []⟩ results) :
      False := by
    cases performs with
    | invoke refers exported named isFunc found invoked fits =>
        cases refers
        rcases List.mem_singleton.mp exported with rfl
        cases isFunc
    | get refers exported named isGlobal found read => cases read
  exact no_func performs

/-- The global is read instead. -/
def readGlobal : Script Unit where
  commands := [.module globalModule, .assertReturn ⟨.index 0, [0x67], .get⟩ [⟨.i64⟩]]
  moduleBindings := []

theorem readGlobal_conforms :
    Succeeds (checkScript .inserted readGlobal (fun _ => pure ()) false) ∧
      forall command, command ∈ readGlobal.commands ->
        Conforms .inserted readGlobal command := by
  refine ⟨rfl, (validated_conforms_iff .inserted readGlobal (fun _ => pure ()) false rfl).mpr ?_⟩
  intro command isMember action acts module refers item exported named
  simp only [readGlobal, List.mem_cons, List.not_mem_nil, or_false] at isMember
  rcases isMember with rfl | rfl
  · cases acts
  · cases acts
    cases refers
    rcases List.mem_singleton.mp exported with rfl
    rfl

end Scripts

end Text
end WasmSandboxing
