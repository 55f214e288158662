import WasmSandboxing.Wasm.Module
import WasmSandboxing.Wasm.Semantics

namespace WasmSandboxing
namespace Wasm

open CLang WasmRt

/-!
# Invoking the functions of a module

What the bodies of a module call are the functions of the module itself and
those outside of it, which are left open.  Calls nest to a bounded depth; a
call beyond it traps.
-/

def Value.zero : ValueType -> Value
  | .i32 => .i32 0
  | .i64 => .i64 0
  | .f32 => .f32 0
  | .f64 => .f64 0

@[simp] theorem Value.type_zero (type : ValueType) : (Value.zero type).type = type := by
  cases type <;> rfl

namespace Semantics

/-- The types of the globals of a module. -/
def globalTypes (module : Module Scheme.binary) (var : Nat) : Option ValueType :=
  module.globals[var]?.map Global.type

/-- What the indices of the body of a function stand for. -/
def funcScope (module : Module Scheme.binary) (func : Func Scheme.binary) : FuncScope where
  localType var := (func.sig.params ++ func.localTypes)[var]?
  globalType := globalTypes module
  funcSignature var := module.funcs[var]?.map Func.sig
  typeSignature typeIndex := module.funcTypes[typeIndex]?

/-- The locals at the start of a call: the arguments, and zeros. -/
def callLocals (module : Module Scheme.binary) (func : Func Scheme.binary)
    (arguments : Results func.sig.params) : Variables (funcScope module func).localType where
  value var := (arguments.val ++ func.localTypes.map Value.zero)[var]?
  typed var := by
    have types : (arguments.val ++ func.localTypes.map Value.zero).map Value.type =
        func.sig.params ++ func.localTypes := by
      rw [List.map_append, arguments.property, List.map_map]
      simp [Function.comp_def]
    rw [← List.getElem?_map, types]
    rfl

variable {Rest : Type} {module : Module Scheme.binary}

/-- The functions outside of a module.  An indirect call goes to a function of
the module, or is answered outside: by another function or by a trap. -/
structure Outside (module : Module Scheme.binary) (Rest : Type) where
  call : Nat -> (signature : Signature) -> List Value -> World (globalTypes module) Rest ->
    Reply (World (globalTypes module) Rest) signature.result
  target : Nat -> (signature : Signature) -> BitVec 32 -> List Value ->
    World (globalTypes module) Rest ->
    Nat ⊕ Reply (World (globalTypes module) Rest) signature.result
  growMemory : BitVec 32 -> World (globalTypes module) Rest ->
    Reply (World (globalTypes module) Rest) (some .i32)

/-- How a function of a module answers a call. -/
abbrev Invoke (module : Module Scheme.binary) (Rest : Type) :=
  (func : Func Scheme.binary) -> Results func.sig.params -> World (globalTypes module) Rest ->
    Reply (World (globalTypes module) Rest) func.sig.result

/-- A call of a function that has a body. -/
def callDefined (invoke : Invoke module Rest) (func : Func Scheme.binary) (signature : Signature)
    (arguments : List Value) (world : World (globalTypes module) Rest) :
    Reply (World (globalTypes module) Rest) signature.result :=
  if same : func.sig = signature ∧ arguments.map Value.type = func.sig.params then
    same.1 ▸ invoke func ⟨arguments, same.2⟩ world
  else .stopped .undefined

/-- A call of a function of the module, which may be an import. -/
def callFunc (outside : Outside module Rest) (invoke : Invoke module Rest) (var : Nat)
    (signature : Signature) (arguments : List Value) (world : World (globalTypes module) Rest) :
    Reply (World (globalTypes module) Rest) signature.result :=
  if var < module.numFuncImports then outside.call var signature arguments world
  else match module.funcs[var]? with
    | none => .stopped .undefined
    | some func => callDefined invoke func signature arguments world

/-- The callees of the bodies of a module. -/
def moduleCallees (outside : Outside module Rest) (invoke : Invoke module Rest) :
    Callees (globalTypes module) Rest where
  call var signature arguments world := callFunc outside invoke var signature arguments world
  callIndirect typeIndex signature callee arguments world :=
    match outside.target typeIndex signature callee arguments world with
    | .inl var => callFunc outside invoke var signature arguments world
    | .inr reply => reply
  growMemory := outside.growMemory

/-- The answer of a function whose body comes to this. -/
def Behaviour.reply {scope : FuncScope} (result : Option ValueType) :
    Behaviour scope Rest -> Reply (World scope.globalType Rest) result
  | .next frame =>
      if typed : frame.stack.map Value.type = result.toList then
        .returned frame.world ⟨frame.stack, typed⟩
      else .stopped .undefined
  | .stopped reason => .stopped reason
  | .running => .diverges
  | _ => .stopped .undefined

open Classical in
/-- What a body comes to when its loops may take as many rounds as they like. -/
noncomputable def limit {scope : FuncScope} (run : Nat -> Behaviour scope Rest) :
    Behaviour scope Rest :=
  if ends : ∃ rounds, run rounds ≠ .running then run (Nat.find ends) else .running

theorem limit_of_ends {scope : FuncScope} {run : Nat -> Behaviour scope Rest}
    {behaviour : Behaviour scope Rest} (first : run 0 = behaviour)
    (ends : behaviour ≠ .running) : limit run = behaviour := by
  classical
  subst first
  have some : ∃ rounds, run rounds ≠ .running := ⟨0, ends⟩
  have least : Nat.find some = 0 := (Nat.find_eq_zero some).mpr ends
  rw [limit, dif_pos some, least]

/-- The functions of a module, with calls of a depth left. -/
noncomputable def invoke (numerics : Interp.Numerics) (outside : Outside module Rest) :
    Nat -> Invoke module Rest
  | 0, _, _, _ => .stopped (.trap .exhaustion)
  | depth + 1, func, arguments, world =>
      (limit fun rounds =>
        execFunc numerics (moduleCallees outside (invoke numerics outside depth)) rounds
          func.sig.result func.exprs (callLocals module func arguments) world).reply
        func.sig.result

theorem invoke_of_run {numerics : Interp.Numerics} {outside : Outside module Rest} {depth : Nat}
    {func : Func Scheme.binary} {arguments : Results func.sig.params}
    {world : World (globalTypes module) Rest} {behaviour : Behaviour (funcScope module func) Rest}
    (first : execFunc numerics (moduleCallees outside (invoke numerics outside depth)) 0
      func.sig.result func.exprs (callLocals module func arguments) world = behaviour)
    (ends : behaviour ≠ .running) :
    invoke numerics outside (depth + 1) func arguments world =
      behaviour.reply func.sig.result := by
  rw [invoke, limit_of_ends first ends]

end Semantics
end Wasm
end WasmSandboxing
