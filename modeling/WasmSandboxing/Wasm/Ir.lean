import WasmSandboxing.Wasm.Opcode

namespace WasmSandboxing
namespace Wasm

/-!
# Expression lists

Function bodies as the tools hold them.  The references in a body change form
on the way from the binary to the C writer: depths and indices are replaced by
names.  A `Scheme` says what each kind of reference is at one stage, and every
pass is a function between two stages.
-/

/-- A value of one of the value types, by its bits. -/
inductive Value where
  | i32 (bits : BitVec 32)
  | i64 (bits : BitVec 64)
  | f32 (bits : BitVec 32)
  | f64 (bits : BitVec 64)
  deriving DecidableEq, Repr

def Value.type : Value -> ValueType
  | .i32 _ => .i32 | .i64 _ => .i64 | .f32 _ => .f32 | .f64 _ => .f64

/-- `FuncSignature`.  The first version of WebAssembly has at most one result. -/
structure Signature where
  params : List ValueType
  result : Option ValueType
  deriving DecidableEq, Repr

/-- What the references of a module are: the label a block declares, the
operand of a branch, and the operands that name an entity of each kind. -/
structure Scheme where
  Label : Type
  Target : Type
  Local : Type
  Global : Type
  Func : Type
  Table : Type
  Memory : Type

/-- References as the binary format has them: blocks are anonymous, branches
give a depth and everything else an index. -/
abbrev Scheme.binary : Scheme := ⟨Unit, Nat, Nat, Nat, Nat, Nat, Nat⟩

/-- Expressions without a body of their own. -/
inductive Instr (S : Scheme) where
  | binary (opcode : BinaryOpcode)
  | compare (opcode : CompareOpcode)
  | convert (opcode : ConvertOpcode)
  | unary (opcode : UnaryOpcode)
  | load (opcode : LoadOpcode) (offset : BitVec 32)
  | store (opcode : StoreOpcode) (offset : BitVec 32)
  | const (value : Value)
  | drop
  | select
  | getLocal (var : S.Local)
  | setLocal (var : S.Local)
  | teeLocal (var : S.Local)
  | getGlobal (var : S.Global)
  | setGlobal (var : S.Global)
  | memorySize
  | memoryGrow
  | nop
  | call (var : S.Func)
  | callIndirect (typeIndex : Nat)
  | br (var : S.Target)
  | brIf (var : S.Target)
  | brTable (targets : List S.Target) (defaultTarget : S.Target)
  | ret
  | unreachable

/-- `ExprList`, by its first expression.  Blocks, loops and conditionals carry
their own lists; an absent `else` is an empty one. -/
inductive ExprList (S : Scheme) where
  | nil
  | instr (first : Instr S) (rest : ExprList S)
  | block (label : S.Label) (result : Option ValueType) (exprs rest : ExprList S)
  | loop (label : S.Label) (result : Option ValueType) (exprs rest : ExprList S)
  | ite (label : S.Label) (result : Option ValueType) (yes no rest : ExprList S)

end Wasm
end WasmSandboxing
