import WasmSandboxing.Wasm.Ir
import Mathlib.Data.List.Nodup

namespace WasmSandboxing
namespace Wasm

/-!
# Labels of a function body

What `GenerateNames` and `ApplyNames` do to the blocks and branches of a body
that was read from a binary.  Blocks are numbered in the order in which they
begin, and a depth is replaced by the name of the block it counts to.
-/

/-- The name of a block by its prefix, `$B`, `$L` or `$I`, and its number;
`func` is the label that the C writer adds for the function itself. -/
inductive LabelName where
  | func
  | block (count : Nat)
  | loop (count : Nat)
  | ite (count : Nat)
  deriving DecidableEq, Repr

namespace LabelName

/-- The number of a block; the function's own label has none. -/
def number : LabelName -> Option Nat
  | func => none
  | block count | loop count | ite count => some count

end LabelName

/-- The `Var` of a branch after `ApplyNames`: an index remains where the depth
is that of the function itself. -/
inductive LabelVar where
  | name (label : LabelName)
  | index (depth : Nat)
  deriving DecidableEq, Repr

/-- References as the C writer gets them.  A name that stands for an entity of
the module, or for a local, is given by the entity's index; which names these
are, and whether they are told apart, is a matter of the symbol maps. -/
abbrev Scheme.applied : Scheme := ⟨LabelName, LabelVar, Nat, Nat, Nat, Nat, Nat⟩

namespace ApplyNames

/-- `FindLabelByVar` and `UseNameForVar`, with the innermost label first. -/
def useNameForVar (labels : List LabelName) (depth : Nat) : LabelVar :=
  match labels[depth]? with
  | some label => .name label
  | none => .index depth

def visitInstr (labels : List LabelName) : Instr Scheme.binary -> Instr Scheme.applied
  | .binary opcode => .binary opcode
  | .compare opcode => .compare opcode
  | .convert opcode => .convert opcode
  | .unary opcode => .unary opcode
  | .load opcode offset => .load opcode offset
  | .store opcode offset => .store opcode offset
  | .const value => .const value
  | .drop => .drop
  | .select => .select
  | .getLocal var => .getLocal var
  | .setLocal var => .setLocal var
  | .teeLocal var => .teeLocal var
  | .getGlobal var => .getGlobal var
  | .setGlobal var => .setGlobal var
  | .memorySize => .memorySize
  | .memoryGrow => .memoryGrow
  | .nop => .nop
  | .call var => .call var
  | .callIndirect typeIndex => .callIndirect typeIndex
  | .br var => .br (useNameForVar labels var)
  | .brIf var => .brIf (useNameForVar labels var)
  | .brTable targets defaultTarget =>
      .brTable (targets.map (useNameForVar labels)) (useNameForVar labels defaultTarget)
  | .ret => .ret
  | .unreachable => .unreachable

/-- How many blocks begin in a list, and so by how much `label_count_` grows. -/
def blockCount : ExprList S -> Nat
  | .nil => 0
  | .instr _ rest => blockCount rest
  | .block _ _ exprs rest => 1 + blockCount exprs + blockCount rest
  | .loop _ _ exprs rest => 1 + blockCount exprs + blockCount rest
  | .ite _ _ yes no rest => 1 + blockCount yes + blockCount no + blockCount rest

/-- Number the blocks from `count` on and name the branches. -/
def visitExprList (labels : List LabelName) (count : Nat) :
    ExprList Scheme.binary -> ExprList Scheme.applied
  | .nil => .nil
  | .instr first rest => .instr (visitInstr labels first) (visitExprList labels count rest)
  | .block _ result exprs rest =>
      .block (.block count) result (visitExprList (.block count :: labels) (count + 1) exprs)
        (visitExprList labels (count + 1 + blockCount exprs) rest)
  | .loop _ result exprs rest =>
      .loop (.loop count) result (visitExprList (.loop count :: labels) (count + 1) exprs)
        (visitExprList labels (count + 1 + blockCount exprs) rest)
  | .ite _ result yes no rest =>
      .ite (.ite count) result (visitExprList (.ite count :: labels) (count + 1) yes)
        (visitExprList (.ite count :: labels) (count + 1 + blockCount yes) no)
        (visitExprList labels (count + 1 + blockCount yes + blockCount no) rest)

/-- The body of a function, whose labels are numbered from zero. -/
def visitFunc (exprs : ExprList Scheme.binary) : ExprList Scheme.applied :=
  visitExprList [] 0 exprs

end ApplyNames

end Wasm
end WasmSandboxing
