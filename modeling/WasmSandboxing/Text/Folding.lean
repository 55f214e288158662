import WasmSandboxing.Text.TypeUses

namespace WasmSandboxing
namespace Text
namespace Folding

open Wasm TypeUses

/-!
# Folded expressions

`WriteFoldedExprList`: the writer gathers expressions in a stack of trees, by
the numbers of operands and results that it takes them to have, and writes the
stack whenever an expression has no result or too few operands are there.  The
text is kept as the forest of its parentheses.
-/

/-- The types of expression whose numbers of operands and results are fixed.  The
lane operations are told apart as their opcodes are. -/
inductive PlainType where
  | atomicLoad | atomicRmw | atomicRmwCmpxchg | atomicStore | atomicWait | atomicWake
  | binary | compare | const | convert | drop | getGlobal | getLocal | load | memoryGrow
  | memorySize | nop | rethrow | ret | select | setGlobal | setLocal | simdExtractLane
  | simdReplaceLane | simdShuffleOp | store | teeLocal | ternary | unary | unreachable

/-- Expressions without a body; `data` is what else is written of one. -/
inductive Instr (Data : Type) where
  | plain (type : PlainType) (data : Data)
  | br (var : Var)
  | brIf (var : Var)
  | brTable (targets : List Var) (defaultTarget : Var)
  | call (var : Var)
  | callIndirect (decl : TypeUses.FuncDeclaration)
  | throw (var : Var)

/-- `Block` without its expressions. -/
structure Block where
  label : Name
  decl : TypeUses.FuncDeclaration

/-- `ExprList`, by its first expression. -/
inductive ExprList (Data : Type) where
  | nil
  | instr (first : Instr Data) (rest : ExprList Data)
  | body (type : BodyType) (block : Block) (exprs rest : ExprList Data)
  | arms (type : ArmsType) (block : Block) (first second rest : ExprList Data)

/-- `Expr` -/
inductive Expr (Data : Type) where
  | instr (first : Instr Data)
  | body (type : BodyType) (block : Block) (exprs : ExprList Data)
  | arms (type : ArmsType) (block : Block) (first second : ExprList Data)

/-- `std::vector<ExprTree>`, by its first tree. -/
inductive Trees (Data : Type) where
  | nil
  | tree (expr : Expr Data) (children rest : Trees Data)

/-- What is written, by its first parenthesis: an operator with its operands, a
block or a loop with its expressions, and the expressions with two lists. -/
inductive Forest (Data : Type) where
  | nil
  | instr (first : Instr Data) (operands rest : Forest Data)
  | body (type : BodyType) (block : Block) (exprs rest : Forest Data)
  | arms (type : ArmsType) (block : Block) (operands first second rest : Forest Data)

variable {Data : Type}

namespace ExprList

def append : ExprList Data -> ExprList Data -> ExprList Data
  | nil, list => list
  | instr first rest, list => instr first (rest.append list)
  | body type block exprs rest, list => body type block exprs (rest.append list)
  | arms type block first second rest, list => arms type block first second (rest.append list)

instance : Append (ExprList Data) := ⟨append⟩

def weight : ExprList Data -> Nat
  | nil => 0
  | instr _ rest => 1 + rest.weight
  | body _ _ exprs rest => 1 + exprs.weight + rest.weight
  | arms _ _ first second rest => 1 + first.weight + second.weight + rest.weight

end ExprList

namespace Expr

def cons : Expr Data -> ExprList Data -> ExprList Data
  | instr first, rest => .instr first rest
  | body type block exprs, rest => .body type block exprs rest
  | arms type block first second, rest => .arms type block first second rest

def weight : Expr Data -> Nat
  | instr _ => 1
  | body _ _ exprs => 1 + exprs.weight
  | arms _ _ first second => 1 + first.weight + second.weight

end Expr

namespace Trees

def size : Trees Data -> Nat
  | nil => 0
  | tree _ _ rest => 1 + rest.size

def append : Trees Data -> Trees Data -> Trees Data
  | nil, trees => trees
  | tree expr children rest, trees => tree expr children (rest.append trees)

instance : Append (Trees Data) := ⟨append⟩

/-- The first `count` trees, and those behind them. -/
def splitAt : Nat -> Trees Data -> Trees Data × Trees Data
  | 0, trees => (nil, trees)
  | _, nil => (nil, nil)
  | count + 1, tree expr children rest =>
      let (first, last) := splitAt count rest
      (tree expr children first, last)

def weight : Trees Data -> Nat
  | nil => 0
  | tree expr children rest => expr.weight + children.weight + rest.weight

end Trees

def Forest.append : Forest Data -> Forest Data -> Forest Data
  | nil, forest => forest
  | instr first operands rest, forest => instr first operands (rest.append forest)
  | body type block exprs rest, forest => body type block exprs (rest.append forest)
  | arms type block operands first second rest, forest =>
      arms type block operands first second (rest.append forest)

instance : Append (Forest Data) := ⟨Forest.append⟩

/-! ## The numbers of operands and results -/

inductive LabelType where
  | func | block | loop | ite | ifExcept | tryCatch
  deriving DecidableEq

structure Label where
  labelType : LabelType
  name : Name
  sig : FuncSignature

/-- `label_stack_`, innermost first.  Labels are only added when expressions are
folded: what takes them off is `WriteEndBlock`, which is not called then. -/
abbrev Labels := List Label

def getLabel (labels : Labels) : Var -> Option Label
  | .name symbol => labels.find? fun label => label.name == symbol.text
  | .index index => labels[index]?

def getLabelArity (labels : Labels) (var : Var) : Nat :=
  match getLabel labels var with
  | none => 0
  | some label =>
      if label.labelType = .loop then label.sig.paramTypes.length
      else label.sig.resultTypes.length

/-- What the writer looks up in the module, and the results of `current_func_`. -/
structure Context where
  getFunc : Var -> Option FuncSignature
  /-- the size of an exception's signature -/
  getExcept : Var -> Option Nat
  resultCount : Nat

def getFuncParamCount (context : Context) (var : Var) : Nat :=
  ((context.getFunc var).map fun sig => sig.paramTypes.length).getD 0

def getFuncResultCount (context : Context) (var : Var) : Nat :=
  ((context.getFunc var).map fun sig => sig.resultTypes.length).getD 0

/-- The operand and result counts of `WriteFoldedExpr`. -/
def PlainType.counts (context : Context) : PlainType -> Nat × Nat
  | atomicRmw | atomicWake | binary | compare => (2, 1)
  | atomicStore | store => (2, 0)
  | const | memorySize | getGlobal | getLocal | unreachable => (0, 1)
  | atomicLoad | convert | memoryGrow | load | teeLocal | unary => (1, 1)
  | drop | setGlobal | setLocal => (1, 0)
  | nop | rethrow => (0, 0)
  | ret => (context.resultCount, 1)
  | atomicRmwCmpxchg | atomicWait | select | ternary => (3, 1)
  | simdExtractLane => (1, 1)
  | simdReplaceLane | simdShuffleOp => (2, 1)

def Instr.counts (context : Context) (labels : Labels) : Instr Data -> Nat × Nat
  | plain type _ => type.counts context
  | br var => (getLabelArity labels var, 1)
  | brIf var => (getLabelArity labels var + 1, getLabelArity labels var)
  | brTable _ defaultTarget => (getLabelArity labels defaultTarget + 1, 1)
  | call var => (getFuncParamCount context var, getFuncResultCount context var)
  | callIndirect decl => (decl.sig.paramTypes.length + 1, decl.sig.resultTypes.length)
  | throw var => ((context.getExcept var).getD 0, 0)

def Expr.counts (context : Context) (labels : Labels) : Expr Data -> Nat × Nat
  | instr first => first.counts context labels
  | body _ block _ => (0, block.decl.sig.resultTypes.length)
  | arms .ite block _ _ | arms (.ifExcept _) block _ _ => (1, block.decl.sig.resultTypes.length)
  | arms .tryCatch block _ _ => (0, block.decl.sig.resultTypes.length)

/-! ## The writer -/

/-- `PushExpr`, with whether the stack is then flushed. -/
def pushExpr (stack : Trees Data) (expr : Expr Data) (operandCount resultCount : Nat) :
    Trees Data × Bool :=
  if operandCount ≤ stack.size then
    let (rest, operands) := stack.splitAt (stack.size - operandCount)
    (rest ++ .tree expr operands .nil, decide (resultCount = 0))
  else
    (stack ++ .tree expr .nil .nil, true)

def bodyLabel : BodyType -> LabelType
  | .block => .block
  | .loop => .loop

def armsLabel : ArmsType -> LabelType
  | .ite => .ite
  | .ifExcept _ => .ifExcept
  | .tryCatch => .tryCatch

/-- The list taken apart at its first expression. -/
def ExprList.uncons : ExprList Data -> Option (Expr Data × ExprList Data)
  | .nil => none
  | .instr first rest => some (.instr first, rest)
  | .body type block exprs rest => some (.body type block exprs, rest)
  | .arms type block first second rest => some (.arms type block first second, rest)

theorem ExprList.uncons_none {exprs : ExprList Data} (found : exprs.uncons = none) :
    exprs = .nil := by
  cases exprs with
  | nil => rfl
  | instr | body | arms => cases found

theorem ExprList.uncons_some {exprs rest : ExprList Data} {first : Expr Data}
    (found : exprs.uncons = some (first, rest)) : exprs = first.cons rest := by
  cases exprs with
  | nil => cases found
  | instr | body | arms => cases found; rfl

theorem Expr.weight_pos (expr : Expr Data) : 0 < expr.weight := by
  cases expr with
  | instr first => exact Nat.one_pos
  | body type block exprs => exact Nat.add_pos_left Nat.one_pos _
  | arms type block first second =>
      exact Nat.add_pos_left (Nat.add_pos_left Nat.one_pos _) _

theorem Expr.weight_cons (first : Expr Data) (rest : ExprList Data) :
    (first.cons rest).weight = first.weight + rest.weight := by
  cases first with
  | instr | body | arms => rfl

namespace Trees

theorem weight_append (first rest : Trees Data) :
    (first ++ rest).weight = first.weight + rest.weight := by
  induction first with
  | nil => exact (Nat.zero_add _).symm
  | tree expr children later _ inductionHypothesis =>
      change expr.weight + children.weight + (later ++ rest).weight = _
      rw [inductionHypothesis, weight, Nat.add_assoc, Nat.add_assoc, Nat.add_assoc]

theorem splitAt_append (count : Nat) (trees : Trees Data) :
    (trees.splitAt count).1 ++ (trees.splitAt count).2 = trees := by
  induction trees generalizing count with
  | nil => cases count <;> rfl
  | tree expr children rest _ inductionHypothesis =>
      cases count with
      | zero => rfl
      | succ count => exact congrArg (tree expr children) (inductionHypothesis count)

theorem splitAt_size (trees : Trees Data) : (trees.splitAt trees.size).2 = nil := by
  induction trees with
  | nil => rfl
  | tree expr children rest _ inductionHypothesis =>
      rw [size, Nat.add_comm]
      exact inductionHypothesis

end Trees

theorem pushExpr_weight (stack : Trees Data) (expr : Expr Data) (counts : Nat × Nat) :
    (pushExpr stack expr counts.1 counts.2).1.weight = stack.weight + expr.weight := by
  unfold pushExpr
  split
  · have parts := congrArg Trees.weight
      (Trees.splitAt_append (stack.size - counts.1) stack)
    rw [Trees.weight_append] at parts
    rw [Trees.weight_append]
    simp only [Trees.weight]
    omega
  · rw [Trees.weight_append]
    simp only [Trees.weight]
    omega

mutual

/-- `FlushExprTreeVector`.  The operands of a block or a loop are not written. -/
def flushExprTreeVector (context : Context) (labels : Labels) :
    Trees Data -> Forest Data × Labels
  | .nil => (.nil, labels)
  | .tree (.instr first) children rest =>
      let (operands, labels) := flushExprTreeVector context labels children
      let (later, labels) := flushExprTreeVector context labels rest
      (.instr first operands later, labels)
  | .tree (.body type block exprs) _ rest =>
      let (written, labels) := writeFoldedExprList context
        (⟨bodyLabel type, block.label, block.decl.sig⟩ :: labels) .nil exprs
      let (later, labels) := flushExprTreeVector context labels rest
      (.body type block written later, labels)
  | .tree (.arms type block first second) children rest =>
      let (operands, labels) := flushExprTreeVector context
        (⟨armsLabel type, block.label, block.decl.sig⟩ :: labels) children
      let (firstWritten, labels) := writeFoldedExprList context labels .nil first
      let (secondWritten, labels) := writeFoldedExprList context labels .nil second
      let (later, labels) := flushExprTreeVector context labels rest
      (.arms type block operands firstWritten secondWritten later, labels)
termination_by trees => (trees.weight, 0)
decreasing_by
  all_goals
    simp only [Prod.lex_def, Trees.weight, Expr.weight]
    omega

/-- `WriteFoldedExprList` and the `FlushExprTreeStack` behind it. -/
def writeFoldedExprList (context : Context) (labels : Labels) (stack : Trees Data)
    (exprs : ExprList Data) : Forest Data × Labels :=
  match found : exprs.uncons with
  | none => flushExprTreeVector context labels stack
  | some (first, rest) =>
      let counts := first.counts context labels
      let pushed := pushExpr stack first counts.1 counts.2
      if pushed.2 then
        let (written, labels) := flushExprTreeVector context labels pushed.1
        let (later, labels) := writeFoldedExprList context labels .nil rest
        (written ++ later, labels)
      else writeFoldedExprList context labels pushed.1 rest
termination_by (stack.weight + exprs.weight, exprs.weight + 1)
decreasing_by
  · simp only [Prod.lex_def]
    omega
  all_goals
    have apart := congrArg ExprList.weight (ExprList.uncons_some found)
    rw [Expr.weight_cons] at apart
    have positive := first.weight_pos
    have whole := pushExpr_weight stack first (first.counts context labels)
    simp only [Prod.lex_def, Trees.weight]
    omega

end

/-! ## What is read back -/

/-- The expressions in the order in which `ParseExpr` adds them: an operator
behind its operands. -/
def Forest.flatten : Forest Data -> ExprList Data
  | nil => .nil
  | instr first operands rest => operands.flatten ++ .instr first rest.flatten
  | body type block exprs rest => .body type block exprs.flatten rest.flatten
  | arms type block operands first second rest =>
      operands.flatten ++ .arms type block first.flatten second.flatten rest.flatten

/-- The expressions of a stack, in the order in which they were pushed. -/
def Trees.flatten : Trees Data -> ExprList Data
  | nil => .nil
  | tree expr children rest => children.flatten ++ expr.cons rest.flatten

/-- Blocks and loops have no operands. -/
def Trees.Plain : Trees Data -> Prop
  | nil => True
  | tree (.body _ _ _) children rest => children = nil ∧ rest.Plain
  | tree (.instr _) children rest | tree (.arms _ _ _ _) children rest =>
      children.Plain ∧ rest.Plain

namespace ExprList

theorem append_assoc (first second third : ExprList Data) :
    first ++ second ++ third = first ++ (second ++ third) := by
  induction first with
  | nil => rfl
  | instr first rest inductionHypothesis => exact congrArg (instr first) inductionHypothesis
  | body type block exprs rest _ inductionHypothesis =>
      exact congrArg (body type block exprs) inductionHypothesis
  | arms type block first second rest _ _ inductionHypothesis =>
      exact congrArg (arms type block first second) inductionHypothesis

theorem append_nil (exprs : ExprList Data) : exprs ++ nil = exprs := by
  induction exprs with
  | nil => rfl
  | instr first rest inductionHypothesis => exact congrArg (instr first) inductionHypothesis
  | body type block exprs rest _ inductionHypothesis =>
      exact congrArg (body type block exprs) inductionHypothesis
  | arms type block first second rest _ _ inductionHypothesis =>
      exact congrArg (arms type block first second) inductionHypothesis

end ExprList

theorem Expr.cons_append (expr : Expr Data) (rest exprs : ExprList Data) :
    expr.cons rest ++ exprs = expr.cons (rest ++ exprs) := by
  cases expr with
  | instr | body | arms => rfl

theorem Forest.flatten_append (first rest : Forest Data) :
    (first ++ rest).flatten = first.flatten ++ rest.flatten := by
  induction first with
  | nil => rfl
  | instr first operands later _ inductionHypothesis =>
      change operands.flatten ++ .instr first (later ++ rest).flatten = _
      rw [inductionHypothesis, flatten, ExprList.append_assoc]
      rfl
  | body type block exprs later _ inductionHypothesis =>
      exact congrArg (ExprList.body type block exprs.flatten) inductionHypothesis
  | arms type block operands first second later _ _ _ inductionHypothesis =>
      change operands.flatten ++ .arms type block first.flatten second.flatten
        (later ++ rest).flatten = _
      rw [inductionHypothesis, flatten, ExprList.append_assoc]
      rfl

namespace Trees

theorem flatten_append (first rest : Trees Data) :
    (first ++ rest).flatten = first.flatten ++ rest.flatten := by
  induction first with
  | nil => rfl
  | tree expr children later _ inductionHypothesis =>
      change children.flatten ++ expr.cons (later ++ rest).flatten = _
      rw [inductionHypothesis, flatten, ExprList.append_assoc, Expr.cons_append]

theorem plain_append (first rest : Trees Data) :
    (first ++ rest).Plain ↔ first.Plain ∧ rest.Plain := by
  induction first with
  | nil => exact (true_and _).to_iff.symm
  | tree expr children later _ inductionHypothesis =>
      cases expr with
      | instr | body | arms =>
          exact (and_congr_right' inductionHypothesis).trans and_assoc.symm

end Trees

/-- An expression is pushed behind all that the stack holds, whatever part of it
becomes its operands. -/
theorem pushExpr_flatten (stack : Trees Data) (expr : Expr Data) (counts : Nat × Nat) :
    (pushExpr stack expr counts.1 counts.2).1.flatten = stack.flatten ++ expr.cons .nil := by
  unfold pushExpr
  split
  · have parts := congrArg Trees.flatten
      (Trees.splitAt_append (stack.size - counts.1) stack)
    rw [Trees.flatten_append] at parts
    rw [Trees.flatten_append, ← parts, ExprList.append_assoc]
    rfl
  · exact Trees.flatten_append _ _

/-- Blocks and loops take no operands. -/
theorem pushExpr_plain (context : Context) (labels : Labels) {stack : Trees Data}
    (expr : Expr Data) (plain : stack.Plain) :
    (pushExpr stack expr (expr.counts context labels).1
      (expr.counts context labels).2).1.Plain := by
  unfold pushExpr
  split
  · have parts := congrArg Trees.Plain
      (Trees.splitAt_append (stack.size - (expr.counts context labels).1) stack)
    rw [Trees.plain_append] at parts
    have bothPlain := parts.mpr plain
    refine (Trees.plain_append _ _).mpr ⟨bothPlain.1, ?_⟩
    cases expr with
    | instr first => exact ⟨bothPlain.2, trivial⟩
    | body type block exprs => exact ⟨stack.splitAt_size, trivial⟩
    | arms type block first second => exact ⟨bothPlain.2, trivial⟩
  · refine (Trees.plain_append _ _).mpr ⟨plain, ?_⟩
    cases expr with
    | instr first => exact ⟨trivial, trivial⟩
    | body type block exprs => exact ⟨rfl, trivial⟩
    | arms type block first second => exact ⟨trivial, trivial⟩

mutual

theorem flushExprTreeVector_flatten (context : Context) (labels : Labels) (trees : Trees Data)
    (plain : trees.Plain) :
    (flushExprTreeVector context labels trees).1.flatten = trees.flatten := by
  cases shape : trees with
  | nil =>
      rw [flushExprTreeVector]
      rfl
  | tree expr children rest =>
      rw [shape] at plain
      cases expr with
      | instr first =>
          have whole : trees.weight = 1 + children.weight + rest.weight :=
            congrArg Trees.weight shape
          have operandOrder labels := flushExprTreeVector_flatten context labels children plain.1
          have laterOrder labels := flushExprTreeVector_flatten context labels rest plain.2
          simp only [flushExprTreeVector, Forest.flatten, operandOrder, laterOrder]
          rfl
      | body type block exprs =>
          have whole : trees.weight = 1 + exprs.weight + children.weight + rest.weight :=
            congrArg Trees.weight shape
          have bodyOrder labels := writeFoldedExprList_flatten context labels .nil exprs trivial
          have laterOrder labels := flushExprTreeVector_flatten context labels rest plain.2
          simp only [flushExprTreeVector, Forest.flatten, Trees.flatten, bodyOrder, laterOrder,
            plain.1]
          rfl
      | arms type block first second =>
          have whole : trees.weight =
              1 + first.weight + second.weight + children.weight + rest.weight :=
            congrArg Trees.weight shape
          have operandOrder labels := flushExprTreeVector_flatten context labels children plain.1
          have firstOrder labels := writeFoldedExprList_flatten context labels .nil first trivial
          have secondOrder labels :=
            writeFoldedExprList_flatten context labels .nil second trivial
          have laterOrder labels := flushExprTreeVector_flatten context labels rest plain.2
          simp only [flushExprTreeVector, Forest.flatten, operandOrder, firstOrder, secondOrder,
            laterOrder]
          rfl
termination_by (trees.weight, 0)
decreasing_by
  all_goals
    simp only [Prod.lex_def, Trees.weight]
    omega

theorem writeFoldedExprList_flatten (context : Context) (labels : Labels) (stack : Trees Data)
    (exprs : ExprList Data) (plain : stack.Plain) :
    (writeFoldedExprList context labels stack exprs).1.flatten = stack.flatten ++ exprs := by
  rw [writeFoldedExprList]
  split
  · next found =>
    have stackOrder := flushExprTreeVector_flatten context labels stack plain
    rw [stackOrder, ExprList.uncons_none found, ExprList.append_nil]
  · next first rest found =>
    have pushedPlain := pushExpr_plain context labels first plain
    have order := pushExpr_flatten stack first (first.counts context labels)
    have shape := ExprList.uncons_some found
    have apart : exprs.weight = first.weight + rest.weight :=
      (congrArg ExprList.weight shape).trans (first.weight_cons rest)
    have positive := first.weight_pos
    have whole := pushExpr_weight stack first (first.counts context labels)
    have joined : exprs = first.cons .nil ++ rest := shape.trans (first.cons_append .nil rest).symm
    have stackOrder := flushExprTreeVector_flatten context labels _ pushedPlain
    have emptiedOrder labels := writeFoldedExprList_flatten context labels .nil rest trivial
    have pushedOrder := writeFoldedExprList_flatten context labels _ rest pushedPlain
    dsimp only
    split
    · simp only [Forest.flatten_append, stackOrder, emptiedOrder, order]
      rw [joined, ExprList.append_assoc]
      rfl
    · rw [pushedOrder, order, joined, ExprList.append_assoc]
termination_by (stack.weight + exprs.weight, exprs.weight + 1)
decreasing_by
  all_goals
    simp only [Prod.lex_def, Trees.weight]
    omega

end

/-- What `WriteFunc` writes of the expressions of a function. -/
def writeFunc (context : Context) (resultTypes : List ValueType) (exprs : ExprList Data) :
    Forest Data :=
  (writeFoldedExprList { context with resultCount := resultTypes.length }
    [⟨.func, [], ⟨[], resultTypes⟩⟩] .nil exprs).1

/-- Folded expressions are read back in the order in which they were written, with
the same expressions in every block. -/
theorem writeFunc_flatten (context : Context) (resultTypes : List ValueType)
    (exprs : ExprList Data) : (writeFunc context resultTypes exprs).flatten = exprs :=
  writeFoldedExprList_flatten _ _ .nil exprs trivial

end Folding
end Text
end WasmSandboxing
