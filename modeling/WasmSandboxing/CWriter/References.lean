import WasmSandboxing.CWriter.Function
import WasmSandboxing.Wasm.Names

namespace WasmSandboxing
namespace CWriter

open CLang WasmRt Wasm

/-!
# Names mentioned in a function body

Where the statements of a body mention a name, in the order of the text, and
the same read off the expressions.  Stack variables are left out of the latter:
what they are depends on the writer's type stack, while the other mentions are
those of the expressions that are written.
-/

/-- One mention: the definition of a label, a stack variable, a local, the
operand of a `goto`, or an entity of the module.  A module has one memory and
one table. -/
inductive Mention where
  | define (label : LabelName)
  | stackVar (index : Nat) (type : ValueType)
  | local (index : Nat)
  | goto (label : LabelName)
  | entity (entity : Entity)
  deriving DecidableEq, Repr

namespace Mention

def memory : Mention := .entity (.memory, 0)

def table : Mention := .entity (.table, 0)

def isStackVar : Mention -> Bool
  | stackVar _ _ => true
  | _ => false

end Mention

/-! ## Mentions in the output -/

def CVar.mention : CVar Scheme.applied -> Mention
  | .stack index type => .stackVar index type
  | .local var => .local var
  | .global var => .entity (.global, var)

def exprMentions (expr : CExpr Scheme.applied) : List Mention := expr.vars.map CVar.mention

namespace Command

def mentions : Command Scheme.applied -> List Mention
  | scope label => [.define label]
  | assign target value | compound _ target value => target.mention :: exprMentions value
  | load target _ address => target.mention :: .memory :: exprMentions address
  | store _ address value => .memory :: (exprMentions address ++ exprMentions value)
  | call target callee arguments =>
      target.toList.map CVar.mention ++ .entity (.func, callee) :: arguments.map CVar.mention
  | callIndirect target _ callee arguments =>
      target.toList.map CVar.mention ++ .table :: callee.mention :: arguments.map CVar.mention
  | memoryPages target => [target.mention, .memory]
  | growMemory target argument => [target.mention, .memory, argument.mention]
  | evaluate value => exprMentions value

end Command

/-- The mentions of a list of statements.  A label's own declaration is written
with the name that was defined for it and looks nothing up. -/
def mentions : Statements Scheme.applied -> List Mention
  | .done => []
  | .basic command rest => command.mentions ++ mentions rest
  | .label _ rest => mentions rest
  | .goto name rest => .goto name :: mentions rest
  | .branch condition yes no rest =>
      exprMentions condition ++ (mentions yes ++ (mentions no ++ mentions rest))
  | .switch scrutinee body rest => exprMentions scrutinee ++ (mentions body ++ mentions rest)
  | .case _ rest => mentions rest
  | .default rest => mentions rest

@[simp] theorem mentions_append (first second : Statements Scheme.applied) :
    mentions (first ++ second) = mentions first ++ mentions second := by
  induction first <;> simp_all [mentions]

/-- The mentions other than stack variables. -/
def references (code : Statements Scheme.applied) : List Mention :=
  (mentions code).filter fun mention => !mention.isStackVar

@[simp] theorem references_append (first second : Statements Scheme.applied) :
    references (first ++ second) = references first ++ references second := by
  simp [references]

@[simp] theorem references_done : references .done = [] := rfl

theorem references_basic (command : Command Scheme.applied) (rest : Statements Scheme.applied) :
    references (.basic command rest) = references (.basic command .done) ++ references rest := by
  rw [← references_append]
  rfl

/-! ## Mentions in the expressions -/

def instrReferences : Instr Scheme.applied -> List Mention
  | .load _ _ | .store _ _ | .memorySize | .memoryGrow => [.memory]
  | .getLocal var | .setLocal var | .teeLocal var => [.local var]
  | .getGlobal var | .setGlobal var => [.entity (.global, var)]
  | .call var => [.entity (.func, var)]
  | .callIndirect _ => [.table]
  | .br var | .brIf var => [.goto (gotoName var)]
  | .brTable targets defaultTarget =>
      targets.map (fun var => .goto (gotoName var)) ++ [.goto (gotoName defaultTarget)]
  | .ret => [.goto .func]
  | .binary _ | .compare _ | .convert _ | .unary _ | .const _ | .drop | .select | .nop
  | .unreachable => []

/-- The references of the expressions that are written. -/
def exprReferences : ExprList Scheme.applied -> List Mention
  | .nil => []
  | .instr first rest =>
      instrReferences first ++ if endsList first then [] else exprReferences rest
  | .block label _ exprs rest => .define label :: (exprReferences exprs ++ exprReferences rest)
  | .loop _ _ .nil rest => exprReferences rest
  | .loop label _ exprs rest => .define label :: (exprReferences exprs ++ exprReferences rest)
  | .ite label _ yes no rest =>
      .define label :: (exprReferences yes ++ (exprReferences no ++ exprReferences rest))

/-! ## They are the same -/

/-- Only stack variables occur in the expression. -/
def Silent (expr : CExpr Scheme.applied) : Prop :=
  (exprMentions expr).filter (fun mention => !mention.isStackVar) = []

variable {state after : WriterState Scheme.applied} {command : Command Scheme.applied}

theorem operand_stack {index : Nat} {var : CVar Scheme.applied}
    (found : state.operand index = some var) : ∃ height type, var = .stack height type := by
  unfold WriterState.operand at found
  rcases Option.map_eq_some_iff.mp found with ⟨type, _, rfl⟩
  exact ⟨_, type, rfl⟩

theorem variable_silent (index : Nat) (type : ValueType) :
    Silent (.var (.stack index type)) := rfl

theorem convertOperator_silent (opcode : ConvertOpcode) (index : Nat) (type : ValueType) :
    Silent (convertOperator opcode (.var (.stack index type))) := by
  cases opcode <;> rfl

theorem unaryOperator_silent (opcode : UnaryOpcode) (index : Nat) (type : ValueType) :
    Silent (unaryOperator opcode (.var (.stack index type))) := by
  cases opcode <;> rfl

theorem constant_silent (value : Value) : Silent (constant value) := by
  cases value with
  | i32 bits => rfl
  | i64 bits => rfl
  | f32 bits =>
      cases decoded : CValue.single bits with
      | nan => simp only [constant, decoded]; rfl
      | infinite negative => cases negative <;> simp only [constant, decoded] <;> rfl
      | finite value => simp only [constant, decoded]; split <;> rfl
  | f64 bits =>
      cases decoded : CValue.double bits with
      | nan => simp only [constant, decoded]; rfl
      | infinite negative => cases negative <;> simp only [constant, decoded] <;> rfl
      | finite value => simp only [constant, decoded]; split <;> rfl

/-- The statement mentions nothing but stack variables. -/
def Quiet (written : Written Scheme.applied) : Prop :=
  forall command after, written = some (command, after) -> references (.basic command .done) = []

theorem references_assign (index : Nat) (type : ValueType) {value : CExpr Scheme.applied}
    (silent : Silent value) :
    references (.basic (.assign (.stack index type) value) .done) = [] := by
  rw [references, mentions, mentions, List.append_nil]
  exact silent

theorem references_compound (op : BinaryOp) (index : Nat) (type : ValueType)
    {value : CExpr Scheme.applied} (silent : Silent value) :
    references (.basic (.compound op (.stack index type) value) .done) = [] := by
  rw [references, mentions, mentions, List.append_nil]
  exact silent

theorem references_load {index : Nat} {type : ValueType} {function : LoadFunction}
    {address : CExpr Scheme.applied} (silent : Silent address) :
    references (.basic (.load (.stack index type) function address) .done) = [.memory] := by
  rw [references, mentions, mentions, List.append_nil]
  exact congrArg (List.cons Mention.memory) silent

theorem references_store {index : Nat} {type : ValueType} {function : StoreFunction}
    {address : CExpr Scheme.applied} (silent : Silent address) :
    references (.basic (.store function address (.var (.stack index type))) .done) =
      [.memory] := by
  rw [references, mentions, mentions, List.append_nil, Command.mentions]
  have rest : ((exprMentions address ++ exprMentions (.var (.stack index type))).filter
      fun mention => !mention.isStackVar) = [] := by
    rw [List.filter_append, silent]
    rfl
  exact congrArg (List.cons Mention.memory) rest

/-- A call mentions its callee beside its result and its arguments. -/
theorem references_call (target : Option (Nat × ValueType)) (callee : Nat)
    {operands : List (CVar Scheme.applied)}
    (quiet : (operands.map CVar.mention).filter (fun mention => !mention.isStackVar) = []) :
    references (.basic (.call (target.map fun (index, type) => .stack index type) callee operands)
      .done) = [.entity (.func, callee)] := by
  rw [references, mentions, mentions, List.append_nil]
  cases target with
  | none => exact congrArg (List.cons _) quiet
  | some target => exact congrArg (List.cons _) quiet

theorem references_callIndirect (target : Option (Nat × ValueType)) (typeIndex index : Nat)
    (type : ValueType) {operands : List (CVar Scheme.applied)}
    (quiet : (operands.map CVar.mention).filter (fun mention => !mention.isStackVar) = []) :
    references (.basic (.callIndirect (target.map fun (index, type) => .stack index type) typeIndex
      (.stack index type) operands) .done) = [.table] := by
  rw [references, mentions, mentions, List.append_nil]
  cases target with
  | none => exact congrArg (List.cons _) quiet
  | some target => exact congrArg (List.cons _) quiet

theorem writeSimpleUnaryExpr_quiet (result : ValueType)
    {op : CExpr Scheme.applied -> CExpr Scheme.applied}
    (silent : forall index type, Silent (op (.var (.stack index type)))) :
    Quiet (writeSimpleUnaryExpr result op state) := by
  intro command after written
  simp only [writeSimpleUnaryExpr, Option.bind_eq_bind, Option.bind_eq_some_iff,
    Option.some.injEq, Prod.mk.injEq] at written
  rcases written with ⟨operand, found, _, _, rfl, _⟩
  rcases operand_stack found with ⟨index, type, rfl⟩
  exact references_assign _ _ (silent index type)

theorem writeInfixBinaryExpr_quiet (result : ValueType) (op : BinaryOp) (assignAllowed : Bool) :
    Quiet (writeInfixBinaryExpr result op assignAllowed state) := by
  intro command after written
  simp only [writeInfixBinaryExpr, Option.bind_eq_bind, Option.bind_eq_some_iff,
    Option.some.injEq, Prod.mk.injEq] at written
  rcases written with ⟨right, rightFound, chosen, assignment, _, _, rfl, _⟩
  rcases operand_stack rightFound with ⟨index, type, rfl⟩
  cases assignAllowed with
  | true =>
      cases assignment
      exact references_compound op _ _ rfl
  | false =>
      rcases Option.map_eq_some_iff.mp assignment with ⟨left, leftFound, rfl⟩
      rcases operand_stack leftFound with ⟨leftIndex, leftType, rfl⟩
      exact references_assign _ _ rfl

theorem writePrefixBinaryExpr_quiet (result : ValueType)
    {op : CExpr Scheme.applied -> CExpr Scheme.applied -> CExpr Scheme.applied}
    (silent : forall left leftType right rightType,
      Silent (op (.var (.stack left leftType)) (.var (.stack right rightType)))) :
    Quiet (writePrefixBinaryExpr result op state) := by
  intro command after written
  simp only [writePrefixBinaryExpr, Option.bind_eq_bind, Option.bind_eq_some_iff,
    Option.some.injEq, Prod.mk.injEq] at written
  rcases written with ⟨left, leftFound, right, rightFound, _, _, rfl, _⟩
  rcases operand_stack leftFound with ⟨leftIndex, leftType, rfl⟩
  rcases operand_stack rightFound with ⟨rightIndex, rightType, rfl⟩
  exact references_assign _ _ (silent leftIndex leftType rightIndex rightType)

theorem writeSignedBinaryExpr_quiet (result type : ValueType) (op : BinaryOp) :
    Quiet (writeSignedBinaryExpr result type op state) := by
  intro command after written
  simp only [writeSignedBinaryExpr, Option.bind_eq_bind, Option.bind_eq_some_iff,
    Option.some.injEq, Prod.mk.injEq] at written
  rcases written with ⟨signed, _, left, leftFound, right, rightFound, _, _, rfl, _⟩
  rcases operand_stack leftFound with ⟨leftIndex, leftType, rfl⟩
  rcases operand_stack rightFound with ⟨rightIndex, rightType, rfl⟩
  exact references_assign _ _ rfl

theorem maskedCount_silent {type : ValueType} {count : CExpr Scheme.applied}
    (masked : maskedCount type state = some count) : Silent count := by
  simp only [maskedCount, Option.bind_eq_bind, Option.bind_eq_some_iff, Option.some.injEq] at masked
  rcases masked with ⟨mask, _, right, rightFound, rfl⟩
  rcases operand_stack rightFound with ⟨index, type, rfl⟩
  rfl

theorem writeShift_quiet (type : ValueType) (op : BinaryOp) :
    Quiet (writeShift type op state) := by
  intro command after written
  simp only [writeShift, Option.bind_eq_bind, Option.bind_eq_some_iff, Option.some.injEq,
    Prod.mk.injEq] at written
  rcases written with ⟨left, leftFound, count, masked, _, _, rfl, _⟩
  rcases operand_stack leftFound with ⟨index, leftType, rfl⟩
  have silent := maskedCount_silent masked
  exact references_compound op _ _ silent

theorem writeSignedShift_quiet (type : ValueType) : Quiet (writeSignedShift type state) := by
  intro command after written
  simp only [writeSignedShift, Option.bind_eq_bind, Option.bind_eq_some_iff, Option.some.injEq,
    Prod.mk.injEq] at written
  rcases written with ⟨signed, _, left, leftFound, count, masked, _, _, rfl, _⟩
  rcases operand_stack leftFound with ⟨index, leftType, rfl⟩
  have silent := maskedCount_silent masked
  exact references_assign _ _ silent

theorem writeBinary_quiet (opcode : BinaryOpcode) : Quiet (writeBinary opcode state) := by
  cases opcode
  case i32Shl | i64Shl | i32ShrU | i64ShrU => exact writeShift_quiet _ _
  case i32ShrS | i64ShrS => exact writeSignedShift_quiet _
  case i32DivS | i64DivS | i32DivU | i64DivU | i32RemS | i64RemS | i32RemU | i64RemU | i32Rotl |
      i64Rotl | i32Rotr | i64Rotr | f32Min | f64Min | f32Max | f64Max | f32Copysign |
      f64Copysign =>
    exact writePrefixBinaryExpr_quiet _ fun _ _ _ _ => rfl
  all_goals exact writeInfixBinaryExpr_quiet _ _ _

theorem writeCompare_quiet (opcode : CompareOpcode) : Quiet (writeCompare opcode state) := by
  cases opcode
  case i32LtS | i64LtS | i32LeS | i64LeS | i32GtS | i64GtS | i32GeS | i64GeS =>
    exact writeSignedBinaryExpr_quiet _ _ _
  all_goals exact writeInfixBinaryExpr_quiet _ _ _

theorem single_eq_some {written : Written Scheme.applied} {code : Statements Scheme.applied}
    (found : single written = some (code, after)) :
    ∃ command, written = some (command, after) ∧ code = .basic command .done := by
  rcases Option.map_eq_some_iff.mp found with ⟨⟨command, final⟩, written, same⟩
  cases same
  exact ⟨command, written, rfl⟩

theorem single_quiet {written : Written Scheme.applied} (quiet : Quiet written)
    {code : Statements Scheme.applied} (found : single written = some (code, after)) :
    references code = [] := by
  rcases single_eq_some found with ⟨command, written, rfl⟩
  exact quiet command after written

theorem address_silent (index : Nat) (type : ValueType) (offset : BitVec 32) :
    Silent (address (.stack index type) offset) := by
  unfold address
  split <;> rfl

theorem arguments_quiet {first count : Nat} {operands : List (CVar Scheme.applied)}
    (found : arguments state first count = some operands) :
    (operands.map CVar.mention).filter (fun mention => !mention.isStackVar) = [] := by
  induction count generalizing operands with
  | zero => cases found; rfl
  | succ count inductionHypothesis =>
      simp only [arguments, Option.bind_eq_bind, Option.bind_eq_some_iff, Option.some.injEq]
        at found
      rcases found with ⟨operand, here, rest, later, rfl⟩
      rcases operand_stack here with ⟨index, type, rfl⟩
      have quiet := inductionHypothesis later
      exact quiet

/-- The statements of an expression mention what the expression does. -/
theorem references_branch {condition : CExpr Scheme.applied} (silent : Silent condition)
    (yes no rest : Statements Scheme.applied) :
    references (.branch condition yes no rest) =
      references yes ++ (references no ++ references rest) := by
  simp only [references, mentions, List.filter_append]
  rw [silent, List.nil_append]

theorem references_switch {scrutinee : CExpr Scheme.applied} (silent : Silent scrutinee)
    (body rest : Statements Scheme.applied) :
    references (.switch scrutinee body rest) = references body ++ references rest := by
  simp only [references, mentions, List.filter_append]
  rw [silent, List.nil_append]

theorem references_label (name : LabelName) (rest : Statements Scheme.applied) :
    references (.label name rest) = references rest := rfl

theorem labelDecl_references (name : LabelName) : references (labelDecl state name) = [] := by
  unfold labelDecl
  split <;> rfl

theorem exprReferences_loop {exprs : ExprList Scheme.applied} (nonempty : exprs ≠ .nil)
    (label : LabelName) (result : Option ValueType) (rest : ExprList Scheme.applied) :
    exprReferences (.loop label result exprs rest) =
      .define label :: (exprReferences exprs ++ exprReferences rest) := by
  cases exprs <;> first | rfl | exact absurd rfl nonempty

theorem copyResult_references {label : Label Scheme.applied} {code : Statements Scheme.applied}
    (copied : copyResult state label = some code) : references code = [] := by
  unfold copyResult at copied
  split at copied
  · cases copied; rfl
  · split at copied
    · cases copied; rfl
    · split at copied
      · cases copied
      · dsimp only at copied
        split at copied
        · cases copied; rfl
        · simp only [Option.bind_eq_bind, Option.bind_eq_some_iff, Option.some.injEq] at copied
          rcases copied with ⟨source, found, rfl⟩
          rcases operand_stack found with ⟨index, type, rfl⟩
          exact references_assign _ _ rfl

theorem writeGoto_references {var : LabelVar} {code : Statements Scheme.applied}
    (written : writeGoto var state = some (code, after)) :
    references code = [.goto (gotoName var)] := by
  simp only [writeGoto, Option.bind_eq_bind, Option.bind_eq_some_iff, Option.some.injEq,
    Prod.mk.injEq] at written
  rcases written with ⟨position, _, label, _, copy, copied, rfl, _⟩
  rw [references_append, copyResult_references copied]
  rfl

theorem writeCases_references {defaultTarget : LabelVar} {targets : List LabelVar} {number : Nat}
    {code : Statements Scheme.applied}
    (written : writeCases defaultTarget targets number state = some (code, after)) :
    references code = instrReferences (.brTable targets defaultTarget) := by
  induction targets generalizing number state code with
  | nil =>
      simp only [writeCases, Option.bind_eq_bind, Option.bind_eq_some_iff, Option.some.injEq,
        Prod.mk.injEq] at written
      rcases written with ⟨⟨goto, final⟩, jumps, rfl, _⟩
      have jumped := writeGoto_references jumps
      exact jumped
  | cons target targets inductionHypothesis =>
      simp only [writeCases, Option.bind_eq_bind, Option.bind_eq_some_iff, Option.some.injEq,
        Prod.mk.injEq] at written
      rcases written with ⟨⟨goto, middle⟩, jumps, ⟨rest, final⟩, later, rfl, rfl⟩
      change references (goto ++ rest) = _
      rw [references_append, writeGoto_references jumps, inductionHypothesis later]
      rfl

theorem writeInstr_references {context : Context} {instr : Instr Scheme.applied}
    {code : Statements Scheme.applied}
    (written : writeInstr context instr state = some (code, after)) :
    references code = instrReferences instr := by
  cases instr with
  | binary opcode => exact single_quiet (writeBinary_quiet opcode) written
  | compare opcode => exact single_quiet (writeCompare_quiet opcode) written
  | convert opcode =>
      exact single_quiet (writeSimpleUnaryExpr_quiet _ (convertOperator_silent opcode)) written
  | unary opcode =>
      exact single_quiet (writeSimpleUnaryExpr_quiet _ (unaryOperator_silent opcode)) written
  | load opcode offset =>
      rcases single_eq_some written with ⟨command, made, rfl⟩
      simp only [writeLoad, Option.bind_eq_bind, Option.bind_eq_some_iff, Option.some.injEq,
        Prod.mk.injEq] at made
      rcases made with ⟨base, found, _, _, rfl, _⟩
      rcases operand_stack found with ⟨index, type, rfl⟩
      exact references_load (address_silent index type offset)
  | store opcode offset =>
      rcases single_eq_some written with ⟨command, made, rfl⟩
      simp only [writeStore, Option.bind_eq_bind, Option.bind_eq_some_iff, Option.some.injEq,
        Prod.mk.injEq] at made
      rcases made with ⟨base, found, value, valueFound, _, _, rfl, _⟩
      rcases operand_stack found with ⟨index, type, rfl⟩
      rcases operand_stack valueFound with ⟨valueIndex, valueType, rfl⟩
      exact references_store (address_silent index type offset)
  | const value =>
      cases written
      exact references_assign _ _ (constant_silent value)
  | drop =>
      rcases Option.map_eq_some_iff.mp written with ⟨final, _, same⟩
      cases same
      rfl
  | select =>
      rcases single_eq_some written with ⟨command, made, rfl⟩
      simp only [writeSelect, Option.bind_eq_bind, Option.bind_eq_some_iff, Option.some.injEq,
        Prod.mk.injEq] at made
      rcases made with ⟨type, _, condition, conditionFound, right, rightFound, left, leftFound,
        _, _, rfl, _⟩
      rcases operand_stack conditionFound with ⟨_, _, rfl⟩
      rcases operand_stack rightFound with ⟨_, _, rfl⟩
      rcases operand_stack leftFound with ⟨_, _, rfl⟩
      rfl
  | getLocal var | getGlobal var =>
      simp only [writeInstr, Option.bind_eq_bind, Option.bind_eq_some_iff] at written
      rcases written with ⟨type, _, written⟩
      cases written
      rfl
  | setLocal var | setGlobal var =>
      rcases single_eq_some written with ⟨command, made, rfl⟩
      simp only [writePop, Option.bind_eq_bind, Option.bind_eq_some_iff, Option.some.injEq,
        Prod.mk.injEq] at made
      rcases made with ⟨source, found, _, _, rfl, _⟩
      rcases operand_stack found with ⟨index, type, rfl⟩
      rfl
  | teeLocal var =>
      simp only [writeInstr, Option.bind_eq_bind, Option.bind_eq_some_iff] at written
      rcases written with ⟨source, found, written⟩
      rcases operand_stack found with ⟨index, type, rfl⟩
      cases written
      rfl
  | memorySize =>
      cases written
      rfl
  | memoryGrow =>
      simp only [writeInstr, Option.bind_eq_bind, Option.bind_eq_some_iff] at written
      rcases written with ⟨argument, found, written⟩
      rcases operand_stack found with ⟨index, type, rfl⟩
      cases written
      rfl
  | nop =>
      cases written
      rfl
  | call var =>
      rcases single_eq_some written with ⟨command, made, rfl⟩
      simp only [writeCall, Option.bind_eq_bind, Option.bind_eq_some_iff, Option.some.injEq,
        Prod.mk.injEq] at made
      rcases made with ⟨signature, _, operands, found, _, _, rfl, _⟩
      cases signature.result with
      | none => exact references_call .none var (arguments_quiet found)
      | some type => exact references_call (.some (_, type)) var (arguments_quiet found)
  | callIndirect typeIndex =>
      rcases single_eq_some written with ⟨command, made, rfl⟩
      simp only [writeCallIndirect, Option.bind_eq_bind, Option.bind_eq_some_iff,
        Option.some.injEq, Prod.mk.injEq] at made
      rcases made with ⟨signature, _, callee, calleeFound, operands, found, _, _, rfl, _⟩
      rcases operand_stack calleeFound with ⟨index, type, rfl⟩
      cases signature.result with
      | none => exact references_callIndirect .none typeIndex index type (arguments_quiet found)
      | some result =>
          exact references_callIndirect (.some (_, result)) typeIndex index type
            (arguments_quiet found)
  | brIf var =>
      simp only [writeInstr, Option.bind_eq_bind, Option.bind_eq_some_iff, Option.some.injEq,
        Prod.mk.injEq] at written
      rcases written with ⟨condition, found, _, _, ⟨goto, final⟩, jumps, rfl, _⟩
      rcases operand_stack found with ⟨index, type, rfl⟩
      rw [references_branch (variable_silent index type), writeGoto_references jumps]
      rfl
  | br var => cases written
  | brTable targets defaultTarget => cases written
  | ret => cases written
  | unreachable => cases written

/-- The references in the output are those of the expressions that are written,
in their order. -/
theorem writeExprList_references {context : Context} {exprs : ExprList Scheme.applied}
    {code : Statements Scheme.applied}
    (written : writeExprList context exprs state = some (code, after)) :
    references code = exprReferences exprs := by
  induction exprs generalizing state after code with
  | nil =>
      cases written
      rfl
  | instr first rest inductionHypothesis =>
      by_cases falls : endsList first = false
      · simp only [writeExprList_instr falls, Option.bind_eq_bind, Option.bind_eq_some_iff,
          Option.some.injEq, Prod.mk.injEq] at written
        rcases written with ⟨⟨here, middle⟩, now, ⟨later, final⟩, then_, rfl, rfl⟩
        rw [references_append, writeInstr_references now, inductionHypothesis then_,
          exprReferences, falls]
        rfl
      · rw [Bool.not_eq_false] at falls
        rw [exprReferences, falls, if_pos rfl, List.append_nil]
        cases first with
        | br var => exact writeGoto_references written
        | brTable targets defaultTarget =>
            simp only [writeExprList, Option.bind_eq_bind, Option.bind_eq_some_iff,
              Option.some.injEq, Prod.mk.injEq] at written
            rcases written with ⟨scrutinee, found, _, _, ⟨body, final⟩, cases_, rfl, _⟩
            rcases operand_stack found with ⟨index, type, rfl⟩
            rw [references_switch (variable_silent index type), writeCases_references cases_,
              references_done, List.append_nil]
        | ret => exact writeGoto_references written
        | unreachable =>
            cases written
            rfl
        | _ => cases falls
  | block label result exprs rest exprsHypothesis restHypothesis =>
      simp only [writeExprList, Option.bind_eq_bind, Option.bind_eq_some_iff, Option.some.injEq,
        Prod.mk.injEq] at written
      rcases written with ⟨⟨body, inner⟩, bodyWritten, _, _, ⟨later, final⟩, laterWritten, rfl, _⟩
      rw [references_basic, references_append, references_append, labelDecl_references,
        exprsHypothesis bodyWritten, restHypothesis laterWritten]
      rfl
  | loop label result exprs rest exprsHypothesis restHypothesis =>
      by_cases empty : exprs = .nil
      · subst empty
        exact restHypothesis written
      · simp only [writeExprList_loop empty, Option.bind_eq_bind, Option.bind_eq_some_iff,
          Option.some.injEq, Prod.mk.injEq] at written
        rcases written with ⟨⟨body, inner⟩, bodyWritten, _, _, ⟨later, final⟩, laterWritten, rfl, _⟩
        rw [references_basic, references_label, references_append, exprsHypothesis bodyWritten,
          restHypothesis laterWritten, exprReferences_loop empty]
        rfl
  | ite label result yes no rest yesHypothesis noHypothesis restHypothesis =>
      simp only [writeExprList_ite, Option.bind_eq_bind, Option.bind_eq_some_iff,
        Option.some.injEq, Prod.mk.injEq] at written
      rcases written with ⟨condition, found, _, _, ⟨yesCode, inner⟩, yesWritten, ⟨noCode, _⟩,
        noWritten, _, _, ⟨later, final⟩, laterWritten, rfl, _⟩
      rcases operand_stack found with ⟨index, type, rfl⟩
      have noReferences : references noCode = exprReferences no := by
        cases no with
        | nil =>
            cases noWritten
            rfl
        | _ =>
            simp only [writeElse, Option.bind_eq_bind, Option.bind_eq_some_iff] at noWritten
            rcases noWritten with ⟨_, _, noWritten⟩
            exact noHypothesis noWritten
      rw [references_branch (variable_silent index type), references_basic, references_append,
        labelDecl_references, yesHypothesis yesWritten, noReferences, restHypothesis laterWritten]
      rfl

/-- The references in a function are those of its body. -/
theorem writeFunc_references {context : Context} {result : Option ValueType}
    {exprs : ExprList Scheme.applied} {code : Statements Scheme.applied}
    {returned : Option (CVar Scheme.applied)}
    (written : writeFunc context result exprs = some (code, returned)) :
    references code = exprReferences exprs := by
  simp only [writeFunc, Option.bind_eq_bind, Option.bind_eq_some_iff, Option.some.injEq,
    Prod.mk.injEq] at written
  rcases written with ⟨⟨body, final⟩, bodyWritten, rfl, _⟩
  rw [references_append, labelDecl_references, List.append_nil,
    writeExprList_references bodyWritten]

end CWriter
end WasmSandboxing
