import WasmSandboxing.Foundation.Machine

namespace WasmSandboxing
namespace Wasm
namespace Visitor

open Foundation

/-!
# The expression visitor and its stacks

`expr-visitor.cc`.  The visitor keeps three stacks in place of a recursion: a
state and an expression for everything that is being visited, and an iterator
for those that have entered a list of expressions.  The top of a stack is the
front of its list here, and an iterator is what is left of the list.

A delegate keeps a state of its own, which also stands for the fields of the
expressions that it may change; their lists are changed by none.
-/

/-- The types of the expressions that have no list of expressions. -/
inductive LeafType where
  | atomicLoad | atomicRmw | atomicRmwCmpxchg | atomicStore | atomicWait | atomicWake | binary
  | br | brIf | brTable | call | callIndirect | compare | const | convert | drop | getGlobal
  | getLocal | load | memoryGrow | memorySize | nop | rethrow | return_ | select | setGlobal
  | setLocal | simdLaneOp | simdShuffleOp | store | teeLocal | ternary | throw | unary
  | unreachable
  deriving DecidableEq, Repr

mutual

/-- `Expr`; `node` is what tells an expression from others of its form. -/
inductive Expr (Node : Type) where
  | leaf (type : LeafType) (node : Node)
  | block (node : Node) (exprs : ExprList Node)
  | loop (node : Node) (exprs : ExprList Node)
  | if_ (node : Node) (true_ false_ : ExprList Node)
  | ifExcept (node : Node) (true_ false_ : ExprList Node)
  | try_ (node : Node) (exprs catch_ : ExprList Node)

/-- `ExprList` -/
inductive ExprList (Node : Type) where
  | nil
  | cons (first : Expr Node) (rest : ExprList Node)

end

/-- The virtual functions of `ExprVisitor::Delegate`. -/
inductive Callback where
  | on (type : LeafType)
  | beginBlockExpr | endBlockExpr
  | beginLoopExpr | endLoopExpr
  | beginIfExpr | afterIfTrueExpr | endIfExpr
  | beginIfExceptExpr | afterIfExceptTrueExpr | endIfExceptExpr
  | beginTryExpr | onCatchExpr | endTryExpr
  deriving DecidableEq, Repr

/-- `Result` -/
inductive Result where
  | ok | error
  deriving DecidableEq, Repr

abbrev Call (Node : Type) := Callback × Expr Node

/-- `ExprVisitor::Delegate` -/
abbrev Delegate (Node Own : Type) := Call Node -> Own -> Result × Own

variable {Node Own : Type}

/-! ## The structural recursion -/

/-- The delegate is called with one after the other until it fails. -/
def Delegate.answers (delegate : Delegate Node Own) : List (Call Node) -> Own -> Result × Own
  | [], own => (.ok, own)
  | call :: rest, own =>
      match delegate call own with
      | (.ok, next) => answers delegate rest next
      | (.error, next) => (.error, next)

/-- What is called between the lists of a try expression. -/
def catchCalls (expr : Expr Node) : ExprList Node -> List (Call Node)
  | .nil => []
  | .cons _ _ => [(.onCatchExpr, expr)]

mutual

/-- The calls that an expression takes. -/
def Expr.calls : Expr Node -> List (Call Node)
  | .leaf type node => [(.on type, .leaf type node)]
  | .block node exprs =>
      [(.beginBlockExpr, .block node exprs)] ++ exprs.calls ++ [(.endBlockExpr, .block node exprs)]
  | .loop node exprs =>
      [(.beginLoopExpr, .loop node exprs)] ++ exprs.calls ++ [(.endLoopExpr, .loop node exprs)]
  | .if_ node true_ false_ =>
      [(.beginIfExpr, .if_ node true_ false_)] ++ true_.calls ++
        ([(.afterIfTrueExpr, .if_ node true_ false_)] ++ false_.calls) ++
        [(.endIfExpr, .if_ node true_ false_)]
  | .ifExcept node true_ false_ =>
      [(.beginIfExceptExpr, .ifExcept node true_ false_)] ++ true_.calls ++
        ([(.afterIfExceptTrueExpr, .ifExcept node true_ false_)] ++ false_.calls) ++
        [(.endIfExceptExpr, .ifExcept node true_ false_)]
  | .try_ node exprs catch_ =>
      [(.beginTryExpr, .try_ node exprs catch_)] ++ exprs.calls ++
        (catchCalls (.try_ node exprs catch_) catch_ ++ catch_.calls) ++
        [(.endTryExpr, .try_ node exprs catch_)]

def ExprList.calls : ExprList Node -> List (Call Node)
  | .nil => []
  | .cons first rest => first.calls ++ rest.calls

end

/-! ## The stacks -/

inductive State where
  | default | block | ifTrue | ifFalse | ifExceptTrue | ifExceptFalse | loop | try_ | catch_
  deriving DecidableEq, Repr

/-- `ExprVisitor` -/
structure ExprVisitor (Node : Type) where
  stateStack : List State
  exprStack : List (Expr Node)
  exprIterStack : List (ExprList Node)

namespace ExprVisitor

def cleared : ExprVisitor Node := ⟨[], [], []⟩

def pushDefault (visitor : ExprVisitor Node) (expr : Expr Node) : ExprVisitor Node :=
  { visitor with
    stateStack := .default :: visitor.stateStack
    exprStack := expr :: visitor.exprStack }

def popDefault (visitor : ExprVisitor Node) : ExprVisitor Node :=
  { visitor with
    stateStack := visitor.stateStack.tail
    exprStack := visitor.exprStack.tail }

def pushExprlist (visitor : ExprVisitor Node) (state : State) (expr : Expr Node)
    (exprList : ExprList Node) : ExprVisitor Node where
  stateStack := state :: visitor.stateStack
  exprStack := expr :: visitor.exprStack
  exprIterStack := exprList :: visitor.exprIterStack

def popExprlist (visitor : ExprVisitor Node) : ExprVisitor Node where
  stateStack := visitor.stateStack.tail
  exprStack := visitor.exprStack.tail
  exprIterStack := visitor.exprIterStack.tail

/-- `iter++` at the top iterator. -/
def setIter (visitor : ExprVisitor Node) (iter : ExprList Node) : ExprVisitor Node :=
  { visitor with exprIterStack := iter :: visitor.exprIterStack.tail }

end ExprVisitor

/-- What a visit ends with; `none` where a stack is read that has nothing or an
expression is cast to what it is not. -/
abbrev Outcome (Node Own : Type) := Option (Result × ExprVisitor Node × Own)

abbrev Config (Node Own : Type) := ExprVisitor Node × Own

/-- `CHECK_RESULT` of a call -/
def check (delegate : Delegate Node Own) (call : Call Node) (visitor next : ExprVisitor Node)
    (own : Own) : Progress (Config Node Own) (Outcome Node Own) :=
  match delegate call own with
  | (.ok, after) => .running (next, after)
  | (.error, after) => .ended (some (.error, visitor, after))

/-- `HandleDefaultState` -/
def handleDefaultState (delegate : Delegate Node Own) (visitor : ExprVisitor Node)
    (expr : Expr Node) (own : Own) : Progress (Config Node Own) (Outcome Node Own) :=
  match expr with
  | .leaf type _node => check delegate (.on type, expr) visitor visitor own
  | .block _node exprs =>
      check delegate (.beginBlockExpr, expr) visitor (visitor.pushExprlist .block expr exprs) own
  | .if_ _node true_ _false =>
      check delegate (.beginIfExpr, expr) visitor (visitor.pushExprlist .ifTrue expr true_) own
  | .ifExcept _node true_ _false =>
      check delegate (.beginIfExceptExpr, expr) visitor
        (visitor.pushExprlist .ifExceptTrue expr true_) own
  | .loop _node exprs =>
      check delegate (.beginLoopExpr, expr) visitor (visitor.pushExprlist .loop expr exprs) own
  | .try_ _node exprs _catch =>
      check delegate (.beginTryExpr, expr) visitor (visitor.pushExprlist .try_ expr exprs) own

/-- What a state does at the end of its list, for an expression of its type. -/
def handleEnd (delegate : Delegate Node Own) (visitor : ExprVisitor Node) (state : State)
    (expr : Expr Node) (own : Own) : Progress (Config Node Own) (Outcome Node Own) :=
  match state, expr with
  | .block, .block _node _exprs =>
      check delegate (.endBlockExpr, expr) visitor visitor.popExprlist own
  | .ifTrue, .if_ _node _true false_ =>
      check delegate (.afterIfTrueExpr, expr) visitor
        (visitor.popExprlist.pushExprlist .ifFalse expr false_) own
  | .ifFalse, .if_ _node _true _false =>
      check delegate (.endIfExpr, expr) visitor visitor.popExprlist own
  | .ifExceptTrue, .ifExcept _node _true false_ =>
      check delegate (.afterIfExceptTrueExpr, expr) visitor
        (visitor.popExprlist.pushExprlist .ifExceptFalse expr false_) own
  | .ifExceptFalse, .ifExcept _node _true _false =>
      check delegate (.endIfExceptExpr, expr) visitor visitor.popExprlist own
  | .loop, .loop _node _exprs =>
      check delegate (.endLoopExpr, expr) visitor visitor.popExprlist own
  | .try_, .try_ _node _exprs .nil =>
      check delegate (.endTryExpr, expr) visitor visitor.popExprlist own
  | .try_, .try_ _node _exprs (.cons first rest) =>
      check delegate (.onCatchExpr, expr) visitor
        (visitor.popExprlist.pushExprlist .catch_ expr (.cons first rest)) own
  | .catch_, .try_ _node _exprs _catch =>
      check delegate (.endTryExpr, expr) visitor visitor.popExprlist own
  | _, _ => .ended none

/-- One round of the loop of `VisitExpr`. -/
def round (delegate : Delegate Node Own) :
    Config Node Own -> Progress (Config Node Own) (Outcome Node Own)
  | (visitor, own) =>
      match visitor.stateStack, visitor.exprStack with
      | [], _ => .ended (some (.ok, visitor, own))
      | .default :: _, expr :: _ => handleDefaultState delegate visitor.popDefault expr own
      | state :: _, expr :: _ =>
          match visitor.exprIterStack with
          | .cons first rest :: _ => .running ((visitor.setIter rest).pushDefault first, own)
          | .nil :: _ => handleEnd delegate visitor state expr own
          | [] => .ended none
      | _ :: _, [] => .ended none

def visiting (delegate : Delegate Node Own) : Machine (Config Node Own) (Outcome Node Own) :=
  ⟨round delegate⟩

/-- `VisitExpr`, of which the first rounds are taken. -/
def visitExpr (delegate : Delegate Node Own) (rounds : Nat) (rootExpr : Expr Node) (own : Own) :
    Progress (Config Node Own) (Outcome Node Own) :=
  (visiting delegate).run rounds (ExprVisitor.cleared.pushDefault rootExpr, own)

/-- `VisitExprList`, of each of whose visits the first rounds are taken. -/
def visitExprList (delegate : Delegate Node Own) (rounds : Nat) :
    ExprList Node -> Config Node Own -> Progress (Config Node Own) (Outcome Node Own)
  | .nil, (visitor, own) => .ended (some (.ok, visitor, own))
  | .cons first rest, (_visitor, own) =>
      match visitExpr delegate rounds first own with
      | .ended (some (.ok, visitor, own)) => visitExprList delegate rounds rest (visitor, own)
      | stopped => stopped

/-! ## The stacks make the calls of the recursion -/

section Answers

variable {delegate : Delegate Node Own} {calls later : List (Call Node)} {own middle after : Own}

theorem answers_append_ok (answered : delegate.answers calls own = (.ok, middle)) :
    delegate.answers (calls ++ later) own = delegate.answers later middle := by
  induction calls generalizing own with
  | nil =>
      cases answered
      rfl
  | cons call rest inductionHypothesis =>
      rw [Delegate.answers] at answered
      rw [List.cons_append, Delegate.answers]
      split at answered
      · exact inductionHypothesis answered
      · cases answered

theorem answers_append_error (failed : delegate.answers calls own = (.error, after)) :
    delegate.answers (calls ++ later) own = (.error, after) := by
  induction calls generalizing own with
  | nil => cases failed
  | cons call rest inductionHypothesis =>
      rw [Delegate.answers] at failed
      rw [List.cons_append, Delegate.answers]
      split at failed
      · exact inductionHypothesis failed
      · exact failed

end Answers

/-- The visitor comes from one position of its stacks to another by the calls,
or ends with the error of the first one that fails. -/
structure Runs (delegate : Delegate Node Own) (source : ExprVisitor Node)
    (calls : List (Call Node)) (target : ExprVisitor Node) : Prop where
  reaches : forall own after, delegate.answers calls own = (.ok, after) ->
    (visiting delegate).Reaches 0 (source, own) (target, after)
  fails : forall own after, delegate.answers calls own = (.error, after) ->
    ∃ visitor, (visiting delegate).Ends (source, own) (some (.error, visitor, after))

section Runs

variable {delegate : Delegate Node Own} {source middle target popped : ExprVisitor Node}
  {calls later : List (Call Node)} {call : Call Node}

theorem Runs.trans (first : Runs delegate source calls middle)
    (second : Runs delegate middle later target) :
    Runs delegate source (calls ++ later) target := by
  constructor
  · intro own after answered
    rcases answers : delegate.answers calls own with ⟨result, between⟩
    cases result with
    | ok =>
        rw [answers_append_ok answers] at answered
        exact (first.reaches own between answers).trans (second.reaches between after answered)
    | error =>
        rw [answers_append_error answers] at answered
        cases answered
  · intro own after failed
    rcases answers : delegate.answers calls own with ⟨result, between⟩
    cases result with
    | ok =>
        rw [answers_append_ok answers] at failed
        rcases second.fails between after failed with ⟨visitor, ends⟩
        exact ⟨visitor, (first.reaches own between answers).ends ends⟩
    | error =>
        rw [answers_append_error answers] at failed
        cases failed
        exact first.fails own after answers

/-- A round without a call. -/
theorem runs_of_silent
    (silent : forall own, round delegate (source, own) = .running (target, own)) :
    Runs delegate source [] target := by
  constructor
  · intro own after answered
    cases answered
    exact (Machine.Reaches.step (silent own)).weaken (Nat.zero_le 1)
  · intro own after failed
    cases failed

/-- A round with one call. -/
theorem runs_of_call
    (calls : forall own, round delegate (source, own) = check delegate call popped target own) :
    Runs delegate source [call] target := by
  constructor
  · intro own after answered
    rw [Delegate.answers] at answered
    split at answered
    · rename_i next answer
      cases answered
      refine (Machine.Reaches.step ?_).weaken (Nat.zero_le 1)
      exact (calls own).trans (by rw [check, answer])
    · cases answered
  · intro own after failed
    rw [Delegate.answers] at failed
    split at failed
    · cases failed
    · rename_i next answer
      cases failed
      exact ⟨popped, Machine.Ends.step ((calls own).trans (by rw [check, answer]))⟩

/-- A round that takes the next expression of a list. -/
theorem runs_next (delegate : Delegate Node Own) (below : ExprVisitor Node) {state : State}
    (entered : state ≠ .default) (expr first : Expr Node) (rest : ExprList Node) :
    Runs delegate (below.pushExprlist state expr (.cons first rest)) []
      ((below.pushExprlist state expr rest).pushDefault first) := by
  refine runs_of_silent fun own => ?_
  cases state with
  | default => exact absurd rfl entered
  | _ => rfl

/-- An expression with one list. -/
theorem runs_body {below : ExprVisitor Node} {state : State} {expr : Expr Node}
    {exprs : ExprList Node} {begins ends : Callback}
    (enters : forall own, round delegate (below.pushDefault expr, own) =
      check delegate (begins, expr) below (below.pushExprlist state expr exprs) own)
    (visits : Runs delegate (below.pushExprlist state expr exprs) exprs.calls
      (below.pushExprlist state expr .nil))
    (leaves : forall own, round delegate (below.pushExprlist state expr .nil, own) =
      check delegate (ends, expr) (below.pushExprlist state expr .nil) below own) :
    Runs delegate (below.pushDefault expr)
      ([(begins, expr)] ++ exprs.calls ++ [(ends, expr)]) below :=
  ((runs_of_call enters).trans visits).trans (runs_of_call leaves)

/-- An expression with two lists, both of which are visited. -/
theorem runs_arms {below : ExprVisitor Node} {first second : State} {expr : Expr Node}
    {exprs others : ExprList Node} {begins turns ends : Callback}
    (enters : forall own, round delegate (below.pushDefault expr, own) =
      check delegate (begins, expr) below (below.pushExprlist first expr exprs) own)
    (visits : Runs delegate (below.pushExprlist first expr exprs) exprs.calls
      (below.pushExprlist first expr .nil))
    (between : forall own, round delegate (below.pushExprlist first expr .nil, own) =
      check delegate (turns, expr) (below.pushExprlist first expr .nil)
        (below.pushExprlist second expr others) own)
    (visitsOthers : Runs delegate (below.pushExprlist second expr others) others.calls
      (below.pushExprlist second expr .nil))
    (leaves : forall own, round delegate (below.pushExprlist second expr .nil, own) =
      check delegate (ends, expr) (below.pushExprlist second expr .nil) below own) :
    Runs delegate (below.pushDefault expr)
      ([(begins, expr)] ++ exprs.calls ++ ([(turns, expr)] ++ others.calls) ++ [(ends, expr)])
      below :=
  (((runs_of_call enters).trans visits).trans ((runs_of_call between).trans visitsOthers)).trans
    (runs_of_call leaves)

end Runs

mutual

/-- An expression on top of the stacks takes its calls and leaves what is below. -/
theorem Expr.runs (delegate : Delegate Node Own) (below : ExprVisitor Node) :
    forall expr : Expr Node, Runs delegate (below.pushDefault expr) expr.calls below
  | .leaf _type _node => runs_of_call fun _own => rfl
  | .block _node exprs =>
      runs_body (fun _own => rfl) (exprs.runs delegate below (by decide) _) (fun _own => rfl)
  | .loop _node exprs =>
      runs_body (fun _own => rfl) (exprs.runs delegate below (by decide) _) (fun _own => rfl)
  | .if_ _node true_ false_ =>
      runs_arms (fun _own => rfl) (true_.runs delegate below (by decide) _) (fun _own => rfl)
        (false_.runs delegate below (by decide) _) (fun _own => rfl)
  | .ifExcept _node true_ false_ =>
      runs_arms (fun _own => rfl) (true_.runs delegate below (by decide) _) (fun _own => rfl)
        (false_.runs delegate below (by decide) _) (fun _own => rfl)
  | .try_ node exprs .nil => by
      have body : Runs delegate (below.pushDefault (.try_ node exprs .nil))
          ([(.beginTryExpr, .try_ node exprs .nil)] ++ exprs.calls ++
            [(.endTryExpr, .try_ node exprs .nil)]) below :=
        runs_body (fun _own => rfl) (exprs.runs delegate below (by decide) _) (fun _own => rfl)
      rw [Expr.calls, catchCalls, ExprList.calls, List.append_nil, List.append_nil]
      exact body
  | .try_ _node exprs (.cons first rest) =>
      runs_arms (fun _own => rfl) (exprs.runs delegate below (by decide) _) (fun _own => rfl)
        ((ExprList.cons first rest).runs delegate below (by decide) _) (fun _own => rfl)

/-- The list of a state takes the calls of its expressions. -/
theorem ExprList.runs (delegate : Delegate Node Own) (below : ExprVisitor Node) {state : State}
    (entered : state ≠ .default) (expr : Expr Node) :
    forall exprs : ExprList Node, Runs delegate (below.pushExprlist state expr exprs) exprs.calls
      (below.pushExprlist state expr .nil)
  | .nil =>
      { reaches := fun own after answered => by
          cases answered
          exact Machine.Reaches.refl _
        fails := fun _own _after failed => by cases failed }
  | .cons first rest =>
      (runs_next delegate below entered expr first rest).trans
        ((first.runs delegate _).trans (rest.runs delegate below entered expr))

end

end Visitor
end Wasm
end WasmSandboxing
