import WasmSandboxing.Text.Ir

namespace WasmSandboxing
namespace Text

/-!
# Expression visitor

`ExprVisitor`: a pass gives callbacks, which may change the expression that
they are called for, and the visitor calls them in the order of the text.  A
callback that fails ends the visit, and the expressions behind it stay.
-/

/-- What a callback or a visit does: whether it succeeds, the visited part as it
is afterwards, and the state of the pass. -/
abbrev Visit (State Part : Type) := State -> Bool × Part × State

namespace Visit

variable {State Part Next Result : Type}

/-- A callback that cannot fail. -/
def succeed (action : StateM State Part) : Visit State Part := fun state =>
  (true, action state)

/-- `CHECK_RESULT`: go on, or keep the part that has not been visited. -/
def check (visit : Visit State Part) (unvisited : Next) (next : Visit State Next) :
    Visit State (Part × Next) := fun state =>
  match visit state with
  | (true, part, state) =>
      let (ok, result, state) := next state
      (ok, (part, result), state)
  | (false, part, state) => (false, (part, unvisited), state)

def map (change : Part -> Result) (visit : Visit State Part) : Visit State Result := fun state =>
  let (ok, part, state) := visit state
  (ok, change part, state)

theorem check_of {visit : Visit State Part} {next : Visit State Next} {unvisited : Next}
    {state middle last : State} {part : Part} {ok : Bool} {result : Next}
    (first : visit state = (true, part, middle)) (second : next middle = (ok, result, last)) :
    visit.check unvisited next state = (ok, (part, result), last) := by
  simp only [check, first, second]

theorem map_of {visit : Visit State Part} {change : Part -> Result} {state last : State}
    {part : Part} {ok : Bool} (done : visit state = (ok, part, last)) :
    visit.map change state = (ok, change part, last) := by
  simp only [map, done]

end Visit

/-- `ExprVisitor::Delegate`.  The callbacks between the two lists of an
expression do nothing in any pass. -/
structure Delegate (State : Type) where
  onInstr : Instr -> Visit State Instr
  beginBody : BodyType -> Block -> Visit State Block
  beginArms : ArmsType -> Block -> Visit State (ArmsType × Block)
  endExpr : Visit State Unit

namespace ExprVisitor

variable {State : Type}

/-- `VisitExprList`. -/
def visitExprList (delegate : Delegate State) : ExprList -> Visit State ExprList
  | .nil => fun state => (true, .nil, state)
  | .instr first rest =>
      ((delegate.onInstr first).check rest (visitExprList delegate rest)).map
        fun (first, rest) => .instr first rest
  | .body type block exprs rest =>
      ((delegate.beginBody type block).check (exprs, rest)
        ((visitExprList delegate exprs).check rest
          ((delegate.endExpr.check rest (visitExprList delegate rest)).map Prod.snd))).map
        fun (block, exprs, rest) => .body type block exprs rest
  | .arms type block first second rest =>
      ((delegate.beginArms type block).check (first, second, rest)
        ((visitExprList delegate first).check (second, rest)
          ((visitExprList delegate second).check rest
            ((delegate.endExpr.check rest (visitExprList delegate rest)).map Prod.snd)))).map
        fun ((type, block), first, second, rest) => .arms type block first second rest

end ExprVisitor

end Text
end WasmSandboxing
