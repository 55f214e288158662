import WasmSandboxing.Binary.Nesting

namespace WasmSandboxing
namespace Binary

open Foundation

/-!
# The labels of one body

While a body is read that was begun without a label, the labels are the
constructs that the scan has open and the function's own one below them.  Each
label but that one points into the last expression of the list below.
-/

/-- The constructs with two lists. -/
def ConstructType.hasArms : ConstructType -> Bool
  | .block | .loop => false
  | .if_ | .ifExcept | .try_ => true

/-- A label points at a list of the expression that it was entered with. -/
def LabelNode.HeldBy (label : LabelNode) (size : Nat) : Expr -> Prop
  | .leaf _ _ => False
  | .block instr _ exprs =>
      exists type : ConstructType, instr.callback = .construct type ∧ type.hasArms = false ∧
        label = ⟨type.label, exprs⟩
  | .arms instr _ first second =>
      first < second ∧ second < size ∧
        exists type : ConstructType, instr.callback = .construct type ∧ type.hasArms = true ∧
          (label = ⟨type.label, first⟩ ∨ exists middle after,
            type.label.secondArm middle = some after ∧ label = ⟨after, second⟩)

/-- The labels of a body: the function's own, and above it labels that are held
by the last expression of the list below. -/
inductive Entered (lists : List (List Expr)) : List LabelNode -> Prop where
  | func {exprs : Nat} (allocated : exprs < lists.length) : Entered lists [⟨.func, exprs⟩]
  | label {label parent : LabelNode} {rest : List LabelNode} {holder : Expr}
      (found : lists[parent.exprs]?.bind List.getLast? = some holder)
      (held : label.HeldBy lists.length holder) (above : parent.exprs < label.exprs)
      (allocated : label.exprs < lists.length) (outer : Entered lists (parent :: rest)) :
      Entered lists (label :: parent :: rest)

/-- Every list belongs to one function: what is in it satisfies `own` of that
function, and points at lists of the same function. -/
structure Owned (own : Nat -> Instr -> Nat -> Prop) (owner : Nat -> Nat) (funcs : List Nat)
    (lists : List (List Expr)) : Prop where
  exprs : forall {list : Nat} {exprs : List Expr} {expr : Expr}, lists[list]? = some exprs ->
    expr ∈ exprs -> own (owner list) expr.instr expr.loc ∧
      forall inner, inner ∈ expr.lists -> inner < lists.length ∧ owner inner = owner list
  funcs : forall {index list : Nat}, funcs[index]? = some list ->
    list < lists.length ∧ owner list = index

/-- Between two bodies there is no label. -/
structure Between (own : Nat -> Instr -> Nat -> Prop) (funcs : List Nat) (ir : BinaryReaderIR) :
    Prop where
  noLabel : ir.labelStack = []
  sameFuncs : ir.funcs = funcs
  owned : exists owner, Owned own owner funcs ir.lists

/-- In the body of the function `index`, with these constructs open. -/
structure Reading (own : Nat -> Instr -> Nat -> Prop) (funcs : List Nat) (index : Nat)
    (opened : List LabelType) (ir : BinaryReaderIR) : Prop where
  sameFuncs : ir.funcs = funcs
  types : ir.labelStack.map LabelNode.labelType = opened ++ [.func]
  entered : Entered ir.lists ir.labelStack
  owned : exists owner, Owned own owner funcs ir.lists ∧
    forall label, label ∈ ir.labelStack -> owner label.exprs = index

variable {own : Nat -> Instr -> Nat -> Prop} {funcs : List Nat} {index : Nat}
variable {opened : List LabelType}
variable {ir : BinaryReaderIR} {instr : Instr} {offset : Nat}

/-! ## The tree of a function -/

/-- What is in the tree under a list satisfies `own` of the list's function. -/
theorem Owned.tree {owner : Nat -> Nat} {funcs : List Nat} {lists : List (List Expr)}
    (owned : Owned own owner funcs lists) {list : Nat} {expr : Expr}
    (inTree : InTree lists list expr) : own (owner list) expr.instr expr.loc := by
  induction inTree with
  | here found isMember => exact (owned.exprs found isMember).1
  | within found isMember held _ inductionHypothesis =>
      rw [← ((owned.exprs found isMember).2 _ held).2]
      exact inductionHypothesis

/-! ## Labels under changes of the lists -/

theorem LabelNode.HeldBy.mono {label : LabelNode} {size larger : Nat} (le : size ≤ larger)
    {expr : Expr} (held : label.HeldBy size expr) : label.HeldBy larger expr := by
  cases expr with
  | leaf instr loc => exact held
  | block instr loc exprs => exact held
  | arms instr loc first second => exact ⟨held.1, Nat.lt_of_lt_of_le held.2.1 le, held.2.2⟩

/-- The lists of the labels lie above one another. -/
theorem Entered.ascends {lists : List (List Expr)} {top : LabelNode} {rest : List LabelNode}
    (entered : Entered lists (top :: rest)) :
    forall label, label ∈ rest -> label.exprs < top.exprs := by
  induction rest generalizing top with
  | nil => exact nofun
  | cons parent rest inductionHypothesis =>
      cases entered with
      | label found held above allocated outer =>
          intro label isMember
          rcases List.mem_cons.mp isMember with rfl | isMember
          · exact above
          · exact Nat.lt_trans (inductionHypothesis outer label isMember) above

theorem Entered.allocated {lists : List (List Expr)} {top : LabelNode} {rest : List LabelNode}
    (entered : Entered lists (top :: rest)) : top.exprs < lists.length := by
  cases entered with
  | func allocated => exact allocated
  | label _ _ _ allocated _ => exact allocated

/-- Labels stay entered when no list below the innermost one's changes. -/
theorem Entered.change {lists after : List (List Expr)} {labels : List LabelNode}
    (entered : Entered lists labels) (grows : lists.length ≤ after.length)
    (same : forall label, label ∈ labels.tail -> after[label.exprs]? = lists[label.exprs]?) :
    Entered after labels := by
  induction entered with
  | func allocated => exact .func (Nat.lt_of_lt_of_le allocated grows)
  | @label label parent rest holder found held above allocated outer inductionHypothesis =>
      have parentSame := same parent (List.mem_cons_self ..)
      refine @Entered.label _ label parent rest holder ?_ (held.mono grows) above
        (Nat.lt_of_lt_of_le allocated grows)
        (inductionHypothesis fun label isMember => same label (List.mem_cons_of_mem _ isMember))
      rw [parentSame, found]

/-! ## Appending -/

theorem getLast_modify {lists : List (List Expr)} {list : Nat} (allocated : list < lists.length)
    (expr : Expr) : (lists.modify list (· ++ [expr]))[list]?.bind List.getLast? = some expr := by
  rw [List.getElem?_modify_eq, List.getElem?_eq_getElem allocated]
  change (lists[list] ++ [expr]).getLast? = some expr
  exact List.getLast?_concat

/-- Append to the innermost label's list. -/
theorem Entered.append {lists : List (List Expr)} {top : LabelNode} {rest : List LabelNode}
    (entered : Entered lists (top :: rest)) (expr : Expr) :
    Entered (lists.modify top.exprs (· ++ [expr])) (top :: rest) := by
  refine entered.change (by rw [List.length_modify]) fun label isMember => ?_
  have below := entered.ascends label isMember
  exact List.getElem?_modify_ne _ _ (by omega)

/-- New lists change none of the others. -/
theorem Entered.allocate {lists : List (List Expr)} {labels : List LabelNode}
    (entered : Entered lists labels) (fresh : List (List Expr)) :
    Entered (lists ++ fresh) labels := by
  cases labels with
  | nil => exact nomatch entered
  | cons top rest =>
      refine entered.change (by rw [List.length_append]; omega) fun label isMember => ?_
      have below := entered.ascends label isMember
      have inside := entered.allocated
      exact List.getElem?_append_left (by omega)

/-- An expression of the function that owns the list it is appended to. -/
theorem Owned.append {owner : Nat -> Nat} {funcs : List Nat} {lists : List (List Expr)}
    (owned : Owned own owner funcs lists) {list : Nat} {expr : Expr}
    (mine : own (owner list) expr.instr expr.loc)
    (inners : forall inner, inner ∈ expr.lists ->
      inner < lists.length ∧ owner inner = owner list) :
    Owned own owner funcs (lists.modify list (· ++ [expr])) where
  exprs := by
    intro other exprs member found isMember
    rw [List.length_modify]
    by_cases same : list = other
    · subst same
      rw [List.getElem?_modify_eq] at found
      rcases Option.map_eq_some_iff.mp found with ⟨before, found', rfl⟩
      rcases List.mem_append.mp isMember with old | new
      · exact owned.exprs found' old
      · cases List.mem_singleton.mp new
        exact ⟨mine, inners⟩
    · rw [List.getElem?_modify_ne _ _ same] at found
      exact owned.exprs found isMember
  funcs := by
    intro index other found
    rw [List.length_modify]
    exact owned.funcs found

/-- New empty lists, given to one function. -/
theorem Owned.allocate {owner : Nat -> Nat} {funcs : List Nat} {lists : List (List Expr)}
    (owned : Owned own owner funcs lists) (index : Nat) {fresh : List (List Expr)}
    (empty : forall exprs, exprs ∈ fresh -> exprs = []) :
    Owned own (fun list => if list < lists.length then owner list else index) funcs
      (lists ++ fresh) where
  exprs := by
    intro list exprs expr found isMember
    by_cases old : list < lists.length
    · rw [List.getElem?_append_left old] at found
      have known := owned.exprs found isMember
      rw [if_pos old]
      refine ⟨known.1, fun inner held => ?_⟩
      have inside := (known.2 inner held).1
      rw [if_pos inside, List.length_append]
      exact ⟨by omega, (known.2 inner held).2⟩
    · rw [List.getElem?_append_right (by omega)] at found
      rw [empty exprs (List.mem_of_getElem? found)] at isMember
      exact nomatch isMember
  funcs := by
    intro function list found
    have known := owned.funcs found
    rw [if_pos known.1, List.length_append]
    exact ⟨by omega, known.2⟩

/-! ## What the callbacks do in a body -/

/-- There is a label, the function's own at least. -/
theorem Reading.top (reading : Reading own funcs index opened ir) :
    exists top rest, ir.labelStack = top :: rest := by
  cases stack : ir.labelStack with
  | nil =>
      have types := reading.types
      rw [stack] at types
      exact absurd types.symm (by simp)
  | cons top rest => exact ⟨top, rest, rfl⟩

theorem appendExpr_eq (ir : BinaryReaderIR) {top : LabelNode} {rest : List LabelNode}
    (stack : ir.labelStack = top :: rest) (expr : Expr) :
    ir.appendExpr expr = .ok { ir with lists := ir.lists.modify top.exprs (· ++ [expr]) } := by
  rw [BinaryReaderIR.appendExpr, BinaryReaderIR.getLabelAt, stack]
  rfl

/-- Append an expression without lists. -/
theorem Reading.append (reading : Reading own funcs index opened ir) {expr : Expr}
    (mine : own index expr.instr expr.loc) (leaf : expr.lists = []) :
    exists after, ir.appendExpr expr = .ok after ∧ Reading own funcs index opened after := by
  rcases reading.top with ⟨top, rest, stack⟩
  rcases reading.owned with ⟨owner, owned, labels⟩
  have topOwner : owner top.exprs = index := labels top (stack ▸ List.mem_cons_self ..)
  refine ⟨_, appendExpr_eq ir stack expr, reading.sameFuncs, reading.types, ?_, owner, ?_, labels⟩
  · have entered := reading.entered
    rw [stack] at entered
    change Entered _ ir.labelStack
    rw [stack]
    exact entered.append expr
  · refine owned.append (topOwner.symm ▸ mine) ?_
    rw [leaf]
    exact nofun

/-- Append an expression with new lists and enter the first of them. -/
theorem Reading.enter (reading : Reading own funcs index opened ir) {labelType : LabelType}
    (fresh : List (List Expr)) {expr : Expr} (mine : own index expr.instr expr.loc)
    (empty : forall exprs, exprs ∈ fresh -> exprs = [])
    (held : LabelNode.HeldBy ⟨labelType, ir.lists.length⟩ (ir.lists.length + fresh.length) expr)
    (inners : forall inner, inner ∈ expr.lists ->
      ir.lists.length ≤ inner ∧ inner < ir.lists.length + fresh.length)
    (some_ : 0 < fresh.length) :
    exists after, ir.enter labelType fresh expr = .ok after ∧
      Reading own funcs index (labelType :: opened) after := by
  rcases reading.top with ⟨top, rest, stack⟩
  rcases reading.owned with ⟨owner, owned, labels⟩
  have entered := reading.entered
  rw [stack] at entered
  have inside := entered.allocated
  have topOwner : owner top.exprs = index := labels top (stack ▸ List.mem_cons_self ..)
  have grown := entered.allocate fresh
  have size : (ir.lists ++ fresh).length = ir.lists.length + fresh.length := List.length_append
  have appended : { ir with lists := ir.lists ++ fresh }.appendExpr expr =
      .ok { ir with lists := (ir.lists ++ fresh).modify top.exprs (· ++ [expr]) } :=
    appendExpr_eq { ir with lists := ir.lists ++ fresh } stack expr
  refine ⟨BinaryReaderIR.pushLabel
      { ir with lists := (ir.lists ++ fresh).modify top.exprs (· ++ [expr]) } labelType
      ir.lists.length, ?_, reading.sameFuncs, ?_, ?_,
    fun list => if list < ir.lists.length then owner list else index, ?_, ?_⟩
  · rw [BinaryReaderIR.enter, appended]
    rfl
  · exact congrArg (labelType :: ·) reading.types
  · change Entered ((ir.lists ++ fresh).modify top.exprs (· ++ [expr]))
      (⟨labelType, ir.lists.length⟩ :: ir.labelStack)
    rw [stack]
    refine @Entered.label _ ⟨labelType, ir.lists.length⟩ top rest expr (getLast_modify (by omega) expr) ?_ inside ?_
      (grown.append expr)
    · rw [List.length_modify, size]
      exact held
    · rw [List.length_modify, size]
      change ir.lists.length < _
      omega
  · refine (owned.allocate index empty).append ?_ fun inner isMember => ?_
    · rw [if_pos inside, topOwner]
      exact mine
    · have range := inners inner isMember
      rw [size, if_neg (by omega), if_pos inside, topOwner]
      exact ⟨range.2, rfl⟩
  · intro label isMember
    rcases List.mem_cons.mp isMember with rfl | isMember
    · exact if_neg (Nat.lt_irrefl _)
    · have known : label.exprs < ir.lists.length := by
        rw [stack] at isMember
        rcases List.mem_cons.mp isMember with rfl | below
        · exact inside
        · exact Nat.lt_trans (entered.ascends label below) inside
      exact (if_pos known).trans (labels label isMember)

theorem Reading.onConstruct (reading : Reading own funcs index opened ir) (type : ConstructType)
    (called : instr.callback = .construct type) (mine : own index instr offset) :
    exists after, ir.onConstruct instr offset type = .ok after ∧
      Reading own funcs index (type.label :: opened) after := by
  have one : forall labelType : LabelType, labelType = type.label -> type.hasArms = false ->
      exists after, ir.openBlock labelType instr offset = .ok after ∧
        Reading own funcs index (type.label :: opened) after := by
    intro labelType same noArms
    rw [same]
    refine reading.enter [[]] mine (by simp) ?_ ?_ Nat.one_pos
    · exact ⟨type, called, noArms, rfl⟩
    · simp [Expr.lists]
  have two : forall labelType : LabelType, labelType = type.label -> type.hasArms = true ->
      exists after, ir.openArms labelType instr offset = .ok after ∧
        Reading own funcs index (type.label :: opened) after := by
    intro labelType same arms
    rw [same]
    refine reading.enter [[], []] mine (by simp) ?_ ?_ Nat.two_pos
    · exact ⟨Nat.lt_succ_self _, Nat.lt_succ_self _, type, called, arms, .inl rfl⟩
    · simp [Expr.lists]
  cases type with
  | block => exact one .block rfl rfl
  | loop => exact one .loop rfl rfl
  | if_ => exact two .if_ rfl rfl
  | ifExcept => exact two .ifExcept rfl rfl
  | try_ => exact two .try_ rfl rfl

/-- Outside every construct the function's label is the only one. -/
theorem Reading.outermost (reading : Reading own funcs index [] ir) :
    exists top, ir.labelStack = [top] ∧ top.labelType = .func := by
  have types := reading.types
  rcases reading.top with ⟨top, rest, stack⟩
  rw [stack] at types
  rcases List.cons_eq_cons.mp types with ⟨func, none⟩
  cases List.map_eq_nil_iff.mp none
  exact ⟨top, stack, func⟩

/-- In a construct the innermost label is its own, held by the last expression
below. -/
theorem Reading.inner {label : LabelType} (reading : Reading own funcs index (label :: opened) ir) :
    exists top parent rest holder, ir.labelStack = top :: parent :: rest ∧
      top.labelType = label ∧ ir.getLabelAt 0 = .ok top ∧ ir.getLabelAt 1 = .ok parent ∧
      ir.back parent.exprs = .ok holder ∧ top.HeldBy ir.lists.length holder ∧
      ir.lists[parent.exprs]?.bind List.getLast? = some holder ∧
      parent.exprs < top.exprs ∧ Entered ir.lists (parent :: rest) := by
  have types := reading.types
  have entered := reading.entered
  rcases reading.top with ⟨top, rest, stack⟩
  rw [stack] at types entered
  rcases List.cons_eq_cons.mp types with ⟨same, below⟩
  cases entered with
  | func allocated => exact absurd below.symm (by simp)
  | @label _ parent rest holder found held above allocated outer =>
      have first : ir.getLabelAt 0 = .ok top := by
        rw [BinaryReaderIR.getLabelAt, stack]
        rfl
      have second : ir.getLabelAt 1 = .ok parent := by
        rw [BinaryReaderIR.getLabelAt, stack]
        rfl
      have last : ir.back parent.exprs = .ok holder := by
        rw [BinaryReaderIR.back, found]
      exact ⟨top, parent, rest, holder, stack, same, first, second, last, held, found, above, outer⟩

/-- What holds a label that can have a second arm, and the label in that arm. -/
theorem Reading.divide {label after : LabelType} {middle : Callback}
    (reading : Reading own funcs index (label :: opened) ir)
    (divides : label.secondArm middle = some after) {top parent : LabelNode}
    {rest : List LabelNode} {holder : Expr} (stack : ir.labelStack = top :: parent :: rest)
    (same : top.labelType = label) (held : top.HeldBy ir.lists.length holder)
    (found : ir.lists[parent.exprs]?.bind List.getLast? = some holder)
    (above : parent.exprs < top.exprs) (outer : Entered ir.lists (parent :: rest)) :
    exists (type : ConstructType) (first second : Nat), type.label = label ∧
      BinaryReaderIR.castArms type holder = .ok (first, second) ∧
      Reading own funcs index (after :: opened) (ir.setTopLabel after second) := by
  subst same
  cases holder with
  | leaf instr loc => exact held.elim
  | block instr loc exprs =>
      rcases held with ⟨type, _, noArms, rfl⟩
      cases type with
      | block => cases middle <;> exact nomatch divides
      | loop => cases middle <;> exact nomatch divides
      | if_ => exact nomatch noArms
      | ifExcept => exact nomatch noArms
      | try_ => exact nomatch noArms
  | arms instr loc first second =>
      rcases held with ⟨ordered, inside, type, called, arms, rfl | ⟨middle', after', divided, rfl⟩⟩
      · refine ⟨type, first, second, rfl, if_pos called, reading.sameFuncs, ?_, ?_, ?_⟩
        · have types := reading.types
          rw [stack] at types
          change after :: (ir.labelStack.tail).map _ = _
          rw [stack]
          exact congrArg (after :: ·) (List.cons_eq_cons.mp types).2
        · change Entered ir.lists (_ :: ir.labelStack.tail)
          rw [stack]
          refine .label found ?_ (Nat.lt_trans above ordered) inside outer
          exact ⟨ordered, inside, type, called, arms, .inr ⟨middle, after, divides, rfl⟩⟩
        · rcases reading.owned with ⟨owner, owned, labels⟩
          refine ⟨owner, owned, fun label isMember => ?_⟩
          change label ∈ _ :: ir.labelStack.tail at isMember
          rw [stack] at isMember labels
          rcases List.mem_cons.mp isMember with rfl | below
          · rcases Option.bind_eq_some_iff.mp found with ⟨exprs, at_, last⟩
            have known := (owned.exprs at_ (List.mem_of_getLast? last)).2 second
              (List.mem_cons_of_mem _ (List.mem_cons_self ..))
            exact known.2.trans (labels parent (List.mem_cons_of_mem _ (List.mem_cons_self ..)))
          · exact labels label (List.mem_cons_of_mem _ below)
      · exfalso
        revert divided divides
        cases type <;> cases middle' <;> cases middle <;> cases after' <;> exact nofun

theorem Reading.onElseExpr {label after : LabelType}
    (reading : Reading own funcs index (label :: opened) ir)
    (divides : label.secondArm .onElse = some after) :
    exists next, ir.onElseExpr = .ok next ∧ Reading own funcs index (after :: opened) next := by
  rcases reading.inner with
    ⟨top, parent, rest, holder, stack, same, first, second, last, held, found, above, outer⟩
  rcases reading.divide divides stack same held found above outer with
    ⟨type, true_, false_, own, casted, inArm⟩
  refine ⟨_, ?_, inArm⟩
  simp only [BinaryReaderIR.onElseExpr, BinaryReaderIR.topLabelExpr, first, second, last, bind,
    Except.bind, same]
  cases label with
  | if_ =>
      cases type with
      | if_ => cases divides; simp only [casted]
      | block | loop | ifExcept | try_ => exact nomatch own
  | ifExcept =>
      cases type with
      | ifExcept => cases divides; simp only [casted]
      | block | loop | if_ | try_ => exact nomatch own
  | func | block | loop | else_ | ifExceptElse | try_ | catch_ => exact nomatch divides

theorem Reading.onCatchExpr {label after : LabelType}
    (reading : Reading own funcs index (label :: opened) ir)
    (divides : label.secondArm .onCatch = some after) :
    exists next, ir.onCatchExpr = .ok next ∧ Reading own funcs index (after :: opened) next := by
  rcases reading.inner with
    ⟨top, parent, rest, holder, stack, same, first, second, last, held, found, above, outer⟩
  rcases reading.divide divides stack same held found above outer with
    ⟨type, block, catch_, own, casted, inArm⟩
  refine ⟨_, ?_, inArm⟩
  simp only [BinaryReaderIR.onCatchExpr, first, second, last, bind, Except.bind, same]
  cases label with
  | try_ =>
      cases type with
      | try_ => cases divides; simp only [casted, ne_eq, not_true_eq_false, if_false]
      | block | loop | if_ | ifExcept => exact nomatch own
  | func | block | loop | if_ | else_ | ifExcept | ifExceptElse | catch_ => exact nomatch divides

/-- The cast at the end of a construct is to what it was entered as. -/
theorem castEnded_held {label : LabelNode} {size : Nat} {holder : Expr}
    (held : label.HeldBy size holder) :
    BinaryReaderIR.castEnded holder label.labelType = .ok () := by
  cases holder with
  | leaf instr loc => exact held.elim
  | block instr loc exprs =>
      rcases held with ⟨type, called, noArms, rfl⟩
      cases type with
      | block | loop =>
          simp [BinaryReaderIR.castEnded, BinaryReaderIR.castBlock, ConstructType.label, called,
            bind, Except.bind]
      | if_ | ifExcept | try_ => exact nomatch noArms
  | arms instr loc first second =>
      rcases held with ⟨_, _, type, called, arms, rfl | ⟨middle, after, divides, rfl⟩⟩
      · cases type with
        | if_ | ifExcept | try_ =>
            simp [BinaryReaderIR.castEnded, BinaryReaderIR.castArms, ConstructType.label, called,
              bind, Except.bind]
        | block | loop => exact nomatch arms
      · cases type with
        | if_ | ifExcept | try_ =>
            cases middle <;> cases divides
            simp [BinaryReaderIR.castEnded, BinaryReaderIR.castArms, called, bind, Except.bind]
        | block | loop => exact nomatch arms

theorem Reading.onEndExpr {label : LabelType} (reading : Reading own funcs index (label :: opened) ir) :
    exists after, ir.onEndExpr = .ok after ∧ Reading own funcs index opened after := by
  rcases reading.inner with
    ⟨top, parent, rest, holder, stack, same, first, second, last, held, found, above, outer⟩
  rcases reading.owned with ⟨owner, owned, labels⟩
  have types := reading.types
  rw [stack] at types labels
  refine ⟨{ ir with labelStack := parent :: rest }, ?_, reading.sameFuncs,
    (List.cons_eq_cons.mp types).2, outer, owner, owned, fun label isMember => labels label (List.mem_cons_of_mem _ isMember)⟩
  simp only [BinaryReaderIR.onEndExpr, BinaryReaderIR.topLabelExpr, first, second, last, bind,
    Except.bind, castEnded_held held, BinaryReaderIR.popLabel, stack]

/-- An opcode that the scan takes is taken. -/
theorem Reading.onExpr {next : List LabelType} (reading : Reading own funcs index opened ir)
    (mine : own index instr offset) (taken : nestingStep opened instr.callback = some next) :
    exists after, BinaryReaderIR.onExpr instr offset ir = .ok after ∧
      Reading own funcs index next after := by
  unfold BinaryReaderIR.onExpr
  cases called : instr.callback with
  | expr type =>
      rw [called] at taken
      cases Option.some.inj taken
      exact reading.append mine rfl
  | construct type =>
      rw [called] at taken
      cases Option.some.inj taken
      exact reading.onConstruct type called mine
  | onElse =>
      rw [called] at taken
      cases opened with
      | nil => exact nomatch taken
      | cons label opened =>
          rcases Option.map_eq_some_iff.mp taken with ⟨after, divides, rfl⟩
          exact reading.onElseExpr divides
  | onCatch =>
      rw [called] at taken
      cases opened with
      | nil => exact nomatch taken
      | cons label opened =>
          rcases Option.map_eq_some_iff.mp taken with ⟨after, divides, rfl⟩
          exact reading.onCatchExpr divides
  | onEnd =>
      rw [called] at taken
      cases opened with
      | nil => exact nomatch taken
      | cons label opened =>
          cases Option.some.inj taken
          exact reading.onEndExpr

/-- Without a construct around them `else`, `catch` and `end` are refused. -/
theorem Reading.refuseOutermost (reading : Reading own funcs index [] ir)
    (refused : nestingStep [] instr.callback = none) :
    exists message, BinaryReaderIR.onExpr instr offset ir = .error (.error message) := by
  rcases reading.outermost with ⟨top, stack, func⟩
  unfold BinaryReaderIR.onExpr
  cases called : instr.callback with
  | expr type => rw [called] at refused; exact nomatch refused
  | construct type => rw [called] at refused; exact nomatch refused
  | onElse =>
      refine ⟨.stackDepth 1 1, ?_⟩
      simp [BinaryReaderIR.onElseExpr, BinaryReaderIR.topLabelExpr, BinaryReaderIR.getLabelAt, stack,
        bind, Except.bind]
  | onCatch =>
      refine ⟨.text "catch expression without matching try", ?_⟩
      simp [BinaryReaderIR.onCatchExpr, BinaryReaderIR.getLabelAt, stack, func, bind, Except.bind]
  | onEnd =>
      refine ⟨.stackDepth 1 1, ?_⟩
      simp [BinaryReaderIR.onEndExpr, BinaryReaderIR.topLabelExpr, BinaryReaderIR.getLabelAt, stack,
        bind, Except.bind]

/-- An opcode that belongs to no open construct is refused with an error. -/
theorem Reading.refuse (reading : Reading own funcs index opened ir)
    (refused : nestingStep opened instr.callback = none) :
    exists message, BinaryReaderIR.onExpr instr offset ir = .error (.error message) := by
  cases opened with
  | nil => exact reading.refuseOutermost refused
  | cons label opened =>
      rcases reading.inner with
        ⟨top, parent, rest, holder, stack, same, first, second, last, held, found, above, outer⟩
      unfold BinaryReaderIR.onExpr
      cases called : instr.callback with
      | expr type => rw [called] at refused; exact nomatch refused
      | construct type => rw [called] at refused; exact nomatch refused
      | onEnd => rw [called] at refused; exact nomatch refused
      | onElse =>
          rw [called] at refused
          refine ⟨.text "else expression without matching if", ?_⟩
          simp only [BinaryReaderIR.onElseExpr, BinaryReaderIR.topLabelExpr, first, second, last,
            bind, Except.bind, same]
          cases label with
          | if_ | ifExcept => exact nomatch refused
          | func | block | loop | else_ | ifExceptElse | try_ | catch_ => rfl
      | onCatch =>
          rw [called] at refused
          refine ⟨.text "catch expression without matching try", ?_⟩
          simp only [BinaryReaderIR.onCatchExpr, first, bind, Except.bind, same]
          cases label with
          | try_ => exact nomatch refused
          | func | block | loop | if_ | else_ | ifExcept | ifExceptElse | catch_ => rfl

/-! ## Beginning and ending a body -/

theorem Between.begin (between : Between own funcs ir) (declared : index < funcs.length) :
    exists after, BinaryReaderIR.beginFunctionBody index ir = .ok after ∧
      Reading own funcs index [] after := by
  rcases between.owned with ⟨owner, owned⟩
  have found : funcs[index]? = some funcs[index] := List.getElem?_eq_getElem declared
  have known := owned.funcs found
  refine ⟨ir.pushLabel .func funcs[index], ?_, between.sameFuncs, ?_, ?_, owner, owned, ?_⟩
  · rw [BinaryReaderIR.beginFunctionBody, between.sameFuncs, found]
  · change LabelType.func :: ir.labelStack.map _ = _
    rw [between.noLabel]
    rfl
  · change Entered ir.lists (_ :: ir.labelStack)
    rw [between.noLabel]
    exact .func known.1
  · intro label isMember
    change label ∈ _ :: ir.labelStack at isMember
    rw [between.noLabel] at isMember
    cases List.mem_singleton.mp isMember
    exact known.2

/-- The end of a body takes one label away, whatever label that is. -/
theorem Reading.finish (reading : Reading own funcs index opened ir) :
    exists after, BinaryReaderIR.endFunctionBody index ir = .ok after ∧
      after.labelStack.length = opened.length ∧ (opened = [] -> Between own funcs after) := by
  rcases reading.top with ⟨top, rest, stack⟩
  rcases reading.owned with ⟨owner, owned, _⟩
  have count := congrArg List.length reading.types
  rw [stack, List.length_map, List.length_append] at count
  have depth : rest.length = opened.length := by simpa using count
  refine ⟨{ ir with labelStack := rest }, ?_, depth, fun none => ?_⟩
  · rw [BinaryReaderIR.endFunctionBody, BinaryReaderIR.popLabel, stack]
  · subst none
    exact ⟨List.eq_nil_of_length_eq_zero depth, reading.sameFuncs, owner, owned⟩

end Binary
end WasmSandboxing
