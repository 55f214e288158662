import WasmSandboxing.CWriter.Simulation
import WasmSandboxing.Interp.MemoryGrow

namespace WasmSandboxing
namespace CWriter

open Foundation CLang WasmRt Wasm Semantics

/-!
# The C writer keeps the meaning of bodies

By induction on the types of a body: its lists are written, and what is
written does what they do.  A label of a block is only written when there is a
branch to it, so what is behind a list decides which labels the code of the
list may rely on.
-/

variable {scope : FuncScope} {Rest : Type}

/-! ## Numbers of labels -/

/-- Distinct labels with numbers from a range. -/
def Numbered (first past : Nat) (labels : List LabelName) : Prop :=
  labels.Nodup ∧ forall label, label ∈ labels ->
    ∃ number, label.number = some number ∧ first ≤ number ∧ number < past

namespace Numbered

variable {first middle past : Nat} {labels others : List LabelName}

theorem nil (first past : Nat) : Numbered first past [] := ⟨List.nodup_nil, fun _ => nofun⟩

theorem widen {lower upper : Nat} (numbered : Numbered first past labels) (below : lower ≤ first)
    (above : past ≤ upper) : Numbered lower upper labels := by
  refine ⟨numbered.1, fun label member => ?_⟩
  rcases numbered.2 label member with ⟨number, same, least, most⟩
  exact ⟨number, same, by omega, by omega⟩

theorem append (before : Numbered first middle labels) (behind : Numbered middle past others)
    (below : first ≤ middle) (above : middle ≤ past) : Numbered first past (labels ++ others) := by
  refine ⟨@labels_nodup_append labels others middle before.1 behind.1 (fun label member => ?_)
    fun label member => ?_, fun label member => ?_⟩
  · rcases before.2 label member with ⟨number, same, _, most⟩
    exact ⟨number, same, most⟩
  · rcases behind.2 label member with ⟨number, same, least, _⟩
    exact ⟨number, same, least⟩
  · rcases List.mem_append.mp member with inFirst | inSecond
    · exact (before.widen (Nat.le_refl _) above).2 label inFirst
    · exact (behind.widen below (Nat.le_refl _)).2 label inSecond

theorem perm (numbered : Numbered first past labels) (same : labels.Perm others) :
    Numbered first past others :=
  ⟨same.nodup_iff.mp numbered.1, fun label member => numbered.2 label (same.mem_iff.mpr member)⟩

theorem single {name : LabelName} {number : Nat} (own : name.number = some number) :
    Numbered number (number + 1) [name] := by
  refine ⟨List.nodup_singleton name, fun label member => ?_⟩
  rw [List.mem_singleton.mp member]
  exact ⟨number, own, Nat.le_refl _, Nat.lt_succ_self _⟩

theorem labelDecl {name : LabelName} {number : Nat} (own : name.number = some number)
    (state : WriterState Scheme.applied) :
    Numbered number (number + 1) (CWriter.labelDecl state name).labels := by
  unfold CWriter.labelDecl
  split
  · exact single own
  · exact nil _ _

end Numbered

/-! ## Parts of a function -/

section Parts

variable (fpu : FloatUnit) (numerics : Interp.Numerics)
  (callees functions : Callees scope.globalType Rest)

/-- The code of a list, from one state of the writer to another. -/
structure Part (exprs : ExprList Scheme.binary) (types : List ValueType)
    (ending : Option (List ValueType)) (baseTypes : List ValueType) (count : Nat)
    (state after : WriterState Scheme.applied) (code : Statements Scheme.applied) : Prop where
  raised : Raised state.labelStack after.labelStack
  left : ∃ left, after.typeStack = left ++ baseTypes ∧ forall types, ending = some types ->
    left = types
  numbered : Numbered count (count + ApplyNames.blockCount exprs) code.labels
  simulates : forall (program rest : Statements Scheme.applied) (rounds : Nat)
    (landings : List Landing) (base : List Value) (given : CState scope Rest)
    (frame : Frame scope Rest), program.labels.Nodup -> Code.At program (code ++ rest) ->
    Placed program after.labelStack baseTypes landings base -> Agree given frame base ->
    frame.stack.map Value.type = types ->
    Simulates (execution fpu functions program) rounds landings ending base rest
      (code ++ rest, given) (exec numerics callees rounds exprs frame)

/-- A list is written wherever it is typed. -/
def Translates (labels : List (Option ValueType)) (exprs : ExprList Scheme.binary)
    (types : List ValueType) (ending : Option (List ValueType)) : Prop :=
  forall (names : List LabelName) (count : Nat) (baseTypes : List ValueType)
    (state : WriterState Scheme.applied),
    Fits names count labels baseTypes.length state.labelStack ->
    state.typeStack = types ++ baseTypes ->
    ∃ code after, writeExprList (lookups scope) (ApplyNames.visitExprList names count exprs) state =
        some (code, after) ∧
      Part fpu numerics callees functions exprs types ending baseTypes count state after code

/-- An expression without a body that goes on is written wherever it is typed. -/
def TranslatesInstr (labels : List (Option ValueType)) (instr : Instr Scheme.binary)
    (types left : List ValueType) : Prop :=
  forall (names : List LabelName) (count : Nat) (baseTypes : List ValueType)
    (state : WriterState Scheme.applied),
    Fits names count labels baseTypes.length state.labelStack ->
    state.typeStack = types ++ baseTypes ->
    ∃ code after, writeInstr (lookups scope) (ApplyNames.visitInstr names instr) state =
        some (code, after) ∧
      Raised state.labelStack after.labelStack ∧ after.typeStack = left ++ baseTypes ∧
      code.labels = [] ∧
      forall (program rest : Statements Scheme.applied) (rounds : Nat) (landings : List Landing)
        (base : List Value) (given : CState scope Rest) (frame : Frame scope Rest),
        Placed program after.labelStack baseTypes landings base -> Agree given frame base ->
        frame.stack.map Value.type = types ->
        Simulates (execution fpu functions program) rounds landings (some left) base rest
          (code ++ rest, given) (step numerics callees instr frame)

variable {fpu numerics callees functions} {labels : List (Option ValueType)}
  {exprs : ExprList Scheme.binary} {types left taken : List ValueType}
  {ending : Option (List ValueType)} {instr : Instr Scheme.binary}

theorem translates_nil :
    Translates fpu numerics callees functions labels .nil types (some types) := by
  intro names count baseTypes state fits shape
  refine ⟨.done, state, rfl, .refl _, ⟨types, shape, fun other same => Option.some.inj same⟩,
    .nil _ _, ?_⟩
  intro program rest rounds landings base given frame _ _ placed agree typed
  exact .next (.refl _) agree (congrArg some typed.symm)

/-- An expression in front of a list. -/
theorem TranslatesInstr.cons
    (first : TranslatesInstr fpu numerics callees functions labels instr types left)
    (rest : Translates fpu numerics callees functions labels exprs left ending) :
    Translates fpu numerics callees functions labels (.instr instr exprs) types ending := by
  intro names count baseTypes state fits shape
  rcases first names count baseTypes state fits shape with
    ⟨code, middle, written, raised, between, labels, simulates⟩
  rcases rest names count baseTypes middle (fits.raised raised) between with
    ⟨restCode, after, restWritten, part⟩
  have falls : endsList (ApplyNames.visitInstr names instr) = false := by
    cases instr <;> first | rfl | cases written
  refine ⟨code ++ restCode, after, ?_, raised.trans part.raised, part.left, ?_, ?_⟩
  · rw [ApplyNames.visitExprList, writeExprList_instr falls, written]
    simp only [Option.bind_eq_bind, Option.bind_some, restWritten]
  · rw [Code.labels_append, labels]
    exact part.numbered
  · intro program next rounds landings base given frame distinct here placed agree typed
    rw [Code.append_assoc] at here ⊢
    rw [exec]
    refine (simulates program (restCode ++ next) rounds landings base given frame
      (placed.before part.raised) agree typed).andThen fun given frame agree typed => ?_
    exact part.simulates program next rounds landings base given frame distinct here.skip placed
      agree (Option.some.inj typed).symm

/-- A command that follows an expression. -/
theorem Follows.simulates {program next : Statements Scheme.applied} {rounds : Nat}
    {landings : List Landing} {base : List Value} {given : CState scope Rest}
    {behaviour : Behaviour scope Rest} {command : Command Scheme.applied}
    (follows : Follows base left behaviour (runCommand fpu functions command given)) :
    Simulates (execution fpu functions program) rounds landings (some left) base next
      (.basic command next, given) behaviour := by
  generalize ran : runCommand fpu functions command given = effect at follows
  cases follows with
  | next agree typed =>
      exact .next ((reaches_command ran).weaken (Nat.zero_le 1)) agree (congrArg some typed.symm)
  | trap code => exact .trap (.step (by simp only [machine, meaning, ran]))
  | unsaid => exact .unsaid
  | hang => exact .running (Machine.survives_of_loop (by simp only [machine, meaning, ran]) rounds)

theorem Performs.translates
    (performs : forall names, Performs fpu numerics callees functions names instr taken left) :
    TranslatesInstr fpu numerics callees functions labels instr (taken ++ types)
      (left ++ types) := by
  intro names count baseTypes state fits shape
  rw [List.append_assoc] at shape
  rcases performs names state _ shape with ⟨command, written, follows⟩
  refine ⟨_, _, written, .refl _, (List.append_assoc _ _ _).symm, rfl, ?_⟩
  intro program rest rounds landings base given frame placed agree typed
  exact (follows given frame base types (by rw [placed.typed]) typed agree).simulates

theorem translates_nop :
    TranslatesInstr fpu numerics callees functions labels .nop types types := by
  intro names count baseTypes state fits shape
  refine ⟨.done, state, rfl, .refl _, shape, rfl, ?_⟩
  intro program rest rounds landings base given frame _ agree typed
  exact .next (.refl _) agree (congrArg some typed.symm)

theorem dropTypes_one {state : WriterState Scheme.applied} {type : ValueType}
    {below : List ValueType} (shape : state.typeStack = type :: below) :
    state.dropTypes 1 = some { state with typeStack := below } :=
  @dropTypes_append below state [type] shape

theorem translates_drop {type : ValueType} :
    TranslatesInstr fpu numerics callees functions labels .drop (type :: types) types := by
  intro names count baseTypes state fits shape
  refine ⟨.done, { state with typeStack := types ++ baseTypes }, ?_, .refl _, rfl, rfl, ?_⟩
  · simp only [ApplyNames.visitInstr, writeInstr, dropTypes_one shape]
    rfl
  · intro program rest rounds landings base given frame _ agree typed
    rcases frame with ⟨operands, locals, world⟩
    rcases List.map_eq_cons_iff.mp typed with ⟨value, stack, rfl, _, typedStack⟩
    exact .next (.refl _) ⟨agree.locals, agree.world, agree.stack.2⟩ (congrArg some typedStack.symm)

/-! ### Branches -/

theorem length_landings {program : Statements Scheme.applied} {names : List LabelName}
    {count height : Nat} {stack : List (Label Scheme.applied)} {baseTypes : List ValueType}
    {landings : List Landing} {base : List Value} (fits : Fits names count labels height stack)
    (placed : Placed program stack baseTypes landings base) : labels.length = landings.length := by
  rw [← fits.carried, List.length_map, placed.lands.length_eq]

/-- A branch on a condition that is on the top. -/
theorem translates_brIf {depth : Nat} {carried : Option ValueType}
    (target : labels[depth]? = some carried) :
    TranslatesInstr fpu numerics callees functions labels (.brIf depth)
      (.i32 :: (carried.toList ++ types)) (carried.toList ++ types) := by
  intro names count baseTypes state fits shape
  rw [List.cons_append, List.append_assoc] at shape
  have top := operand_top shape
  have dropped := dropTypes_one shape
  rcases writeGoto_branching { state with typeStack := carried.toList ++ (types ++ baseTypes) } fpu
    functions fits target rfl with
    ⟨code, after, written, branching⟩
  refine ⟨.branch (.var (.stack (carried.toList ++ (types ++ baseTypes)).length .i32)) code .done
    .done, after, ?_, branching.raised, ?_, ?_, ?_⟩
  · simp only [ApplyNames.visitInstr, writeInstr, top, dropped, written, Option.bind_eq_bind,
      Option.bind_some]
  · rw [branching.types, List.append_assoc]
  · simp only [Code.labels, branching.straight.labels, List.append_nil]
  · intro program next rounds landings base given frame placed agree typed
    rcases frame with ⟨operands, locals, world⟩
    rcases List.map_eq_cons_iff.mp typed with ⟨value, stack, rfl, typedValue, typedStack⟩
    rcases i32_of_type typedValue with ⟨bits, rfl⟩
    have held := agree.top typedStack placed.typed
    have reaches := @reaches_branch _ _ fpu functions program (.done ++ next) _ _ _ code .done held
    rw [List.append_assoc] at reaches
    have stepped : step numerics callees (.brIf depth) ⟨.i32 bits :: stack, locals, world⟩ =
        if bits ≠ 0 then .branch depth ⟨stack, locals, world⟩ else .next ⟨stack, locals, world⟩ :=
      rfl
    have popped : Agree given ⟨stack, locals, world⟩ base :=
      ⟨agree.locals, agree.world, agree.stack.2⟩
    rw [stepped]
    by_cases nonzero : bits ≠ 0
    · rw [if_pos nonzero] at reaches ⊢
      rcases branching.goes program landings base given _ placed popped typedStack next with
        ⟨landing, found, arrives⟩
      exact .branch found (arrives.after reaches)
    · rw [if_neg nonzero] at reaches ⊢
      exact .next (reaches.weaken (Nat.zero_le 1)) popped (congrArg some typedStack.symm)

/-- A list that ends with a branch. -/
theorem translates_br {depth : Nat} {carried : Option ValueType}
    (target : labels[depth]? = some carried) :
    Translates fpu numerics callees functions labels (.instr (.br depth) exprs)
      (carried.toList ++ types) none := by
  intro names count baseTypes state fits shape
  rw [List.append_assoc] at shape
  rcases writeGoto_branching state fpu functions fits target shape with
    ⟨code, after, written, branching⟩
  refine ⟨code, after, written, branching.raised,
    ⟨carried.toList ++ types, by rw [branching.types, shape, List.append_assoc], nofun⟩, ?_, ?_⟩
  · rw [branching.straight.labels]
    exact .nil _ _
  · intro program next rounds landings base given frame _ _ placed agree typed
    rcases branching.goes program landings base given frame placed agree typed next with
      ⟨landing, found, arrives⟩
    exact .branch found arrives

theorem translates_ret {carried : Option ValueType} (last : labels.getLast? = some carried) :
    Translates fpu numerics callees functions labels (.instr .ret exprs)
      (carried.toList ++ types) none := by
  intro names count baseTypes state fits shape
  rw [List.append_assoc] at shape
  rcases writeReturn_branching state fpu functions fits last shape with
    ⟨code, after, written, branching⟩
  refine ⟨code, after, written, branching.raised,
    ⟨carried.toList ++ types, by rw [branching.types, shape, List.append_assoc], nofun⟩, ?_, ?_⟩
  · rw [branching.straight.labels]
    exact .nil _ _
  · intro program next rounds landings base given frame _ _ placed agree typed
    rcases branching.goes program landings base given frame placed agree typed next with
      ⟨landing, found, arrives⟩
    refine .returned ?_ arrives
    rw [List.getLast?_eq_getElem?, ← length_landings (fits.raised branching.raised) placed, found]

theorem translates_unreachable :
    Translates fpu numerics callees functions labels (.instr .unreachable exprs) types none := by
  intro names count baseTypes state fits shape
  refine ⟨_, state, rfl, .refl _, ⟨types, shape, nofun⟩, .nil _ _, ?_⟩
  intro program next rounds landings base given frame _ _ placed agree typed
  exact .trap (.step rfl)

theorem translates_brTable {targets : List Nat} {defaultTarget : Nat} {carried : Option ValueType}
    (all : forall depth, depth ∈ defaultTarget :: targets -> labels[depth]? = some carried) :
    Translates fpu numerics callees functions labels (.instr (.brTable targets defaultTarget) exprs)
      (.i32 :: (carried.toList ++ types)) none := by
  intro names count baseTypes state fits shape
  rw [List.cons_append, List.append_assoc] at shape
  have top := operand_top shape
  have dropped := dropTypes_one shape
  rcases writeCases_branching { state with typeStack := carried.toList ++ (types ++ baseTypes) } fpu
    functions targets 0 fits all rfl with
    ⟨code, after, written, types_eq, raised, noLabels, selects⟩
  refine ⟨.switch (.var (.stack (carried.toList ++ (types ++ baseTypes)).length .i32)) code .done,
    after, ?_, raised, ⟨carried.toList ++ types, by rw [types_eq, List.append_assoc],
      nofun⟩, ?_, ?_⟩
  · simp only [ApplyNames.visitExprList, ApplyNames.visitInstr, writeExprList, top, dropped,
      written, Option.bind_eq_bind, Option.bind_some]
  · simp only [Code.labels, noLabels, List.append_nil]
    exact .nil _ _
  · intro program next rounds landings base given frame _ _ placed agree typed
    rcases frame with ⟨operands, locals, world⟩
    rcases List.map_eq_cons_iff.mp typed with ⟨value, stack, rfl, typedValue, typedStack⟩
    rcases i32_of_type typedValue with ⟨bits, rfl⟩
    have held := agree.top typedStack placed.typed
    rw [List.append_assoc] at held
    rcases selects bits.toNat (Nat.zero_le _) with ⟨goto, tail, selected, goes⟩
    have popped : Agree given ⟨stack, locals, world⟩ base :=
      ⟨agree.locals, agree.world, agree.stack.2⟩
    rcases goes program landings base given _ placed popped typedStack (tail ++ next) with
      ⟨landing, found, arrives⟩
    have reaches := @reaches_switch _ _ fpu functions program (.done ++ next) _ _ _ _ _ held
      selected
    rw [Code.append_assoc] at reaches
    exact .branch found (arrives.after reaches)

/-! ### Blocks -/

section Blocks

variable {result : Option ValueType} {baseTypes : List ValueType} {count : Nat}
  {state inner after : WriterState Scheme.applied} {code next program : Statements Scheme.applied}
  {own label : Label Scheme.applied} {outer : List (Label Scheme.applied)}
  {landings : List Landing} {base : List Value} {given : CState scope Rest}
  {frame : Frame scope Rest} (rounds : Nat)

/-- The label at the end of a block. -/
def declaration (label : Label Scheme.applied) : Statements Scheme.applied :=
  if label.used then .label label.name .done else .done

theorem labelDecl_eq (stack : state.labelStack = label :: outer) :
    labelDecl state label.name = declaration label := by
  rw [labelDecl, WriterState.isTopLabelUsed, stack]
  rfl

theorem falls_declaration (given : CState scope Rest) :
    (execution fpu functions program).Reaches 0 (declaration label ++ next, given)
      (next, given) := by
  unfold declaration
  split
  · exact (reaches_label label.name given).weaken (Nat.zero_le 1)
  · exact .refl _

theorem found_declaration (distinct : program.labels.Nodup)
    (here : Code.At program (declaration label ++ next)) (used : label.used = true) :
    program.findLabel label.name = some next := by
  rw [declaration, if_pos used] at here
  exact here.resolve distinct

theorem resetTypeStack_append {types below : List ValueType}
    (shape : state.typeStack = types ++ below) :
    state.resetTypeStack below.length = some { state with typeStack := below } := by
  rw [WriterState.resetTypeStack, shape, if_pos (by simp), List.length_append,
    Nat.add_sub_cancel, List.drop_left]

/-- The label of a block at its end, and the labels around it. -/
theorem Raised.opened {kind : LabelType} {name : LabelName} {height : Nat}
    {stack after : List (Label Scheme.applied)}
    (raised : Raised (⟨kind, name, result, height, false⟩ :: stack) after) :
    ∃ own outer, after = own :: outer ∧ Raised stack outer ∧ own.labelType = kind ∧
      own.name = name ∧ own.result = result ∧ own.typeStackSize = height := by
  rcases List.forall₂_cons_left_iff.mp raised with ⟨own, outer, raises, others, same⟩
  refine ⟨own, outer, same, others, ?_⟩
  rw [raises.2]
  exact ⟨rfl, rfl, rfl, rfl⟩

/-- The code of a list with the label of its block behind it. -/
theorem Part.block
    (part : Part fpu numerics callees functions exprs [] ending (types ++ baseTypes) count state
      inner code)
    (raised : Raised inner.labelStack (label :: outer)) (carried : label.carried = result)
    (height : label.typeStackSize = (types ++ baseTypes).length)
    (ends : forall left, ending = some left -> left = result.toList) (some : outer ≠ [])
    (distinct : program.labels.Nodup)
    (here : Code.At program (code ++ (declaration label ++ next)))
    (placed : Placed program outer baseTypes landings base) (agree : Agree given frame base)
    (typed : frame.stack.map Value.type = types) :
    Simulates (execution fpu functions program) rounds landings
      (Option.some (result.toList ++ types)) base next
      (code ++ (declaration label ++ next), given)
      ((exec numerics callees rounds exprs { frame with stack := [] }).leave result
        frame.stack) := by
  have lands : Lands program label ⟨result, frame.stack ++ base, next⟩ := by
    refine ⟨carried, ?_, found_declaration distinct here.skip⟩
    rw [height, ← typed, ← placed.typed, ← List.map_append, List.length_map]
  have inside := placed.enter lands
  rw [typed] at inside
  exact (part.simulates program _ rounds _ _ given { frame with stack := [] } distinct here
    (inside.before raised) ⟨agree.locals, agree.world, agree.stack⟩ rfl).leave
      (placed.nonempty some) ends falls_declaration typed

/-- A list behind a block, which is written with the result of the block. -/
theorem Part.behind {behaviour : Behaviour scope Rest} {source : Point scope Rest}
    (part : Part fpu numerics callees functions exprs types ending baseTypes count state after code)
    (simulates : Simulates (execution fpu functions program) rounds landings (some types) base
      (code ++ next) source behaviour) (distinct : program.labels.Nodup)
    (here : Code.At program (code ++ next))
    (placed : Placed program after.labelStack baseTypes landings base) :
    Simulates (execution fpu functions program) rounds landings ending base next source
      (behaviour.andThen (exec numerics callees rounds exprs)) :=
  simulates.andThen fun given frame agree typed =>
    part.simulates program next rounds landings base given frame distinct here placed agree
      (Option.some.inj typed).symm

/-- The labels of a block, whatever the order in which they stand. -/
theorem numbered_block {size more : Nat} {body declared rest all : List LabelName}
    (bodyNumbered : Numbered (count + 1) (count + 1 + size) body)
    (declaredNumbered : Numbered count (count + 1) declared)
    (restNumbered : Numbered (count + 1 + size) (count + 1 + size + more) rest)
    (same : (declared ++ (body ++ rest)).Perm all) :
    Numbered count (count + (1 + size + more)) all :=
  ((declaredNumbered.append (bodyNumbered.append restNumbered (by omega) (by omega)) (by omega)
    (by omega)).widen (Nat.le_refl _) (by omega)).perm same

variable {body rest : ExprList Scheme.binary} {last : Option (List ValueType)}

theorem Translates.block {label : Unit}
    (inner : Translates fpu numerics callees functions (result :: labels) body [] ending)
    (ends : forall left, ending = some left -> left = result.toList)
    (behind : Translates fpu numerics callees functions labels rest (result.toList ++ types) last) :
    Translates fpu numerics callees functions labels (.block label result body rest) types
      last := by
  intro names count baseTypes state fits shape
  have above : baseTypes.length ≤ state.typeStack.length := by
    rw [shape, List.length_append]
    omega
  have fitsInner : Fits (.block count :: names) (count + 1) (result :: labels)
      state.typeStack.length (state.pushLabel .block (.block count) result).labelStack :=
    @Fits.enter _ ⟨.block, .block count, result, state.typeStack.length, false⟩ names count _ labels
      fits rfl above
  rcases inner _ _ state.typeStack (state.pushLabel .block (.block count) result) fitsInner rfl with
    ⟨bodyCode, bodyAfter, bodyWritten, part⟩
  rcases part.raised.opened with ⟨own, outer, stack, raised, kind, name, isResult, height⟩
  rcases part.left with ⟨left, reset, _⟩
  rcases behind names (count + 1 + ApplyNames.blockCount body) baseTypes
    ⟨result.toList ++ state.typeStack, outer⟩ ((fits.raised raised).later (by omega))
    (by rw [shape, List.append_assoc]) with ⟨restCode, after, restWritten, restPart⟩
  have declared : labelDecl bodyAfter (.block count) = declaration own := by
    rw [← name]
    exact labelDecl_eq stack
  refine ⟨.basic (.scope (.block count)) (bodyCode ++ (declaration own ++ restCode)), after, ?_,
    Raised.trans raised restPart.raised, restPart.left, ?_, ?_⟩
  · simp only [ApplyNames.visitExprList, writeExprList, bodyWritten, declared,
      WriterState.markTypeStack, resetTypeStack_append reset, WriterState.popLabel,
      WriterState.pushTypes, stack, List.tail_cons, restWritten, Option.bind_eq_bind,
      Option.bind_some]
  · rw [← declared]
    refine numbered_block part.numbered (@Numbered.labelDecl (.block count) count rfl bodyAfter)
      restPart.numbered ?_
    simp only [Code.labels, Code.labels_append]
    exact List.perm_append_comm_assoc _ _ _
  · intro program next rounds landings base given frame distinct here placed agree typed
    have split : (.basic (.scope (.block count)) (bodyCode ++ (declaration own ++ restCode)) ++
        next : Statements Scheme.applied) =
          .basic (.scope (.block count)) (bodyCode ++ (declaration own ++ (restCode ++ next))) := by
      rw [Code.basic_append, Code.append_assoc, Code.append_assoc]
    rw [split] at here ⊢
    rw [shape] at part height
    have carried : own.carried = result := by
      rw [Label.carried, kind, if_neg (by decide), isResult]
    have simulates := part.block rounds (stack ▸ Raised.refl _) carried height ends
      (fits.raised raised).nonempty distinct here.basic (placed.before restPart.raised) agree typed
    exact (restPart.behind rounds simulates distinct here.basic.skip.skip placed).after
      (reaches_command rfl)

theorem found_label (distinct : program.labels.Nodup) {name : LabelName}
    (here : Code.At program (.label name next)) : program.findLabel name = some next :=
  here.resolve distinct

/-- The rounds of the loop whose label stands in front of its code. -/
theorem Part.loop
    (part : Part fpu numerics callees functions exprs [] ending (types ++ baseTypes) count state
      inner code)
    (raised : Raised inner.labelStack (label :: outer)) (carried : label.carried = none)
    (height : label.typeStackSize = (types ++ baseTypes).length)
    (ends : forall left, ending = some left -> left = result.toList) (some : outer ≠ [])
    (distinct : program.labels.Nodup)
    (here : Code.At program (.label label.name (code ++ next)))
    (placed : Placed program outer baseTypes landings base) (agree : Agree given frame base)
    (typed : frame.stack.map Value.type = types) :
    Simulates (execution fpu functions program) rounds landings
      (Option.some (result.toList ++ types)) base next (code ++ next, given)
      ((iterate (exec numerics callees rounds exprs) rounds { frame with stack := [] }).leave result
        frame.stack) := by
  have lands : Lands program label ⟨none, frame.stack ++ base, code ++ next⟩ := by
    refine ⟨carried, ?_, fun _ => here.resolve distinct⟩
    rw [height, ← typed, ← placed.typed, ← List.map_append, List.length_map]
  have inside := (placed.enter lands).before raised
  rw [typed] at inside
  have turns := @Simulates.iterate _ _ (execution fpu functions program) rounds landings ending
    (frame.stack ++ base) next (code ++ next) ⟨result, frame.stack ++ base, next⟩
    (exec numerics callees rounds exprs) rounds (Nat.le_refl _) (placed.nonempty some)
    (fun given inner agree empty =>
      part.simulates program next rounds _ _ given inner distinct here.label inside agree
        (by rw [empty]; rfl))
    given { frame with stack := [] } ⟨agree.locals, agree.world, agree.stack⟩ rfl
  exact turns.leave (placed.nonempty some) ends (fun _ => .refl _) typed

theorem Translates.loop {label : Unit}
    (inner : Translates fpu numerics callees functions (none :: labels) body [] ending)
    (ends : forall left, ending = some left -> left = result.toList)
    (empty : body = .nil -> ending = some [])
    (behind : Translates fpu numerics callees functions labels rest (result.toList ++ types) last) :
    Translates fpu numerics callees functions labels (.loop label result body rest) types last := by
  intro names count baseTypes state fits shape
  by_cases isEmpty : body = .nil
  · subst isEmpty
    have noResult := ends [] (empty rfl)
    rw [← noResult] at behind
    rcases behind names (count + 1) baseTypes state (fits.later (by omega)) shape with
      ⟨code, after, written, part⟩
    refine ⟨code, after, written, part.raised, part.left,
      part.numbered.widen (by omega) (by rw [ApplyNames.blockCount, ApplyNames.blockCount]; omega),
      ?_⟩
    intro program next rounds landings base given frame distinct here placed agree typed
    cases rounds with
    | zero => exact .running ⟨_, .refl _⟩
    | succ rounds =>
        exact part.simulates program next _ landings base given frame distinct here placed agree
          typed
  have above : baseTypes.length ≤ state.typeStack.length := by
    rw [shape, List.length_append]
    omega
  have fitsInner : Fits (.loop count :: names) (count + 1) (none :: labels)
      state.typeStack.length (state.pushLabel .loop (.loop count) result).labelStack :=
    @Fits.enter _ ⟨.loop, .loop count, result, state.typeStack.length, false⟩ names count _ labels
      fits rfl above
  rcases inner _ _ state.typeStack (state.pushLabel .loop (.loop count) result) fitsInner rfl with
    ⟨bodyCode, bodyAfter, bodyWritten, part⟩
  rcases part.raised.opened with ⟨own, outer, stack, raised, kind, name, isResult, height⟩
  rcases part.left with ⟨left, reset, _⟩
  rcases behind names (count + 1 + ApplyNames.blockCount body) baseTypes
    ⟨result.toList ++ state.typeStack, outer⟩ ((fits.raised raised).later (by omega))
    (by rw [shape, List.append_assoc]) with ⟨restCode, after, restWritten, restPart⟩
  refine ⟨.basic (.scope (.loop count)) (.label (.loop count) (bodyCode ++ restCode)), after, ?_,
    Raised.trans raised restPart.raised, restPart.left, ?_, ?_⟩
  · rw [ApplyNames.visitExprList, writeExprList_loop (visitExprList_ne_nil isEmpty)]
    simp only [bodyWritten, WriterState.markTypeStack, resetTypeStack_append reset,
      WriterState.popLabel, WriterState.pushTypes, stack, List.tail_cons, restWritten,
      Option.bind_eq_bind, Option.bind_some]
  · refine numbered_block part.numbered (@Numbered.single (.loop count) count rfl)
      restPart.numbered ?_
    simp only [Code.labels, Code.labels_append]
    exact .refl _
  · intro program next rounds landings base given frame distinct here placed agree typed
    have split : (.basic (.scope (.loop count)) (.label (.loop count) (bodyCode ++ restCode)) ++
        next : Statements Scheme.applied) =
          .basic (.scope (.loop count))
            (.label (.loop count) (bodyCode ++ (restCode ++ next))) := by
      rw [Code.basic_append, Code.label_append, Code.append_assoc]
    rw [split] at here ⊢
    rw [shape] at part height
    have carried : own.carried = none := if_pos kind
    have labelled := here.basic
    rw [← name] at labelled
    have simulates := part.loop rounds (stack ▸ Raised.refl _) carried height ends
      (fits.raised raised).nonempty distinct labelled (placed.before restPart.raised) agree typed
    exact ((restPart.behind rounds simulates distinct labelled.label.skip placed).after
      (reaches_label _ given)).after (reaches_command rfl)

/-- The second list of a conditional, from the types that the first has left. -/
theorem writeElse_eq {no : ExprList Scheme.binary} {names : List LabelName} {left : List ValueType}
    {noCode : Statements Scheme.applied} {noAfter : WriterState Scheme.applied}
    {below : List ValueType} (shape : inner.typeStack = left ++ below)
    (written : writeExprList (lookups scope) (ApplyNames.visitExprList names count no)
      { inner with typeStack := below } = some (noCode, noAfter))
    (noLeft : ∃ left, noAfter.typeStack = left ++ below) :
    ∃ after, writeElse (lookups scope) below.length (ApplyNames.visitExprList names count no)
        inner = some (noCode, after) ∧
      after.labelStack = noAfter.labelStack ∧ ∃ left, after.typeStack = left ++ below := by
  by_cases isEmpty : no = .nil
  · subst isEmpty
    cases written
    exact ⟨inner, rfl, rfl, left, shape⟩
  · refine ⟨noAfter, ?_, rfl, noLeft⟩
    have nonempty := @visitExprList_ne_nil no isEmpty names count
    generalize ApplyNames.visitExprList names count no = applied at written nonempty
    have reset := resetTypeStack_append shape
    cases applied with
    | nil => exact absurd rfl nonempty
    | _ => simp only [writeElse, reset, Option.bind_eq_bind, Option.bind_some, written]

theorem Translates.ite {label : Unit} {yes no : ExprList Scheme.binary}
    {yesEnding noEnding : Option (List ValueType)}
    (first : Translates fpu numerics callees functions (result :: labels) yes [] yesEnding)
    (yesEnds : forall left, yesEnding = some left -> left = result.toList)
    (second : Translates fpu numerics callees functions (result :: labels) no [] noEnding)
    (noEnds : forall left, noEnding = some left -> left = result.toList)
    (behind : Translates fpu numerics callees functions labels rest (result.toList ++ types) last) :
    Translates fpu numerics callees functions labels (.ite label result yes no rest)
      (.i32 :: types) last := by
  intro names count baseTypes state fits shape
  rw [List.cons_append] at shape
  have top := operand_top shape
  have dropped := dropTypes_one shape
  have above : baseTypes.length ≤ (types ++ baseTypes).length := by
    rw [List.length_append]
    omega
  have fitsInner : Fits (.ite count :: names) (count + 1) (result :: labels)
      (types ++ baseTypes).length
      (WriterState.pushLabel { state with typeStack := types ++ baseTypes } .ite (.ite count)
        result).labelStack :=
    @Fits.enter _ ⟨.ite, .ite count, result, (types ++ baseTypes).length, false⟩ names count _
      labels fits rfl above
  rcases first _ _ (types ++ baseTypes) (WriterState.pushLabel
    { state with typeStack := types ++ baseTypes } .ite (.ite count) result) fitsInner rfl with
    ⟨yesCode, yesAfter, yesWritten, yesPart⟩
  rcases yesPart.left with ⟨yesLeft, yesReset, _⟩
  rcases second (.ite count :: names) (count + 1 + ApplyNames.blockCount yes) (types ++ baseTypes)
    { yesAfter with typeStack := types ++ baseTypes }
    ((fitsInner.raised yesPart.raised).later (by omega)) rfl with
    ⟨noCode, noAfter, noWritten, noPart⟩
  rcases noPart.left with ⟨noLeft, noReset, _⟩
  rcases writeElse_eq yesReset noWritten ⟨noLeft, noReset⟩ with
    ⟨both, elseWritten, bothStack, bothLeft, bothReset⟩
  have both_raised := Raised.trans yesPart.raised noPart.raised
  rcases both_raised.opened with ⟨own, outer, stack, raised, kind, name, isResult, height⟩
  rcases behind names (count + 1 + ApplyNames.blockCount yes + ApplyNames.blockCount no) baseTypes
    ⟨result.toList ++ (types ++ baseTypes), outer⟩ ((fits.raised raised).later (by omega))
    (by rw [List.append_assoc]) with ⟨restCode, after, restWritten, restPart⟩
  have declared : labelDecl ⟨types ++ baseTypes, own :: outer⟩ (.ite count) = declaration own := by
    rw [← name]
    exact labelDecl_eq rfl
  refine ⟨.branch (.var (.stack (types ++ baseTypes).length .i32))
    (.basic (.scope (.ite count)) yesCode) noCode (declaration own ++ restCode), after, ?_,
    Raised.trans raised restPart.raised, restPart.left, ?_, ?_⟩
  · rw [ApplyNames.visitExprList, writeExprList_ite]
    simp only [top, dropped, yesWritten, WriterState.markTypeStack, elseWritten,
      resetTypeStack_append bothReset, WriterState.popLabel, WriterState.pushTypes, bothStack,
      stack, List.tail_cons, restWritten, Option.bind_eq_bind, Option.bind_some]
    rw [declared]
  · rw [← declared, ApplyNames.blockCount, Nat.add_assoc 1]
    refine numbered_block (yesPart.numbered.append noPart.numbered (by omega) (by omega) |>.widen
      (Nat.le_refl _) (by omega)) (@Numbered.labelDecl (.ite count) count rfl
      ⟨types ++ baseTypes, own :: outer⟩)
      (restPart.numbered.widen (by omega) (by omega)) ?_
    simp only [Code.labels, Code.labels_append]
    rw [← List.append_assoc (Code.labels yesCode)]
    exact List.perm_append_comm_assoc _ _ _
  · intro program next rounds landings base given frame distinct here placed agree typed
    have split : (.branch (.var (.stack (types ++ baseTypes).length .i32))
        (.basic (.scope (.ite count)) yesCode) noCode (declaration own ++ restCode) ++ next :
          Statements Scheme.applied) =
        .branch (.var (.stack (types ++ baseTypes).length .i32))
          (.basic (.scope (.ite count)) yesCode) noCode
            (declaration own ++ (restCode ++ next)) := by
      rw [Code.branch_append, Code.append_assoc]
    rw [split] at here ⊢
    rcases frame with ⟨operands, locals, world⟩
    rcases List.map_eq_cons_iff.mp typed with ⟨value, stackBelow, rfl, typedValue, typedStack⟩
    rcases i32_of_type typedValue with ⟨bits, rfl⟩
    have carried : own.carried = result := by
      rw [Label.carried, kind, if_neg (by decide), isResult]
    have popped : Agree given ⟨stackBelow, locals, world⟩ base :=
      ⟨agree.locals, agree.world, agree.stack.2⟩
    have around := placed.before restPart.raised
    have some := (fits.raised raised).nonempty
    have reaches := @reaches_branch _ _ fpu functions program
      (declaration own ++ (restCode ++ next)) _ _ _ (.basic (.scope (.ite count)) yesCode) noCode
      (agree.top typedStack placed.typed)
    have stepped : exec numerics callees rounds (.ite label result yes no rest)
        ⟨.i32 bits :: stackBelow, locals, world⟩ =
          ((if bits ≠ 0 then exec numerics callees rounds yes ⟨[], locals, world⟩
            else exec numerics callees rounds no ⟨[], locals, world⟩).leave result
              stackBelow).andThen (exec numerics callees rounds rest) := rfl
    rw [stepped]
    by_cases nonzero : bits ≠ 0
    · rw [if_pos nonzero] at reaches ⊢
      have simulates := yesPart.block rounds (stack ▸ noPart.raised) carried height yesEnds some
        distinct here.yes.basic around popped typedStack
      exact ((restPart.behind rounds simulates distinct here.branch.skip placed).after
        (reaches_command rfl)).after reaches
    · rw [if_neg nonzero] at reaches ⊢
      have simulates := noPart.block rounds (stack ▸ Raised.refl _) carried height noEnds some
        distinct here.no around popped typedStack
      exact (restPart.behind rounds simulates distinct here.branch.skip placed).after reaches

end Blocks

/-- Every typed list is written, and what is written does what the list does. -/
theorem translates {floats : Interp.Numerics} (agrees : FloatsAgree fpu floats)
    (refines : FunctionsRefine functions callees)
    (typed : Typed scope labels exprs types ending) :
    Translates fpu (Interp.withIntegers floats) callees functions labels exprs types ending := by
  induction typed with
  | nil => exact translates_nil
  | nop _ inductionHypothesis => exact translates_nop.cons inductionHypothesis
  | plain visited typed _ inductionHypothesis =>
      exact (Performs.translates fun names => performs agrees refines visited typed).cons
        inductionHypothesis
  | drop _ inductionHypothesis => exact translates_drop.cons inductionHypothesis
  | select _ inductionHypothesis =>
      exact (Performs.translates fun names => performs_select _).cons inductionHypothesis
  | br target => exact translates_br target
  | brIf target _ inductionHypothesis => exact (translates_brIf target).cons inductionHypothesis
  | brTable all => exact translates_brTable all
  | ret last => exact translates_ret last
  | unreachable => exact translates_unreachable
  | block _ ends _ innerHypothesis restHypothesis => exact innerHypothesis.block ends restHypothesis
  | loop inner ends _ innerHypothesis restHypothesis =>
      refine innerHypothesis.loop ends (fun empty => ?_) restHypothesis
      subst empty
      cases inner
      rfl
  | ite _ yesEnds _ noEnds _ yesHypothesis noHypothesis restHypothesis =>
      exact yesHypothesis.ite yesEnds noHypothesis noEnds restHypothesis

end Parts

/-! ## Functions -/

/-- What a generated function comes to when its body comes to this.  A body
that ends leaves the function with the same locals and the same instance, and
its result in the variable that is returned.  Where the operators say nothing
of the body nothing is said of the function, and no function gets `stuck`. -/
inductive Preserved (machine : Machine (Point scope Rest) (Finish (CState scope Rest) (Stop Trap)))
    (returned : Option (CVar Scheme.applied)) (rounds : Nat) (start : Point scope Rest) :
    Behaviour scope Rest -> Prop
  | returns (ends : machine.Ends start (.fell after)) (locals : after.locals = frame.locals)
      (world : after.world = frame.world)
      (result : returned.toList.map after.valuation =
        frame.stack.map fun value => some (cValue value)) :
      Preserved machine returned rounds start (.next frame)
  | trap (ends : machine.Ends start (.stopped (.trap code))) :
      Preserved machine returned rounds start (.stopped (.trap code))
  | unsaid : Preserved machine returned rounds start (.stopped .undefined)
  | running (survives : machine.Survives rounds start) :
      Preserved machine returned rounds start .running

/-- The variable that a function returns. -/
def returnVar (result : Option ValueType) : Option (CVar Scheme.applied) :=
  result.map fun type => .stack 0 type

theorem returned_value {given : CState scope Rest} {result : Option ValueType} {values : List Value}
    (holds : Holds given.stack (values ++ [])) (typed : values.map Value.type = result.toList) :
    (returnVar result).toList.map given.valuation =
      values.map fun value => some (cValue value) := by
  cases result with
  | none =>
      cases List.map_eq_nil_iff.mp typed
      rfl
  | some type =>
      rcases List.map_eq_cons_iff.mp typed with ⟨value, _, rfl, rfl, none⟩
      cases List.map_eq_nil_iff.mp none
      exact congrArg (fun held => [held]) holds.1

section Ends

variable {machine : Machine (Point scope Rest) (Finish (CState scope Rest) (Stop Trap))}
  {rounds : Nat} {result : Option ValueType} {start : Point scope Rest}

theorem preserved_returns {given : CState scope Rest} {frame : Frame scope Rest}
    (ends : machine.Ends start (.fell given)) (agree : Agree given frame [])
    (typed : frame.stack.map Value.type = result.toList) :
    Preserved machine (returnVar result) rounds start (.next frame) :=
  .returns ends agree.locals agree.world (returned_value agree.stack typed)

/-- The end of the list of a function, or a branch to the function's label. -/
theorem Simulates.preserved {ending : Option (List ValueType)} {rest : Statements Scheme.applied}
    {behaviour : Behaviour scope Rest}
    (simulates : Simulates machine rounds [⟨result, [], .done⟩] ending [] rest start behaviour)
    (ends : forall left, ending = some left -> left = result.toList)
    (falls : forall given : CState scope Rest, machine.Ends (rest, given) (.fell given))
    (stops : forall given : CState scope Rest, machine.Ends (.done, given) (.fell given)) :
    Preserved machine (returnVar result) rounds start (behaviour.finish result) := by
  cases simulates with
  | @next given frame reaches agree typed =>
      have finished : (Behaviour.next frame).finish result =
          .next { frame with stack := frame.stack ++ [] } := rfl
      rw [finished, List.append_nil]
      exact preserved_returns (reaches.ends (falls given)) agree (ends _ typed)
  | @branch depth landing frame target arrives =>
      cases depth with
      | zero =>
          cases target
          rcases arrives with ⟨given, reaches, agree, typed⟩
          have finished : (Behaviour.branch 0 frame).finish result =
              .next { carry result frame with stack := (carry result frame).stack ++ [] } := rfl
          rw [finished, List.append_nil]
          exact preserved_returns (reaches.ends (stops given)) agree typed
      | succ depth => cases target
  | returned last arrives =>
      cases last
      rcases arrives with ⟨given, reaches, agree, typed⟩
      exact preserved_returns (reaches.ends (stops given)) agree typed
  | trap ends => exact .trap ends
  | unsaid => exact .unsaid
  | running survives => exact .running survives

end Ends

/-- The label stack at the start of a function. -/
def funcLabels (result : Option ValueType) : List (Label Scheme.applied) :=
  [⟨.func, .func, result, 0, false⟩]

theorem fits_func (result : Option ValueType) : Fits [] 0 [result] 0 (funcLabels result) :=
  ⟨rfl, fun _ => nofun, List.nodup_nil, rfl, fun label member => by
    rw [List.mem_singleton.mp member]⟩

/-- Callees that never return. -/
def divergingCallees {types : Nat -> Option ValueType} : Callees types Rest where
  call _ _ _ _ := .diverges
  callIndirect _ _ _ _ _ := .diverges
  growMemory _ _ := .diverges

/-- The body of a function that the validator accepts is written, with distinct
labels, and the generated function does what the body does. -/
theorem writeFunc_follows {fpu : FloatUnit} {floats : Interp.Numerics}
    (agrees : FloatsAgree fpu floats) {result : Option ValueType}
    {exprs : ExprList Scheme.binary} (accepted : Accepted scope result exprs) :
    ∃ code, writeFunc (lookups scope) result (ApplyNames.visitFunc exprs) =
        some (code, returnVar result) ∧
      code.labels.Nodup ∧
      forall (callees functions : Callees scope.globalType Rest),
        FunctionsRefine functions callees ->
        forall (rounds : Nat) (locals : Variables scope.localType)
          (world : World scope.globalType Rest),
          Preserved (execution fpu functions code) (returnVar result) rounds
            (code, .entry locals world)
            (execFunc (Interp.withIntegers floats) callees rounds result exprs locals world) := by
  rcases accepted.typed with ⟨ending, typed, ends⟩
  have parts {callees functions : Callees scope.globalType Rest}
      (refines : FunctionsRefine functions callees) :=
    translates agrees refines typed [] 0 [] ⟨[], funcLabels result⟩ (fits_func result) rfl
  rcases parts (.refl divergingCallees) with ⟨code, after, written, part⟩
  rcases part.raised.opened with ⟨own, outer, stack, raised, kind, name, isResult, height⟩
  cases raised
  have declared : labelDecl after .func = declaration own := by
    rw [← name]
    exact labelDecl_eq stack
  have distinct : (code ++ declaration own).labels.Nodup := by
    rw [declaration]
    split
    · rw [name, Code.labels_append, List.nodup_append']
      refine ⟨part.numbered.1, List.nodup_singleton _, fun label inCode atEnd => ?_⟩
      rcases part.numbered.2 label inCode with ⟨number, same, _⟩
      rw [List.mem_singleton.mp atEnd] at same
      cases same
    · rw [Code.append_done]
      exact part.numbered.1
  refine ⟨code ++ declaration own, ?_, distinct,
    fun callees functions refines rounds locals world => ?_⟩
  · have start : writeExprList (lookups scope) (ApplyNames.visitExprList [] 0 exprs)
        ⟨[], [⟨.func, .func, result, 0, false⟩]⟩ = some (code, after) := written
    simp only [writeFunc, ApplyNames.visitFunc, start, declared, Option.bind_eq_bind,
      Option.bind_some, returnVar]
  · rcases parts refines with ⟨sameCode, sameAfter, alsoWritten, part⟩
    rw [written] at alsoWritten
    cases alsoWritten
    have carried : own.carried = result := by
      rw [Label.carried, kind, if_neg (by decide), isResult]
    have here : Code.At (code ++ declaration own) (declaration own ++ .done) := by
      rw [Code.append_done]
      exact Code.At.start.skip
    have placed :
        Placed (code ++ declaration own) after.labelStack [] [⟨result, [], .done⟩] [] := by
      refine ⟨?_, rfl, fun landing member => ?_⟩
      · rw [stack]
        exact .cons ⟨carried, height, found_declaration distinct here⟩ .nil
      · rw [List.mem_singleton.mp member]
    have simulates := part.simulates (code ++ declaration own) (declaration own) rounds _ []
      (.entry locals world) ⟨[], locals, world⟩ distinct .start placed ⟨rfl, rfl, trivial⟩ rfl
    refine simulates.preserved ends (fun given => ?_) fun given => .step rfl
    have falls := @falls_declaration _ _ fpu functions .done (code ++ declaration own) own given
    rw [Code.append_done] at falls
    exact falls.ends (.step rfl)

/-- A machine that ends does not run as many rounds as it takes steps. -/
theorem ends_of_preserved
    {machine : Machine (Point scope Rest) (Finish (CState scope Rest) (Stop Trap))}
    {returned : Option (CVar Scheme.applied)} {start : Point scope Rest}
    {run : Nat -> Behaviour scope Rest}
    (preserved : forall rounds, Preserved machine returned rounds start (run rounds))
    {finish : Finish (CState scope Rest) (Stop Trap)} (ends : machine.Ends start finish) :
    ∃ rounds, run rounds ≠ .running := by
  rcases ends.bounded with ⟨bound, gone⟩
  refine ⟨bound, fun still => ?_⟩
  have at_bound := preserved bound
  rw [still] at at_bound
  cases at_bound with
  | running survives => exact gone survives

/-- The body of a function that the validator accepts is written, with distinct
labels.  Whatever the functions around it do, the generated function does what
the body does, and it only ends when the body does. -/
theorem writeFunc_preserves {fpu : FloatUnit} {floats : Interp.Numerics}
    (agrees : FloatsAgree fpu floats) {result : Option ValueType}
    {exprs : ExprList Scheme.binary} (accepted : Accepted scope result exprs) :
    ∃ code, writeFunc (lookups scope) result (ApplyNames.visitFunc exprs) =
        some (code, returnVar result) ∧
      code.labels.Nodup ∧
      forall (callees functions : Callees scope.globalType Rest),
        FunctionsRefine functions callees ->
        forall (locals : Variables scope.localType) (world : World scope.globalType Rest),
          (forall rounds, Preserved (execution fpu functions code) (returnVar result) rounds
            (code, .entry locals world)
            (execFunc (Interp.withIntegers floats) callees rounds result exprs locals world)) ∧
          forall finish, (execution fpu functions code).Ends (code, .entry locals world) finish ->
            ∃ rounds, execFunc (Interp.withIntegers floats) callees rounds result exprs locals
              world ≠ .running := by
  rcases writeFunc_follows agrees accepted with ⟨code, written, distinct, preserved⟩
  refine ⟨code, written, distinct, fun callees functions refines locals world => ?_⟩
  have every rounds := preserved callees functions refines rounds locals world
  exact ⟨every, fun finish ends => ends_of_preserved every ends⟩

/-! ## Counting down -/

/-- A function with one local, an `i32`. -/
def countdownScope : FuncScope where
  localType var := if var = 0 then some .i32 else none
  globalType _ := none
  funcSignature _ := none
  typeSignature _ := none

/-- Count the local down to zero in a loop that is left by a branch. -/
def countdown : ExprList Scheme.binary :=
  .block () none
    (.loop () none
      (.instr (.getLocal 0) (.instr (.convert .i32Eqz) (.instr (.brIf 1)
        (.instr (.getLocal 0) (.instr (.const (.i32 1)) (.instr (.binary .i32Sub)
          (.instr (.setLocal 0) (.instr (.br 0) .nil)))))))) .nil)
    (.instr (.getLocal 0) .nil)

theorem countdown_accepted : Accepted countdownScope (some .i32) countdown :=
  ⟨_, rfl, by decide⟩

theorem unreached_agree (fpu : FloatUnit) : FloatsAgree fpu Interp.Numerics.unreached where
  binary _ _ _ _ _ _ _ _ _ _ _ := .unsaid _
  compare _ _ _ _ _ _ _ _ _ _ _ := .unsaid _
  unary _ _ _ _ _ _ _ _ _ _ := .unsaid _
  convert _ _ _ _ _ _ _ _ _ _ := .unsaid _

def countdownLocals (start : BitVec 32) : Variables countdownScope.localType where
  value var := if var = 0 then some (.i32 start) else none
  typed var := by
    by_cases first : var = 0
    · subst first
      rfl
    · rw [if_neg first]
      exact (if_neg first).symm

def emptyWorld : World countdownScope.globalType Unit where
  memory := ⟨fun _ => 0, 0, 0, 0⟩
  globals := ⟨fun _ => none, fun _ => rfl⟩
  rest := ()

/-- Three rounds of the loop count down from two. -/
theorem writeFunc_preserves_countdown :
    ∃ (code : Statements Scheme.applied) (state : CState countdownScope Unit),
      writeFunc (lookups countdownScope) (some .i32) (ApplyNames.visitFunc countdown) =
        some (code, some (.stack 0 .i32)) ∧
      (execution default divergingCallees code).Ends
        (code, .entry (countdownLocals 2) emptyWorld) (.fell state) ∧
      state.stack 0 .i32 = some (.u32 0) := by
  rcases @writeFunc_preserves countdownScope Unit default _ (unreached_agree default) _ _
    countdown_accepted with ⟨code, written, _, preserved⟩
  have outcome := (preserved _ _ (.refl divergingCallees) (countdownLocals 2) emptyWorld).1 3
  have left : ∃ frame, execFunc (Interp.withIntegers Interp.Numerics.unreached) divergingCallees 3
      (some .i32) countdown (countdownLocals 2) emptyWorld = .next frame ∧
        frame.stack = [.i32 0] := ⟨_, rfl, rfl⟩
  rcases left with ⟨frame, run, stack⟩
  rw [run] at outcome
  cases outcome with
  | @returns state _ ends locals world result =>
      rw [stack] at result
      exact ⟨code, state, written, ends, List.head_eq_of_cons_eq result⟩

end CWriter
end WasmSandboxing
