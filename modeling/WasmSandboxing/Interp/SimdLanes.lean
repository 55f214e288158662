import WasmSandboxing.Binary.Decode
import WasmSandboxing.Wasm.TypeChecker
import Mathlib.Algebra.Ring.Nat

namespace WasmSandboxing
namespace Interp
namespace Simd

open Foundation Binary

/-!
# Lanes

The instructions that select lanes of a vector, from the type checker over the
code that is emitted for a body to the interpreter, which indexes its arrays
with the immediates as they are.
-/

/-! ## The instructions -/

/-- The opcodes that read or replace one lane, in the order of their codes. -/
inductive LaneOpcode where
  | i8x16ExtractLaneS | i8x16ExtractLaneU | i16x8ExtractLaneS | i16x8ExtractLaneU
  | i32x4ExtractLane | i64x2ExtractLane | f32x4ExtractLane | f64x2ExtractLane
  | i8x16ReplaceLane | i16x8ReplaceLane | i32x4ReplaceLane | i64x2ReplaceLane
  | f32x4ReplaceLane | f64x2ReplaceLane
  deriving DecidableEq, Repr

namespace LaneOpcode

def all : List LaneOpcode :=
  [i8x16ExtractLaneS, i8x16ExtractLaneU, i16x8ExtractLaneS, i16x8ExtractLaneU, i32x4ExtractLane,
    i64x2ExtractLane, f32x4ExtractLane, f64x2ExtractLane, i8x16ReplaceLane, i16x8ReplaceLane,
    i32x4ReplaceLane, i64x2ReplaceLane, f32x4ReplaceLane, f64x2ReplaceLane]

/-- The opcode with a prefix and a code. -/
def ofCode (code : Nat) : Option LaneOpcode :=
  if 0xfd09 ≤ code then all[code - 0xfd09]? else none

/-- `GetSimdLaneCount` -/
def simdLaneCount : LaneOpcode -> Nat
  | i8x16ExtractLaneS | i8x16ExtractLaneU | i8x16ReplaceLane => 16
  | i16x8ExtractLaneS | i16x8ExtractLaneU | i16x8ReplaceLane => 8
  | f32x4ExtractLane | f32x4ReplaceLane | i32x4ExtractLane | i32x4ReplaceLane => 4
  | f64x2ExtractLane | f64x2ReplaceLane | i64x2ExtractLane | i64x2ReplaceLane => 2

/-- The type of a lane as an operand or a result. -/
def laneType : LaneOpcode -> Wasm.ValueType
  | i64x2ExtractLane | i64x2ReplaceLane => .i64
  | f32x4ExtractLane | f32x4ReplaceLane => .f32
  | f64x2ExtractLane | f64x2ReplaceLane => .f64
  | _ => .i32

def isReplace : LaneOpcode -> Bool
  | i8x16ReplaceLane | i16x8ReplaceLane | i32x4ReplaceLane | i64x2ReplaceLane | f32x4ReplaceLane
  | f64x2ReplaceLane => true
  | _ => false

end LaneOpcode

/-- An instruction with the lanes that it selects. -/
inductive LaneInstr where
  | lane (opcode : LaneOpcode) (laneIdx : BitVec 8)
  | shuffle (laneIdx : BitVec 128)
  deriving DecidableEq, Repr

/-- `memcpy` of a vector to an array of lanes. -/
def lanes (width : Nat) (value : BitVec 128) : List (BitVec width) :=
  (List.range (128 / width)).map fun index => value.extractLsb' (index * width) width

/-- The selectors are those of the vectors that they are for. -/
def LaneInstr.InRange : LaneInstr -> Prop
  | .lane opcode laneIdx => laneIdx.toNat < opcode.simdLaneCount
  | .shuffle laneIdx => forall selector, selector ∈ lanes 8 laneIdx -> selector.toNat < 32

/-! ## The type checker -/

inductive SimdType where
  | value (type : Wasm.ValueType)
  | v128
  deriving DecidableEq, Repr

/-- A `Label`, as far as operators look at it. -/
structure Label where
  typeStackLimit : Nat
  unreachable : Bool
  deriving DecidableEq, Repr

/-- `TypeChecker` with vectors; the stacks have their tops first, and nothing
stands for `Type::Any`.  Of what is printed there is what lanes are about. -/
structure TypeChecker where
  typeStack : List (Option SimdType)
  labelStack : List Label
  printed : List String
  deriving DecidableEq, Repr

namespace TypeChecker

variable (checker : TypeChecker)

def peekType (depth : Nat) : Wasm.Result × Option SimdType :=
  match checker.labelStack with
  | [] => (.error, none)
  | label :: _ =>
      if checker.typeStack.length ≤ label.typeStackLimit + depth then
        (.ofBool label.unreachable, none)
      else (.ok, checker.typeStack.getD depth none)

def checkType (actual expected : Option SimdType) : Wasm.Result :=
  .ofBool (decide (expected = actual ∨ expected = none ∨ actual = none))

def peekAndCheckType (depth : Nat) (expected : SimdType) : Wasm.Result :=
  let (result, actual) := checker.peekType depth
  result.or (checkType actual (some expected))

def dropTypes (dropCount : Nat) : Wasm.Result × TypeChecker :=
  match checker.labelStack with
  | [] => (.error, checker)
  | label :: _ =>
      if checker.typeStack.length < label.typeStackLimit + dropCount then
        (.ofBool label.unreachable, { checker with
          typeStack := checker.typeStack.drop (checker.typeStack.length - label.typeStackLimit) })
      else (.ok, { checker with typeStack := checker.typeStack.drop dropCount })

def pushType (type : SimdType) : TypeChecker :=
  { checker with typeStack := some type :: checker.typeStack }

def popAndCheck1Type (expected : SimdType) : Wasm.Result × TypeChecker :=
  let (dropped, after) := checker.dropTypes 1
  ((checker.peekAndCheckType 0 expected).or dropped, after)

def popAndCheck2Types (expected1 expected2 : SimdType) : Wasm.Result × TypeChecker :=
  let (dropped, after) := checker.dropTypes 2
  (((checker.peekAndCheckType 0 expected2).or (checker.peekAndCheckType 1 expected1)).or dropped,
    after)

/-- `CheckOpcode1`, with the columns of the opcode. -/
def checkOpcode1 (paramType1 resultType : SimdType) : Wasm.Result × TypeChecker :=
  let (result, after) := checker.popAndCheck1Type paramType1
  (result, after.pushType resultType)

def checkOpcode2 (paramType1 paramType2 resultType : SimdType) : Wasm.Result × TypeChecker :=
  let (result, after) := checker.popAndCheck2Types paramType1 paramType2
  (result, after.pushType resultType)

def print (message : String) : TypeChecker :=
  { checker with printed := checker.printed ++ [message] }

/-- `OnSimdLaneOp`: what is printed does not change the result. -/
def onSimdLaneOp (opcode : LaneOpcode) (laneIdx : Nat) : Wasm.Result × TypeChecker :=
  let checker :=
    if opcode.simdLaneCount ≤ laneIdx then
      checker.print ("lane index must be less than " ++ toString opcode.simdLaneCount ++
        " (got " ++ toString laneIdx ++ ")")
    else checker
  if opcode.isReplace then
    checker.checkOpcode2 .v128 (.value opcode.laneType) .v128
  else
    checker.checkOpcode1 .v128 (.value opcode.laneType)

def onSimdShuffleOp (laneIdx : BitVec 128) : Wasm.Result × TypeChecker :=
  let checker := (lanes 8 laneIdx).foldl (fun checker simdData =>
    if 32 ≤ simdData.toNat then
      checker.print ("lane index must be less than 32 (got " ++ toString simdData.toNat ++ ")")
    else checker) checker
  checker.checkOpcode2 .v128 .v128 .v128

end TypeChecker

/-! ## The code of a body -/

/-- An instruction of the interpreter: one that selects lanes, or another one
by its code and immediates. -/
inductive Emitted where
  | simd (instr : LaneInstr)
  | other (code : Nat) (immediates : List Int)
  deriving DecidableEq, Repr

def Emitted.simd? : Emitted -> Option LaneInstr
  | simd instr => some instr
  | other _ _ => none

/-- `BinaryReaderInterp` in a body. -/
structure BodyReader where
  typechecker : TypeChecker
  code : List Emitted
  deriving DecidableEq, Repr

/-- The instructions that select lanes. -/
def BodyReader.selecting (reader : BodyReader) : List LaneInstr :=
  reader.code.filterMap Emitted.simd?

namespace BodyReader

variable (reader : BodyReader)

/-- `CHECK_RESULT` of a callback of the type checker, and what is emitted then. -/
def emitChecked (emitted : Emitted) (checked : Wasm.Result × TypeChecker) :
    Except Failure BodyReader :=
  if checked.1 = .ok then .ok { typechecker := checked.2, code := reader.code ++ [emitted] }
  else .error (.error (.text "callback failed"))

def onSimdLaneOpExpr (opcode : LaneOpcode) (value : BitVec 8) : Except Failure BodyReader :=
  reader.emitChecked (.simd (.lane opcode value))
    (reader.typechecker.onSimdLaneOp opcode value.toNat)

def onSimdShuffleOpExpr (value : BitVec 128) : Except Failure BodyReader :=
  reader.emitChecked (.simd (.shuffle value)) (reader.typechecker.onSimdShuffleOp value)

end BodyReader

/-- The callbacks of the other instructions.  They emit and patch code, but none
that selects lanes. -/
structure OtherCallbacks where
  beginFunctionBody : Nat -> BodyReader -> Except Failure BodyReader
  onExpr : Binary.Instr -> Nat -> BodyReader -> Except Failure BodyReader
  endFunctionBody : Nat -> BodyReader -> Except Failure BodyReader
  beginKeeps : forall index reader after,
    beginFunctionBody index reader = .ok after -> after.selecting = reader.selecting
  exprKeeps : forall instr offset reader after,
    onExpr instr offset reader = .ok after -> after.selecting = reader.selecting
  endKeeps : forall index reader after,
    endFunctionBody index reader = .ok after -> after.selecting = reader.selecting

/-- The lanes that an instruction of the module selects, in the types of the
variables that `ReadFunctionBody` reads them to. -/
def laneInstr (instr : Binary.Instr) : Option LaneInstr :=
  if instr.callback = .expr .simdLaneOp then
    (LaneOpcode.ofCode instr.opcode).map fun opcode =>
      .lane opcode (BitVec.ofInt 8 (instr.immediates.headD 0))
  else if instr.callback = .expr .simdShuffleOp then
    some (.shuffle (BitVec.ofInt 128 (instr.immediates.headD 0)))
  else none

namespace OtherCallbacks

variable (others : OtherCallbacks)

def answerExpr (instr : Binary.Instr) (offset : Nat) (reader : BodyReader) : Except Failure BodyReader :=
  match laneInstr instr with
  | some (.lane opcode value) => reader.onSimdLaneOpExpr opcode value
  | some (.shuffle value) => reader.onSimdShuffleOpExpr value
  | none => others.onExpr instr offset reader

/-- The delegate `BinaryReaderInterp`. -/
def delegate : Delegate BodyReader where
  onFunctionBodyCount _ := .ok
  beginFunctionBody := others.beginFunctionBody
  onExpr := others.answerExpr
  onEndFunc := .ok
  endFunctionBody := others.endFunctionBody

end OtherCallbacks

/-! ## The interpreter -/

/-- The bits of a lane. -/
def LaneOpcode.laneWidth : LaneOpcode -> Nat
  | .i8x16ExtractLaneS | .i8x16ExtractLaneU | .i8x16ReplaceLane => 8
  | .i16x8ExtractLaneS | .i16x8ExtractLaneU | .i16x8ReplaceLane => 16
  | .i32x4ExtractLane | .i32x4ReplaceLane | .f32x4ExtractLane | .f32x4ReplaceLane => 32
  | .i64x2ExtractLane | .i64x2ReplaceLane | .f64x2ExtractLane | .f64x2ReplaceLane => 64

def LaneOpcode.isSigned : LaneOpcode -> Bool
  | .i8x16ExtractLaneS | .i16x8ExtractLaneS => true
  | _ => false

/-- `Bitcast` of an array of lanes. -/
def fromLanes {width : Nat} (values : List (BitVec width)) : BitVec 128 :=
  values.foldr (fun lane rest => rest <<< width ||| lane.setWidth 128) 0

/-- `SimdExtractLane`; there is no lane outside of the array. -/
def simdExtractLane (width : Nat) (value : BitVec 128) (laneIdx : Nat) : Option (BitVec width) :=
  (lanes width value)[laneIdx]?

/-- `SimdReplaceLane` -/
def simdReplaceLane (width : Nat) (value : BitVec 128) (laneIdx : Nat) (laneVal : BitVec width) :
    Option (BitVec 128) :=
  if laneIdx < (lanes width value).length then
    some (fromLanes ((lanes width value).set laneIdx laneVal))
  else none

/-- What a selector of `V8X16Shuffle` selects; it is an `int8_t`. -/
def selectLane (first second : BitVec 128) (selector : BitVec 8) : Option (BitVec 8) :=
  let laneIdx := selector.toInt
  if laneIdx < 0 then none
  else if laneIdx < 16 then (lanes 8 first)[laneIdx.toNat]?
  else (lanes 8 second)[(laneIdx - 16).toNat]?

/-- An instruction on the value stack, its top first.  There is no result where
a lane is outside of its vector, or an operand is missing. -/
def LaneInstr.execute : LaneInstr -> List (BitVec 128) -> Option (List (BitVec 128))
  | .lane opcode laneIdx, laneVal :: rest =>
      if opcode.isReplace then
        match rest with
        | [] => none
        | value :: rest =>
            (simdReplaceLane opcode.laneWidth value laneIdx.toNat
              (laneVal.setWidth opcode.laneWidth)).map (· :: rest)
      else
        (simdExtractLane opcode.laneWidth laneVal laneIdx.toNat).map fun lane =>
          (if opcode.isSigned then (lane.signExtend 32).setWidth 128 else lane.setWidth 128) :: rest
  | .shuffle laneIdx, second :: first :: rest =>
      ((lanes 8 laneIdx).mapM (selectLane first second)).map (fromLanes · :: rest)
  | _, _ => none

/-- Wherever a thread is in the code and whatever its operands are, lanes are
accessed inside of their vectors. -/
def LanesInside (code : List Emitted) : Prop :=
  forall (pc : Nat) (instr : LaneInstr), code[pc]? = some (.simd instr) ->
    forall (second first : BitVec 128) (rest : List (BitVec 128)),
      (instr.execute (second :: first :: rest)).isSome = true

theorem length_lanes (width : Nat) (value : BitVec 128) :
    (lanes width value).length = 128 / width := by
  rw [lanes, List.length_map, List.length_range]

theorem laneWidth_count (opcode : LaneOpcode) : 128 / opcode.laneWidth = opcode.simdLaneCount := by
  cases opcode <;> rfl

theorem selectLane_isSome (first second : BitVec 128) (selector : BitVec 8) :
    (selectLane first second selector).isSome = true ↔ selector.toNat < 32 := by
  have number := BitVec.toInt_eq_toNat_cond selector
  have bound := selector.isLt
  rw [selectLane]
  by_cases negative : selector.toInt < 0
  · rw [if_pos negative]
    have large : ¬ selector.toNat < 32 := by split at number <;> omega
    simp [large]
  · rw [if_neg negative]
    have same : selector.toInt = selector.toNat := by split at number <;> omega
    rw [same]
    split
    case isTrue small =>
      rw [isSome_getElem?, length_lanes]
      omega
    case isFalse large =>
      rw [isSome_getElem?, length_lanes]
      omega

theorem mapM_isSome {α β : Type} (pick : α -> Option β) (values : List α) :
    (values.mapM pick).isSome = true ↔
      forall value, value ∈ values -> (pick value).isSome = true := by
  induction values with
  | nil => simp
  | cons value values inductionHypothesis =>
      rw [List.mapM_cons, List.forall_mem_cons, ← inductionHypothesis]
      cases pick value with
      | none => simp
      | some picked => cases values.mapM pick <;> simp

/-- An access is inside of its vector exactly if the selectors are in range. -/
theorem execute_isSome (instr : LaneInstr) (second first : BitVec 128)
    (rest : List (BitVec 128)) :
    (instr.execute (second :: first :: rest)).isSome = true ↔ instr.InRange := by
  cases instr with
  | lane opcode laneIdx =>
      rw [LaneInstr.execute, LaneInstr.InRange, ← laneWidth_count]
      split
      · rw [Option.isSome_map, simdReplaceLane, length_lanes]
        split <;> simp [*]
      · rw [Option.isSome_map, simdExtractLane, isSome_getElem?, length_lanes]
  | shuffle laneIdx =>
      rw [LaneInstr.execute, LaneInstr.InRange, Option.isSome_map, mapM_isSome]
      exact forall₂_congr fun selector _ => selectLane_isSome first second selector

theorem lanesInside_iff (code : List Emitted) :
    LanesInside code ↔ forall instr, instr ∈ code.filterMap Emitted.simd? -> instr.InRange := by
  constructor
  · intro inside instr member
    rcases List.mem_filterMap.mp member with ⟨emitted, isEmitted, same⟩
    rcases List.getElem?_of_mem isEmitted with ⟨pc, found⟩
    cases emitted with
    | other _ _ => cases same
    | simd other =>
        cases same
        exact (execute_isSome instr 0 0 []).mp (inside pc instr found 0 0 [])
  · intro inRange pc instr found second first rest
    refine (execute_isSome instr second first rest).mpr (inRange instr ?_)
    exact List.mem_filterMap.mpr ⟨_, List.mem_of_getElem? found, rfl⟩

/-! ## A body -/

section Body

variable {others : OtherCallbacks} {reader after : BodyReader}

theorem selecting_emitChecked {instr : LaneInstr} {checked : Wasm.Result × TypeChecker}
    (emitted : reader.emitChecked (.simd instr) checked = .ok after) :
    after.selecting = reader.selecting ++ [instr] := by
  rw [BodyReader.emitChecked] at emitted
  split at emitted
  · cases emitted
    exact List.filterMap_append
  · cases emitted

/-- A callback emits the lanes that its instruction selects, whatever they are. -/
theorem selecting_callback {endOffset offset : Nat} {instr : Binary.Instr}
    (called : Reader.callback others.delegate endOffset instr offset reader = .ok after) :
    after.selecting = reader.selecting ++ (laneInstr instr).toList := by
  rw [Reader.callback] at called
  split at called
  case isTrue closes =>
    have isEnd : instr.callback = .onEnd := by
      rw [Reader.closesFunction, Bool.and_eq_true] at closes
      exact of_decide_eq_true closes.1
    have nothing : laneInstr instr = none := by
      rw [laneInstr, isEnd]
      rfl
    cases called
    rw [nothing]
    exact (List.append_nil _).symm
  case isFalse =>
    change others.answerExpr instr offset reader = .ok after at called
    rw [OtherCallbacks.answerExpr] at called
    cases selects : laneInstr instr with
    | none =>
        rw [selects] at called
        exact (others.exprKeeps instr offset reader after called).trans (List.append_nil _).symm
    | some found =>
        rw [selects] at called
        cases found with
        | lane opcode value => exact selecting_emitChecked called
        | shuffle value => exact selecting_emitChecked called

theorem selecting_callbacks {endOffset : Nat} {instrs : List (Binary.Instr × Nat)}
    (called : instrs.foldlM (fun reader item =>
      Reader.callback others.delegate endOffset item.1 item.2 reader) reader = .ok after) :
    after.selecting = reader.selecting ++ instrs.filterMap fun item => laneInstr item.1 := by
  induction instrs generalizing reader with
  | nil =>
      cases called
      exact (List.append_nil _).symm
  | cons item instrs inductionHypothesis =>
      rw [List.foldlM_cons] at called
      rcases bind_ok.mp called with ⟨middle, first, later⟩
      rw [inductionHypothesis later, selecting_callback first, List.append_assoc]
      cases selects : laneInstr item.1 with
      | none =>
          rw [List.filterMap_cons, selects]
          rfl
      | some found =>
          rw [List.filterMap_cons, selects]
          rfl

/-- A body that is read is emitted with the lanes that its instructions select. -/
theorem selecting_body {body : Body} {index next : Nat}
    (read : body.run others.delegate index reader = .ok (next, after)) :
    after.selecting = reader.selecting ++ body.instrs.filterMap fun item => laneInstr item.1 := by
  rcases bind_ok.mp read with ⟨begun, first, later⟩
  rcases bind_ok.mp later with ⟨called, middle, later⟩
  cases failure : body.failure with
  | some failure =>
      rw [failure] at later
      cases later
  | none =>
      rw [failure] at later
      rcases bind_ok.mp later with ⟨ended, last, done⟩
      cases done
      rw [others.endKeeps _ _ _ last, selecting_callbacks middle, others.beginKeeps _ _ _ first]

end Body

/-- The lanes that the instructions of a body select are in range. -/
def BodyInRange (body : Body) : Prop :=
  forall item, item ∈ body.instrs ->
    forall instr, laneInstr item.1 = some instr -> instr.InRange

/-- **Lanes**: whatever the other callbacks do, the code behind a body that is
accepted accesses lanes inside of their vectors exactly if the code before it
does and every lane that the body selects is in range. -/
theorem lanes_inside_iff (others : OtherCallbacks) (module : Reader) (index offset : Nat)
    (before after : BodyReader) (next : Nat)
    (accepted : module.readBody others.delegate index offset before = .ok (next, after)) :
    LanesInside after.code ↔
      LanesInside before.code ∧ BodyInRange (module.decodeBody offset) := by
  rw [Reader.readBody_eq] at accepted
  have selects := selecting_body accepted
  rw [BodyReader.selecting, BodyReader.selecting] at selects
  rw [lanesInside_iff, lanesInside_iff, selects]
  constructor
  · intro inRange
    refine ⟨fun instr member => inRange instr (List.mem_append_left _ member), ?_⟩
    intro item isItem instr selected
    exact inRange instr
      (List.mem_append_right _ (List.mem_filterMap.mpr ⟨item, isItem, selected⟩))
  · rintro ⟨earlier, inRange⟩ instr member
    rcases List.mem_append.mp member with member | member
    · exact earlier instr member
    · rcases List.mem_filterMap.mp member with ⟨item, isItem, selected⟩
      exact inRange item isItem instr selected

/-! ## A lane that does not exist -/

/-- `v128.const`, `drop` and the ends of a function without results. -/
def straightLine : OtherCallbacks where
  beginFunctionBody _ reader :=
    .ok { reader with typechecker := ⟨[], [⟨0, false⟩], reader.typechecker.printed⟩ }
  onExpr instr _ reader :=
    if instr.opcode = 0xfd00 then
      .ok { typechecker := reader.typechecker.pushType .v128
            code := reader.code ++ [.other instr.opcode instr.immediates] }
    else if instr.opcode = 0x1a then
      reader.emitChecked (.other 0x1a []) (reader.typechecker.dropTypes 1)
    else .error (.error (.text "not modelled"))
  endFunctionBody _ reader :=
    if reader.typechecker.typeStack = [] then
      .ok { reader with code := reader.code ++ [.other 0x0f []] }
    else .error (.error (.text "type mismatch in function"))
  beginKeeps _ _ _ begun := by
    cases begun
    rfl
  exprKeeps instr _ reader after called := by
    split at called
    · cases called
      exact List.filterMap_append.trans (List.append_nil _)
    · split at called
      · rw [BodyReader.emitChecked] at called
        split at called
        · cases called
          exact List.filterMap_append.trans (List.append_nil _)
        · cases called
      · cases called
  endKeeps _ reader _ ended := by
    split at ended
    · cases ended
      exact List.filterMap_append.trans (List.append_nil _)
    · cases ended

/-- A body with `v128.const 0`, `i32x4.extract_lane 200` and `drop`. -/
def strayLane : Reader where
  data := [0x18, 0x00, 0xfd, 0x00, 0, 0, 0, 0, 0, 0, 0, 0, 0, 0, 0, 0, 0, 0, 0, 0,
    0xfd, 0x0d, 0xc8, 0x1a, 0x0b]
  readEnd := 25
  features := ⟨false, false, false, true, false⟩
  numFuncImports := 0
  numFunctionSignatures := 1
  numSignatures := 1

def noCode : BodyReader := ⟨⟨[], [], []⟩, []⟩

/-- What is emitted for it, although the lane is reported. -/
def strayCode : BodyReader where
  typechecker := ⟨[], [⟨0, false⟩], ["lane index must be less than 4 (got 200)"]⟩
  code := [.other 0xfd00 [0], .simd (.lane .i32x4ExtractLane 200), .other 0x1a [], .other 0x0f []]

theorem read_strayLane :
    strayLane.readBody straightLine.delegate 0 0 noCode = .ok (25, strayCode) := by
  decide +kernel

theorem lanes_inside_iff_strayLane :
    LanesInside strayCode.code ↔
      LanesInside noCode.code ∧ BodyInRange (strayLane.decodeBody 0) :=
  lanes_inside_iff straightLine strayLane 0 0 noCode strayCode 25 read_strayLane

/-- The body is accepted with SIMD enabled, and the lane is outside of its vector. -/
theorem lanes_outside : ¬ forall (others : OtherCallbacks) (module : Reader) (index offset : Nat)
    (before after : BodyReader) (next : Nat), module.features.simd = true ->
    LanesInside before.code ->
    module.readBody others.delegate index offset before = .ok (next, after) ->
    LanesInside after.code := by
  intro claim
  have empty : LanesInside noCode.code := by
    intro pc instr found
    cases found
  have inside := claim straightLine strayLane 0 0 noCode strayCode 25 rfl empty read_strayLane
  exact absurd (inside 1 _ rfl 0 0 []) (by decide)

end Simd
end Interp
end WasmSandboxing
