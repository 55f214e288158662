import WasmSandboxing.CWriter.Execution
import WasmSandboxing.CWriter.MemoryAccess
import WasmSandboxing.Wasm.LiveTypes

namespace WasmSandboxing
namespace CWriter

open Foundation CLang WasmRt Wasm Semantics

/-!
# Commands of expressions

An expression without a body that is not a branch is written as one command,
or as none.  On variables that hold the operands the command does what the
expression does.  What is assumed of the operators on floats is that their
commands compute them.
-/

variable {scope : FuncScope} {Rest : Type} {fpu : FloatUnit}

/-! ## Operators -/

/-- An assignment gives its variable the value that is expected, or traps. -/
inductive Computed (target : CVar Scheme.applied) :
    Except (Stop Trap) Value -> Except (Stop Trap) (CVar Scheme.applied × CValue) -> Prop
  | value (value : Value) : Computed target (.ok value) (.ok (target, cValue value))
  | trap (code : Trap) : Computed target (.error (.trap code)) (.error (.trap code))
  | unsaid (result : Except (Stop Trap) (CVar Scheme.applied × CValue)) :
      Computed target (.error .undefined) result

theorem SameOutcome.computed {target : CVar Scheme.applied} {resultType : ValueType}
    {result : Except Interp.Result Interp.Value}
    {made : Except (Stop Trap) (CVar Scheme.applied × CValue)}
    (same : SameOutcome target resultType result made) :
    Computed target (operatorResult resultType result) made := by
  cases same with
  | value value =>
      rw [← cValue_ofRaw]
      exact .value _
  | divideByZero => exact .trap _
  | overflow => exact .trap _

/-- A type of integers. -/
def Integral (type : ValueType) : Prop := type = .i32 ∨ type = .i64

/-- The commands of the operators on floats compute these operators. -/
structure FloatsAgree (fpu : FloatUnit) (others : Interp.Numerics) : Prop where
  binary : forall {opcode : BinaryOpcode}, ¬ Integral opcode.paramType1 ->
    forall {declared : CVar Scheme.applied -> CType}
      {valuation : CVar Scheme.applied -> Option CValue} {state : WriterState Scheme.applied}
      {below : List ValueType} {lhs rhs : Interp.Value},
      TwoOperands declared valuation state below opcode.paramType1 lhs rhs ->
      forall {command after}, writeBinary opcode state = some (command, after) ->
        Computed (.stack below.length opcode.resultType)
          (operatorResult opcode.resultType (others.binary opcode lhs rhs))
          (runAssignment fpu declared valuation command)
  compare : forall {opcode : CompareOpcode}, ¬ Integral opcode.paramType1 ->
    forall {declared : CVar Scheme.applied -> CType}
      {valuation : CVar Scheme.applied -> Option CValue} {state : WriterState Scheme.applied}
      {below : List ValueType} {lhs rhs : Interp.Value},
      TwoOperands declared valuation state below opcode.paramType1 lhs rhs ->
      forall {command after}, writeCompare opcode state = some (command, after) ->
        Computed (.stack below.length opcode.resultType)
          (operatorResult opcode.resultType (others.compare opcode lhs rhs))
          (runAssignment fpu declared valuation command)
  unary : forall {opcode : UnaryOpcode}, ¬ Integral opcode.paramType1 ->
    forall {declared : CVar Scheme.applied -> CType}
      {valuation : CVar Scheme.applied -> Option CValue} {state : WriterState Scheme.applied}
      {below : List ValueType} {value : Interp.Value},
      OneOperand declared valuation state below opcode.paramType1 value ->
      forall {command after}, writeUnary opcode state = some (command, after) ->
        Computed (.stack below.length opcode.resultType)
          (operatorResult opcode.resultType (others.unary opcode value))
          (runAssignment fpu declared valuation command)
  convert : forall {opcode : ConvertOpcode},
    ¬ (Integral opcode.paramType1 ∧ Integral opcode.resultType) ->
    forall {declared : CVar Scheme.applied -> CType}
      {valuation : CVar Scheme.applied -> Option CValue} {state : WriterState Scheme.applied}
      {below : List ValueType} {value : Interp.Value},
      OneOperand declared valuation state below opcode.paramType1 value ->
      forall {command after}, writeConvert opcode state = some (command, after) ->
        Computed (.stack below.length opcode.resultType)
          (operatorResult opcode.resultType (others.convert opcode value))
          (runAssignment fpu declared valuation command)

theorem Agrees.computed {declared : CVar Scheme.applied -> CType}
    {valuation : CVar Scheme.applied -> Option CValue} {below : List ValueType}
    {resultType : ValueType} {written : Written Scheme.applied}
    {result : Except Interp.Result Interp.Value} {command : Command Scheme.applied}
    {after : WriterState Scheme.applied}
    (agrees : Agrees fpu declared valuation below resultType written result)
    (same : written = some (command, after)) :
    Computed (.stack below.length resultType) (operatorResult resultType result)
      (runAssignment fpu declared valuation command) := by
  rcases agrees with ⟨other, otherAfter, also, _, outcome⟩
  rw [same] at also
  cases also
  exact outcome.computed

section Operators

variable {others : Interp.Numerics} {declared : CVar Scheme.applied -> CType}
  {valuation : CVar Scheme.applied -> Option CValue} {state after : WriterState Scheme.applied}
  {below : List ValueType} {lhs rhs value : Interp.Value} {command : Command Scheme.applied}

theorem FloatsAgree.writeBinary_computed (floats : FloatsAgree fpu others) {opcode : BinaryOpcode}
    (operands : TwoOperands declared valuation state below opcode.paramType1 lhs rhs)
    (written : writeBinary opcode state = some (command, after)) :
    Computed (.stack below.length opcode.resultType)
      (operatorResult opcode.resultType ((Interp.withIntegers others).binary opcode lhs rhs))
      (runAssignment fpu declared valuation command) := by
  by_cases integral : Integral opcode.paramType1
  · exact (binary_agrees others opcode integral operands).computed written
  · have same : (Interp.withIntegers others).binary opcode = others.binary opcode := by
      cases opcode <;> first
        | rfl
        | exact absurd (.inl rfl) integral
        | exact absurd (.inr rfl) integral
    rw [same]
    exact floats.binary integral operands written

theorem FloatsAgree.writeCompare_computed (floats : FloatsAgree fpu others)
    {opcode : CompareOpcode}
    (operands : TwoOperands declared valuation state below opcode.paramType1 lhs rhs)
    (written : writeCompare opcode state = some (command, after)) :
    Computed (.stack below.length opcode.resultType)
      (operatorResult opcode.resultType ((Interp.withIntegers others).compare opcode lhs rhs))
      (runAssignment fpu declared valuation command) := by
  by_cases integral : Integral opcode.paramType1
  · exact (compare_agrees others opcode integral operands).computed written
  · have same : (Interp.withIntegers others).compare opcode = others.compare opcode := by
      cases opcode <;> first
        | rfl
        | exact absurd (.inl rfl) integral
        | exact absurd (.inr rfl) integral
    rw [same]
    exact floats.compare integral operands written

theorem FloatsAgree.writeUnary_computed (floats : FloatsAgree fpu others) {opcode : UnaryOpcode}
    (operands : OneOperand declared valuation state below opcode.paramType1 value)
    (written : writeUnary opcode state = some (command, after)) :
    Computed (.stack below.length opcode.resultType)
      (operatorResult opcode.resultType ((Interp.withIntegers others).unary opcode value))
      (runAssignment fpu declared valuation command) := by
  by_cases integral : Integral opcode.paramType1
  · exact (unary_agrees others opcode integral operands).computed written
  · have same : (Interp.withIntegers others).unary opcode = others.unary opcode := by
      cases opcode <;> first
        | rfl
        | exact absurd (.inl rfl) integral
        | exact absurd (.inr rfl) integral
    rw [same]
    exact floats.unary integral operands written

theorem FloatsAgree.writeConvert_computed (floats : FloatsAgree fpu others)
    {opcode : ConvertOpcode}
    (operands : OneOperand declared valuation state below opcode.paramType1 value)
    (written : writeConvert opcode state = some (command, after)) :
    Computed (.stack below.length opcode.resultType)
      (operatorResult opcode.resultType ((Interp.withIntegers others).convert opcode value))
      (runAssignment fpu declared valuation command) := by
  by_cases integral : Integral opcode.paramType1 ∧ Integral opcode.resultType
  · exact (convert_agrees others opcode integral operands).computed written
  · have same : (Interp.withIntegers others).convert opcode = others.convert opcode := by
      cases opcode <;> first
        | rfl
        | exact absurd ⟨.inl rfl, .inl rfl⟩ integral
        | exact absurd ⟨.inl rfl, .inr rfl⟩ integral
        | exact absurd ⟨.inr rfl, .inl rfl⟩ integral
    rw [same]
    exact floats.convert integral operands written

end Operators

/-! ### What the writer makes of them -/

section Writing

variable {state : WriterState Scheme.applied} {below : List ValueType}

/-- An assignment, plain or compound. -/
inductive IsAssignment : Command Scheme.applied -> Prop
  | assign : IsAssignment (.assign target value)
  | compound : IsAssignment (.compound operator target value)

theorem IsAssignment.run {command : Command Scheme.applied} (assignment : IsAssignment command)
    (callees : Callees scope.globalType Rest) (given : CState scope Rest) :
    runCommand fpu callees command given =
      given.assigned (runAssignment fpu (declared scope) given.valuation command) := by
  cases assignment <;> rfl

theorem writeBinary_eq (opcode : BinaryOpcode)
    (typed : state.typeStack = opcode.paramType1 :: opcode.paramType1 :: below) :
    ∃ command, writeBinary opcode state =
        some (command, { state with typeStack := opcode.resultType :: below }) ∧
      IsAssignment command := by
  cases opcode <;> first
    | exact ⟨_, writeInfix_eq typed _, .compound⟩
    | exact ⟨_, writePrefix_eq typed _, .assign⟩
    | exact ⟨_, writeShift_eq typed rfl _, .compound⟩
    | exact ⟨_, writeSignedShift_eq typed rfl rfl, .assign⟩

theorem writeCompare_eq (opcode : CompareOpcode)
    (typed : state.typeStack = opcode.paramType1 :: opcode.paramType1 :: below) :
    ∃ command, writeCompare opcode state =
        some (command, { state with typeStack := opcode.resultType :: below }) ∧
      IsAssignment command := by
  cases opcode <;> first
    | exact ⟨_, writeInfixCompare_eq typed _, .assign⟩
    | exact ⟨_, writeSigned_eq typed rfl _, .assign⟩

end Writing

/-! ## Memory accesses -/

theorem bmod_small {number : Nat} {modulus : Nat} (small : 2 * number < modulus) :
    (number : ℤ).bmod modulus = number :=
  Int.bmod_eq_of_le (by omega) (by omega)

/-- The accessor of a load gives its variable what the load pushes. -/
theorem loadFunction_value (fpu : FloatUnit) (opcode : LoadOpcode) {representation : Nat}
    (bounded : representation < 256 ^ opcode.memorySize) :
    ((loadFunction opcode).result fpu representation).bind
        (fun value => value.convert fpu (cType opcode.resultType)) =
      some (valueOf opcode.resultType (Interp.loadValue opcode representation)) := by
  have widened (narrow : Nat) (below : narrow ≤ 32) (bits : BitVec narrow) :
      BitVec.ofInt 64 (bits.signExtend 32).toInt = bits.signExtend 64 := by
    rw [BitVec.toInt_signExtend_of_le below]
    rfl
  have read (width : Nat) (small : representation < 2 ^ 31) (number : ℤ)
      (same : number = representation) :
      BitVec.ofInt width (number.bmod 4294967296) = BitVec.ofNat width representation := by
    rw [same, bmod_small (by omega), BitVec.ofInt_natCast]
  cases opcode <;>
    simp [loadFunction, LoadFunction.result, LoadFunction.types, Cell.value, CValue.convert,
      CValue.ofInt, LoadOpcode.resultType, cType, valueOf, Interp.loadValue, Interp.Value.i32,
      Interp.Value.ofI32, LoadOpcode.memorySize] at bounded ⊢
  case i32Load | i64Load | i64Load32U =>
    rw [Int.emod_eq_of_lt (by omega) (by omega), BitVec.ofInt_natCast]
  case i32Load8U | i32Load16U | i64Load8U => exact read _ (by omega) _ (by omega)
  case i64Load8S => exact widened 8 (by decide) _
  case i64Load16S => exact widened 16 (by decide) _
  case i64Load32S => rfl
  case i64Load16U =>
    rw [read _ (by omega) _ (by omega), BitVec.setWidth_ofNat_of_le_of_lt (by decide) (by omega)]

theorem bits_cValue (value : Value) : bits (cValue value) = value.raw.toNat := by
  cases value with
  | i32 given | f32 given =>
      have bound : given.toNat < 2 ^ 64 := by
        have small := given.isLt
        omega
      rw [Value.raw, Interp.Value.ofI32, BitVec.toNat_setWidth, Nat.mod_eq_of_lt bound]
      rfl
  | i64 given | f64 given => rfl

section Accesses

variable {declaredTypes : CVar Scheme.applied -> CType}
  {valuation : CVar Scheme.applied -> Option CValue} {base offset : BitVec 32}
  {memory : WasmRt.Memory}

/-- What comes of an access that has a result or traps. -/
inductive Accessed : Except (Stop Trap) (Option CValue × WasmRt.Memory) ->
    Execution WasmRt.Memory Access Fault (Option CValue) -> Prop
  | value (result : Option CValue) (memory : WasmRt.Memory) (accesses : List Access) :
      Accessed (.ok (result, memory)) ⟨.value result, memory, accesses⟩
  | trap (code : Trap) (memory : WasmRt.Memory) (accesses : List Access) :
      Accessed (.error (.trap code)) ⟨.fault (.trap code), memory, accesses⟩
  | unsaid (run : Execution WasmRt.Memory Access Fault (Option CValue)) :
      Accessed (.error .undefined) run

/-- The address that is emitted, where it does not wrap. -/
theorem emittedAddress_exact (exact : ¬ Wraps offset base) :
    (emittedAddress base offset).toNat = base.toNat + offset.toNat := by
  rw [emittedAddress_toNat]
  exact if_neg exact

theorem exact_room (exact : ¬ Wraps offset base) {size : Nat} (small : size ≤ 8) :
    (emittedAddress base offset).toNat + size < 2 ^ 64 := by
  have baseBound := base.isLt
  have offsetBound := offset.isLt
  rw [emittedAddress_exact exact]
  omega

theorem load_accessed (fpu : FloatUnit) {index : Nat}
    (declares : forall index type, declaredTypes (.stack index type) = cType type)
    (holds : valuation (.stack index .i32) = some (.u32 base)) (opcode : LoadOpcode) :
    Accessed ((load opcode offset base memory).map fun value => (some (cValue value), memory))
      (runAccess fpu declaredTypes valuation
        (.load (.stack index opcode.resultType) (loadFunction opcode)
          (address (.stack index .i32) offset)) memory) := by
  by_cases wraps : Wraps offset base
  · have unsaid : load opcode offset base memory = .error .undefined := by
      rw [load, access, if_pos wraps]
      rfl
    rw [unsaid]
    exact .unsaid _
  have evaluates : (address (.stack index .i32) offset).eval fpu declaredTypes valuation = _ :=
    address_eval fpu holds offset
  have small : opcode.memorySize ≤ 8 := AccessInstr.memorySize_le (.load opcode)
  have room := exact_room wraps small
  rw [← loadFunction_sizeof] at room
  by_cases fits : base.toNat + offset.toNat + opcode.memorySize ≤ memory.size.toNat
  · have inside := fits
    rw [← emittedAddress_exact wraps, ← loadFunction_sizeof] at inside
    rcases LoadFunction.call_inside fpu (loadFunction opcode) room inside with
      ⟨value, result, called⟩
    have converts := loadFunction_value fpu opcode (memory.data.read_lt
      (emittedAddress base offset).toNat opcode.memorySize)
    rw [← loadFunction_sizeof, result, Option.bind_some, loadFunction_sizeof,
      emittedAddress_exact wraps, ← cValue_ofRaw] at converts
    have given : load opcode offset base memory =
        .ok (.ofRaw opcode.resultType (Interp.loadValue opcode
          (memory.data.read (base.toNat + offset.toNat) opcode.memorySize))) := by
      rw [load, access, if_neg wraps, if_pos fits]
      rfl
    rw [given]
    simp only [runAccess, runLoad, evaluates, evaluated, addressArgument_u64, called, declares,
      converts, defined_some, Traced.bind_apply, Traced.pure_apply, Traced.andThen_value]
    exact .value _ _ _
  · have beyond : memory.size.toNat <
        (emittedAddress base offset).toNat + (loadFunction opcode).sizeof := by
      rw [emittedAddress_exact wraps, loadFunction_sizeof]
      omega
    have given : load opcode offset base memory = .error (.trap .oob) := by
      rw [load, access, if_neg wraps, if_neg fits]
      rfl
    rw [given]
    simp only [runAccess, runLoad, evaluates, evaluated, addressArgument_u64, Traced.bind_apply,
      Traced.pure_apply, Traced.andThen_value,
      LoadFunction.call_outside fpu (loadFunction opcode) room beyond, Traced.andThen_fault]
    exact .trap _ _ _

theorem store_accessed (fpu : FloatUnit) {index : Nat} {source : CVar Scheme.applied}
    (holds : valuation (.stack index .i32) = some (.u32 base)) (opcode : StoreOpcode)
    {value : Value} (stored : valuation source = some (cValue value))
    (typed : value.type = opcode.paramType2) :
    Accessed ((store opcode offset base value memory).map fun memory => (none, memory))
      (runAccess fpu declaredTypes valuation
        (.store (storeFunction opcode) (address (.stack index .i32) offset) (.var source))
        memory) := by
  by_cases wraps : Wraps offset base
  · have unsaid : store opcode offset base value memory = .error .undefined := by
      rw [store, access, if_pos wraps]
      rfl
    rw [unsaid]
    exact .unsaid _
  have evaluates : (address (.stack index .i32) offset).eval fpu declaredTypes valuation = _ :=
    address_eval fpu holds offset
  have parameter : (cValue value).type = (storeFunction opcode).types.2 := by
    rw [storeFunction_type, type_cValue, typed]
  have small : opcode.memorySize ≤ 8 := AccessInstr.memorySize_le (.store opcode)
  have room := exact_room wraps small
  rw [← storeFunction_sizeof] at room
  by_cases fits : base.toNat + offset.toNat + opcode.memorySize ≤ memory.size.toNat
  · have inside := fits
    rw [← emittedAddress_exact wraps, ← storeFunction_sizeof] at inside
    have called := StoreFunction.call_inside fpu (storeFunction opcode) parameter room inside
    have given : store opcode offset base value memory =
        .ok { memory with
          data := memory.data.write (base.toNat + offset.toNat) opcode.memorySize
            value.raw.toNat } := by
      rw [store, access, if_neg wraps, if_pos fits]
      rfl
    rw [given]
    simp only [runAccess, runStore, evaluates, Expr.eval, stored, Expr.defined_some, evaluated,
      addressArgument_u64, Traced.bind_apply, Traced.pure_apply, Traced.andThen_value, called,
      bits_cValue, storeFunction_sizeof, emittedAddress_exact wraps]
    exact .value _ _ _
  · have beyond : memory.size.toNat <
        (emittedAddress base offset).toNat + (storeFunction opcode).sizeof := by
      rw [emittedAddress_exact wraps, storeFunction_sizeof]
      omega
    have given : store opcode offset base value memory = .error (.trap .oob) := by
      rw [store, access, if_neg wraps, if_neg fits]
      rfl
    rw [given]
    simp only [runAccess, runStore, evaluates, Expr.eval, stored, Expr.defined_some, evaluated,
      addressArgument_u64, Traced.bind_apply, Traced.pure_apply, Traced.andThen_value,
      StoreFunction.call_outside fpu (storeFunction opcode) parameter room beyond,
      Traced.andThen_fault]
    exact .trap _ _ _

end Accesses

/-! ## Constants -/

theorem decode_infinite {format : FloatFormat} {bits : Nat} {negative : Bool}
    (infinite : format.decode bits = .infinite negative) :
    format.exponent bits = 2 ^ format.exponentBits - 1 ∧ format.mantissa bits = 0 ∧
      format.signbit bits = negative := by
  unfold FloatFormat.decode at infinite
  split at infinite
  · split at infinite
    · cases infinite
      exact ⟨‹_›, ‹_›, rfl⟩
    · cases infinite
  · cases infinite

theorem single_infinite {bits : BitVec 32} {negative : Bool}
    (infinite : CValue.single bits = .infinite negative) :
    bits = if negative then 0xFF800000#32 else 0x7F800000#32 := by
  rcases decode_infinite infinite with ⟨exponent, mantissa, sign⟩
  have bound := bits.isLt
  change bits.toNat / 2 ^ 23 % 2 ^ 8 = 2 ^ 8 - 1 at exponent
  change bits.toNat % 2 ^ 23 = 0 at mantissa
  change (bits.toNat / 2 ^ 31 % 2 == 1) = negative at sign
  apply BitVec.eq_of_toNat_eq
  cases negative with
  | true =>
      rw [beq_iff_eq] at sign
      change bits.toNat = 0xFF800000
      omega
  | false =>
      rw [beq_eq_false_iff_ne] at sign
      change bits.toNat = 0x7F800000
      omega

theorem double_infinite {bits : BitVec 64} {negative : Bool}
    (infinite : CValue.double bits = .infinite negative) :
    bits = if negative then 0xFFF0000000000000#64 else 0x7FF0000000000000#64 := by
  rcases decode_infinite infinite with ⟨exponent, mantissa, sign⟩
  have bound := bits.isLt
  change bits.toNat / 2 ^ 52 % 2 ^ 11 = 2 ^ 11 - 1 at exponent
  change bits.toNat % 2 ^ 52 = 0 at mantissa
  change (bits.toNat / 2 ^ 63 % 2 == 1) = negative at sign
  apply BitVec.eq_of_toNat_eq
  cases negative with
  | true =>
      rw [beq_iff_eq] at sign
      change bits.toNat = 0xFFF0000000000000
      omega
  | false =>
      rw [beq_eq_false_iff_ne] at sign
      change bits.toNat = 0x7FF0000000000000
      omega

/-- The literal of a constant, assigned to a variable of its type. -/
theorem constant_eval (fpu : FloatUnit) (declaredTypes : CVar Scheme.applied -> CType)
    (valuation : CVar Scheme.applied -> Option CValue) (value : Value) :
    ∃ given, (constant value : CExpr Scheme.applied).eval fpu declaredTypes valuation = .ok given ∧
      given.convert fpu (cType value.type) = some (cValue value) := by
  cases value with
  | i32 bits => exact ⟨_, rfl, convert_cValue fpu (.i32 bits)⟩
  | i64 bits => exact ⟨_, rfl, convert_cValue fpu (.i64 bits)⟩
  | f32 bits =>
      rw [constant]
      cases decoded : CValue.single bits with
      | nan =>
          refine ⟨.f32 bits, ?_, rfl⟩
          simp [Expr.eval, Function1.parameter, Function1.apply, CValue.convert, CValue.ofInt]
      | infinite negative =>
          rw [single_infinite decoded]
          cases negative <;> exact ⟨_, rfl, rfl⟩
      | finite number =>
          by_cases zero : bits = 0x80000000#32
          · subst zero
            exact ⟨_, rfl, rfl⟩
          · simp only [if_neg zero]
            exact ⟨_, rfl, rfl⟩
  | f64 bits =>
      rw [constant]
      cases decoded : CValue.double bits with
      | nan =>
          refine ⟨.f64 bits, ?_, rfl⟩
          simp [Expr.eval, Function1.parameter, Function1.apply, CValue.convert, CValue.ofInt]
      | infinite negative =>
          rw [double_infinite decoded]
          cases negative with
          | false =>
              exact ⟨_, rfl, congrArg (fun bits => some (CValue.f64 bits)) fpu.promote_infinity⟩
          | true =>
              exact ⟨_, rfl, congrArg (fun bits => some (CValue.f64 bits)) fpu.promote_negInfinity⟩
      | finite number =>
          by_cases zero : bits = 0x8000000000000000#64
          · subst zero
            exact ⟨_, rfl, rfl⟩
          · simp only [if_neg zero]
            exact ⟨_, rfl, rfl⟩

/-! ## Commands -/

/-- The variables, the locals and the instance of a state are those of a frame,
whose operands stand above others. -/
structure Agree (state : CState scope Rest) (frame : Frame scope Rest) (base : List Value) :
    Prop where
  locals : state.locals = frame.locals
  world : state.world = frame.world
  stack : Holds state.stack (frame.stack ++ base)

/-- A command has the effect of an expression that leaves operands of these
types. -/
inductive Follows (base : List Value) (types : List ValueType) :
    Behaviour scope Rest -> Effect (CState scope Rest) (Stop Trap) -> Prop
  | next (agree : Agree state frame base) (typed : frame.stack.map Value.type = types) :
      Follows base types (.next frame) (.next state)
  | trap (code : Trap) : Follows base types (.stopped (.trap code)) (.stop (.trap code))
  | unsaid (effect : Effect (CState scope Rest) (Stop Trap)) :
      Follows base types (.stopped .undefined) effect
  | hang : Follows base types .running .hang

section Performing

variable (fpu : FloatUnit) (numerics : Interp.Numerics)
  (callees functions : Callees scope.globalType Rest)

/-- The expression is written as one command, which follows it.  It takes
operands of the first types, the top first, and leaves those of the second. -/
def Performs (names : List LabelName) (instr : Instr Scheme.binary)
    (taken left : List ValueType) : Prop :=
  forall (state : WriterState Scheme.applied) (below : List ValueType),
    state.typeStack = taken ++ below ->
    ∃ command,
      writeInstr (lookups scope) (ApplyNames.visitInstr names instr) state =
        some (.basic command .done, { state with typeStack := left ++ below }) ∧
      forall (given : CState scope Rest) (frame : Frame scope Rest) (base : List Value)
        (others : List ValueType),
        below = others ++ base.map Value.type ->
        frame.stack.map Value.type = taken ++ others -> Agree given frame base ->
        Follows base (left ++ others) (step numerics callees instr frame)
          (runCommand fpu functions command given)

variable {fpu numerics callees functions} {names : List LabelName} {given : CState scope Rest}
  {frame : Frame scope Rest} {base stack : List Value} {below others : List ValueType}

theorem below_length (same : below = others ++ base.map Value.type)
    (typed : stack.map Value.type = others) : below.length = (stack ++ base).length := by
  subst typed
  rw [same, List.length_append, List.length_map, List.length_map, List.length_append]

/-- Go on behind an operator. -/
theorem Computed.follows {type : ValueType} {expected : Except (Stop Trap) Value}
    {made : Except (Stop Trap) (CVar Scheme.applied × CValue)}
    (computed : Computed (.stack (stack ++ base).length type) expected made)
    (results : forall value, expected = .ok value -> value.type = type)
    (locals : given.locals = frame.locals) (world : given.world = frame.world)
    (holds : Holds given.stack (stack ++ base)) (typed : stack.map Value.type = others) :
    Follows base (type :: others) (frame.operated stack expected) (given.assigned made) := by
  cases computed with
  | value value =>
      have valueTyped := results value rfl
      refine .next ⟨locals, world, CState.holds_push holds valueTyped⟩ ?_
      rw [List.map_cons, valueTyped, typed]
  | trap code => exact .trap code
  | unsaid result => exact .unsaid _

theorem operatorResult_type {type : ValueType} {result : Except Interp.Result Interp.Value}
    {value : Value} (made : operatorResult type result = .ok value) : value.type = type := by
  cases result with
  | ok raw =>
      cases made
      exact Value.type_ofRaw type raw
  | error reason => cases made

/-- Two operands in their variables. -/
theorem twoOperands {state : WriterState Scheme.applied} {type : ValueType} {left right : Value}
    (typedState : state.typeStack = type :: type :: below)
    (length : below.length = (stack ++ base).length) (leftTyped : left.type = type)
    (rightTyped : right.type = type)
    (holds : Holds given.stack (right :: left :: (stack ++ base))) :
    TwoOperands (declared scope) given.valuation state below type left.raw right.raw where
  declares _ _ := rfl
  typed := typedState
  left := by
    rw [← leftTyped, valueOf_raw, length]
    exact holds.2.1
  right := by
    rw [← rightTyped, valueOf_raw, length]
    exact holds.1

theorem oneOperand {state : WriterState Scheme.applied} {type : ValueType} {value : Value}
    (typedState : state.typeStack = type :: below)
    (length : below.length = (stack ++ base).length) (typed : value.type = type)
    (holds : Holds given.stack (value :: (stack ++ base))) :
    OneOperand (declared scope) given.valuation state below type value.raw where
  declares _ _ := rfl
  typed := typedState
  holds := by
    rw [← typed, valueOf_raw, length]
    exact holds.1

/-- Two operands that are assigned a result. -/
theorem performs_two {instr : Instr Scheme.binary} {type resultType : ValueType}
    {write : WriterState Scheme.applied -> Written Scheme.applied}
    {run : Interp.Value -> Interp.Value -> Except Interp.Result Interp.Value}
    (writes : forall state, writeInstr (lookups scope) (ApplyNames.visitInstr names instr) state =
      single (write state))
    (steps : forall left right stack locals world,
      step numerics callees instr (⟨right :: left :: stack, locals, world⟩ : Frame scope Rest) =
        Frame.operated ⟨right :: left :: stack, locals, world⟩ stack
          (operatorResult resultType (run left.raw right.raw)))
    (equation : forall {state : WriterState Scheme.applied} {below},
      state.typeStack = type :: type :: below -> ∃ command,
        write state = some (command, { state with typeStack := resultType :: below }) ∧
          IsAssignment command)
    (computes : forall {valuation state below lhs rhs},
      TwoOperands (declared scope) valuation state below type lhs rhs ->
      forall command after, write state = some (command, after) ->
        Computed (.stack below.length resultType) (operatorResult resultType (run lhs rhs))
          (runAssignment fpu (declared scope) valuation command)) :
    Performs fpu numerics callees functions names instr [type, type] [resultType] := by
  intro state below (typedState : state.typeStack = type :: type :: below)
  rcases equation typedState with ⟨command, written, assignment⟩
  refine ⟨command, ?_, fun given frame base others same typed agree => ?_⟩
  · rw [writes, written]
    rfl
  · rcases frame with ⟨operands, locals, world⟩
    rcases List.map_eq_cons_iff.mp typed with ⟨right, _, rfl, rightTyped, typed⟩
    rcases List.map_eq_cons_iff.mp typed with ⟨left, stack, rfl, leftTyped, typed⟩
    have holds := agree.stack
    have length : below.length = (stack ++ base).length := below_length same typed
    have operands := twoOperands typedState length leftTyped rightTyped holds
    have computed := computes operands _ _ written
    rw [length] at computed
    rw [steps, assignment.run]
    exact computed.follows (fun _ => operatorResult_type) agree.locals agree.world holds.2.2 typed

/-- One operand that is assigned a result. -/
theorem performs_one {instr : Instr Scheme.binary} {type resultType : ValueType}
    {op : CExpr Scheme.applied -> CExpr Scheme.applied}
    {run : Interp.Value -> Except Interp.Result Interp.Value}
    (writes : forall state, writeInstr (lookups scope) (ApplyNames.visitInstr names instr) state =
      single (writeSimpleUnaryExpr resultType op state))
    (steps : forall value stack locals world,
      step numerics callees instr (⟨value :: stack, locals, world⟩ : Frame scope Rest) =
        Frame.operated ⟨value :: stack, locals, world⟩ stack
          (operatorResult resultType (run value.raw)))
    (computes : forall {valuation state below value},
      OneOperand (declared scope) valuation state below type value ->
      forall command after, writeSimpleUnaryExpr resultType op state = some (command, after) ->
        Computed (.stack below.length resultType) (operatorResult resultType (run value))
          (runAssignment fpu (declared scope) valuation command)) :
    Performs fpu numerics callees functions names instr [type] [resultType] := by
  intro state below (typedState : state.typeStack = type :: below)
  have written : writeSimpleUnaryExpr resultType op state = _ := writeSimpleUnary_eq typedState op
  refine ⟨.assign (.stack below.length resultType) (op (.var (.stack below.length type))), ?_,
    fun given frame base others same typed agree => ?_⟩
  · rw [writes, written]
    rfl
  · rcases frame with ⟨operands, locals, world⟩
    rcases List.map_eq_cons_iff.mp typed with ⟨value, stack, rfl, valueTyped, typed⟩
    have holds := agree.stack
    have length : below.length = (stack ++ base).length := below_length same typed
    have operand := oneOperand typedState length valueTyped holds
    have computed := computes operand _ _ written
    rw [length] at computed
    rw [steps, length]
    exact computed.follows (fun _ => operatorResult_type) agree.locals agree.world holds.2 typed

section Operators

variable {floats : Interp.Numerics} (agrees : FloatsAgree fpu floats)
include agrees

theorem performs_binary (opcode : BinaryOpcode) :
    Performs fpu (Interp.withIntegers floats) callees functions names (.binary opcode)
      [opcode.paramType1, opcode.paramType1] [opcode.resultType] :=
  performs_two (fun _ => rfl) (fun _ _ _ _ _ => rfl)
    (writeBinary_eq opcode) fun operands _ _ written =>
      agrees.writeBinary_computed operands written

theorem performs_compare (opcode : CompareOpcode) :
    Performs fpu (Interp.withIntegers floats) callees functions names (.compare opcode)
      [opcode.paramType1, opcode.paramType1] [opcode.resultType] :=
  performs_two (fun _ => rfl) (fun _ _ _ _ _ => rfl)
    (writeCompare_eq opcode) fun operands _ _ written =>
      agrees.writeCompare_computed operands written

theorem performs_unary (opcode : UnaryOpcode) :
    Performs fpu (Interp.withIntegers floats) callees functions names (.unary opcode)
      [opcode.paramType1] [opcode.resultType] :=
  performs_one (fun _ => rfl) (fun _ _ _ _ => rfl)
    fun operands _ _ written => agrees.writeUnary_computed operands written

theorem performs_convert (opcode : ConvertOpcode) :
    Performs fpu (Interp.withIntegers floats) callees functions names (.convert opcode)
      [opcode.paramType1] [opcode.resultType] :=
  performs_one (fun _ => rfl) (fun _ _ _ _ => rfl)
    fun operands _ _ written => agrees.writeConvert_computed operands written

end Operators

/-! ### Variables -/

theorem operand_top {state : WriterState Scheme.applied} {type : ValueType}
    (typedState : state.typeStack = type :: below) :
    state.operand 0 = some (.stack below.length type) := by
  simp [WriterState.operand, WriterState.stackType, WriterState.stackVar, typedState]

/-- A variable is assigned the value of another one. -/
theorem runAssignment_var {target source : CVar Scheme.applied} {value : Value}
    (holds : given.valuation source = some (cValue value))
    (typed : declared scope target = cType value.type) :
    runAssignment fpu (declared scope) given.valuation (.assign target (.var source)) =
      .ok (target, cValue value) :=
  runAssignment_operand (operand_var holds rfl) (by rw [typed, convert_cValue])

/-- A variable whose value is pushed. -/
theorem performs_get {instr : Instr Scheme.binary} (source : CVar Scheme.applied)
    {type : ValueType}
    (writes : forall state, writeInstr (lookups scope) (ApplyNames.visitInstr names instr) state =
      single (writePush type (.var source) state))
    (steps : forall {given : CState scope Rest} {frame base}, Agree given frame base ->
      ∃ value, value.type = type ∧ given.valuation source = some (cValue value) ∧
        step numerics callees instr frame = .next { frame with stack := value :: frame.stack }) :
    Performs fpu numerics callees functions names instr [] [type] := by
  intro state below (typedState : state.typeStack = below)
  subst typedState
  refine ⟨.assign (.stack state.typeStack.length type) (.var source), ?_,
    fun given frame base others same typed agree => ?_⟩
  · rw [writes]
    simp [writePush, single, WriterState.pushType, WriterState.stackVar]
  · rcases steps agree with ⟨value, rfl, held, stepped⟩
    rw [stepped, runCommand, runAssignment_var held rfl, below_length same typed]
    refine .next ⟨agree.locals, agree.world, CState.holds_push agree.stack rfl⟩ ?_
    rw [List.map_cons, typed]
    rfl

theorem performs_getLocal {var : Nat} {type : ValueType}
    (declares : scope.localType var = some type) :
    Performs fpu numerics callees functions names (.getLocal var) [] [type] := by
  refine performs_get (.local var) (fun state => ?_) fun {given frame base} agree => ?_
  · simp only [ApplyNames.visitInstr, writeInstr, lookups, declares]
    rfl
  · rcases frame.locals.value_of_declared declares with ⟨value, found, typed⟩
    refine ⟨value, typed, ?_, by rw [step, found]⟩
    rw [CState.valuation, agree.locals, found]
    rfl

theorem performs_getGlobal {var : Nat} {type : ValueType}
    (declares : scope.globalType var = some type) :
    Performs fpu numerics callees functions names (.getGlobal var) [] [type] := by
  refine performs_get (.global var) (fun state => ?_) fun {given frame base} agree => ?_
  · simp only [ApplyNames.visitInstr, writeInstr, lookups, declares]
    rfl
  · rcases frame.world.globals.value_of_declared declares with ⟨value, found, typed⟩
    refine ⟨value, typed, ?_, by rw [step, found]⟩
    rw [CState.valuation, agree.world, found]
    rfl

/-- A local or a global that is assigned the top of the stack, which is kept or
dropped. -/
theorem performs_set {instr : Instr Scheme.binary} (target : CVar Scheme.applied)
    {type : ValueType} {left : List ValueType} (keep : Value -> List Value)
    (keeps : forall value, value.type = type -> (keep value).map Value.type = left)
    (writes : forall {state : WriterState Scheme.applied} {below},
      state.typeStack = type :: below ->
      writeInstr (lookups scope) (ApplyNames.visitInstr names instr) state =
        some (.basic (.assign target (.var (.stack below.length type))) .done,
          { state with typeStack := left ++ below }))
    (typedTarget : declared scope target = cType type)
    (steps : forall {given : CState scope Rest} {value stack locals world base},
      value.type = type -> Agree given ⟨value :: stack, locals, world⟩ base ->
      ∃ frame, step numerics callees instr ⟨value :: stack, locals, world⟩ = .next frame ∧
        frame.stack = keep value ++ stack ∧ Agree (given.assign target (cValue value)) frame base) :
    Performs fpu numerics callees functions names instr [type] left := by
  intro state below (typedState : state.typeStack = type :: below)
  refine ⟨.assign target (.var (.stack below.length type)), writes typedState,
    fun given frame base others same typed agree => ?_⟩
  rcases frame with ⟨operands, locals, world⟩
  rcases List.map_eq_cons_iff.mp typed with ⟨value, stack, rfl, typedValue, rest⟩
  have length : below.length = (stack ++ base).length := below_length same rest
  have held : given.valuation (.stack below.length type) = some (cValue value) := by
    rw [length, ← typedValue]
    exact agree.stack.1
  rcases steps typedValue agree with ⟨frame, stepped, shape, agrees⟩
  rw [stepped, runCommand, runAssignment_var held (by rw [typedTarget, typedValue])]
  refine .next agrees ?_
  rw [shape, List.map_append, keeps value typedValue]
  exact congrArg (left ++ ·) rest

theorem performs_setLocal {var : Nat} {type : ValueType}
    (declares : scope.localType var = some type) :
    Performs fpu numerics callees functions names (.setLocal var) [type] [] := by
  refine performs_set (.local var) (fun _ => []) (fun _ _ => rfl)
    (fun {state below} typedState => ?_) ?_
    fun _ agree => ⟨_, rfl, rfl, ?_, agree.world, agree.stack.2⟩
  · simp [ApplyNames.visitInstr, writeInstr, writePop, single, operand_top typedState,
      WriterState.dropTypes, typedState]
  · rw [declared, CVar.type, declares]
    rfl
  · rw [CState.assign, wasmValue_cValue, agree.locals]

theorem performs_teeLocal {var : Nat} {type : ValueType}
    (declares : scope.localType var = some type) :
    Performs fpu numerics callees functions names (.teeLocal var) [type] [type] := by
  refine performs_set (.local var) (fun value => [value])
    (fun _ typed => by rw [← typed]; rfl) (fun {state below} typedState => ?_) ?_
    fun _ agree => ⟨_, rfl, rfl, ?_, agree.world, agree.stack⟩
  · simp [ApplyNames.visitInstr, writeInstr, single, operand_top typedState, ← typedState]
  · rw [declared, CVar.type, declares]
    rfl
  · rw [CState.assign, wasmValue_cValue, agree.locals]

theorem performs_setGlobal {var : Nat} {type : ValueType}
    (declares : scope.globalType var = some type) :
    Performs fpu numerics callees functions names (.setGlobal var) [type] [] := by
  refine performs_set (.global var) (fun _ => []) (fun _ _ => rfl)
    (fun {state below} typedState => ?_) ?_
    fun _ agree => ⟨_, rfl, rfl, agree.locals, ?_, agree.stack.2⟩
  · simp [ApplyNames.visitInstr, writeInstr, writePop, single, operand_top typedState,
      WriterState.dropTypes, typedState]
  · rw [declared, CVar.type, declares]
    rfl
  · rw [CState.assign, wasmValue_cValue, agree.world]

theorem performs_const (value : Value) :
    Performs fpu numerics callees functions names (.const value) [] [value.type] := by
  intro state below (typedState : state.typeStack = below)
  subst typedState
  refine ⟨.assign (.stack state.typeStack.length value.type) (constant value), ?_,
    fun given frame base others same typed agree => ?_⟩
  · simp [ApplyNames.visitInstr, writeInstr, writeConst, single, WriterState.pushType,
      WriterState.stackVar]
  · have length := below_length same typed
    rcases constant_eval fpu (declared scope) given.valuation value with
      ⟨literal, evaluates, converts⟩
    have made : runAssignment fpu (declared scope) given.valuation
        (.assign (.stack state.typeStack.length value.type) (constant value)) =
          .ok (.stack state.typeStack.length value.type, cValue value) :=
      runAssignment_operand ⟨evaluates, rfl⟩ converts
    rw [runCommand, made, length]
    refine .next ⟨agree.locals, agree.world, CState.holds_push agree.stack rfl⟩ ?_
    rw [List.map_cons, typed]
    rfl

theorem performs_memorySize :
    Performs fpu numerics callees functions names .memorySize [] [.i32] := by
  intro state below (typedState : state.typeStack = below)
  subst typedState
  refine ⟨.memoryPages (.stack state.typeStack.length .i32), ?_,
    fun given frame base others same typed agree => ?_⟩
  · simp [ApplyNames.visitInstr, writeInstr, single, WriterState.pushType, WriterState.stackVar]
  · have length := below_length same typed
    rw [runCommand, length, agree.world]
    refine .next ⟨agree.locals, agree.world, ?_⟩ (congrArg (List.cons ValueType.i32) typed)
    exact CState.holds_push agree.stack rfl

/-- A value of type `i32`. -/
theorem i32_of_type {value : Value} (typed : value.type = .i32) : ∃ bits, value = .i32 bits := by
  cases value <;> first | exact ⟨_, rfl⟩ | cases typed

/-- The second of two operands, and the third of three. -/
theorem operand_below {state : WriterState Scheme.applied} {above : List ValueType}
    {type : ValueType} (typedState : state.typeStack = above ++ type :: below) :
    state.operand above.length = some (.stack below.length type) := by
  have index : (((above.length + (below.length + 1) : Nat) : ℤ) - 1 - above.length).toNat =
      below.length := by omega
  simp only [WriterState.operand, WriterState.stackType, WriterState.stackVar, typedState,
    List.length_append, List.length_cons, index]
  simp

theorem performs_select (type : ValueType) :
    Performs fpu numerics callees functions names .select [.i32, type, type] [type] := by
  intro state below (typedState : state.typeStack = .i32 :: type :: type :: below)
  have condition := operand_top typedState
  have right : state.operand 1 = some (.stack (below.length + 1) type) :=
    @operand_below (type :: below) state [.i32] type typedState
  have left : state.operand 2 = some (.stack below.length type) :=
    @operand_below below state [.i32, type] type typedState
  refine ⟨.assign (.stack below.length type)
      (.cond (.var (.stack (below.length + 2) .i32)) (.var (.stack below.length type))
        (.var (.stack (below.length + 1) type))), ?_,
    fun given frame base others same typed agree => ?_⟩
  · simp [ApplyNames.visitInstr, writeInstr, writeSelect, single, condition, right, left,
      WriterState.dropTypes, WriterState.stackType, WriterState.pushType, typedState]
  · rcases frame with ⟨operands, locals, world⟩
    rcases List.map_eq_cons_iff.mp typed with ⟨test, _, rfl, typedTest, typed⟩
    rcases List.map_eq_cons_iff.mp typed with ⟨second, _, rfl, typedSecond, typed⟩
    rcases List.map_eq_cons_iff.mp typed with ⟨first, stack, rfl, typedFirst, rest⟩
    rcases i32_of_type typedTest with ⟨bits, rfl⟩
    have length : below.length = (stack ++ base).length := below_length same rest
    have tested : given.valuation (.stack (below.length + 2) .i32) = some (.u32 bits) := by
      rw [length]
      exact agree.stack.1
    have heldSecond : given.valuation (.stack (below.length + 1) type) = some (cValue second) := by
      rw [length, ← typedSecond]
      exact agree.stack.2.1
    have heldFirst : given.valuation (.stack below.length type) = some (cValue first) := by
      rw [length, ← typedFirst]
      exact agree.stack.2.2.1
    have selected : (if bits ≠ 0 then first else second).type = type := by
      split
      · exact typedFirst
      · exact typedSecond
    have made : runAssignment fpu (declared scope) given.valuation
        (.assign (.stack below.length type)
          (.cond (.var (.stack (below.length + 2) .i32)) (.var (.stack below.length type))
            (.var (.stack (below.length + 1) type)))) =
          .ok (.stack below.length type, cValue (if bits ≠ 0 then first else second)) := by
      have keeps := convert_cValue fpu (if bits ≠ 0 then first else second)
      rw [selected] at keeps
      refine runAssignment_operand (Operand.cond (operand_var tested rfl).evaluates rfl rfl
        (common_self (cType type)) ?_) keeps
      change (Expr.eval fpu (declared scope) given.valuation
        (if decide (bits ≠ 0) = true then _ else _) >>= _) = _
      by_cases nonzero : bits ≠ 0
      · rw [if_pos (decide_eq_true nonzero), (operand_var heldFirst rfl).evaluates,
          Expr.ok_bind, if_pos nonzero, ← typedFirst, convert_cValue]
        rfl
      · rw [if_neg (by simpa using nonzero), (operand_var heldSecond rfl).evaluates,
          Expr.ok_bind, if_neg nonzero, ← typedSecond, convert_cValue]
        rfl
    rw [runCommand, made, length]
    refine .next ⟨agree.locals, agree.world, ?_⟩ ?_
    · exact CState.holds_push agree.stack.2.2.2 selected
    · exact congrArg₂ List.cons selected rest

/-- Go on behind a load or a store. -/
theorem Accessed.load_follows {type : ValueType} {expected : Except (Stop Trap) Value}
    {run : Execution WasmRt.Memory Access Fault (Option CValue)}
    (accessed : Accessed (expected.map fun value => (some (cValue value), given.world.memory)) run)
    (results : forall value, expected = .ok value -> value.type = type)
    (locals : given.locals = frame.locals) (world : given.world = frame.world)
    (holds : Holds given.stack (stack ++ base)) (typed : stack.map Value.type = others) :
    Follows base (type :: others) (frame.operated stack expected)
      (given.accessed (some (.stack (stack ++ base).length type)) run) := by
  cases expected with
  | ok value =>
      have valueTyped := results value rfl
      cases accessed with
      | value _ _ accesses =>
          refine .next ⟨locals, world, CState.holds_push holds valueTyped⟩ ?_
          rw [List.map_cons, valueTyped, typed]
  | error reason =>
      cases accessed with
      | trap code memory accesses => exact .trap code
      | unsaid run => exact .unsaid _

theorem Accessed.store_follows {expected : Except (Stop Trap) WasmRt.Memory}
    {run : Execution WasmRt.Memory Access Fault (Option CValue)}
    (accessed : Accessed (expected.map fun memory => (none, memory)) run)
    (locals : given.locals = frame.locals) (world : given.world = frame.world)
    (holds : Holds given.stack (stack ++ base)) (typed : stack.map Value.type = others) :
    Follows base others (frame.stored stack expected) (given.accessed none run) := by
  cases expected with
  | ok memory =>
      cases accessed with
      | value _ _ accesses => exact .next ⟨locals, by rw [← world], holds⟩ typed
  | error reason =>
      cases accessed with
      | trap code memory accesses => exact .trap code
      | unsaid run => exact .unsaid _

theorem load_type {opcode : LoadOpcode} {offset bits : BitVec 32} {memory : WasmRt.Memory}
    {value : Value} (made : load opcode offset bits memory = .ok value) :
    value.type = opcode.resultType := by
  rw [load] at made
  cases found : access memory offset bits opcode.memorySize with
  | error reason =>
      rw [found] at made
      cases made
  | ok start =>
      rw [found] at made
      cases made
      exact Value.type_ofRaw _ _

theorem performs_load (opcode : LoadOpcode) (offset : BitVec 32) :
    Performs fpu numerics callees functions names (.load opcode offset) [.i32]
      [opcode.resultType] := by
  intro state below (typedState : state.typeStack = .i32 :: below)
  refine ⟨.load (.stack below.length opcode.resultType) (loadFunction opcode)
    (address (.stack below.length .i32) offset), ?_,
    fun given frame base others same typed agree => ?_⟩
  · simp only [ApplyNames.visitInstr, writeInstr, writeLoad_eq opcode offset typedState]
    rfl
  · rcases frame with ⟨operands, locals, world⟩
    rcases List.map_eq_cons_iff.mp typed with ⟨value, stack, rfl, typedValue, rest⟩
    rcases i32_of_type typedValue with ⟨bits, rfl⟩
    have length : below.length = (stack ++ base).length := below_length same rest
    have held : given.valuation (.stack below.length .i32) = some (.u32 bits) := by
      rw [length]
      exact agree.stack.1
    have sameWorld : given.world = world := agree.world
    have accessed := @load_accessed (declared scope) _ _ offset given.world.memory fpu _
      (fun _ _ => rfl) held opcode
    have stepped : step numerics callees (.load opcode offset) ⟨.i32 bits :: stack, locals, world⟩ =
        Frame.operated ⟨.i32 bits :: stack, locals, world⟩ stack
          (load opcode offset bits given.world.memory) := by
      rw [sameWorld]
      rfl
    rw [stepped, runCommand]
    have follows := accessed.load_follows (fun _ => load_type) agree.locals agree.world
      agree.stack.2 rest
    rwa [← length] at follows

theorem performs_store (opcode : StoreOpcode) (offset : BitVec 32) :
    Performs fpu numerics callees functions names (.store opcode offset) [opcode.paramType2, .i32]
      [] := by
  intro state below (typedState : state.typeStack = opcode.paramType2 :: .i32 :: below)
  refine ⟨.store (storeFunction opcode) (address (.stack below.length .i32) offset)
    (.var (.stack (below.length + 1) opcode.paramType2)), ?_,
    fun given frame base others same typed agree => ?_⟩
  · simp only [ApplyNames.visitInstr, writeInstr, writeStore_eq opcode offset typedState]
    rfl
  · rcases frame with ⟨operands, locals, world⟩
    rcases List.map_eq_cons_iff.mp typed with ⟨value, _, rfl, typedValue, typed⟩
    rcases List.map_eq_cons_iff.mp typed with ⟨address_, stack, rfl, typedAddress, rest⟩
    rcases i32_of_type typedAddress with ⟨bits, rfl⟩
    have length : below.length = (stack ++ base).length := below_length same rest
    have held : given.valuation (.stack below.length .i32) = some (.u32 bits) := by
      rw [length]
      exact agree.stack.2.1
    have stored : given.valuation (.stack (below.length + 1) opcode.paramType2) =
        some (cValue value) := by
      rw [length, ← typedValue]
      exact agree.stack.1
    have sameWorld : given.world = world := agree.world
    have accessed := @store_accessed (declared scope) _ _ offset given.world.memory fpu _ _ held
      opcode _ stored typedValue
    have stepped : step numerics callees (.store opcode offset)
        ⟨value :: .i32 bits :: stack, locals, world⟩ =
          Frame.stored ⟨value :: .i32 bits :: stack, locals, world⟩ stack
            (store opcode offset bits value given.world.memory) := by
      rw [sameWorld]
      rfl
    rw [stepped, runCommand]
    exact accessed.store_follows agree.locals agree.world agree.stack.2.2 rest

/-! ### Calls -/

/-- Go on behind a call whose result is assigned above the operands. -/
theorem replied_follows {result : Option ValueType}
    {actual reply : Reply (World scope.globalType Rest) result} (refines : Refines actual reply)
    (locals : given.locals = frame.locals) (holds : Holds given.stack (stack ++ base))
    (typed : stack.map Value.type = others) :
    Follows base (result.toList ++ others) (frame.replied stack reply)
      (given.replied (result.map fun type => .stack (stack ++ base).length type) actual) := by
  rcases refines with rfl | rfl
  · exact .unsaid _
  cases actual with
  | returned world results =>
      rcases results with ⟨values, typedValues⟩
      cases result with
      | none =>
          cases List.map_eq_nil_iff.mp typedValues
          exact .next ⟨locals, rfl, holds⟩ typed
      | some type =>
          rcases List.map_eq_cons_iff.mp typedValues with ⟨value, _, rfl, typedValue, none⟩
          cases List.map_eq_nil_iff.mp none
          refine .next ⟨locals, rfl, ?_⟩ (congrArg₂ List.cons typedValue typed)
          exact CState.holds_push holds typedValue
  | stopped reason =>
      cases reason with
      | trap code => exact .trap code
      | undefined => exact .unsaid _
  | diverges => exact .hang

theorem performs_memoryGrow (refines : FunctionsRefine functions callees) :
    Performs fpu numerics callees functions names .memoryGrow [.i32] [.i32] := by
  intro state below (typedState : state.typeStack = .i32 :: below)
  refine ⟨.growMemory (.stack below.length .i32) (.stack below.length .i32), ?_,
    fun given frame base others same typed agree => ?_⟩
  · simp [ApplyNames.visitInstr, writeInstr, single, operand_top typedState, ← typedState]
  · rcases frame with ⟨operands, locals, world⟩
    rcases List.map_eq_cons_iff.mp typed with ⟨value, stack, rfl, typedValue, rest⟩
    rcases i32_of_type typedValue with ⟨bits, rfl⟩
    have length : below.length = (stack ++ base).length := below_length same rest
    have held : given.valuation (.stack below.length .i32) = some (.u32 bits) := by
      rw [length]
      exact agree.stack.1
    have sameWorld : given.world = world := agree.world
    have follows := replied_follows (refines.growMemory bits given.world) agree.locals
      agree.stack.2 rest
    rw [← length, sameWorld] at follows
    rw [runCommand, held, sameWorld]
    exact follows

/-- The variables of the parameters of a call, the lowest at a height. -/
def slots : List ValueType -> Nat -> List (CVar Scheme.applied)
  | [], _ => []
  | type :: types, height => .stack height type :: slots types (height + 1)

theorem arguments_eq {state : WriterState Scheme.applied} {above params : List ValueType}
    (typedState : state.typeStack = above ++ (params.reverse ++ below)) :
    arguments state above.length params.length = some (slots params below.length) := by
  induction params generalizing below with
  | nil => rfl
  | cons type params inductionHypothesis =>
      have shape : state.typeStack = above ++ (params.reverse ++ type :: below) := by
        rw [typedState, List.reverse_cons, List.append_assoc]
        rfl
      have lowest : state.operand (above.length + params.length) =
          some (.stack below.length type) := by
        have found := @operand_below below state (above ++ params.reverse) type (by
          rw [shape, List.append_assoc])
        rwa [List.length_append, List.length_reverse] at found
      rw [List.length_cons, arguments, lowest, inductionHypothesis shape]
      rfl

theorem argumentValues_eq {values under : List Value}
    (holds : Holds given.stack (values.reverse ++ under)) :
    argumentValues given (slots (values.map Value.type) under.length) = some values := by
  induction values generalizing under with
  | nil => rfl
  | cons value values inductionHypothesis =>
      rw [List.reverse_cons, List.append_assoc] at holds
      have held : given.valuation (.stack under.length value.type) = some (cValue value) :=
        holds.drop.1
      have rest := inductionHypothesis holds
      rw [argumentValues, List.length_append, List.length_singleton, Nat.add_comm] at rest
      rw [argumentValues, List.map_cons, slots, List.mapM_cons, held]
      simp only [Option.map_some, wasmValue_cValue, Option.bind_eq_bind, Option.bind_some]
      rw [rest]
      rfl

/-- The operands of a call are its arguments, the last one on the top, above
others. -/
theorem split_arguments {operands : List Value} {params : List ValueType}
    (typed : operands.map Value.type = params.reverse ++ others) :
    ∃ values stack, values.map Value.type = params ∧ stack.map Value.type = others ∧
      operands = values.reverse ++ stack ∧
      (operands.take params.length).reverse = values ∧ operands.drop params.length = stack := by
  rcases List.map_eq_append_iff.mp typed with ⟨values, stack, rfl, typedValues, typedStack⟩
  have length : params.length = values.length := by
    rw [← List.length_reverse, ← typedValues, List.length_map]
  refine ⟨values.reverse, stack, ?_, typedStack, by rw [List.reverse_reverse], ?_, ?_⟩
  · rw [List.map_reverse, typedValues, List.reverse_reverse]
  · rw [length, List.take_left]
  · rw [length, List.drop_left]

theorem dropTypes_append {state : WriterState Scheme.applied} {above : List ValueType}
    (typedState : state.typeStack = above ++ below) :
    state.dropTypes above.length = some { state with typeStack := below } := by
  rw [WriterState.dropTypes, typedState, List.drop_left, if_pos (by simp)]

theorem performs_call (refines : FunctionsRefine functions callees) {var : Nat}
    {signature : Signature}
    (declares : scope.funcSignature var = some signature) :
    Performs fpu numerics callees functions names (.call var) signature.params.reverse
      signature.result.toList := by
  intro state below typedState
  have operands := @arguments_eq below state [] signature.params typedState
  have height : state.typeStack.length = signature.params.length + below.length := by
    rw [typedState, List.length_append, List.length_reverse]
  have lowest :
      ((state.typeStack.length : ℤ) - 1 - ((signature.params.length : ℤ) - 1)).toNat =
        below.length := by omega
  have dropped : state.dropTypes signature.params.length =
      some { state with typeStack := below } := by
    rw [← List.length_reverse]
    exact dropTypes_append typedState
  refine ⟨.call (signature.result.map fun type => .stack below.length type) var
    (slots signature.params below.length), ?_,
    fun given frame base others same typed agree => ?_⟩
  · rw [List.length_nil] at operands
    simp only [ApplyNames.visitInstr, writeInstr, writeCall, single, lookups, declares, operands,
      dropped, WriterState.stackVar, lowest, WriterState.pushTypes, Option.bind_eq_bind,
      Option.bind_some, Option.map_some]
  · rcases frame with ⟨stack, locals, world⟩
    rcases split_arguments typed with ⟨values, stack, typedValues, rest, rfl, taken, dropped⟩
    have length : below.length = (stack ++ base).length := below_length same rest
    have holds : Holds given.stack (values.reverse ++ (stack ++ base)) := by
      rw [← List.append_assoc]
      exact agree.stack
    have sameWorld : given.world = world := agree.world
    have passed := argumentValues_eq holds
    rw [typedValues, ← length] at passed
    have stepped : step numerics callees (.call var) ⟨values.reverse ++ stack, locals, world⟩ =
        Frame.replied ⟨values.reverse ++ stack, locals, world⟩ stack
          (callees.call var signature values world) := by
      rw [step]
      simp only [declares, taken, dropped]
    have ran : runCommand fpu functions (.call (signature.result.map fun type =>
        .stack below.length type) var (slots signature.params below.length)) given =
          given.replied (signature.result.map fun type => .stack below.length type)
            (functions.call var signature values world) := by
      rw [runCommand]
      simp only [declares, passed, sameWorld]
    rw [stepped, ran, length]
    exact replied_follows (refines.call _ _ _ _) agree.locals holds.drop rest

theorem performs_callIndirect (refines : FunctionsRefine functions callees) {typeIndex : Nat}
    {signature : Signature}
    (declares : scope.typeSignature typeIndex = some signature) :
    Performs fpu numerics callees functions names (.callIndirect typeIndex)
      (.i32 :: signature.params.reverse) signature.result.toList := by
  intro state below (typedState : state.typeStack = .i32 :: (signature.params.reverse ++ below))
  have callee := operand_top typedState
  have operands := @arguments_eq below state [.i32] signature.params typedState
  have height : state.typeStack.length = signature.params.length + below.length + 1 := by
    rw [typedState, List.length_cons, List.length_append, List.length_reverse]
  have lowest :
      ((state.typeStack.length : ℤ) - 1 - (signature.params.length : ℤ)).toNat =
        below.length := by omega
  have dropped : state.dropTypes (signature.params.length + 1) =
      some { state with typeStack := below } := by
    rw [← List.length_reverse]
    exact @dropTypes_append below state (.i32 :: signature.params.reverse) typedState
  refine ⟨.callIndirect (signature.result.map fun type => .stack below.length type) typeIndex
    (.stack (signature.params.reverse ++ below).length .i32)
    (slots signature.params below.length), ?_,
    fun given frame base others same typed agree => ?_⟩
  · rw [List.length_singleton] at operands
    simp only [ApplyNames.visitInstr, writeInstr, writeCallIndirect, single, lookups, declares,
      callee, operands, dropped, WriterState.stackVar, lowest, WriterState.pushTypes,
      Option.bind_eq_bind, Option.bind_some, Option.map_some]
  · rcases frame with ⟨stack, locals, world⟩
    rcases List.map_eq_cons_iff.mp typed with ⟨value, _, rfl, typedValue, passed⟩
    rcases i32_of_type typedValue with ⟨bits, rfl⟩
    rcases split_arguments passed with ⟨values, stack, typedValues, rest, rfl, taken, dropped⟩
    have length : below.length = (stack ++ base).length := below_length same rest
    have holds : Holds given.stack (.i32 bits :: (values.reverse ++ (stack ++ base))) := by
      rw [← List.append_assoc]
      exact agree.stack
    have heights : (signature.params.reverse ++ below).length =
        (values.reverse ++ (stack ++ base)).length := by
      rw [List.length_append, List.length_append, length, List.length_reverse,
        List.length_reverse, ← typedValues, List.length_map]
    have held : given.valuation (.stack (signature.params.reverse ++ below).length .i32) =
        some (.u32 bits) := by
      rw [heights]
      exact holds.1
    have sameWorld : given.world = world := agree.world
    have passed := argumentValues_eq holds.2
    rw [typedValues, ← length] at passed
    have stepped : step numerics callees (.callIndirect typeIndex)
        ⟨.i32 bits :: (values.reverse ++ stack), locals, world⟩ =
          Frame.replied ⟨.i32 bits :: (values.reverse ++ stack), locals, world⟩ stack
            (callees.callIndirect typeIndex signature bits values world) := by
      simp only [step, declares, taken, dropped]
    have ran : runCommand fpu functions (.callIndirect (signature.result.map fun type =>
        .stack below.length type) typeIndex (.stack (signature.params.reverse ++ below).length .i32)
          (slots signature.params below.length)) given =
          given.replied (signature.result.map fun type => .stack below.length type)
            (functions.callIndirect typeIndex signature bits values world) := by
      rw [runCommand]
      simp only [declares, held, passed, sameWorld]
    rw [stepped, ran, length]
    exact replied_follows (refines.callIndirect _ _ _ _ _) agree.locals holds.2.drop rest

/-- Every expression without a body that has a type of its own. -/
theorem performs {floats : Interp.Numerics} (agrees : FloatsAgree fpu floats)
    (refines : FunctionsRefine functions callees)
    {instr : Instr Scheme.binary} {typed : TypedInstr} {params results : List ValueType}
    (visited : visitInstr scope instr = some [typed])
    (type : typed.type = some (params, results)) :
    Performs fpu (Interp.withIntegers floats) callees functions names instr params.reverse
      results.reverse := by
  cases instr with
  | binary opcode =>
      cases visited
      have same : opcode.paramType2 = opcode.paramType1 := by cases opcode <;> rfl
      cases type
      rw [same]
      exact performs_binary agrees opcode
  | compare opcode =>
      cases visited
      have same : opcode.paramType2 = opcode.paramType1 := by cases opcode <;> rfl
      cases type
      rw [same]
      exact performs_compare agrees opcode
  | convert opcode =>
      cases visited
      cases type
      exact performs_convert agrees opcode
  | unary opcode =>
      cases visited
      cases type
      exact performs_unary agrees opcode
  | load opcode offset =>
      cases visited
      cases type
      exact performs_load opcode offset
  | store opcode offset =>
      cases visited
      cases type
      exact performs_store opcode offset
  | const value =>
      cases visited
      cases type
      exact performs_const value
  | memorySize =>
      cases visited
      cases type
      exact performs_memorySize
  | memoryGrow =>
      cases visited
      cases type
      exact performs_memoryGrow refines
  | getLocal var =>
      rcases Option.map_eq_some_iff.mp visited with ⟨declaredType, declares, same⟩
      cases same
      cases type
      exact performs_getLocal declares
  | setLocal var =>
      rcases Option.map_eq_some_iff.mp visited with ⟨declaredType, declares, same⟩
      cases same
      cases type
      exact performs_setLocal declares
  | teeLocal var =>
      rcases Option.map_eq_some_iff.mp visited with ⟨declaredType, declares, same⟩
      cases same
      cases type
      exact performs_teeLocal declares
  | getGlobal var =>
      rcases Option.map_eq_some_iff.mp visited with ⟨declaredType, declares, same⟩
      cases same
      cases type
      exact performs_getGlobal declares
  | setGlobal var =>
      rcases Option.map_eq_some_iff.mp visited with ⟨declaredType, declares, same⟩
      cases same
      cases type
      exact performs_setGlobal declares
  | call var =>
      rcases Option.map_eq_some_iff.mp visited with ⟨signature, declares, same⟩
      cases same
      cases type
      rw [ValidationState.toList_reverse]
      exact performs_call refines declares
  | callIndirect typeIndex =>
      rcases Option.map_eq_some_iff.mp visited with ⟨signature, declares, same⟩
      cases same
      cases type
      rw [ValidationState.toList_reverse, List.reverse_append]
      exact performs_callIndirect refines declares
  | _ =>
      cases visited <;> cases type

end Performing

end CWriter
end WasmSandboxing
