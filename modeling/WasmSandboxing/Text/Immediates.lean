import WasmSandboxing.Foundation.Transition
import WasmSandboxing.Literal.Integers
import WasmSandboxing.Text.Ir

namespace WasmSandboxing
namespace Text

open Foundation Literal

/-!
# Numeric immediates

The functions of the parser that make a number of a literal and put it into a
field.  Every such assignment is recorded with the literal that it comes from.
What the parser does between them is left open: it passes tokens over and
reports errors as it likes, and an error is never taken back.
-/

/-- A literal that the scanner took for a `nat`. -/
structure Numeral where
  text : List Char
  value : Nat
  isNumeral : IsNumeral text value

inductive Token where
  | nat (literal : Numeral)
  | var (symbol : Symbol)
  | offsetEqNat (literal : Numeral)
  | alignEqNat (literal : Numeral)
  | lpar
  | rpar
  | type
  | shared
  | other

/-- The fields of the module that hold a number, each of the type it has there. -/
inductive Field where
  /-- `Var::index_`: an index, or the depth of a branch -/
  | index (value : BitVec 32)
  | offset (value : BitVec 32)
  | align (value : BitVec 32)
  /-- `Limits::initial` and `Limits::max` -/
  | limit (value : BitVec 64)
  /-- `SimdLaneOpExpr::val` -/
  | lane (value : BitVec 64)
  /-- `v128::v`, for a constant and for the lanes of a shuffle -/
  | simdConst (value : BitVec 32)
  deriving DecidableEq, Repr

namespace Field

def number : Field -> Nat
  | index value | offset value | align value | simdConst value => value.toNat
  | limit value | lane value => value.toNat

def IsAlign : Field -> Prop
  | align _ => True
  | _ => False

end Field

structure Stored where
  literal : Numeral
  field : Field

/-- The parser's data, with the tokens that are still to come. -/
structure ParserState where
  tokens : List Token
  errors : Nat
  stored : List Stored

/-- A parser's function, where `none` stands for `Result::Error`.  A function
that fails has changed the state all the same. -/
structure WastParser (Result : Type) where
  run : ParserState -> Option Result × ParserState

namespace WastParser

variable {First Second Result : Type}

def pure (result : Result) : WastParser Result where
  run state := (some result, state)

/-- `CHECK_RESULT` -/
def bind (first : WastParser First) (later : First -> WastParser Second) : WastParser Second where
  run state :=
    match first.run state with
    | (some value, after) => (later value).run after
    | (none, after) => (none, after)

instance : Monad WastParser where
  pure := pure
  bind := bind

/-- `return Result::Error` -/
def fail : WastParser Result where
  run state := (none, state)

def peek : WastParser (Option Token) where
  run state := (some state.tokens.head?, state)

def consume : WastParser Unit where
  run state := (some (), { state with tokens := state.tokens.tail })

/-- `Error`, if there is one to report. -/
def errorIf (wrong : Bool) : WastParser Unit where
  run state := (some (), { state with errors := state.errors + wrong.toNat })

def errorExpected : WastParser Result := do
  consume
  errorIf true
  fail

/-- An assignment to a field of the module. -/
def store (literal : Numeral) (field : Field) : WastParser Unit where
  run state := (some (), { state with stored := { literal, field } :: state.stored })

/-- `EXPECT(Rpar)` -/
def expectRpar : WastParser Unit := do
  match <- peek with
  | some .rpar => consume
  | _ => errorExpected

end WastParser

/-! ## The source's functions -/

open WastParser

/-- `kInvalidIndex`, as the `uint64_t` that it initializes -/
def kInvalidIndex : BitVec 64 := 0xffffffff

/-- The literal's 64 bits become an `Index`. -/
def parseVar : WastParser Var := do
  match <- peek with
  | some (.nat literal) =>
      consume
      let parsed := parseUint64 literal.text
      errorIf parsed.isNone
      let index := (parsed.getD kInvalidIndex).setWidth 32
      store literal (.index index)
      return .index index.toNat
  | some (.var symbol) =>
      consume
      return .name symbol
  | _ => errorExpected

/-- `none` stands for the default. -/
def parseVarOpt : WastParser (Option Var) := do
  match <- peek with
  | some (.nat _) | some (.var _) => some <$> parseVar
  | _ => return none

/-- The loop of `ParseVarListOpt`, for at most `count` rounds. -/
def parseVars : Nat -> WastParser (List Var)
  | 0 => return []
  | count + 1 => do
      match <- parseVarOpt with
      | some var => (var :: ·) <$> parseVars count
      | none => return []

def parseVarListOpt : WastParser (List Var) where
  run state := (parseVars state.tokens.length).run state

/-- An empty list is refused, and no error is reported. -/
def parseVarList : WastParser (List Var) := do
  let vars <- parseVarListOpt
  if vars = [] then fail else return vars

/-- The variable that is assigned is not initialized: it has the value `stack`
if the literal is refused. -/
def parseOffsetOpt (stack : BitVec 64) : WastParser (BitVec 32) := do
  match <- peek with
  | some (.offsetEqNat literal) =>
      consume
      let parsed := parseInt64 .signedAndUnsigned literal.text
      errorIf parsed.isNone
      let offset64 := parsed.getD stack
      errorIf ((0xffffffff : BitVec 64).ult offset64)
      store literal (.offset (offset64.setWidth 32))
      return offset64.setWidth 32
  | _ => return 0

def isPowerOfTwo (x : BitVec 32) : Bool := x != 0 && (x &&& (x - 1)) == 0

/-- `WABT_USE_NATURAL_ALIGNMENT` -/
def useNaturalAlignment : BitVec 32 := 0xffffffff

def parseAlignOpt (stack : BitVec 32) : WastParser (BitVec 32) := do
  match <- peek with
  | some (.alignEqNat literal) =>
      consume
      let parsed := parseInt32 .unsignedOnly literal.text
      errorIf parsed.isNone
      let align := parsed.getD stack
      errorIf (!isPowerOfTwo align)
      store literal (.align align)
      return align
  | _ => return useNaturalAlignment

/-- `ParseNat` into a field that contains `old`. -/
def parseNat (old : BitVec 64) (field : BitVec 64 -> Field) : WastParser (BitVec 64) := do
  match <- peek with
  | some (.nat literal) =>
      consume
      let parsed := parseUint64 literal.text
      errorIf parsed.isNone
      store literal (field (parsed.getD old))
      return parsed.getD old
  | _ => errorExpected

structure Limits where
  initial : BitVec 64
  max : BitVec 64
  hasMax : Bool
  isShared : Bool

/-- The second number of the limits. -/
def parseMaxOpt : WastParser (Option (BitVec 64)) := do
  match <- peek with
  | some (.nat _) => some <$> parseNat 0 .limit
  | _ => return none

/-- `Match(Shared)` -/
def matchShared : WastParser Bool := do
  match <- peek with
  | some .shared =>
      consume
      return true
  | _ => return false

def parseLimits : WastParser Limits := do
  let initial <- parseNat 0 .limit
  let max <- parseMaxOpt
  let isShared <- matchShared
  return { initial, max := max.getD 0, hasMax := max.isSome, isShared }

/-- `ParsePlainLoadStoreInstr` -/
def parseLoadStore (offsetStack : BitVec 64) (alignStack : BitVec 32) :
    WastParser (BitVec 32 × BitVec 32) := do
  let offset <- parseOffsetOpt offsetStack
  let align <- parseAlignOpt alignStack
  return (offset, align)

/-- The `SimdLaneOp` case of `ParsePlainInstr` -/
def parseSimdLane (stack : BitVec 64) : WastParser (BitVec 64) := parseNat stack .lane

/-- `ParseSimdConst` for the remaining `count` numbers -/
def parseSimdConst : Nat -> WastParser (List (BitVec 32))
  | 0 => return []
  | count + 1 => do
      match <- peek with
      | some (.nat literal) =>
          consume
          match parseInt32 .signedAndUnsigned literal.text with
          | some value =>
              store literal (.simdConst value)
              (value :: ·) <$> parseSimdConst count
          | none =>
              errorIf true
              fail
      | _ => errorExpected

/-- `ParseTypeUseOpt`, where the result is `type_var` -/
def parseTypeUseOpt : WastParser (Option Var) where
  run state :=
    match state.tokens with
    | .lpar :: .type :: rest =>
        (do
          let var <- parseVar
          expectRpar
          return some var : WastParser (Option Var)).run { state with tokens := rest }
    | _ => (some none, state)

/-- What the parser calls to parse a module, and all it does besides. -/
inductive ParserCall where
  | var
  | varOpt
  | varListOpt
  | varList
  | limits
  | loadStore (offsetStack : BitVec 64) (alignStack : BitVec 32)
  | simdLane (stack : BitVec 64)
  | simdConst
  | typeUseOpt
  | other (consumed reported : Nat)

def ParserCall.run (state : ParserState) : ParserCall -> ParserState
  | var => (parseVar.run state).2
  | varOpt => (parseVarOpt.run state).2
  | varListOpt => (parseVarListOpt.run state).2
  | varList => (parseVarList.run state).2
  | limits => (parseLimits.run state).2
  | loadStore offsetStack alignStack => ((parseLoadStore offsetStack alignStack).run state).2
  | simdLane stack => ((parseSimdLane stack).run state).2
  | simdConst => ((parseSimdConst 4).run state).2
  | typeUseOpt => (parseTypeUseOpt.run state).2
  | other consumed reported =>
      { state with tokens := state.tokens.drop consumed, errors := state.errors + reported }

/-- Parsing a module is a sequence of such calls. -/
def parsing : System ParserState ParserCall where
  step state call := some (call.run state)

def ParserState.start (tokens : List Token) : ParserState where
  tokens := tokens
  errors := 0
  stored := []

/-! ## The loop over a list -/

/-- `PeekMatch(Nat) || PeekMatch(Var)` -/
def Token.isVar : Token -> Bool
  | .nat _ | .var _ => true
  | _ => false

/-- Changing the result leaves the state as it is. -/
theorem map_run {First Second : Type} (change : First -> Second) (parser : WastParser First)
    (state : ParserState) : ((change <$> parser).run state).2 = (parser.run state).2 := by
  change (WastParser.bind parser _ |>.run state).2 = _
  unfold WastParser.bind
  dsimp only
  rcases parser.run state with ⟨_ | value, after⟩ <;> rfl

/-- The loop ends where no index and no name follows: every round takes a token. -/
theorem parseVars_done (count : Nat) (state : ParserState) (enough : state.tokens.length ≤ count)
    (token : Token) (follows : token ∈ ((parseVars count).run state).2.tokens.head?) :
    token.isVar = false := by
  induction count generalizing state with
  | zero =>
      have none : state.tokens = [] := List.eq_nil_of_length_eq_zero (Nat.le_zero.mp enough)
      have isHead : token ∈ state.tokens.head? := follows
      rw [none] at isHead
      cases isHead
  | succ count inductionHypothesis =>
      rcases state with ⟨_ | ⟨first, rest⟩, errors, stored⟩
      · cases follows
      · have shorter : rest.length ≤ count := Nat.le_of_succ_le_succ enough
        cases first with
        | nat literal =>
            change token ∈ (((_ :: ·) <$> parseVars count).run
              { tokens := rest, errors := _, stored := _ }).2.tokens.head? at follows
            rw [map_run] at follows
            exact inductionHypothesis _ shorter follows
        | var symbol =>
            change token ∈ (((_ :: ·) <$> parseVars count).run
              { tokens := rest, errors, stored }).2.tokens.head? at follows
            rw [map_run] at follows
            exact inductionHypothesis _ shorter follows
        | _ =>
            obtain rfl := Option.some.inj follows
            rfl

theorem parseVarListOpt_done (state : ParserState) (token : Token)
    (follows : token ∈ (parseVarListOpt.run state).2.tokens.head?) : token.isVar = false :=
  parseVars_done state.tokens.length state (Nat.le_refl _) token follows

/-! ## What is stored -/

/-- What a field has of a number if no error was reported. -/
def Field.Reads (number : Nat) : Field -> Prop
  | index value => value.toNat = number % 2 ^ 32
  | offset value | simdConst value => value.toNat = number
  | align value => value.toNat = number ∧ number.isPowerOfTwo
  | limit value | lane value => value.toNat = number % 2 ^ 64

/-- As long as no error has been reported, every field has what it should of its
literal. -/
def Recorded (state : ParserState) : Prop :=
  state.errors = 0 -> forall stored, stored ∈ state.stored ->
    stored.field.Reads stored.literal.value

theorem recorded_start (tokens : List Token) : Recorded (.start tokens) :=
  fun _clean _stored isMember => (List.not_mem_nil isMember).elim

theorem Recorded.mono {state after : ParserState} (recorded : Recorded state)
    (more : state.errors ≤ after.errors) (same : after.stored = state.stored) : Recorded after := by
  intro clean stored isMember
  exact recorded (by omega) stored (same ▸ isMember)

theorem Recorded.cons {state after : ParserState} {literal : Numeral} {field : Field}
    (recorded : Recorded state) (more : state.errors ≤ after.errors)
    (same : after.stored = { literal, field } :: state.stored)
    (reads : after.errors = 0 -> field.Reads literal.value) : Recorded after := by
  intro clean stored isMember
  rw [same] at isMember
  rcases List.mem_cons.mp isMember with rfl | earlier
  · exact reads clean
  · exact recorded (by omega) stored earlier

/-! ## Each function keeps the record -/

/-- The function keeps the record, whether it fails or not. -/
def WastParser.Keeps (parser : WastParser Result) : Prop :=
  forall state, Recorded state -> Recorded (parser.run state).2

section Rules

variable {First Second Result : Type}

theorem keeps_return (result : Result) : (return result : WastParser Result).Keeps :=
  fun _state recorded => recorded

theorem keeps_bind {first : WastParser First} {later : First -> WastParser Second}
    (keeps : first.Keeps) (goesOn : forall value, (later value).Keeps) :
    (first >>= later).Keeps := by
  intro state recorded
  have after := keeps state recorded
  change Recorded (WastParser.bind first later |>.run state).2
  unfold WastParser.bind
  dsimp only
  rcases ran : first.run state with ⟨_ | value, next⟩
  · rw [ran] at after
    exact after
  · rw [ran] at after
    exact goesOn value next after

theorem keeps_map {parser : WastParser First} (change : First -> Second) (keeps : parser.Keeps) :
    (change <$> parser).Keeps :=
  keeps_bind keeps fun value => keeps_return (change value)

theorem keeps_peek {later : Option Token -> WastParser Result}
    (goesOn : forall token, (later token).Keeps) : (peek >>= later).Keeps :=
  keeps_bind (fun _state recorded => recorded) goesOn

theorem keeps_consume : consume.Keeps :=
  fun _state recorded => recorded.mono (Nat.le_refl _) rfl

theorem keeps_fail : (fail : WastParser Result).Keeps :=
  fun _state recorded => recorded

theorem keeps_errorIf (wrong : Bool) : (errorIf wrong).Keeps :=
  fun _state recorded => recorded.mono (Nat.le_add_right _ _) rfl

theorem keeps_errorExpected : (errorExpected : WastParser Result).Keeps :=
  keeps_bind keeps_consume fun _ => keeps_bind (keeps_errorIf true) fun _ => keeps_fail

end Rules

theorem parseVar_keeps : parseVar.Keeps := by
  refine keeps_peek fun token => ?_
  split
  · rename_i literal
    intro state recorded
    refine recorded.cons (Nat.le_add_right _ _) rfl fun clean => ?_
    have clean : state.errors + (parseUint64 literal.text).isNone.toNat = 0 := clean
    rcases parsed : parseUint64 literal.text with _ | value
    · rw [parsed] at clean
      exact absurd clean (Nat.succ_ne_zero _)
    · have low := parseUint64_toNat literal.isNumeral.1 parsed
      show (value.setWidth 32).toNat = literal.value % 2 ^ 32
      rw [BitVec.toNat_setWidth, low]
      omega
  · exact keeps_bind keeps_consume fun _ => keeps_return _
  · exact keeps_errorExpected

theorem parseVarOpt_keeps : parseVarOpt.Keeps := by
  refine keeps_peek fun token => ?_
  split
  · exact keeps_map some parseVar_keeps
  · exact keeps_map some parseVar_keeps
  · exact keeps_return none

theorem parseVars_keeps (count : Nat) : (parseVars count).Keeps := by
  induction count with
  | zero => exact keeps_return []
  | succ count inductionHypothesis =>
      refine keeps_bind parseVarOpt_keeps fun var => ?_
      split
      · exact keeps_map _ inductionHypothesis
      · exact keeps_return []

theorem parseVarListOpt_keeps : parseVarListOpt.Keeps :=
  fun state => parseVars_keeps state.tokens.length state

theorem parseVarList_keeps : parseVarList.Keeps := by
  refine keeps_bind parseVarListOpt_keeps fun vars => ?_
  split
  · exact keeps_fail
  · exact keeps_return vars

/-- An offset that is not refused has its 32 bits. -/
theorem parseOffsetOpt_keeps (stack : BitVec 64) : (parseOffsetOpt stack).Keeps := by
  refine keeps_peek fun token => ?_
  split
  · rename_i literal
    intro state recorded
    refine recorded.cons (Nat.le_trans (Nat.le_add_right _ _) (Nat.le_add_right _ _)) rfl
      fun clean => ?_
    have isNat := parseInt64_numeral .signedAndUnsigned literal.isNumeral.1
    have clean : state.errors + (parseInt64 .signedAndUnsigned literal.text).isNone.toNat +
        ((0xffffffff : BitVec 64).ult
          ((parseInt64 .signedAndUnsigned literal.text).getD stack)).toNat = 0 := clean
    show (((parseInt64 .signedAndUnsigned literal.text).getD stack).setWidth 32).toNat =
      literal.value
    rcases parsed : parseInt64 .signedAndUnsigned literal.text with _ | value
    · rw [parsed] at clean
      exact absurd clean (by simp)
    · rw [parsed, Option.getD_some] at clean
      rw [isNat] at parsed
      have small : value.toNat ≤ 0xffffffff := by
        by_contra large
        have refused : (0xffffffff : BitVec 64).ult value = true := by
          rw [BitVec.ult_eq_decide]
          exact decide_eq_true (Nat.lt_of_not_le large)
        rw [refused] at clean
        exact absurd clean (Nat.succ_ne_zero _)
      rw [Option.getD_some, BitVec.toNat_setWidth, Nat.mod_eq_of_lt (by omega)]
      exact parseUint64_small literal.isNumeral.1 parsed (by omega)
  · exact keeps_return 0

theorem isPowerOfTwo_iff (x : BitVec 32) : isPowerOfTwo x = true ↔ x.toNat.isPowerOfTwo := by
  rw [← Nat.ne_zero_and_sub_one_eq_zero_iff_isPowerOfTwo, isPowerOfTwo, Bool.and_eq_true,
    bne_iff_ne, beq_iff_eq]
  have zero : x ≠ 0 ↔ x.toNat ≠ 0 := not_congr BitVec.toNat_inj.symm
  rw [zero]
  refine and_congr_right fun positive => ?_
  have below : (x - 1).toNat = x.toNat - 1 :=
    BitVec.toNat_sub_of_le (BitVec.le_def.mpr (Nat.one_le_iff_ne_zero.mpr positive))
  rw [← BitVec.toNat_inj, BitVec.toNat_and, below]
  rfl

theorem parseAlignOpt_keeps (stack : BitVec 32) : (parseAlignOpt stack).Keeps := by
  refine keeps_peek fun token => ?_
  split
  · rename_i literal
    intro state recorded
    refine recorded.cons (Nat.le_trans (Nat.le_add_right _ _) (Nat.le_add_right _ _)) rfl
      fun clean => ?_
    have clean : state.errors + (parseInt32 .unsignedOnly literal.text).isNone.toNat +
        (!isPowerOfTwo ((parseInt32 .unsignedOnly literal.text).getD stack)).toNat = 0 := clean
    rcases parsed : parseInt32 .unsignedOnly literal.text with _ | value
    · rw [parsed] at clean
      exact absurd clean (by simp)
    · rw [parsed, Option.getD_some] at clean
      have exactly := parseInt32_numeral literal.isNumeral.1 parsed
      rcases power : isPowerOfTwo value
      · rw [power] at clean
        exact absurd clean (Nat.succ_ne_zero _)
      · exact ⟨exactly, exactly ▸ (isPowerOfTwo_iff value).mp power⟩
  · exact keeps_return useNaturalAlignment

/-- A field of 64 bits. -/
theorem parseNat_keeps (old : BitVec 64) {field : BitVec 64 -> Field}
    (wide : forall number value, value.toNat = number % 2 ^ 64 -> (field value).Reads number) :
    (parseNat old field).Keeps := by
  refine keeps_peek fun token => ?_
  split
  · rename_i literal
    intro state recorded
    refine recorded.cons (Nat.le_add_right _ _) rfl fun clean => ?_
    have clean : state.errors + (parseUint64 literal.text).isNone.toNat = 0 := clean
    rcases parsed : parseUint64 literal.text with _ | value
    · rw [parsed] at clean
      exact absurd clean (Nat.succ_ne_zero _)
    · exact wide literal.value value (parseUint64_toNat literal.isNumeral.1 parsed)
  · exact keeps_errorExpected

theorem parseSimdLane_keeps (stack : BitVec 64) : (parseSimdLane stack).Keeps :=
  parseNat_keeps stack fun _number _value same => same

theorem parseMaxOpt_keeps : parseMaxOpt.Keeps := by
  refine keeps_peek fun token => ?_
  split
  · exact keeps_map some (parseNat_keeps 0 fun _number _value same => same)
  · exact keeps_return none

theorem matchShared_keeps : matchShared.Keeps := by
  refine keeps_peek fun token => ?_
  split
  · exact keeps_bind keeps_consume fun _ => keeps_return true
  · exact keeps_return false

theorem parseLimits_keeps : parseLimits.Keeps :=
  keeps_bind (parseNat_keeps 0 fun _number _value same => same) fun _initial =>
    keeps_bind parseMaxOpt_keeps fun _max =>
      keeps_bind matchShared_keeps fun _isShared => keeps_return _

theorem parseLoadStore_keeps (offsetStack : BitVec 64) (alignStack : BitVec 32) :
    (parseLoadStore offsetStack alignStack).Keeps :=
  keeps_bind (parseOffsetOpt_keeps offsetStack) fun _offset =>
    keeps_bind (parseAlignOpt_keeps alignStack) fun _align => keeps_return _

theorem parseSimdConst_keeps (count : Nat) : (parseSimdConst count).Keeps := by
  induction count with
  | zero => exact keeps_return []
  | succ count inductionHypothesis =>
      refine keeps_peek fun token => ?_
      split
      · rename_i literal
        refine keeps_bind keeps_consume fun _ => ?_
        split
        · rename_i value parsed
          refine keeps_bind ?_ fun _ => keeps_map _ inductionHypothesis
          exact fun state recorded => recorded.cons (Nat.le_refl _) rfl fun _clean =>
            parseInt32_numeral literal.isNumeral.1 parsed
        · exact keeps_bind (keeps_errorIf true) fun _ => keeps_fail
      · exact keeps_errorExpected

theorem parseTypeUseOpt_keeps : parseTypeUseOpt.Keeps := by
  intro state recorded
  have keeps : (do
      let var <- parseVar
      expectRpar
      return some var : WastParser (Option Var)).Keeps := by
    refine keeps_bind parseVar_keeps fun var => keeps_bind ?_ fun _ => keeps_return _
    refine keeps_peek fun token => ?_
    split
    · exact keeps_consume
    · exact keeps_errorExpected
  unfold parseTypeUseOpt
  dsimp only
  split
  · exact keeps _ (recorded.mono (Nat.le_refl _) rfl)
  · exact recorded

/-- One case for each function that the parser calls. -/
theorem call_recorded (call : ParserCall) {state : ParserState} (recorded : Recorded state) :
    Recorded (call.run state) := by
  cases call with
  | var => exact parseVar_keeps state recorded
  | varOpt => exact parseVarOpt_keeps state recorded
  | varListOpt => exact parseVarListOpt_keeps state recorded
  | varList => exact parseVarList_keeps state recorded
  | limits => exact parseLimits_keeps state recorded
  | loadStore offsetStack alignStack =>
      exact parseLoadStore_keeps offsetStack alignStack state recorded
  | simdLane stack => exact parseSimdLane_keeps stack state recorded
  | simdConst => exact parseSimdConst_keeps 4 state recorded
  | typeUseOpt => exact parseTypeUseOpt_keeps state recorded
  | other consumed reported => exact recorded.mono (Nat.le_add_right _ _) rfl

theorem run_recorded {calls : List ParserCall} {state last : ParserState}
    (recorded : Recorded state) (ran : parsing.run state calls = some last) : Recorded last := by
  induction calls generalizing state with
  | nil => exact Option.some.inj ran ▸ recorded
  | cons call calls inductionHypothesis =>
      exact inductionHypothesis (call_recorded call recorded) ran

/-! ## What is exact -/

/-- The field has the number, which for an alignment is a power of two. -/
def Field.Exact (number : Nat) (field : Field) : Prop :=
  field.number = number ∧ (field.IsAlign -> number.isPowerOfTwo)

/-- The number fits the field, or is checked against it. -/
def Field.Fits (number : Nat) : Field -> Prop
  | index _ => number < 2 ^ 32
  | limit _ | lane _ => number < 2 ^ 64
  | offset _ | align _ | simdConst _ => True

/-- What is left of a number is the number exactly if it fits. -/
theorem toNat_eq_iff {width : Nat} {value : BitVec width} {number : Nat}
    (low : value.toNat = number % 2 ^ width) : value.toNat = number ↔ number < 2 ^ width := by
  rw [low]
  constructor
  · intro same
    rw [← same]
    exact Nat.mod_lt _ (Nat.two_pow_pos width)
  · exact Nat.mod_eq_of_lt

theorem exact_iff_fits {number : Nat} {field : Field} (reads : field.Reads number) :
    field.Exact number ↔ field.Fits number := by
  cases field with
  | index value => exact (and_iff_left False.elim).trans (toNat_eq_iff reads)
  | limit value => exact (and_iff_left False.elim).trans (toNat_eq_iff reads)
  | lane value => exact (and_iff_left False.elim).trans (toNat_eq_iff reads)
  | offset value => exact iff_of_true ⟨reads, False.elim⟩ trivial
  | simdConst value => exact iff_of_true ⟨reads, False.elim⟩ trivial
  | align value => exact iff_of_true ⟨reads.1, fun _ => reads.2⟩ trivial

/-- When a module has been parsed without an error, its fields have the numbers
of their literals exactly if every index is below `2 ^ 32`, and every limit and
every lane below `2 ^ 64`. -/
theorem immediates_exact_iff (tokens : List Token) (calls : List ParserCall) (last : ParserState)
    (ran : parsing.run (.start tokens) calls = some last) (clean : last.errors = 0) :
    (forall stored, stored ∈ last.stored -> stored.field.Exact stored.literal.value) ↔
      forall stored, stored ∈ last.stored -> stored.field.Fits stored.literal.value := by
  have recorded := run_recorded (recorded_start tokens) ran clean
  exact forall_congr' fun stored => forall_congr' fun isMember =>
    exact_iff_fits (recorded stored isMember)

def smallNumber : Numeral where
  text := "0x10".toList
  value := 16
  isNumeral := ⟨by decide +kernel, separatesDigits_of_notMem (by decide)⟩

/-- The limits of a memory. -/
theorem immediates_exact_iff_limits : ∃ last,
    parsing.run (.start [.nat smallNumber, .nat smallNumber, .rpar]) [.limits] = some last ∧
      last.errors = 0 ∧ last.stored.length = 2 ∧
      ((forall stored, stored ∈ last.stored -> stored.field.Exact stored.literal.value) ↔
        forall stored, stored ∈ last.stored -> stored.field.Fits stored.literal.value) :=
  ⟨_, rfl, rfl, rfl,
    immediates_exact_iff [.nat smallNumber, .nat smallNumber, .rpar] [.limits] _ rfl rfl⟩

/-- The first index that does not fit. -/
def bigIndex : Numeral where
  text := "4294967296".toList
  value := 4294967296
  isNumeral := ⟨by decide +kernel, separatesDigits_of_notMem (by decide)⟩

/-- `(module (func) (start 4294967296))` -/
def startModule : List Token :=
  [.lpar, .other, .lpar, .other, .rpar, .lpar, .other, .nat bigIndex, .rpar, .rpar]

def startCalls : List ParserCall := [.other 7 0, .var, .other 2 0]

/-- The index of a function that does not exist becomes that of one that does. -/
theorem startModule_inexact : ∃ last,
    parsing.run (.start startModule) startCalls = some last ∧ last.errors = 0 ∧
      last.stored = [{ literal := bigIndex, field := .index 0 }] ∧
      ¬forall stored, stored ∈ last.stored -> stored.field.Exact stored.literal.value := by
  have parsed : parseUint64 bigIndex.text = some 4294967296 := by decide +kernel
  refine ⟨{ tokens := [], errors := 0, stored := [{ literal := bigIndex, field := .index 0 }] },
    ?_, rfl, rfl, fun exactly => ?_⟩
  · rfl
  · exact absurd (exactly _ List.mem_cons_self).1 (by decide)

end Text
end WasmSandboxing
