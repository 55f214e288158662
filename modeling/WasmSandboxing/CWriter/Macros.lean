import WasmSandboxing.CLang.Scalar
import WasmSandboxing.WasmRt.Memory

namespace WasmSandboxing
namespace CWriter

open Foundation CLang WasmRt

/-!
# The operator macros of the template

Each macro of the prepended C source as a function on argument expressions.
An argument is always a variable, so that repeating it repeats no effect.
-/

namespace Macros

variable {Var : Type}

def int (number : Nat) : Expr Var Trap := .lit (.decimal number)

def minusOne : Expr Var Trap := .unary .neg (int 1)

def unlikely (condition : Expr Var Trap) : Expr Var Trap := .unary .not (.unary .not condition)

def int32Min : Expr Var Trap := .lit (.s32 0x80000000#32)
def int32Max : Expr Var Trap := .lit (.s32 0x7FFFFFFF#32)
def uint32Max : Expr Var Trap := .lit (.u32 0xFFFFFFFF#32)
def int64Min : Expr Var Trap := .lit (.s64 0x8000000000000000#64)
def int64Max : Expr Var Trap := .lit (.s64 0x7FFFFFFFFFFFFFFF#64)
def uint64Max : Expr Var Trap := .lit (.u64 0xFFFFFFFFFFFFFFFF#64)

/-- `NAN`, a quiet NaN of type `float`. -/
def nan : Expr Var Trap := .lit (.f32 (BitVec.ofNat 32 FloatFormat.single.canonicalNaN))

/-! ## Bit counting -/

def i32Clz (x : Expr Var Trap) : Expr Var Trap := .cond x (.call1 .clz x) (int 32)
def i64Clz (x : Expr Var Trap) : Expr Var Trap := .cond x (.call1 .clzll x) (int 64)
def i32Ctz (x : Expr Var Trap) : Expr Var Trap := .cond x (.call1 .ctz x) (int 32)
def i64Ctz (x : Expr Var Trap) : Expr Var Trap := .cond x (.call1 .ctzll x) (int 64)
def i32Popcnt (x : Expr Var Trap) : Expr Var Trap := .call1 .popcount x
def i64Popcnt (x : Expr Var Trap) : Expr Var Trap := .call1 .popcountll x

/-! ## Division -/

def divS (ut : CType) (min x y : Expr Var Trap) : Expr Var Trap :=
  .cond (unlikely (.binary .eq y (int 0))) (.trap .divByZero)
    (.cond (unlikely (.and (.binary .eq x min) (.binary .eq y minusOne))) (.trap .intOverflow)
      (.cast ut (.binary .div x y)))

def remS (ut : CType) (min x y : Expr Var Trap) : Expr Var Trap :=
  .cond (unlikely (.binary .eq y (int 0))) (.trap .divByZero)
    (.cond (unlikely (.and (.binary .eq x min) (.binary .eq y minusOne))) (int 0)
      (.cast ut (.binary .rem x y)))

def i32DivS (x y : Expr Var Trap) : Expr Var Trap :=
  divS .u32 int32Min (.cast .s32 x) (.cast .s32 y)
def i64DivS (x y : Expr Var Trap) : Expr Var Trap :=
  divS .u64 int64Min (.cast .s64 x) (.cast .s64 y)
def i32RemS (x y : Expr Var Trap) : Expr Var Trap :=
  remS .u32 int32Min (.cast .s32 x) (.cast .s32 y)
def i64RemS (x y : Expr Var Trap) : Expr Var Trap :=
  remS .u64 int64Min (.cast .s64 x) (.cast .s64 y)

def divremU (operator : BinaryOp) (x y : Expr Var Trap) : Expr Var Trap :=
  .cond (unlikely (.binary .eq y (int 0))) (.trap .divByZero) (.binary operator x y)

def divU (x y : Expr Var Trap) : Expr Var Trap := divremU .div x y
def remU (x y : Expr Var Trap) : Expr Var Trap := divremU .rem x y

/-! ## Rotation -/

/-- `(mask) - (y) + 1`, masked. -/
def complement (y mask : Expr Var Trap) : Expr Var Trap :=
  .binary .bitand (.binary .add (.binary .sub mask y) (int 1)) mask

def rotl (x y mask : Expr Var Trap) : Expr Var Trap :=
  .binary .bitor (.binary .shl x (.binary .bitand y mask)) (.binary .shr x (complement y mask))

def rotr (x y mask : Expr Var Trap) : Expr Var Trap :=
  .binary .bitor (.binary .shr x (.binary .bitand y mask)) (.binary .shl x (complement y mask))

def i32Rotl (x y : Expr Var Trap) : Expr Var Trap := rotl x y (int 31)
def i64Rotl (x y : Expr Var Trap) : Expr Var Trap := rotl x y (int 63)
def i32Rotr (x y : Expr Var Trap) : Expr Var Trap := rotr x y (int 31)
def i64Rotr (x y : Expr Var Trap) : Expr Var Trap := rotr x y (int 63)

/-! ## Minimum and maximum -/

/-- `FMIN` and `FMAX` differ in the operator and in the order of the two zeros.
`sign` is
`signbit`, which is generic in the type of its argument. -/
def fextremum (operator : BinaryOp) (sign : Function1) (zeroYes zeroNo x y : Expr Var Trap) :
    Expr Var Trap :=
  .cond (unlikely (.binary .ne x x)) nan
    (.cond (unlikely (.binary .ne y y)) nan
      (.cond (unlikely (.and (.binary .eq x (int 0)) (.binary .eq y (int 0))))
        (.cond (.call1 sign x) zeroYes zeroNo)
        (.cond (.binary operator x y) x y)))

def fmin (sign : Function1) (x y : Expr Var Trap) : Expr Var Trap :=
  fextremum .lt sign x y x y

def fmax (sign : Function1) (x y : Expr Var Trap) : Expr Var Trap :=
  fextremum .gt sign y x x y

/-! ## Truncation -/

def truncS (ut st ft : CType) (min max : Expr Var Trap) (maxop : BinaryOp) (x : Expr Var Trap) :
    Expr Var Trap :=
  .cond (unlikely (.binary .ne x x)) (.trap .invalidConversion)
    (.cond (unlikely (.or (.binary .lt x (.cast ft min)) (.binary maxop x (.cast ft max))))
      (.trap .intOverflow) (.cast ut (.cast st x)))

def i32TruncSF32 (x : Expr Var Trap) : Expr Var Trap :=
  truncS .u32 .s32 .f32 int32Min int32Max .ge x
def i64TruncSF32 (x : Expr Var Trap) : Expr Var Trap :=
  truncS .u64 .s64 .f32 int64Min int64Max .ge x
def i32TruncSF64 (x : Expr Var Trap) : Expr Var Trap :=
  truncS .u32 .s32 .f64 int32Min int32Max .gt x
def i64TruncSF64 (x : Expr Var Trap) : Expr Var Trap :=
  truncS .u64 .s64 .f64 int64Min int64Max .ge x

def truncU (ut ft : CType) (max : Expr Var Trap) (maxop : BinaryOp) (x : Expr Var Trap) :
    Expr Var Trap :=
  .cond (unlikely (.binary .ne x x)) (.trap .invalidConversion)
    (.cond (unlikely (.or (.binary .le x (.cast ft minusOne)) (.binary maxop x (.cast ft max))))
      (.trap .intOverflow) (.cast ut x))

def i32TruncUF32 (x : Expr Var Trap) : Expr Var Trap := truncU .u32 .f32 uint32Max .ge x
def i64TruncUF32 (x : Expr Var Trap) : Expr Var Trap := truncU .u64 .f32 uint64Max .ge x
def i32TruncUF64 (x : Expr Var Trap) : Expr Var Trap := truncU .u32 .f64 uint32Max .gt x
def i64TruncUF64 (x : Expr Var Trap) : Expr Var Trap := truncU .u64 .f64 uint64Max .ge x

end Macros

end CWriter
end WasmSandboxing
