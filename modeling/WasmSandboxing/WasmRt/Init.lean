import WasmSandboxing.WasmRt.Memory

namespace WasmSandboxing
namespace WasmRt

open Foundation

/-!
# Allocation of memories and tables

The runtime functions that a module's `init` calls, over whatever else the
caller keeps in its state, and what `wasm_init_module` has set up before.
-/

/-- `PAGE_SIZE`. -/
def pageSize : BitVec 32 := 65536

/-- `FUNC_TABLE_SIZE`. -/
def funcTableSize : BitVec 32 := 1024

/-- `wasm_rt_elem_t`; a null function pointer is `none`. -/
structure Elem (Func : Type) where
  funcType : BitVec 32
  func : Option Func

/-- `wasm_rt_table_t`, with an element count of `size`. -/
structure Table (Func : Type) where
  data : Nat -> Elem Func
  maxSize : BitVec 32
  size : BitVec 32

/-- `wasm_rt_allocate_memory` as far as it returns; the data are zeroed and the
byte count is a product of `uint32_t` operands. -/
def allocateMemory (initialPages maxPages : BitVec 32) : Memory where
  data _ := 0
  pages := initialPages
  maxPages := maxPages
  size := initialPages * pageSize

/-- `wasm_rt_allocate_table_real`. -/
def allocateTableReal {Func : Type} (elements maxElements : BitVec 32) : Table Func where
  data _ := ⟨0, none⟩
  maxSize := maxElements
  size := elements

/-- `wasm_rt_allocate_table`: every table is the runtime's own one, whatever
size is asked for. -/
def allocateTable {Func : Type} (ownTable : Table Func) (_elements _maxElements : BitVec 32) :
    Table Func :=
  ownTable

/-- `getTotalMemory`. -/
def getTotalMemory : BitVec 32 := 0x80000000 - pageSize

/-- `Z_envZ_memory` as `wasm_init_module` allocates it. -/
def envMemory : Memory :=
  allocateMemory (getTotalMemory / pageSize) (getTotalMemory / pageSize)

/-- `Z_envZ_table` as `wasm_init_module` allocates it. -/
def envTable {Func : Type} : Table Func := allocateTableReal funcTableSize funcTableSize

/-- The byte count is exact below 65536 pages; at 65536 it is zero. -/
theorem allocateMemory_size (initialPages maxPages : BitVec 32) :
    (allocateMemory initialPages maxPages).size.toNat = initialPages.toNat * 65536 % 2 ^ 32 := by
  rw [allocateMemory, BitVec.toNat_mul]
  rfl

end WasmRt
end WasmSandboxing
