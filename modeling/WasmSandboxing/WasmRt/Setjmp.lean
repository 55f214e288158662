import WasmSandboxing.Foundation.Transition
import WasmSandboxing.WasmRt.HeapTop

namespace WasmSandboxing
namespace WasmRt

open Foundation CLang

/-!
# The table of `setjmp`

A function of the guest that calls `setjmp` keeps a table of the pairs of an id
and a label, ended by an id that is zero.  `saveSetjmp` adds an entry, and it
doubles a table that is full, which the guest's `realloc` may move.  The size
that goes with the returned table is returned through `tempRet0`.
-/

/-- The memory, the counter of the ids and the guest's `tempRet0`. -/
structure JmpState where
  memory : Memory
  setjmpId : BitVec 32
  tempRet0 : BitVec 32

/-- Code of the runtime that counts ids. -/
abbrev OnJmp (Result : Type) := Traced JmpState Access Fault Result

namespace OnJmp

/-- Code that is about the memory only. -/
def lift (computation : OnMemory R) : OnJmp R := fun state =>
  let run := computation state.memory
  ⟨run.outcome, { state with memory := run.state }, run.accesses⟩

/-- `++setjmpId`. -/
def nextId : OnJmp (BitVec 32) := fun state =>
  ⟨.value (state.setjmpId + 1), { state with setjmpId := state.setjmpId + 1 }, []⟩

/-- `_EsetTempRet0`. -/
def setTempRet0 (value : BitVec 32) : OnJmp Unit := fun state =>
  ⟨.value (), { state with tempRet0 := value }, []⟩

end OnJmp

namespace ImportEnv

variable (env : ImportEnv)

/-- `saveSetjmp` with its counter.  `depth` is the number of calls that the
host's stack has room for. -/
def saveSetjmpCounting (envPtr label : BitVec 32) :
    Nat -> BitVec 32 -> BitVec 32 -> OnJmp (BitVec 32)
  | 0, _table, _size => Traced.fail .abort
  | depth + 1, table, size => do
      let newValue <- OnJmp.nextId
      OnJmp.lift (env.i32Store envPtr newValue)
      let saved <- OnJmp.lift (env.saveInTable label table newValue size.toNat 0)
      if saved then
        OnJmp.setTempRet0 size
        pure table
      else
        let size := size * 2
        let table <- OnJmp.lift (callGuest env.realloc (table, 8 * (size + 1)))
        let table <- saveSetjmpCounting envPtr label depth table size
        OnJmp.setTempRet0 size
        pure table

end ImportEnv

/-! ## Without the counter -/

namespace OnJmp

/-- The computation on the memory does the same to it, and ends in the same way. -/
def Forgets (counting : OnJmp R) (plain : OnMemory R) (state : JmpState) : Prop :=
  plain state.memory =
    ⟨(counting state).outcome, (counting state).state.memory, (counting state).accesses⟩

theorem forgets_lift (computation : OnMemory R) (state : JmpState) :
    Forgets (lift computation) computation state := rfl

theorem Forgets.bind {first : OnJmp A} {first' : OnMemory A} {next : A -> OnJmp B}
    {next' : A -> OnMemory B} {state : JmpState} (forgets : Forgets first first' state)
    (continues : forall result, (first state).outcome = .value result ->
      Forgets (next result) (next' result) (first state).state) :
    Forgets (first >>= next) (first' >>= next') state := by
  unfold Forgets at forgets ⊢
  rw [Traced.bind_apply, forgets, Traced.bind_apply]
  rcases ran : first state with ⟨result | reason, left, accesses⟩
  · have later := continues result (by rw [ran])
    rw [ran] at later
    unfold Forgets at later
    rw [Traced.andThen_value, Traced.andThen_value, later]
  · rfl

theorem forgets_nextId {body : BitVec 32 -> OnJmp R} {plain : OnMemory R} {state : JmpState}
    (forgets : Forgets (body (state.setjmpId + 1)) plain
      { state with setjmpId := state.setjmpId + 1 }) :
    Forgets (nextId >>= body) plain state := forgets

/-- `tempRet0` is not in the memory. -/
theorem forgets_setTempRet0 {setTempRet0 : GuestFunction (BitVec 32)}
    (quiet : forall size data, ∃ ret, setTempRet0 size data = some (ret, data))
    (size : BitVec 32) (result : R) (state : JmpState) :
    Forgets (OnJmp.setTempRet0 size >>= fun _set => pure result)
      (ImportEnv.callGuest setTempRet0 size >>= fun _ret => pure result) state := by
  rcases quiet size state.memory.data with ⟨ret, answered⟩
  have called : ImportEnv.callGuest setTempRet0 size state.memory =
      ⟨.value ret, state.memory, []⟩ := by
    rw [ImportEnv.callGuest, answered]
  unfold Forgets
  rw [Traced.bind_apply, called]
  rfl

end OnJmp

/-- With the ids that the counter has, `saveSetjmp` on the memory alone does the
same. -/
theorem ImportEnv.saveSetjmpCounting_forgets (env : ImportEnv)
    (quiet : forall size data, ∃ ret, env.setTempRet0 size data = some (ret, data))
    (envPtr label : BitVec 32) (depth : Nat) (table size : BitVec 32) (state : JmpState)
    (ids : forall rest, rest < depth ->
      env.setjmpIds rest = state.setjmpId + BitVec.ofNat 32 (depth - rest)) :
    OnJmp.Forgets (env.saveSetjmpCounting envPtr label depth table size)
      (env.saveSetjmp envPtr label depth table size) state := by
  induction depth generalizing table size state with
  | zero => rfl
  | succ depth inductionHypothesis =>
      have newValue : env.setjmpIds depth = state.setjmpId + 1 := by
        have id := ids depth (Nat.lt_succ_self depth)
        rwa [Nat.succ_sub (Nat.le_refl depth), Nat.sub_self] at id
      have later (memory : Memory) (rest : Nat) (below : rest < depth) : env.setjmpIds rest =
          (JmpState.mk memory (state.setjmpId + 1) state.tempRet0).setjmpId +
            BitVec.ofNat 32 (depth - rest) := by
        rw [ids rest (Nat.lt_succ_of_lt below), Nat.succ_sub (Nat.le_of_lt below),
          Nat.succ_eq_add_one, Nat.add_comm, BitVec.ofNat_add, ← BitVec.add_assoc]
        rfl
      rw [saveSetjmp, newValue]
      refine OnJmp.forgets_nextId (.bind (OnJmp.forgets_lift _ _) fun _ _ =>
        .bind (OnJmp.forgets_lift _ _) fun saved _ => ?_)
      cases saved with
      | true => exact OnJmp.forgets_setTempRet0 quiet size table _
      | false =>
          exact .bind (OnJmp.forgets_lift _ _) fun target _ =>
            .bind (inductionHypothesis target (size * 2) _ (later _)) fun result _ =>
              OnJmp.forgets_setTempRet0 quiet (size * 2) result _

/-! ## Tables -/

/-- An entry of a table. -/
@[ext] structure JmpEntry where
  id : BitVec 32
  label : BitVec 32
  deriving DecidableEq, Repr

/-- The entries stand one behind the other from `table`, and a zero follows. -/
structure Tabled (data : Bytes) (table : Nat) (entries : List JmpEntry) : Prop where
  ids : forall (index : Nat) (entry : JmpEntry), entries[index]? = some entry ->
    data.read (table + 8 * index) 4 = entry.id.toNat
  labels : forall (index : Nat) (entry : JmpEntry), entries[index]? = some entry ->
    data.read (table + 8 * index + 4) 4 = entry.label.toNat
  nonzero : forall entry, entry ∈ entries -> entry.id ≠ 0
  sentinel : data.read (table + 8 * entries.length) 4 = 0

namespace Tabled

variable {data changed : Bytes} {table target : Nat} {entries : List JmpEntry}

/-- A copy of the bytes up to the sentinel is a table of the same entries. -/
theorem moved (tabled : Tabled data table entries)
    (same : forall offset, offset < 8 * (entries.length + 1) ->
      changed (target + offset) = data (table + offset)) : Tabled changed target entries := by
  have words (start : Nat) (inside : start + 4 ≤ 8 * (entries.length + 1)) :
      changed.read (target + start) 4 = data.read (table + start) 4 :=
    Bytes.read_moved fun index below => by
      rw [Nat.add_assoc, Nat.add_assoc]
      exact same _ (by omega)
  have below {index : Nat} {entry : JmpEntry} (found : entries[index]? = some entry) :
      index < entries.length := (List.getElem?_eq_some_iff.mp found).1
  refine ⟨fun index entry found => ?_, fun index entry found => ?_, tabled.nonzero, ?_⟩
  · have inside := below found
    exact (words (8 * index) (by omega)).trans (tabled.ids index entry found)
  · have inside := below found
    exact (words (8 * index + 4) (by omega)).trans (tabled.labels index entry found)
  · exact (words (8 * entries.length) (by omega)).trans tabled.sentinel

/-- The bytes behind `saveSetjmp`'s three stores. -/
def filled (data : Bytes) (location : Nat) (entry : JmpEntry) : Bytes :=
  ((data.write location 4 entry.id.toNat).write (location + 4) 4 entry.label.toNat).write
    (location + 8) 4 0

theorem filled_outside (data : Bytes) {location address : Nat} (entry : JmpEntry)
    (outside : address < location ∨ location + 12 ≤ address) :
    filled data location entry address = data address := by
  rw [filled, Bytes.write_outside _ _ (by omega), Bytes.write_outside _ _ (by omega),
    Bytes.write_outside _ _ (by omega)]

/-- An entry in the place of the sentinel, and a sentinel behind it. -/
theorem filled_tabled (tabled : Tabled data table entries) {entry : JmpEntry}
    (fresh : entry.id ≠ 0) :
    Tabled (filled data (table + 8 * entries.length) entry) table (entries ++ [entry]) := by
  have idBound := entry.id.isLt
  have labelBound := entry.label.isLt
  have before (start : Nat) (inside : start + 4 ≤ 8 * entries.length) :
      (filled data (table + 8 * entries.length) entry).read (table + start) 4 =
        data.read (table + start) 4 :=
    Bytes.read_congr fun index below => filled_outside data entry (by omega)
  have split {index : Nat} {found : JmpEntry}
      (isThere : (entries ++ [entry])[index]? = some found) :
      (index < entries.length ∧ entries[index]? = some found) ∨
        index = entries.length ∧ found = entry := by
    rcases Nat.lt_trichotomy index entries.length with earlier | last | later
    · rw [List.getElem?_append_left earlier] at isThere
      exact Or.inl ⟨earlier, isThere⟩
    · subst last
      rw [List.getElem?_append_right (Nat.le_refl _), Nat.sub_self] at isThere
      exact Or.inr ⟨rfl, (Option.some.inj isThere).symm⟩
    · rw [List.getElem?_eq_none (by rw [List.length_append]; exact later)] at isThere
      cases isThere
  refine ⟨fun index found isThere => ?_, fun index found isThere => ?_,
    fun found isMember => ?_, ?_⟩
  · rcases split isThere with ⟨earlier, isThere⟩ | ⟨rfl, rfl⟩
    · exact (before (8 * index) (by omega)).trans (tabled.ids index found isThere)
    · rw [filled, Bytes.read_write_apart _ _ (by omega), Bytes.read_write_apart _ _ (by omega),
        Bytes.read_write]
      exact Nat.mod_eq_of_lt idBound
  · rcases split isThere with ⟨earlier, isThere⟩ | ⟨rfl, rfl⟩
    · exact (before (8 * index + 4) (by omega)).trans (tabled.labels index found isThere)
    · rw [filled, Bytes.read_write_apart _ _ (by omega), Bytes.read_write]
      exact Nat.mod_eq_of_lt labelBound
  · rcases List.mem_append.mp isMember with earlier | last
    · exact tabled.nonzero found earlier
    · rw [List.mem_singleton.mp last]
      exact fresh
  · rw [List.length_append, List.length_singleton, filled, Nat.mul_add, ← Nat.add_assoc,
      Bytes.read_write, Nat.zero_mod]

/-- The bytes determine the entries. -/
theorem unique {others : List JmpEntry} (tabled : Tabled data table entries)
    (tabled' : Tabled data table others) : entries = others := by
  have notShorter {shorter longer : List JmpEntry} (ends : Tabled data table shorter)
      (goesOn : Tabled data table longer) : ¬ shorter.length < longer.length := by
    intro less
    have found := List.getElem?_eq_getElem less
    have zero := (goesOn.ids _ _ found).symm.trans ends.sentinel
    exact goesOn.nonzero _ (List.mem_of_getElem? found) (BitVec.eq_of_toNat_eq zero)
  have lengths : entries.length = others.length :=
    Nat.le_antisymm (Nat.le_of_not_lt (notShorter tabled' tabled))
      (Nat.le_of_not_lt (notShorter tabled tabled'))
  refine List.ext_getElem lengths fun index below below' => ?_
  have found := List.getElem?_eq_getElem below
  have found' := List.getElem?_eq_getElem below'
  have id := (tabled.ids _ _ found).symm.trans (tabled'.ids _ _ found')
  have label := (tabled.labels _ _ found).symm.trans (tabled'.labels _ _ found')
  exact JmpEntry.ext (BitVec.eq_of_toNat_eq id) (BitVec.eq_of_toNat_eq label)

end Tabled

/-! ## The scan -/

namespace ImportEnv

variable {env : ImportEnv} {memory : Memory} {table newValue label : BitVec 32}
variable {entries : List JmpEntry}

/-- The address of a slot that is in the memory. -/
theorem slot_toNat {index : Nat} (room : table.toNat + 8 * index < 2 ^ 32) :
    (table + (BitVec.ofNat 32 index <<< 3)).toNat = table.toNat + 8 * index := by
  rw [BitVec.toNat_add, BitVec.toNat_shiftLeft, BitVec.toNat_ofNat, Nat.shiftLeft_eq]
  omega

theorem i32Load_returns {address : BitVec 32} (inside : address.toNat + 4 ≤ memory.size.toNat) :
    (env.i32Load address).Returns memory
      (BitVec.ofNat 32 (memory.data.read address.toNat 4)) memory :=
  ⟨_, i32Load_value inside⟩

theorem i32Store_returns {address : BitVec 32} (value : BitVec 32)
    (inside : address.toNat + 4 ≤ memory.size.toNat) :
    (env.i32Store address value).Returns memory ()
      { memory with data := memory.data.write address.toNat 4 value.toNat } :=
  ⟨_, i32Store_value value inside⟩

/-- A slot with an entry is passed. -/
theorem saveInTable_passes {index remaining : Nat} {entry : JmpEntry} {found : Bool}
    {after : Memory} (tabled : Tabled memory.data table.toNat entries)
    (isThere : entries[index]? = some entry)
    (room : table.toNat + 8 * index + 4 ≤ memory.size.toNat)
    (rest : (env.saveInTable label table newValue remaining (BitVec.ofNat 32 (index + 1))).Returns
      memory found after) :
    (env.saveInTable label table newValue (remaining + 1) (BitVec.ofNat 32 index)).Returns
      memory found after := by
  have bound := memory.size.isLt
  have idBound := entry.id.isLt
  have location : (table + (BitVec.ofNat 32 index <<< 3)).toNat = table.toNat + 8 * index :=
    slot_toNat (by omega)
  have occupied : ¬ BitVec.ofNat 32 (memory.data.read (table.toNat + 8 * index) 4) = 0 := by
    rw [tabled.ids index entry isThere, BitVec.ofNat_toNat, BitVec.setWidth_eq]
    exact tabled.nonzero entry (List.mem_of_getElem? isThere)
  refine Traced.Returns.bind (i32Load_returns (by rw [location]; exact room)) ?_
  rw [location, if_neg occupied]
  rw [BitVec.ofNat_add] at rest
  exact rest

/-- Every slot is taken. -/
theorem saveInTable_full (tabled : Tabled memory.data table.toNat entries)
    (room : table.toNat + 8 * entries.length ≤ memory.size.toNat) (remaining index : Nat)
    (last : index + remaining = entries.length) :
    (env.saveInTable label table newValue remaining (BitVec.ofNat 32 index)).Returns
      memory false memory := by
  induction remaining generalizing index with
  | zero => exact .pure false memory
  | succ remaining inductionHypothesis =>
      have inside : index < entries.length := by omega
      exact saveInTable_passes tabled (List.getElem?_eq_getElem inside) (by omega)
        (inductionHypothesis (index + 1) (by omega))

/-- The slot of the sentinel is taken. -/
theorem saveInTable_takes {remaining : Nat} (tabled : Tabled memory.data table.toNat entries)
    (room : table.toNat + 8 * entries.length + 12 ≤ memory.size.toNat) :
    (env.saveInTable label table newValue (remaining + 1)
        (BitVec.ofNat 32 entries.length)).Returns memory true
      { memory with
        data := Tabled.filled memory.data (table.toNat + 8 * entries.length)
          ⟨newValue, label⟩ } := by
  have bound := memory.size.isLt
  have location : (table + (BitVec.ofNat 32 entries.length <<< 3)).toNat =
      table.toNat + 8 * entries.length := slot_toNat (by omega)
  have second : (table + (BitVec.ofNat 32 entries.length <<< 3) + 4).toNat =
      table.toNat + 8 * entries.length + 4 := by
    rw [BitVec.toNat_add, location]
    exact Nat.mod_eq_of_lt (by change _ + 4 < _; omega)
  have third : (table + (BitVec.ofNat 32 entries.length <<< 3) + 8).toNat =
      table.toNat + 8 * entries.length + 8 := by
    rw [BitVec.toNat_add, location]
    exact Nat.mod_eq_of_lt (by change _ + 8 < _; omega)
  have free : BitVec.ofNat 32 (memory.data.read (table.toNat + 8 * entries.length) 4) = 0 := by
    rw [tabled.sentinel]
    rfl
  refine Traced.Returns.bind (i32Load_returns (by rw [location]; omega)) ?_
  rw [location, if_pos free]
  refine Traced.Returns.bind (i32Store_returns newValue (by rw [location]; omega)) ?_
  refine Traced.Returns.bind (i32Store_returns label (by rw [second]; dsimp only; omega)) ?_
  refine Traced.Returns.bind (i32Store_returns 0 (by rw [third]; dsimp only; omega)) ?_
  rw [location, second, third]
  exact .pure true _

theorem saveInTable_free (tabled : Tabled memory.data table.toNat entries)
    (room : table.toNat + 8 * entries.length + 12 ≤ memory.size.toNat) (remaining index : Nat)
    (before : index ≤ entries.length) (last : entries.length < index + remaining) :
    (env.saveInTable label table newValue remaining (BitVec.ofNat 32 index)).Returns memory true
      { memory with
        data := Tabled.filled memory.data (table.toNat + 8 * entries.length)
          ⟨newValue, label⟩ } := by
  induction remaining generalizing index with
  | zero => exact absurd last (Nat.not_lt.mpr before)
  | succ remaining inductionHypothesis =>
      rcases Nat.lt_or_ge index entries.length with earlier | arrived
      · exact saveInTable_passes tabled (List.getElem?_eq_getElem earlier) (by omega)
          (inductionHypothesis (index + 1) (by omega) (by omega))
      · obtain rfl := Nat.le_antisymm before arrived
        exact saveInTable_takes tabled room

end ImportEnv

/-! ## Blocks -/

/-- What `realloc` is relied on for: blocks lie in the memory, apart from the
jump buffers, stay allocated while only they and the buffers are written, and
keep their contents when they are moved. -/
structure Allocator (realloc : GuestFunction (BitVec 32 × BitVec 32)) (limit : Nat)
    (buffers : Nat -> Prop) where
  Owns : Bytes -> Nat -> Nat -> Prop
  inside : forall {data start length}, Owns data start length -> start + length ≤ limit
  apart : forall {data start length address}, Owns data start length -> start ≤ address ->
    address < start + length -> ¬ buffers address
  frame : forall {data changed start length}, Owns data start length ->
    (forall address, changed address ≠ data address ->
      (start ≤ address ∧ address < start + length) ∨ buffers address) ->
    Owns changed start length
  moves : forall {data changed length} {table size target : BitVec 32},
    Owns data table.toNat length -> realloc (table, size) data = some (target, changed) ->
    Owns changed target.toNat size.toNat ∧
      forall offset, offset < length -> offset < size.toNat ->
        changed (target.toNat + offset) = data (table.toNat + offset)

/-- A table in a block of its own, with room for `size` entries and a sentinel. -/
structure Allocator.Keeps {realloc : GuestFunction (BitVec 32 × BitVec 32)} {limit : Nat}
    {buffers : Nat -> Prop} (allocator : Allocator realloc limit buffers) (data : Bytes)
    (table size : BitVec 32) (entries : List JmpEntry) : Prop where
  owned : allocator.Owns data table.toNat (8 * (size.toNat + 1))
  tabled : Tabled data table.toNat entries
  fits : entries.length ≤ size.toNat

namespace Allocator.Keeps

variable {realloc : GuestFunction (BitVec 32 × BitVec 32)} {limit : Nat} {buffers : Nat -> Prop}
variable {allocator : Allocator realloc limit buffers} {data changed : Bytes}
variable {table size target : BitVec 32} {entries : List JmpEntry}

/-- The id is stored into the jump buffer. -/
theorem buffered (keeps : allocator.Keeps data table size entries) {envPtr : Nat} (value : Nat)
    (buffer : forall offset, offset < 4 -> buffers (envPtr + offset)) :
    allocator.Keeps (data.write envPtr 4 value) table size entries := by
  have fits := keeps.fits
  have inBuffer {address : Nat} (above : envPtr ≤ address) (below : address < envPtr + 4) :
      buffers address := by
    have found := buffer (address - envPtr) (by omega)
    rwa [Nat.add_sub_cancel' above] at found
  refine ⟨allocator.frame keeps.owned fun address differs => ?_, keeps.tabled.moved
    fun offset below => ?_, fits⟩
  · right
    by_contra noBuffer
    refine differs (Bytes.write_outside data value ?_)
    by_contra inside
    exact noBuffer (inBuffer (by omega) (by omega))
  · refine Bytes.write_outside data value ?_
    by_contra inside
    have inBlock : table.toNat + offset < table.toNat + 8 * (size.toNat + 1) := by omega
    exact allocator.apart keeps.owned (Nat.le_add_right _ _) inBlock
      (inBuffer (by omega) (by omega))

/-- The entry is put in the place of the sentinel. -/
theorem saved (keeps : allocator.Keeps data table size entries)
    (room : entries.length < size.toNat) {entry : JmpEntry} (fresh : entry.id ≠ 0) :
    allocator.Keeps (Tabled.filled data (table.toNat + 8 * entries.length) entry) table size
      (entries ++ [entry]) := by
  refine ⟨allocator.frame keeps.owned fun address differs => ?_,
    keeps.tabled.filled_tabled fresh, ?_⟩
  · left
    by_contra outside
    exact differs (Tabled.filled_outside data entry (by omega))
  · rw [List.length_append, List.length_singleton]
    exact room

/-- The table is moved to a block with twice the slots. -/
theorem grown (keeps : allocator.Keeps data table size entries)
    (small : 8 * (2 * size.toNat + 1) < 2 ^ 32)
    (moved : realloc (table, 8 * (size * 2 + 1)) data = some (target, changed)) :
    (size * 2).toNat = 2 * size.toNat ∧
      allocator.Keeps changed target (size * 2) entries := by
  have fits := keeps.fits
  have doubled : (size * 2).toNat = 2 * size.toNat := by
    rw [BitVec.toNat_mul]
    change size.toNat * 2 % 2 ^ 32 = _
    omega
  have bytes : (8 * (size * 2 + 1)).toNat = 8 * (2 * size.toNat + 1) := by
    rw [BitVec.toNat_mul, BitVec.toNat_add, doubled]
    change 8 * ((2 * size.toNat + 1) % 2 ^ 32) % 2 ^ 32 = _
    omega
  rcases allocator.moves keeps.owned moved with ⟨owned, same⟩
  rw [bytes] at owned same
  refine ⟨doubled, ?_, keeps.tabled.moved fun offset below => ?_, ?_⟩
  · rw [doubled]
    exact owned
  · exact same offset (by omega) (by omega)
  · omega

end Allocator.Keeps

/-! ## One call -/

section Calls

variable {env : ImportEnv} {limit : Nat} {buffers : Nat -> Prop}
variable {allocator : Allocator env.realloc limit buffers} {state : JmpState}
variable {table size envPtr label : BitVec 32} {entries : List JmpEntry}

theorem OnJmp.lift_returns {computation : OnMemory R} {result : R} {after : Memory}
    (returns : computation.Returns state.memory result after) :
    (OnJmp.lift computation).Returns state result { state with memory := after } := by
  rcases returns with ⟨accesses, ran⟩
  exact ⟨accesses, by rw [OnJmp.lift, ran]⟩

/-- What is left when an entry has been saved. -/
structure JmpState.SavedAs (allocator : Allocator env.realloc limit buffers) (state : JmpState)
    (table size envPtr : BitVec 32) (entries : List JmpEntry) (label : BitVec 32)
    (count : Nat) (after : JmpState) : Prop where
  memorySize : after.memory.size = state.memory.size
  setjmpId : after.setjmpId = state.setjmpId + BitVec.ofNat 32 count
  keeps : allocator.Keeps after.memory.data table size (entries ++ [⟨after.setjmpId, label⟩])
  buffer : after.memory.data.read envPtr.toNat 4 = after.setjmpId.toNat

/-- The table has a free slot. -/
theorem saveSetjmp_free (depth : Nat) (keeps : allocator.Keeps state.memory.data table size entries)
    (bounded : state.memory.size.toNat = limit) (room : entries.length < size.toNat)
    (buffer : forall offset, offset < 4 -> buffers (envPtr.toNat + offset))
    (bufferInside : envPtr.toNat + 4 ≤ limit) (fresh : state.setjmpId + 1 ≠ 0) :
    ∃ after, (env.saveSetjmpCounting envPtr label (depth + 1) table size).Returns state table after ∧
      after.tempRet0 = size ∧
      state.SavedAs allocator table size envPtr entries label 1 after := by
  have stored := keeps.buffered (state.setjmpId + 1).toNat buffer
  have inside := allocator.inside stored.owned
  have idBound := (state.setjmpId + 1).isLt
  refine ⟨_, .bind ⟨_, rfl⟩ (.bind (OnJmp.lift_returns (ImportEnv.i32Store_returns _ ?_))
    (.bind (OnJmp.lift_returns (ImportEnv.saveInTable_free stored.tabled ?_ size.toNat 0
      (Nat.zero_le _) ?_)) (.bind ⟨_, rfl⟩ (.pure table _)))), rfl, rfl, rfl,
    stored.saved room fresh, ?_⟩
  · rw [bounded]
    exact bufferInside
  · change table.toNat + 8 * entries.length + 12 ≤ state.memory.size.toNat
    omega
  · omega
  · refine (Bytes.read_congr fun offset below => Tabled.filled_outside _ _ ?_).trans ?_
    · by_contra written
      exact allocator.apart stored.owned (by omega) (by omega) (buffer offset below)
    · rw [Bytes.read_write]
      exact Nat.mod_eq_of_lt idBound

theorem callGuest_returns {function : GuestFunction Arguments} {arguments : Arguments}
    {memory : Memory} {result : BitVec 32} {data : Bytes}
    (answered : function arguments memory.data = some (result, data)) :
    (ImportEnv.callGuest function arguments).Returns memory result { memory with data := data } :=
  ⟨[], by rw [ImportEnv.callGuest, answered]⟩

/-- The table is full, and the call on the moved one finds a free slot. -/
theorem saveSetjmp_full (depth : Nat) (keeps : allocator.Keeps state.memory.data table size entries)
    (bounded : state.memory.size.toNat = limit) (full : entries.length = size.toNat)
    (positive : 0 < size.toNat) (small : 8 * (2 * size.toNat + 1) < 2 ^ 32)
    (buffer : forall offset, offset < 4 -> buffers (envPtr.toNat + offset))
    (bufferInside : envPtr.toNat + 4 ≤ limit) (fresh : state.setjmpId + 1 + 1 ≠ 0)
    (grows : forall data, allocator.Owns data table.toNat (8 * (size.toNat + 1)) ->
      (env.realloc (table, 8 * (size * 2 + 1)) data).isSome) :
    ∃ target after, (env.saveSetjmpCounting envPtr label (depth + 2) table size).Returns state
        target after ∧
      after.tempRet0 = size * 2 ∧
      state.SavedAs allocator target (size * 2) envPtr entries label 2 after := by
  have stored := keeps.buffered (state.setjmpId + 1).toNat buffer
  have inside := allocator.inside stored.owned
  rcases Option.isSome_iff_exists.mp (grows _ stored.owned) with ⟨⟨target, changed⟩, moved⟩
  rcases stored.grown small moved with ⟨doubled, grown⟩
  let middle : JmpState :=
    { state with
      memory := { state.memory with data := changed }
      setjmpId := state.setjmpId + 1 }
  have here : allocator.Keeps middle.memory.data target (size * 2) entries := grown
  rcases saveSetjmp_free depth here bounded (by omega) buffer bufferInside fresh with
    ⟨after, returns, capacity, saved⟩
  refine ⟨target, { after with tempRet0 := size * 2 },
    .bind ⟨_, rfl⟩ (.bind (OnJmp.lift_returns (ImportEnv.i32Store_returns _ ?_))
      (.bind (OnJmp.lift_returns (ImportEnv.saveInTable_full stored.tabled ?_ size.toNat 0 ?_))
        (.bind (OnJmp.lift_returns (callGuest_returns moved))
          (.bind returns (.bind ⟨_, rfl⟩ (.pure target _)))))), rfl, ?_⟩
  · rw [bounded]
    exact bufferInside
  · change table.toNat + 8 * entries.length ≤ state.memory.size.toNat
    omega
  · omega
  · exact ⟨saved.memorySize, saved.setjmpId.trans (BitVec.add_assoc _ _ _), saved.keeps,
      saved.buffer⟩

end Calls

/-! ## Histories -/

/-- The memory with the table and the size that the next call is given. -/
structure Setjmps where
  state : JmpState
  table : BitVec 32
  size : BitVec 32

/-- A call with its jump buffer, its label and the room on the host's stack. -/
structure JmpCall where
  envPtr : BitVec 32
  label : BitVec 32
  depth : Nat

namespace Setjmps

/-- No id is zero. -/
def Full (setjmps : Setjmps) : Prop :=
  forall index, index < setjmps.size.toNat ->
    setjmps.state.memory.data.read (setjmps.table.toNat + 8 * index) 4 ≠ 0

/-- The next call is given the returned table and the size in `tempRet0`. -/
def save (env : ImportEnv) (setjmps : Setjmps) (call : JmpCall) : Option Setjmps :=
  let run := env.saveSetjmpCounting call.envPtr call.label call.depth setjmps.table setjmps.size
    setjmps.state
  match run.outcome with
  | .value table => some ⟨run.state, table, run.state.tempRet0⟩
  | .fault _reason => none

def runs (env : ImportEnv) : System Setjmps JmpCall where
  step := save env

variable {env : ImportEnv} {limit : Nat} {buffers : Nat -> Prop}
variable (allocator : Allocator env.realloc limit buffers)

/-- The jump buffer is one, the stack has room for a call in a call, and a full
table of twice the size has a byte count of 32 bits and is allocated. -/
structure Permitted (setjmps : Setjmps) (call : JmpCall) : Prop where
  buffer : forall offset, offset < 4 -> buffers (call.envPtr.toNat + offset)
  bufferInside : call.envPtr.toNat + 4 ≤ limit
  depth : 2 ≤ call.depth
  small : setjmps.Full -> 8 * (2 * setjmps.size.toNat + 1) < 2 ^ 32
  grows : setjmps.Full -> forall data,
    allocator.Owns data setjmps.table.toNat (8 * (setjmps.size.toNat + 1)) ->
      (env.realloc (setjmps.table, 8 * (setjmps.size * 2 + 1)) data).isSome

/-- The returned table has the entries so far and one for the call, whose id is
new and in the jump buffer; `tempRet0` is the number of its slots. -/
def Saves (before : Setjmps) (call : JmpCall) (after : Setjmps) : Prop :=
  ∃ entries id,
    allocator.Keeps before.state.memory.data before.table before.size entries ∧
    allocator.Keeps after.state.memory.data after.table after.state.tempRet0
      (entries ++ [⟨id, call.label⟩]) ∧
    id ≠ 0 ∧ (forall entry, entry ∈ entries -> entry.id ≠ id) ∧
    after.state.memory.data.read call.envPtr.toNat 4 = id.toNat ∧
    after.size = after.state.tempRet0

/-- What holds between the calls.  Every id in the table has been counted, and
the ids last for as many entries as fit into 32 bits. -/
structure Sound (setjmps : Setjmps) (entries : List JmpEntry) : Prop where
  bounded : setjmps.state.memory.size.toNat = limit
  keeps : allocator.Keeps setjmps.state.memory.data setjmps.table setjmps.size entries
  counted : forall entry, entry ∈ entries -> entry.id.toNat ≤ setjmps.state.setjmpId.toNat
  spare : setjmps.state.setjmpId.toNat + 2 ^ 30 ≤ 2 ^ 32 + 2 * entries.length

variable {allocator} {setjmps : Setjmps} {call : JmpCall} {entries : List JmpEntry}

theorem save_of_returns {table : BitVec 32} {after : JmpState}
    (returns : (env.saveSetjmpCounting call.envPtr call.label call.depth setjmps.table
      setjmps.size).Returns setjmps.state table after) :
    save env setjmps call = some ⟨after, table, after.tempRet0⟩ := by
  rcases returns with ⟨accesses, ran⟩
  rw [save, ran]

theorem returns_of_save {next : Setjmps} (saved : save env setjmps call = some next) :
    (env.saveSetjmpCounting call.envPtr call.label call.depth setjmps.table
      setjmps.size).Returns setjmps.state next.table next.state := by
  rw [save] at saved
  rcases ran : env.saveSetjmpCounting call.envPtr call.label call.depth setjmps.table
    setjmps.size setjmps.state with ⟨table | reason, after, accesses⟩
  · rw [ran] at saved
    obtain rfl := Option.some.inj saved
    exact ⟨accesses, ran⟩
  · rw [ran] at saved
    cases saved

/-- The two kinds of a call leave the same. -/
theorem sound_of_savedAs {table size : BitVec 32} {after : JmpState} {count : Nat}
    (sound : Sound allocator setjmps entries) (capacity : after.tempRet0 = size)
    (counts : 1 ≤ count ∧ count ≤ 2)
    (saved : setjmps.state.SavedAs allocator table size call.envPtr entries call.label count
      after) :
    Saves allocator setjmps call ⟨after, table, after.tempRet0⟩ ∧
      ∃ entries, Sound allocator ⟨after, table, after.tempRet0⟩ entries := by
  have inside := allocator.inside sound.keeps.owned
  have bound := setjmps.state.memory.size.isLt
  have bounded := sound.bounded
  have fits := sound.keeps.fits
  have spare := sound.spare
  have id : after.setjmpId.toNat = setjmps.state.setjmpId.toNat + count := by
    rw [saved.setjmpId, BitVec.toNat_add, BitVec.toNat_ofNat]
    omega
  subst capacity
  refine ⟨⟨entries, after.setjmpId, sound.keeps, saved.keeps, fun zero => ?_,
    fun entry isMember same => ?_, saved.buffer, rfl⟩,
    entries ++ [⟨after.setjmpId, call.label⟩], ?_, saved.keeps, fun entry isMember => ?_, ?_⟩
  · rw [zero] at id
    change 0 = _ at id
    omega
  · have older := sound.counted entry isMember
    rw [same] at older
    omega
  · rw [saved.memorySize]
    exact bounded
  · rcases List.mem_append.mp isMember with earlier | last
    · have older := sound.counted entry earlier
      dsimp only
      omega
    · rw [List.mem_singleton.mp last]
  · rw [List.length_append, List.length_singleton]
    dsimp only
    omega

/-- A table with as many entries as slots is full. -/
theorem full_of_length (sound : Sound allocator setjmps entries)
    (length : entries.length = setjmps.size.toNat) : setjmps.Full := by
  intro index below zero
  have found := List.getElem?_eq_getElem (show index < entries.length by omega)
  have id := sound.keeps.tabled.ids _ _ found
  rw [zero] at id
  exact sound.keeps.tabled.nonzero _ (List.mem_of_getElem? found) (BitVec.eq_of_toNat_eq id.symm)

/-- A permitted call on a table with a slot returns. -/
theorem save_happens (sound : Sound allocator setjmps entries) (positive : setjmps.size ≠ 0)
    (permitted : Permitted allocator setjmps call) : ∃ next,
    save env setjmps call = some next ∧ Saves allocator setjmps call next ∧ next.size ≠ 0 ∧
      ∃ entries, Sound allocator next entries := by
  have inside := allocator.inside sound.keeps.owned
  have bound := setjmps.state.memory.size.isLt
  have bounded := sound.bounded
  have fits := sound.keeps.fits
  have spare := sound.spare
  have slots : 0 < setjmps.size.toNat := Nat.pos_of_ne_zero fun zero =>
    positive (BitVec.eq_of_toNat_eq zero)
  have fresh (count : Nat) (few : 1 ≤ count ∧ count ≤ 2) :
      setjmps.state.setjmpId + BitVec.ofNat 32 count ≠ 0 := by
    intro wrapped
    have sum := congrArg BitVec.toNat wrapped
    rw [BitVec.toNat_add, BitVec.toNat_ofNat] at sum
    change _ = 0 at sum
    omega
  rcases call with ⟨envPtr, label, depth⟩
  obtain ⟨depth, rfl⟩ : ∃ rest, depth = rest + 2 :=
    ⟨depth - 2, (Nat.sub_add_cancel permitted.depth).symm⟩
  rcases Nat.lt_or_eq_of_le fits with room | full
  · rcases saveSetjmp_free (depth + 1) sound.keeps bounded room permitted.buffer
      permitted.bufferInside (fresh 1 ⟨by decide, by decide⟩) with
      ⟨after, returns, capacity, saved⟩
    rcases sound_of_savedAs sound capacity ⟨by decide, by decide⟩ saved with ⟨saves, next⟩
    exact ⟨_, save_of_returns returns, saves, by rw [capacity]; exact positive, next⟩
  · have isFull := full_of_length sound full
    have twice : setjmps.state.setjmpId + 1 + 1 ≠ 0 := by
      rw [BitVec.add_assoc]
      exact fresh 2 ⟨by decide, by decide⟩
    have small := permitted.small isFull
    rcases saveSetjmp_full depth sound.keeps bounded full slots small permitted.buffer
      permitted.bufferInside twice (permitted.grows isFull) with
      ⟨target, after, returns, capacity, saved⟩
    rcases sound_of_savedAs sound capacity ⟨by decide, by decide⟩ saved with ⟨saves, next⟩
    refine ⟨_, save_of_returns returns, saves, fun zero => ?_, next⟩
    dsimp only at zero
    rw [capacity] at zero
    have doubled := congrArg BitVec.toNat zero
    rw [BitVec.toNat_mul] at doubled
    change setjmps.size.toNat * 2 % 2 ^ 32 = 0 at doubled
    omega

/-- A table without slots is doubled again and again. -/
theorem empty_never_returns (envPtr label table : BitVec 32) (depth : Nat) (state : JmpState)
    (result : BitVec 32) (after : JmpState) :
    ¬ (env.saveSetjmpCounting envPtr label depth table 0).Returns state result after := by
  induction depth generalizing table state result after with
  | zero =>
      rintro ⟨accesses, ran⟩
      cases ran
  | succ depth inductionHypothesis =>
      intro returns
      rcases returns.of_bind with ⟨newValue, counted, _, returns⟩
      rcases returns.of_bind with ⟨_, stored, _, returns⟩
      rcases returns.of_bind with ⟨saved, scanned, unsaved, returns⟩
      obtain ⟨rfl, _⟩ := unsaved.unique (OnJmp.lift_returns (.pure false _))
      rcases returns.of_bind with ⟨target, moved, _, returns⟩
      rcases returns.of_bind with ⟨found, last, again, _⟩
      exact inductionHypothesis target moved found last again

/-- A history that starts with room for an entry loses none and returns from
every call; without any room no call returns. -/
theorem setjmps_saved_iff {env : ImportEnv} {limit : Nat} {buffers : Nat -> Prop}
    (allocator : Allocator env.realloc limit buffers) (start : Setjmps)
    (entries : List JmpEntry) (sound : Sound allocator start entries) (calls : List JmpCall)
    (called : calls ≠ []) (allowed : (runs env).Allowed (Permitted allocator) start calls) :
    (runs env).EachDoes (Saves allocator) start calls ↔ start.size ≠ 0 := by
  constructor
  · intro does zero
    cases calls with
    | nil => exact called rfl
    | cons call rest =>
        rcases does with ⟨next, stepped, _, _⟩
        have returns := returns_of_save stepped
        rw [zero] at returns
        exact empty_never_returns _ _ _ _ _ _ _ returns
  · intro positive
    have happens (setjmps : Setjmps) (call : JmpCall)
        (holds : setjmps.size ≠ 0 ∧ ∃ entries, Sound allocator setjmps entries)
        (permitted : Permitted allocator setjmps call) : ∃ next,
        (runs env).step setjmps call = some next ∧ Saves allocator setjmps call next ∧
          next.size ≠ 0 ∧ ∃ entries, Sound allocator next entries := by
      rcases holds with ⟨slots, entries, sound⟩
      exact save_happens sound slots permitted
    exact System.eachDoes_of_allowed happens ⟨positive, entries, sound⟩ allowed

/-- A guest whose `realloc` grows the only block in place. -/
def growingEnv : ImportEnv :=
  { ImportEnv.quietEnv with
    realloc := fun (table, size) data =>
      if table.toNat + size.toNat ≤ getTotalMemory.toNat then some (table, data) else none }

/-- The block of the table starts at 4096, and the jump buffers are below it. -/
def growingAllocator :
    Allocator growingEnv.realloc getTotalMemory.toNat fun address => address < 4096 where
  Owns _data start length := start = 4096 ∧ start + length ≤ getTotalMemory.toNat
  inside owned := owned.2
  apart := by
    rintro data start length address ⟨rfl, _⟩ above _ below
    omega
  frame owned _same := owned
  moves := by
    rintro data changed length table size target ⟨start, fits⟩ moved
    dsimp only [growingEnv] at moved
    split at moved
    · rename_i inside
      cases moved
      exact ⟨⟨start, inside⟩, fun _offset _ _ => rfl⟩
    · cases moved

/-- A table of one entry, which is full. -/
def fullTable : Setjmps where
  state :=
    { memory := { envMemory with data := Tabled.filled (fun _address => 0) 4096 ⟨7, 3⟩ }
      setjmpId := 7
      tempRet0 := 0 }
  table := 4096
  size := 1

theorem zeros_tabled : Tabled (fun _address => 0) 4096 [] :=
  ⟨fun _index _entry found => (by cases found), fun _index _entry found => (by cases found),
    fun _entry isMember => (by cases isMember), rfl⟩

theorem fullTable_sound : Sound growingAllocator fullTable [⟨7, 3⟩] where
  bounded := rfl
  keeps := ⟨⟨rfl, by decide⟩, zeros_tabled.filled_tabled (by decide), by decide⟩
  counted entry isMember := by
    rw [List.mem_singleton.mp isMember]
    decide
  spare := by decide

theorem fullTable_permitted : Permitted growingAllocator fullTable ⟨1024, 5, 2⟩ where
  buffer offset below := by
    change 1024 + offset < 4096
    omega
  bufferInside := by decide
  depth := by decide
  small _full := by decide
  grows _full data _owned := by
    dsimp only [growingEnv]
    rw [if_pos (by decide)]
    rfl

/-- A call on the full table. -/
theorem setjmps_saved_iff_full :
    (runs growingEnv).EachDoes (Saves growingAllocator) fullTable [⟨1024, 5, 2⟩] :=
  (setjmps_saved_iff growingAllocator fullTable [⟨7, 3⟩] fullTable_sound [⟨1024, 5, 2⟩]
    (by decide) ⟨fullTable_permitted, fun _next _stepped => trivial⟩).mpr (by decide)

/-- A table of the sentinel only. -/
def emptyTable : Setjmps where
  state := ⟨envMemory, 0, 0⟩
  table := 4096
  size := 0

/-- However deep the host's stack is, the call fills it. -/
theorem emptyTable_fills_stack :
    growingAllocator.Keeps emptyTable.state.memory.data emptyTable.table emptyTable.size [] ∧
      forall depth, (growingEnv.saveSetjmpCounting 1024 5 depth emptyTable.table emptyTable.size
        emptyTable.state).outcome = .fault .abort := by
  refine ⟨⟨⟨rfl, by decide⟩, zeros_tabled, Nat.zero_le _⟩, fun depth => ?_⟩
  have deeper (depth : Nat) (state : JmpState) (bounded : state.memory.size = getTotalMemory) :
      (growingEnv.saveSetjmpCounting 1024 5 depth 4096 0 state).outcome = .fault .abort := by
    induction depth generalizing state with
    | zero => rfl
    | succ depth inductionHypothesis =>
        let stored : JmpState :=
          { state with
            memory := { state.memory with
              data := state.memory.data.write 1024 4 (state.setjmpId + 1).toNat }
            setjmpId := state.setjmpId + 1 }
        have counted : OnJmp.nextId.Returns state (state.setjmpId + 1)
            { state with setjmpId := state.setjmpId + 1 } := ⟨[], rfl⟩
        have wrote : (OnJmp.lift (growingEnv.i32Store 1024 (state.setjmpId + 1))).Returns
            { state with setjmpId := state.setjmpId + 1 } () stored :=
          OnJmp.lift_returns (ImportEnv.i32Store_returns _ (by rw [bounded]; decide))
        have scanned : (OnJmp.lift (growingEnv.saveInTable 5 4096 (state.setjmpId + 1) 0 0)).Returns
            stored false stored := OnJmp.lift_returns (.pure false _)
        have moved : (OnJmp.lift (ImportEnv.callGuest growingEnv.realloc (4096, 8))).Returns
            stored 4096 stored := OnJmp.lift_returns (callGuest_returns rfl)
        refine counted.outcome_bind.trans (wrote.outcome_bind.trans (scanned.outcome_bind.trans
          (moved.outcome_bind.trans (Traced.outcome_bind_fault _ ?_))))
        exact inductionHypothesis stored bounded
  exact deeper depth emptyTable.state rfl

end Setjmps

end WasmRt
end WasmSandboxing
