import WasmSandboxing.Foundation.Transition
import WasmSandboxing.WasmRt.FuncTypes
import WasmSandboxing.WasmRt.Init
import WasmSandboxing.WasmRt.Memory
import Mathlib.Logic.Function.Basic

namespace WasmSandboxing
namespace WasmRt

open Foundation Wasm

/-!
# Indirect calls

The function table from the start of the process on: element initialisers of
the module, functions that the host registers and unregisters, and the check
that `CALL_INDIRECT` makes.  A slot holds the id of a type; above it stands a
table whose slots hold the types themselves.
-/

section Runtime

variable {Func : Type}

def Table.set (table : Table Func) (slot : Nat) (elem : Elem Func) : Table Func :=
  { table with data := Function.update table.data slot elem }

/-- `wasm_rt_register_func`: the first empty slot from 1 on.  Without one the
process ends. -/
def registerFunc (table : Table Func) (func : Func) (funcType : BitVec 32) :
    Option (BitVec 32 × Table Func) :=
  ((List.range' 1 (funcTableSize.toNat - 1)).find? fun slot => (table.data slot).func.isNone).map
    fun slot => (BitVec.ofNat 32 slot, table.set slot ⟨funcType, some func⟩)

/-- What a registration does when it returns. -/
theorem registerFunc_some {table filled : Table Func} {func : Func} {funcType result : BitVec 32}
    (registered : registerFunc table func funcType = some (result, filled)) :
    ∃ slot, slot ≠ 0 ∧ slot < funcTableSize.toNat ∧ (table.data slot).func = none ∧
      filled = table.set slot ⟨funcType, some func⟩ := by
  rcases Option.map_eq_some_iff.mp registered with ⟨slot, found, same⟩
  cases same
  have range := List.mem_range'_1.mp (List.mem_of_find?_eq_some found)
  have free := List.find?_some found
  exact ⟨slot, by omega, by omega, Option.isNone_iff_eq_none.mp free, rfl⟩

/-- `wasm_ret_unregister_func`. -/
def unregisterFunc (table : Table Func) (slotNumber : BitVec 32) : Table Func :=
  if slotNumber < funcTableSize then table.set slotNumber.toNat ⟨0, none⟩ else table

/-- `CALL_INDIRECT`, up to the call. -/
def callIndirect (table : Table Func) (funcType : BitVec 32) (x : BitVec 32) : Except Trap Func :=
  if x < table.size then
    match (table.data x.toNat).func with
    | some func =>
        if (table.data x.toNat).funcType = funcType then .ok func else .error .callIndirect
    | none => .error .callIndirect
  else .error .callIndirect

/-! ## Runs -/

/-- `g_func_types`, the module's `func_types`, its table, and the registrations
of types with the ids they have returned. -/
structure IndirectState (Func : Type) where
  types : List FuncType
  funcTypes : List (BitVec 32)
  table : Table Func
  issued : List (TypeLists × BitVec 32)

/-- What generated code and the host do.  A function is registered under an id
that an earlier registration has returned. -/
inductive IndirectEvent (Func : Type) where
  | registerFuncType (lists : TypeLists)
  | registerFuncTypeWithLists (lists : TypeLists)
  | initFuncTypes
  | initElem (slot typeIndex : Nat) (func : Func)
  | registerFunc (func : Func) (registration : Nat)
  | unregisterFunc (slotNumber : BitVec 32)

namespace IndirectState

/-- Nothing is registered and `func_types` is not set. -/
def start : IndirectState Func := ⟨[], [], envTable, []⟩

variable (state : IndirectState Func)

def issue (lists : TypeLists) (made : BitVec 32 × List FuncType) : IndirectState Func :=
  { state with types := made.2, issued := state.issued ++ [(lists, made.1)] }

/-- A call of `wasm_rt_register_func_type` in generated code. -/
def registerVariadic (lists : TypeLists) : Option (BitVec 32 × List FuncType) :=
  registerFuncType state.types (BitVec.ofNat 32 lists.params.length)
    (BitVec.ofNat 32 lists.results.length) (lists.params ++ lists.results)

/-- The assignments of `init_func_types`. -/
def initFuncTypes : List TypeLists -> IndirectState Func -> Option (IndirectState Func)
  | [], state => some state
  | lists :: rest, state => do
      let made <- state.registerVariadic lists
      initFuncTypes rest
        { state.issue lists made with funcTypes := state.funcTypes ++ [made.1] }

/-- One event.  `init` sets `func_types` before it fills the table. -/
def step (moduleTypes : List TypeLists) : IndirectEvent Func -> Option (IndirectState Func)
  | .registerFuncType lists => (state.registerVariadic lists).map (state.issue lists)
  | .registerFuncTypeWithLists lists =>
      some (state.issue lists
        (WasmRt.registerFuncTypeWithLists state.types lists.params lists.results))
  | .initFuncTypes => initFuncTypes moduleTypes { state with funcTypes := [] }
  | .initElem slot typeIndex func => do
      let funcType <- state.funcTypes[typeIndex]?
      if slot < state.table.size.toNat then
        some { state with table := state.table.set slot ⟨funcType, some func⟩ }
      else none
  | .registerFunc func registration => do
      let (_, funcType) <- state.issued[registration]?
      let (_, table) <- WasmRt.registerFunc state.table func funcType
      some { state with table := table }
  | .unregisterFunc slotNumber =>
      some { state with table := WasmRt.unregisterFunc state.table slotNumber }

/-- `CALL_INDIRECT` with a type of the module; `func_types` is static and zero
until it is set. -/
def call (typeIndex : Nat) (x : BitVec 32) : Except Trap Func :=
  callIndirect state.table (state.funcTypes.getD typeIndex 0) x

end IndirectState

def indirectSystem (moduleTypes : List TypeLists) :
    System (IndirectState Func) (IndirectEvent Func) :=
  ⟨fun state event => state.step moduleTypes event⟩

/-! ## Slots with their types -/

/-- What the table is for: which function stands in a slot, and with which type
it was put there. -/
structure TypedTable (Func : Type) where
  occupants : Nat -> Option (Func × TypeLists)
  registrations : List TypeLists

namespace TypedTable

def start : TypedTable Func := ⟨fun _ => none, []⟩

def occupy (table : TypedTable Func) (slot : Nat) (occupant : Option (Func × TypeLists)) :
    TypedTable Func :=
  { table with occupants := Function.update table.occupants slot occupant }

def record (table : TypedTable Func) (lists : List TypeLists) : TypedTable Func :=
  { table with registrations := table.registrations ++ lists }

theorem record_record (table : TypedTable Func) (first second : List TypeLists) :
    (table.record first).record second = table.record (first ++ second) := by
  rw [record, record, List.append_assoc]
  rfl

/-- A registered function takes an empty slot other than 0, and every event
changes one slot at most. -/
inductive Step (moduleTypes : List TypeLists) :
    TypedTable Func -> IndirectEvent Func -> TypedTable Func -> Prop where
  | registerFuncType (table : TypedTable Func) (lists : TypeLists) :
      Step moduleTypes table (.registerFuncType lists) (table.record [lists])
  | registerFuncTypeWithLists (table : TypedTable Func) (lists : TypeLists) :
      Step moduleTypes table (.registerFuncTypeWithLists lists) (table.record [lists])
  | initFuncTypes (table : TypedTable Func) :
      Step moduleTypes table .initFuncTypes (table.record moduleTypes)
  | initElem (table : TypedTable Func) {slot typeIndex : Nat} (func : Func) {lists : TypeLists}
      (inside : slot < funcTableSize.toNat) (typed : moduleTypes[typeIndex]? = some lists) :
      Step moduleTypes table (.initElem slot typeIndex func) (table.occupy slot (func, lists))
  | registerFunc (table : TypedTable Func) {slot registration : Nat} (func : Func)
      {lists : TypeLists} (inside : slot < funcTableSize.toNat) (nonzero : slot ≠ 0)
      (empty : table.occupants slot = none)
      (typed : table.registrations[registration]? = some lists) :
      Step moduleTypes table (.registerFunc func registration) (table.occupy slot (func, lists))
  | unregisterFunc (table : TypedTable Func) {slotNumber : BitVec 32}
      (inside : slotNumber.toNat < funcTableSize.toNat) :
      Step moduleTypes table (.unregisterFunc slotNumber) (table.occupy slotNumber.toNat none)
  | unregisterOutside (table : TypedTable Func) {slotNumber : BitVec 32}
      (outside : funcTableSize.toNat ≤ slotNumber.toNat) :
      Step moduleTypes table (.unregisterFunc slotNumber) table

end TypedTable

/-! ## The ids stand for the types -/

/-- The id is the position of the lists among the known ones. -/
def IsId (known : List TypeLists) (lists : TypeLists) (id : BitVec 32) : Prop :=
  ∃ index, known[index]? = some lists ∧ id = BitVec.ofNat 32 index + 1

theorem IsId.mono {known more : List TypeLists} {lists : TypeLists} {id : BitVec 32}
    (isId : IsId known lists id) (kept : known <+: more) : IsId more lists id := by
  rcases isId with ⟨index, found, same⟩
  rcases kept with ⟨added, rfl⟩
  refine ⟨index, ?_, same⟩
  rw [List.getElem?_append_left (List.getElem?_eq_some_iff.mp found).1]
  exact found

/-- Fewer than `2^32` ids are positions without loss. -/
theorem IsId.toNat {known : List TypeLists} (few : known.length < 2 ^ 32) {lists : TypeLists}
    {id : BitVec 32} (isId : IsId known lists id) :
    1 ≤ id.toNat ∧ known[id.toNat - 1]? = some lists := by
  rcases isId with ⟨index, found, rfl⟩
  have below := (List.getElem?_eq_some_iff.mp found).1
  have exact : (BitVec.ofNat 32 index + 1).toNat = index + 1 := by
    rw [BitVec.toNat_add, BitVec.toNat_ofNat]
    change (index % 2 ^ 32 + 1) % 2 ^ 32 = index + 1
    omega
  rw [exact]
  exact ⟨by omega, found⟩

/-- What the runtime keeps for a table of types, when `known` are the types in
the order of their ids. -/
structure Represents (moduleTypes known : List TypeLists) (table : TypedTable Func)
    (state : IndirectState Func) : Prop where
  distinct : known.Nodup
  types : state.types = known.map TypeLists.funcType
  issued : forall lists id, (lists, id) ∈ state.issued -> IsId known lists id
  registrations : state.issued.map Prod.fst = table.registrations
  funcTypes : forall (index : Nat) (id : BitVec 32), state.funcTypes[index]? = some id ->
    ∃ lists, moduleTypes[index]? = some lists ∧ IsId known lists id
  occupied : forall slot, (state.table.data slot).func = (table.occupants slot).map Prod.fst
  typed : forall slot func lists, table.occupants slot = some (func, lists) ->
    IsId known lists (state.table.data slot).funcType
  size : state.table.size = funcTableSize

section Preservation

variable {moduleTypes known : List TypeLists} {table : TypedTable Func}
  {state next : IndirectState Func}

theorem represents_start : Represents moduleTypes [] (TypedTable.start : TypedTable Func) .start where
  distinct := List.nodup_nil
  types := rfl
  issued _ _ member := nomatch member
  registrations := rfl
  funcTypes _ _ found := nomatch found
  occupied _ := rfl
  typed _ _ _ found := nomatch found
  size := rfl

/-- A registration issues the id of its lists. -/
theorem Represents.issue (represents : Represents moduleTypes known table state)
    (lists : TypeLists) :
    Represents moduleTypes (internEqual known lists).2 (table.record [lists])
        (state.issue lists (registerType state.types lists.funcType)) ∧
      IsId (internEqual known lists).2 lists (registerType state.types lists.funcType).1 := by
  rw [represents.types, registerType_known]
  have kept : known <+: (internEqual known lists).2 := internEqual_kept
  have isId : IsId (internEqual known lists).2 lists
      (BitVec.ofNat 32 (internEqual known lists).1 + 1) := ⟨_, internEqual_getElem, rfl⟩
  refine ⟨?_, isId⟩
  constructor
  · exact internEqual_nodup represents.distinct
  · rfl
  · intro other id member
    rcases List.mem_append.mp member with old | new
    · exact (represents.issued other id old).mono kept
    · cases List.mem_singleton.mp new
      exact isId
  · rw [IndirectState.issue, List.map_append, represents.registrations]
    rfl
  · intro index id found
    rcases represents.funcTypes index id found with ⟨other, typed, old⟩
    exact ⟨other, typed, old.mono kept⟩
  · exact represents.occupied
  · exact fun slot func other found => (represents.typed slot func other found).mono kept
  · exact represents.size

theorem registerVariadic_eq (state : IndirectState Func) (lists : TypeLists) :
    state.registerVariadic lists = some (registerType state.types lists.funcType) :=
  registerFuncType_lists state.types lists

/-- `init_func_types` behind the types that are done. -/
theorem Represents.initFuncTypes {rest done : List TypeLists} (split : moduleTypes = done ++ rest)
    (represents : Represents moduleTypes known table state)
    (length : state.funcTypes.length = done.length)
    (made : IndirectState.initFuncTypes rest state = some next) :
    ∃ more, Represents moduleTypes more (table.record rest) next := by
  induction rest generalizing known table state done with
  | nil =>
      cases made
      refine ⟨known, ?_⟩
      rw [TypedTable.record, List.append_nil]
      exact represents
  | cons lists rest inductionHypothesis =>
      rw [IndirectState.initFuncTypes, registerVariadic_eq] at made
      rcases represents.issue lists with ⟨issued, isId⟩
      have set : Represents moduleTypes (internEqual known lists).2 (table.record [lists])
          { state.issue lists (registerType state.types lists.funcType) with
            funcTypes := state.funcTypes ++ [(registerType state.types lists.funcType).1] } := by
        refine { issued with funcTypes := fun index id found => ?_ }
        by_cases old : index < state.funcTypes.length
        · rw [List.getElem?_append_left old] at found
          exact issued.funcTypes index id found
        · have last : index = done.length := by
            have below := (List.getElem?_eq_some_iff.mp found).1
            rw [List.length_append, List.length_singleton] at below
            omega
          subst last
          rw [← length, List.getElem?_concat_length] at found
          cases found
          exact ⟨lists, by rw [split, List.getElem?_append_right (le_refl _)]; simp, isId⟩
      rcases @inductionHypothesis _ _ _ (done ++ [lists]) (by rw [split]; simp) set
        (by simp [length]) made with ⟨more, final⟩
      rw [TypedTable.record_record] at final
      exact ⟨more, final⟩

/-- An occupant and its id are stored together. -/
theorem Represents.occupy (represents : Represents moduleTypes known table state) (slot : Nat)
    (func : Func) {lists : TypeLists} {id : BitVec 32} (isId : IsId known lists id) :
    Represents moduleTypes known (table.occupy slot (func, lists))
      { state with table := state.table.set slot ⟨id, some func⟩ } where
  distinct := represents.distinct
  types := represents.types
  issued := represents.issued
  registrations := represents.registrations
  funcTypes := represents.funcTypes
  occupied other := by
    by_cases here : other = slot
    · subst here
      simp [Table.set, TypedTable.occupy]
    · simpa [Table.set, TypedTable.occupy, here] using represents.occupied other
  typed other found otherLists occupant := by
    by_cases here : other = slot
    · subst here
      simp only [TypedTable.occupy, Function.update_self] at occupant
      cases occupant
      simpa [Table.set] using isId
    · simp only [TypedTable.occupy, Function.update_of_ne here] at occupant
      simpa [Table.set, here] using represents.typed other found otherLists occupant
  size := represents.size

theorem Represents.clear (represents : Represents moduleTypes known table state) (slot : Nat) :
    Represents moduleTypes known (table.occupy slot none)
      { state with table := state.table.set slot ⟨0, none⟩ } where
  distinct := represents.distinct
  types := represents.types
  issued := represents.issued
  registrations := represents.registrations
  funcTypes := represents.funcTypes
  occupied other := by
    by_cases here : other = slot
    · subst here
      simp [Table.set, TypedTable.occupy]
    · simpa [Table.set, TypedTable.occupy, here] using represents.occupied other
  typed other found otherLists occupant := by
    by_cases here : other = slot
    · subst here
      simp [TypedTable.occupy] at occupant
    · simp only [TypedTable.occupy, Function.update_of_ne here] at occupant
      simpa [Table.set, here] using represents.typed other found otherLists occupant
  size := represents.size

/-- Every event of the runtime is one of the typed table. -/
theorem step_represents (represents : Represents moduleTypes known table state)
    {event : IndirectEvent Func} (stepped : state.step moduleTypes event = some next) :
    ∃ tableNext, table.Step moduleTypes event tableNext ∧
      ∃ more, Represents moduleTypes more tableNext next := by
  cases event with
  | registerFuncType lists =>
      rw [IndirectState.step, registerVariadic_eq] at stepped
      cases stepped
      exact ⟨_, .registerFuncType table lists, _, (represents.issue lists).1⟩
  | registerFuncTypeWithLists lists =>
      rw [IndirectState.step, registerFuncTypeWithLists_lists] at stepped
      cases stepped
      exact ⟨_, .registerFuncTypeWithLists table lists, _, (represents.issue lists).1⟩
  | initFuncTypes =>
      have cleared : Represents moduleTypes known table { state with funcTypes := [] } :=
        { represents with funcTypes := fun _ _ found => nomatch found }
      exact ⟨_, .initFuncTypes table, cleared.initFuncTypes (List.nil_append _).symm rfl stepped⟩
  | initElem slot typeIndex func =>
      simp only [IndirectState.step, Option.bind_eq_bind, Option.bind_eq_some_iff] at stepped
      rcases stepped with ⟨id, found, stored⟩
      split at stored
      · rename_i inside
        cases stored
        rcases represents.funcTypes typeIndex id found with ⟨lists, typed, isId⟩
        rw [represents.size] at inside
        exact ⟨_, .initElem table func inside typed, _, represents.occupy slot func isId⟩
      · cases stored
  | registerFunc func registration =>
      simp only [IndirectState.step, Option.bind_eq_bind, Option.bind_eq_some_iff] at stepped
      rcases stepped with ⟨⟨lists, id⟩, issued, ⟨_, filled⟩, registered, stored⟩
      cases stored
      rcases registerFunc_some registered with ⟨slot, nonzero, inside, free, rfl⟩
      have empty : table.occupants slot = none := by
        rwa [represents.occupied, Option.map_eq_none_iff] at free
      have typed : table.registrations[registration]? = some lists := by
        rw [← represents.registrations, List.getElem?_map, issued]
        rfl
      have isId := represents.issued lists id (List.mem_of_getElem? issued)
      exact ⟨_, .registerFunc table func inside nonzero empty typed, _,
        represents.occupy slot func isId⟩
  | unregisterFunc slotNumber =>
      cases stepped
      by_cases inside : slotNumber < funcTableSize
      · refine ⟨_, .unregisterFunc table inside, known, ?_⟩
        rw [unregisterFunc, if_pos inside]
        exact represents.clear slotNumber.toNat
      · refine ⟨_, .unregisterOutside table (not_lt.mp inside), known, ?_⟩
        rw [unregisterFunc, if_neg inside]
        exact represents

end Preservation

/-! ## Type safety -/

/-- Ids are positive, stand for the lists that they were returned for, and are
the same precisely for equal lists. -/
structure IdsExact (state : IndirectState Func) : Prop where
  positive : forall entry, entry ∈ state.issued -> 1 ≤ entry.2.toNat
  entry : forall entry, entry ∈ state.issued ->
    state.types[entry.2.toNat - 1]? = some entry.1.funcType
  exact : forall first second, first ∈ state.issued -> second ∈ state.issued ->
    (first.2 = second.2 ↔ first.1 = second.1)

/-- A registration fills an empty slot other than 0, an unregistration clears
the slot it names, and neither touches another slot. -/
structure SlotsKept (moduleTypes : List TypeLists) (state : IndirectState Func) : Prop where
  register : forall func registration next,
    state.step moduleTypes (.registerFunc func registration) = some next ->
      ∃ slot, slot ≠ 0 ∧ slot < state.table.size.toNat ∧
        (state.table.data slot).func = none ∧ (next.table.data slot).func = some func ∧
        forall other, other ≠ slot -> next.table.data other = state.table.data other
  unregister : forall slotNumber next,
    state.step moduleTypes (.unregisterFunc slotNumber) = some next ->
      (slotNumber < state.table.size -> (next.table.data slotNumber.toNat).func = none) ∧
        forall other, other ≠ slotNumber.toNat ->
          next.table.data other = state.table.data other

/-- `CALL_INDIRECT` reaches nothing but an occupant of the table that was put
there with the type of the call. -/
def CallsTyped (moduleTypes : List TypeLists) (table : TypedTable Func)
    (state : IndirectState Func) : Prop :=
  forall typeIndex x func, state.call typeIndex x = .ok func ->
    x < state.table.size ∧ ∃ lists, table.occupants x.toNat = some (func, lists) ∧
      moduleTypes[typeIndex]? = some lists

section Safety

variable {moduleTypes known : List TypeLists} {table : TypedTable Func}
  {state : IndirectState Func}

/-- Ids of distinct lists differ. -/
theorem IsId.inj (distinct : known.Nodup) (few : known.length < 2 ^ 32)
    {first second : TypeLists} {id other : BitVec 32} (firstId : IsId known first id)
    (secondId : IsId known second other) : id = other ↔ first = second := by
  constructor
  · rintro rfl
    have firstFound := (firstId.toNat few).2
    rw [(secondId.toNat few).2] at firstFound
    exact (Option.some.inj firstFound).symm
  · rintro rfl
    rcases firstId with ⟨index, found, rfl⟩
    rcases secondId with ⟨otherIndex, otherFound, rfl⟩
    have below := (List.getElem?_eq_some_iff.mp found).1
    rw [(List.getElem?_inj below distinct).mp (found.trans otherFound.symm)]

theorem Represents.idsExact (represents : Represents moduleTypes known table state)
    (few : known.length < 2 ^ 32) : IdsExact state where
  positive entry member := ((represents.issued entry.1 entry.2 member).toNat few).1
  entry entry member := by
    rw [represents.types, List.getElem?_map,
      ((represents.issued entry.1 entry.2 member).toNat few).2]
    rfl
  exact first second firstMember secondMember :=
    (represents.issued first.1 first.2 firstMember).inj represents.distinct few
      (represents.issued second.1 second.2 secondMember)

theorem Represents.slotsKept (represents : Represents moduleTypes known table state) :
    SlotsKept moduleTypes state where
  register func registration next stepped := by
    simp only [IndirectState.step, Option.bind_eq_bind, Option.bind_eq_some_iff] at stepped
    rcases stepped with ⟨⟨lists, id⟩, _, ⟨_, filled⟩, registered, stored⟩
    cases stored
    rcases registerFunc_some registered with ⟨slot, nonzero, inside, free, rfl⟩
    refine ⟨slot, nonzero, represents.size ▸ inside, free, ?_, fun other different => ?_⟩
    · simp [Table.set]
    · simp [Table.set, different]
  unregister slotNumber next stepped := by
    cases stepped
    rw [represents.size, unregisterFunc]
    refine ⟨fun inside => ?_, fun other different => ?_⟩
    · rw [if_pos inside]
      simp [Table.set]
    · split
      · simp [Table.set, different]
      · rfl

theorem Represents.callsTyped (represents : Represents moduleTypes known table state)
    (few : known.length < 2 ^ 32) : CallsTyped moduleTypes table state := by
  intro typeIndex x func reached
  rw [IndirectState.call, callIndirect] at reached
  split at reached
  · rename_i inside
    refine ⟨inside, ?_⟩
    have occupied := represents.occupied x.toNat
    split at reached
    · rename_i stored present
      split at reached
      · rename_i sameId
        cases reached
        rw [present, eq_comm, Option.map_eq_some_iff] at occupied
        rcases occupied with ⟨⟨occupant, lists⟩, found, same⟩
        cases same
        have slotId := represents.typed _ _ _ found
        rw [sameId, List.getD_eq_getElem?_getD] at slotId
        cases set : state.funcTypes[typeIndex]? with
        | none =>
            rw [set] at slotId
            exact absurd (slotId.toNat few).1 (by decide)
        | some id =>
            rcases represents.funcTypes typeIndex id set with ⟨expected, typed, isId⟩
            rw [set] at slotId
            have same := (slotId.inj represents.distinct few isId).mp rfl
            exact ⟨lists, found, same ▸ typed⟩
      · cases reached
    · cases reached
  · cases reached

end Safety

/-- A run of the runtime is one of the typed table; its ids are exact, its slots
are kept, and its indirect calls have the types of their callees. -/
theorem indirect_calls_typed (moduleTypes : List TypeLists) (events : List (IndirectEvent Func))
    (state : IndirectState Func)
    (ran : (indirectSystem moduleTypes).run .start events = some state)
    (few : state.types.length < 2 ^ 32) :
    IdsExact state ∧ SlotsKept moduleTypes state ∧
      ∃ table, Reaches (TypedTable.Step moduleTypes) .start events table ∧
        (forall slot, (state.table.data slot).func = (table.occupants slot).map Prod.fst) ∧
        CallsTyped moduleTypes table state := by
  rcases @System.reaches_of_run _ _ _ (indirectSystem moduleTypes) (TypedTable.Step moduleTypes)
    (fun table state => ∃ known, Represents moduleTypes known table state)
    (fun _ _ _ _ ⟨_, represents⟩ stepped => step_represents represents stepped)
    _ _ _ _ ⟨[], represents_start⟩ ran with ⟨table, reaches, known, represents⟩
  rw [represents.types, List.length_map] at few
  exact ⟨represents.idsExact few, represents.slotsKept, table, reaches, represents.occupied,
    represents.callsTyped few⟩

/-- The module's function in slot 1 and a callback of its type in the next one. -/
theorem indirect_calls_typed_callback :
    let lists : TypeLists := ⟨[.i32], [], by decide, by decide⟩
    let events : List (IndirectEvent Nat) := [.initFuncTypes, .initElem 1 0 7,
      .registerFuncTypeWithLists lists, .registerFunc 8 1]
    ∃ state, (indirectSystem [lists]).run .start events = some state ∧
      state.call 0 2 = .ok 8 ∧ IdsExact state ∧ SlotsKept [lists] state ∧
      ∃ table, Reaches (TypedTable.Step [lists]) .start events table ∧
        (forall slot, (state.table.data slot).func = (table.occupants slot).map Prod.fst) ∧
        CallsTyped [lists] table state :=
  ⟨_, rfl, rfl, indirect_calls_typed [⟨[.i32], [], by decide, by decide⟩] _ _ rfl (by decide)⟩

end Runtime

end WasmRt
end WasmSandboxing
