import WasmSandboxing.Foundation.Machine
import Mathlib.Algebra.Ring.Nat
import Mathlib.Data.List.Basic

namespace WasmSandboxing
namespace Wasm
namespace LocalTypes

open Foundation

/-!
# The local types of a function

`LocalTypes` of `ir.h`: runs of locals of one type, as the binary format
declares them.  An index is a number of 32 bits.  The runs are made from a list
of types or one by one, and read by index, by number or by iteration.
-/

abbrev Index := BitVec 32

/-- `LocalTypes::Decls` -/
abbrev Decls (ValueType : Type) := List (ValueType × Index)

variable {ValueType : Type} [DecidableEq ValueType]

/-! ## Making runs -/

/-- The variables of the loop of `Set`. -/
structure SetLoop (ValueType : Type) where
  decls : Decls ValueType
  type : ValueType
  count : Index
  i : Index

/-- A round of the loop, which ends where `i` is not below the size. -/
def setRound (types : List ValueType) (loop : SetLoop ValueType) :
    Progress (SetLoop ValueType) (Decls ValueType) :=
  match types[loop.i.toNat]? with
  | none => .ended (loop.decls ++ [(loop.type, loop.count)])
  | some next =>
      if next ≠ loop.type then
        .running ⟨loop.decls ++ [(loop.type, loop.count)], next, 1, loop.i + 1⟩
      else .running { loop with count := loop.count + 1, i := loop.i + 1 }

def setting (types : List ValueType) : Machine (SetLoop ValueType) (Decls ValueType) :=
  ⟨setRound types⟩

/-- `Set`, of whose loop the first rounds are taken. -/
def set (types : List ValueType) (rounds : Nat) :
    Progress (SetLoop ValueType) (Decls ValueType) :=
  match types with
  | [] => .ended []
  | first :: _ => (setting types).run rounds ⟨[], first, 1, 1⟩

/-- `AppendDecl`, unless its assertion fails. -/
def appendDecl (decls : Decls ValueType) (type : ValueType) (count : Index) :
    Option (Decls ValueType) :=
  if 0 < count then some (decls ++ [(type, count)]) else none

def appendDecls (decls : Decls ValueType) : Decls ValueType -> Option (Decls ValueType)
  | [] => some decls
  | (type, count) :: rest => do
      let appended <- appendDecl decls type count
      appendDecls appended rest

/-! ## Reading them -/

def size (decls : Decls ValueType) : Index :=
  decls.foldl (fun sum decl => sum + decl.2) 0

/-- The loop of `operator[]`, behind which its assertion fails. -/
def elementFrom (i count : Index) : Decls ValueType -> Option ValueType
  | [] => none
  | decl :: rest =>
      if i < count + decl.2 then some decl.1 else elementFrom i (count + decl.2) rest

/-- `operator[]` -/
def element (decls : Decls ValueType) (i : Index) : Option ValueType := elementFrom i 0 decls

/-- `LocalTypes::const_iterator`; what is left of the runs stands for its place. -/
structure ConstIterator (ValueType : Type) where
  decl : Decls ValueType
  index : Index
  deriving DecidableEq

def begin_ (decls : Decls ValueType) : ConstIterator ValueType := ⟨decls, 0⟩

def end_ : ConstIterator ValueType := ⟨[], 0⟩

/-- A round of iterating, with the types that it has come to before; no run is
read at the end. -/
def iterateRound : ConstIterator ValueType × List ValueType ->
    Progress (ConstIterator ValueType × List ValueType) (Option (List ValueType))
  | (iterator, seen) =>
      if iterator = end_ then .ended (some seen)
      else
        match iterator.decl with
        | [] => .ended none
        | decl :: rest =>
            let index := iterator.index + 1
            let next := if index ≥ decl.2 then ⟨rest, 0⟩ else ⟨decl :: rest, index⟩
            .running (next, seen ++ [decl.1])

def iterating (ValueType : Type) [DecidableEq ValueType] :
    Machine (ConstIterator ValueType × List ValueType) (Option (List ValueType)) :=
  ⟨iterateRound⟩

/-! ## What the runs stand for -/

omit [DecidableEq ValueType] in
/-- The types of the runs one after the other. -/
def expand (decls : Decls ValueType) : List ValueType :=
  decls.flatMap fun decl => List.replicate decl.2.toNat decl.1

/-- Runs that are not empty and whose number is an index. -/
structure WellFormed (decls : Decls ValueType) : Prop where
  positive : forall decl, decl ∈ decls -> 0 < decl.2.toNat
  fits : (expand decls).length < 2 ^ 32

/-- However the runs are read, it is a list of types that is read. -/
structure Denotes (decls : Decls ValueType) (types : List ValueType) : Prop where
  size : (size decls).toNat = types.length
  element : forall i, element decls i = types[i.toNat]?
  iterates : (iterating ValueType).Ends (begin_ decls, []) (some types)

omit [DecidableEq ValueType] in
@[simp] theorem expand_nil : expand ([] : Decls ValueType) = [] := rfl

omit [DecidableEq ValueType] in
@[simp] theorem expand_cons (decl : ValueType × Index) (rest : Decls ValueType) :
    expand (decl :: rest) = List.replicate decl.2.toNat decl.1 ++ expand rest :=
  List.flatMap_cons

omit [DecidableEq ValueType] in
theorem expand_append (first second : Decls ValueType) :
    expand (first ++ second) = expand first ++ expand second :=
  List.flatMap_append

omit [DecidableEq ValueType] in
theorem foldl_size {decls : Decls ValueType} {sum : Index}
    (fits : sum.toNat + (expand decls).length < 2 ^ 32) :
    (decls.foldl (fun sum decl => sum + decl.2) sum).toNat =
      sum.toNat + (expand decls).length := by
  induction decls generalizing sum with
  | nil => rfl
  | cons decl rest inductionHypothesis =>
      rw [expand_cons, List.length_append, List.length_replicate] at fits ⊢
      have next : (sum + decl.2).toNat = sum.toNat + decl.2.toNat := by
        rw [BitVec.toNat_add]
        omega
      rw [List.foldl_cons, inductionHypothesis (by omega), next, Nat.add_assoc]

omit [DecidableEq ValueType] in
theorem elementFrom_eq {decls : Decls ValueType} {i count : Index}
    (fits : count.toNat + (expand decls).length < 2 ^ 32) (beyond : count.toNat ≤ i.toNat) :
    elementFrom i count decls = (expand decls)[i.toNat - count.toNat]? := by
  induction decls generalizing count with
  | nil => rfl
  | cons decl rest inductionHypothesis =>
      rw [expand_cons, List.length_append, List.length_replicate] at fits
      have next : (count + decl.2).toNat = count.toNat + decl.2.toNat := by
        rw [BitVec.toNat_add]
        omega
      rw [elementFrom, expand_cons]
      split
      · rename_i inside
        rw [BitVec.lt_def, next] at inside
        rw [List.getElem?_append_left (by rw [List.length_replicate]; omega),
          List.getElem?_replicate, if_pos (by omega)]
      · rename_i outside
        rw [BitVec.lt_def, next] at outside
        rw [inductionHypothesis (by omega) (by omega), next,
          List.getElem?_append_right (by rw [List.length_replicate]; omega),
          List.length_replicate, Nat.sub_sub]

theorem iterate_step (decl : ValueType × Index) (rest : Decls ValueType) (index : Index)
    (seen : List ValueType) :
    (iterating ValueType).step (⟨decl :: rest, index⟩, seen) =
      .running (if index + 1 ≥ decl.2 then ⟨rest, 0⟩ else ⟨decl :: rest, index + 1⟩,
        seen ++ [decl.1]) := by
  have apart : (⟨decl :: rest, index⟩ : ConstIterator ValueType) ≠ end_ := nofun
  change iterateRound (⟨decl :: rest, index⟩, seen) = _
  rw [iterateRound, if_neg apart]

/-- The rest of a run is read to its end. -/
theorem iterates_run {decl : ValueType × Index} {rest : Decls ValueType} (left : Nat)
    {index : Index} (inside : index.toNat + (left + 1) = decl.2.toNat) (seen : List ValueType) :
    (iterating ValueType).Reaches 0 (⟨decl :: rest, index⟩, seen)
      (⟨rest, 0⟩, seen ++ List.replicate (left + 1) decl.1) := by
  have small := decl.2.isLt
  have one_ : (1 : Index).toNat = 1 := rfl
  have next : (index + 1).toNat = index.toNat + 1 := by
    rw [BitVec.toNat_add, one_]
    omega
  have stepped := iterate_step decl rest index seen
  induction left generalizing index seen with
  | zero =>
      have last : index + 1 ≥ decl.2 := by
        rw [ge_iff_le, BitVec.le_def, next]
        omega
      rw [if_pos last] at stepped
      exact (Machine.Reaches.step stepped).weaken (Nat.zero_le 1)
  | succ left inductionHypothesis =>
      have within : ¬ index + 1 ≥ decl.2 := by
        rw [ge_iff_le, BitVec.le_def, next]
        omega
      rw [if_neg within] at stepped
      have after : (index + 1).toNat + (left + 1) = decl.2.toNat := by
        rw [next]
        omega
      have second : (index + 1 + 1).toNat = (index + 1).toNat + 1 := by
        rw [BitVec.toNat_add, next, one_]
        omega
      have later := inductionHypothesis after (seen ++ [decl.1]) second
        (iterate_step decl rest (index + 1) (seen ++ [decl.1]))
      rw [List.append_assoc] at later
      exact ((Machine.Reaches.step stepped).weaken (Nat.zero_le 1)).trans later

theorem iterates_expand {decls : Decls ValueType}
    (positive : forall decl, decl ∈ decls -> 0 < decl.2.toNat) (seen : List ValueType) :
    (iterating ValueType).Ends (⟨decls, 0⟩, seen) (some (seen ++ expand decls)) := by
  induction decls generalizing seen with
  | nil =>
      rw [expand_nil, List.append_nil]
      exact Machine.Ends.step rfl
  | cons decl rest inductionHypothesis =>
      have some_ := positive decl List.mem_cons_self
      have run : (iterating ValueType).Reaches 0 (⟨decl :: rest, 0⟩, seen)
          (⟨rest, 0⟩, seen ++ List.replicate (decl.2.toNat - 1 + 1) decl.1) :=
        iterates_run (decl.2.toNat - 1) (by change 0 + _ = _; omega) seen
      rw [Nat.sub_add_cancel some_] at run
      rw [expand_cons, ← List.append_assoc]
      exact run.ends (inductionHypothesis
        (fun decl member => positive decl (List.mem_cons_of_mem _ member)) _)

/-- Runs that are well formed read as their types. -/
theorem WellFormed.denotes {decls : Decls ValueType} (wellFormed : WellFormed decls) :
    Denotes decls (expand decls) where
  size := (foldl_size (by
    rw [show (0 : Index).toNat = 0 from rfl, Nat.zero_add]
    exact wellFormed.fits)).trans (Nat.zero_add _)
  element := fun i => elementFrom_eq (by
    rw [show (0 : Index).toNat = 0 from rfl, Nat.zero_add]
    exact wellFormed.fits) (Nat.zero_le _)
  iterates := iterates_expand wellFormed.positive []

/-! ## The runs that are made -/

/-- Where `Set` is: the runs that are done and the one that goes on are the
types in front of the next one. -/
structure SetLoop.Holds (types : List ValueType) (loop : SetLoop ValueType) : Prop where
  within : loop.i.toNat ≤ types.length
  expands : expand (loop.decls ++ [(loop.type, loop.count)]) = types.take loop.i.toNat
  positive : forall decl, decl ∈ loop.decls ++ [(loop.type, loop.count)] -> 0 < decl.2.toNat

omit [DecidableEq ValueType] in
theorem expand_snoc (decls : Decls ValueType) (type : ValueType) (count : Index) :
    expand (decls ++ [(type, count)]) = expand decls ++ List.replicate count.toNat type := by
  rw [expand_append, expand_cons, expand_nil, List.append_nil]

/-- A round goes on with the next type as long as there is one. -/
theorem setRound_holds {types : List ValueType} (short : types.length < 2 ^ 32)
    {loop : SetLoop ValueType} (holds : loop.Holds types)
    (before : loop.i.toNat < types.length) :
    ∃ next, setRound types loop = .running next ∧ next.Holds types ∧
      next.i.toNat = loop.i.toNat + 1 := by
  have one_ : (1 : Index).toNat = 1 := rfl
  have step : (loop.i + 1).toNat = loop.i.toNat + 1 := by
    rw [BitVec.toNat_add, one_]
    omega
  have taken := List.take_succ_eq_append_getElem before
  rw [setRound, List.getElem?_eq_getElem before]
  by_cases changes : types[loop.i.toNat] ≠ loop.type
  · refine ⟨_, if_pos changes, ⟨?_, ?_, ?_⟩, step⟩
    · exact step.symm ▸ before
    · rw [expand_snoc, holds.expands]
      dsimp only
      rw [step, taken, one_]
      rfl
    · intro decl member
      rcases List.mem_append.mp member with done | last
      · exact holds.positive decl done
      · cases List.mem_singleton.mp last
        exact Nat.one_pos
  · have same : types[loop.i.toNat] = loop.type := not_not.mp changes
    have expands := holds.expands
    rw [expand_snoc] at expands
    have length : (expand loop.decls).length + loop.count.toNat = loop.i.toNat := by
      have lengths := congrArg List.length expands
      rw [List.length_append, List.length_replicate, List.length_take_of_le holds.within] at lengths
      exact lengths
    have more : (loop.count + 1).toNat = loop.count.toNat + 1 := by
      rw [BitVec.toNat_add, one_]
      omega
    refine ⟨_, if_neg changes, ⟨?_, ?_, ?_⟩, step⟩
    · exact step.symm ▸ before
    · dsimp only
      rw [expand_snoc, more, step, taken, ← expands, List.replicate_succ', same, List.append_assoc]
    · intro decl member
      rcases List.mem_append.mp member with done | last
      · exact holds.positive decl (List.mem_append_left _ done)
      · cases List.mem_singleton.mp last
        dsimp only
        omega

theorem setLoop_ends {types : List ValueType} (short : types.length < 2 ^ 32) (left : Nat)
    {loop : SetLoop ValueType} (holds : loop.Holds types)
    (rest : loop.i.toNat + left = types.length) :
    ∃ decls, (setting types).run (left + 1) loop = .ended decls ∧ WellFormed decls ∧
      expand decls = types := by
  induction left generalizing loop with
  | zero =>
      have whole : types.take loop.i.toNat = types := List.take_of_length_le (Nat.le_of_eq rest.symm)
      have expands := holds.expands.trans whole
      have ended : (setting types).step loop = .ended (loop.decls ++ [(loop.type, loop.count)]) := by
        change setRound types loop = _
        rw [setRound, List.getElem?_eq_none (by omega)]
      refine ⟨_, ?_, ⟨holds.positive, ?_⟩, expands⟩
      · rw [Machine.run, ended]
      · rw [expands]
        exact short
  | succ left inductionHypothesis =>
      rcases setRound_holds short holds (by omega) with ⟨next, running, kept, step⟩
      rcases inductionHypothesis kept (by omega) with ⟨decls, ended, made⟩
      refine ⟨decls, ?_, made⟩
      have first : (setting types).step loop = .running next := running
      rw [Machine.run, first]
      exact ended

/-- A list whose size is an index is kept by `Set`. -/
theorem set_ends {types : List ValueType} (short : types.length < 2 ^ 32) :
    ∃ rounds decls, set types rounds = .ended decls ∧ WellFormed decls ∧ expand decls = types := by
  cases types with
  | nil => exact ⟨0, [], rfl, ⟨nofun, Nat.two_pow_pos 32⟩, rfl⟩
  | cons first rest =>
      have start : SetLoop.Holds (first :: rest) ⟨[], first, 1, 1⟩ := by
        refine ⟨Nat.succ_pos _, rfl, fun decl member => ?_⟩
        cases List.mem_singleton.mp member
        exact Nat.one_pos
      rcases setLoop_ends short rest.length start (Nat.add_comm 1 _) with ⟨decls, ended, made⟩
      exact ⟨rest.length + 1, decls, ended, made⟩

/-- A longer list is never done with, since an index is below its size for ever. -/
theorem set_runs {types : List ValueType} (long : 2 ^ 32 ≤ types.length) (rounds : Nat) :
    ∃ loop, set types rounds = .running loop := by
  have goes_on : forall loop, ∃ next, (setting types).step loop = .running next := by
    intro loop
    have found : ∃ next, types[loop.i.toNat]? = some next :=
      ⟨_, List.getElem?_eq_getElem (Nat.lt_of_lt_of_le loop.i.isLt long)⟩
    rcases found with ⟨type, found⟩
    change ∃ next, setRound types loop = .running next
    rw [setRound, found]
    by_cases changes : type ≠ loop.type
    · exact ⟨_, if_pos changes⟩
    · exact ⟨_, if_neg changes⟩
  have runs : forall rounds loop, ∃ next, (setting types).run rounds loop = .running next := by
    intro rounds
    induction rounds with
    | zero => exact fun loop => ⟨loop, rfl⟩
    | succ rounds inductionHypothesis =>
        intro loop
        rcases goes_on loop with ⟨next, stepped⟩
        rw [Machine.run, stepped]
        exact inductionHypothesis next
  cases types with
  | nil => exact absurd long (Nat.not_le_of_lt (Nat.two_pow_pos 32))
  | cons first rest => exact runs rounds _

omit [DecidableEq ValueType] in
theorem appendDecls_some {decls runs : Decls ValueType}
    (positive : forall run, run ∈ runs -> 0 < run.2.toNat) :
    appendDecls decls runs = some (decls ++ runs) := by
  induction runs generalizing decls with
  | nil => rw [appendDecls, List.append_nil]
  | cons run rest inductionHypothesis =>
      have some_ : 0 < run.2 := positive run List.mem_cons_self
      rw [appendDecls, appendDecl, if_pos some_, Option.bind_eq_bind, Option.bind_some,
        inductionHypothesis fun run member => positive run (List.mem_cons_of_mem _ member),
        List.append_assoc, List.singleton_append]

omit [DecidableEq ValueType] in
theorem appendDecls_none {decls runs : Decls ValueType} {run : ValueType × Index}
    (member : run ∈ runs) (empty : run.2 = 0) : appendDecls decls runs = none := by
  induction runs generalizing decls with
  | nil => cases member
  | cons first rest inductionHypothesis =>
      rw [appendDecls, appendDecl]
      by_cases some_ : 0 < first.2
      · rw [if_pos some_, Option.bind_eq_bind, Option.bind_some]
        rcases List.mem_cons.mp member with same | later
        · rw [← same, empty] at some_
          exact absurd some_ (by decide)
        · exact inductionHypothesis later
      · rw [if_neg some_]
        rfl

/-- Lists whose size is an index are kept by `Set`, and runs that are not empty,
of which there are as many as an index can number, by `AppendDecl`; whatever is
kept is read the same in every way. -/
theorem localTypes_denote (ValueType : Type) [DecidableEq ValueType] :
    (forall types : List ValueType, types.length < 2 ^ 32 ->
        ∃ rounds decls, set types rounds = .ended decls ∧ Denotes decls types) ∧
      forall runs : Decls ValueType, (forall run, run ∈ runs -> 0 < run.2.toNat) ->
        (expand runs).length < 2 ^ 32 ->
        ∃ decls, appendDecls [] runs = some decls ∧ Denotes decls (expand runs) := by
  constructor
  · intro types short
    rcases set_ends short with ⟨rounds, decls, ended, wellFormed, same⟩
    exact ⟨rounds, decls, ended, same ▸ wellFormed.denotes⟩
  · intro runs positive fits
    exact ⟨runs, appendDecls_some positive, WellFormed.denotes ⟨positive, fits⟩⟩

/-- Both parts for two types. -/
theorem localTypes_denote_bool :
    (∃ rounds decls, set [true, true, false] rounds = .ended decls ∧
      Denotes decls [true, true, false]) ∧
    ∃ decls, appendDecls [] [(true, 1), (true, 2)] = some decls ∧
      Denotes decls [true, true, true] :=
  ⟨(localTypes_denote Bool).1 [true, true, false] (by simp),
    (localTypes_denote Bool).2 [(true, 1), (true, 2)] (by simp) (by simp [expand])⟩

/-- An empty run is refused, and a list that has as many types as there are
indices is never done with. -/
theorem localTypes_refused :
    appendDecls [] [(true, 0)] = none ∧
    forall rounds, ∃ loop, set (List.replicate (2 ^ 32) true) rounds = .running loop :=
  ⟨appendDecls_none List.mem_cons_self rfl,
    fun rounds => set_runs (Nat.le_of_eq List.length_replicate.symm) rounds⟩

end LocalTypes
end Wasm
end WasmSandboxing
