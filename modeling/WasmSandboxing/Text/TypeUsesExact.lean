import WasmSandboxing.Text.TypeUses

namespace WasmSandboxing
namespace Text
namespace TypeUses

open Foundation Wasm

/-!
# Type uses, one after another

Resolving a module treats its declarations one by one in the order of the text,
whatever they are nested in, and what it does to one depends on the types that
there are by then.
-/

inductive UseKind where
  | func | funcImport | callIndirect | block
  deriving DecidableEq

/-- A declaration of a module, and where it stands. -/
structure TypeUse where
  kind : UseKind
  inInitializer : Bool
  decl : FuncDeclaration

def ExprList.uses (inInitializer : Bool) : ExprList -> List TypeUse
  | .nil => []
  | .plain rest => rest.uses inInitializer
  | .callIndirect decl rest => ⟨.callIndirect, inInitializer, decl⟩ :: rest.uses inInitializer
  | .body decl exprs rest =>
      ⟨.block, inInitializer, decl⟩ :: (exprs.uses inInitializer ++ rest.uses inInitializer)
  | .arms decl first second rest =>
      ⟨.block, inInitializer, decl⟩ ::
        (first.uses inInitializer ++ second.uses inInitializer ++ rest.uses inInitializer)

def ModuleField.uses : ModuleField -> List TypeUse
  | .func item => ⟨.func, false, item.decl⟩ :: item.exprs.uses false
  | .funcImport decl => [⟨.funcImport, false, decl⟩]
  | .initializer exprs => exprs.uses true

def Module.uses (module : Module) : List TypeUse := module.fields.flatMap ModuleField.uses

section Resolving

variable (find : Var -> Option Nat)

/-- What is done to a declaration. -/
def resolveUse (funcTypes : List FuncSignature) (use : TypeUse) :
    TypeUse × List FuncSignature :=
  if use.inInitializer then
    (use, funcTypes)
  else
    let resolved :=
      if use.kind = .block then resolveBlockDeclaration find funcTypes use.decl
      else resolveFuncType find funcTypes use.decl
    ({ use with decl := resolved.1 }, resolved.2)

theorem thread_uses_initializer (funcTypes : List FuncSignature) (exprs : ExprList) :
    thread (resolveUse find) funcTypes (exprs.uses true) = (exprs.uses true, funcTypes) := by
  induction exprs with
  | nil => rfl
  | plain rest inductionHypothesis => exact inductionHypothesis
  | callIndirect decl rest inductionHypothesis =>
      rw [ExprList.uses, thread]
      simp only [resolveUse, if_true, inductionHypothesis]
  | body decl exprs rest inside behind =>
      rw [ExprList.uses, thread]
      simp only [resolveUse, if_true, thread_append, inside, behind]
  | arms decl first second rest inFirst inSecond behind =>
      rw [ExprList.uses, thread]
      simp only [resolveUse, if_true, thread_append, inFirst, inSecond, behind]

/-- The visitor comes to the declarations in the order of the text. -/
theorem thread_uses_exprs (funcTypes : List FuncSignature) (exprs : ExprList) :
    thread (resolveUse find) funcTypes (exprs.uses false) =
      ((resolveExprs find funcTypes exprs).1.uses false,
        (resolveExprs find funcTypes exprs).2) := by
  induction exprs generalizing funcTypes with
  | nil => rfl
  | plain rest inductionHypothesis => exact inductionHypothesis funcTypes
  | callIndirect decl rest inductionHypothesis =>
      rw [ExprList.uses, thread]
      simp only [resolveUse, Bool.false_eq_true, if_false, reduceCtorEq, inductionHypothesis]
      rfl
  | body decl exprs rest inside behind =>
      rw [ExprList.uses, thread]
      simp only [resolveUse, Bool.false_eq_true, if_false, if_true, thread_append, inside, behind]
      rfl
  | arms decl first second rest inFirst inSecond behind =>
      rw [ExprList.uses, thread]
      simp only [resolveUse, Bool.false_eq_true, if_false, if_true, thread_append, inFirst,
        inSecond, behind]
      rfl

theorem thread_uses_field (funcTypes : List FuncSignature) (field : ModuleField) :
    thread (resolveUse find) funcTypes field.uses =
      ((resolveField find funcTypes field).1.uses, (resolveField find funcTypes field).2) := by
  cases field with
  | func func =>
      rw [ModuleField.uses, thread]
      simp only [resolveUse, Bool.false_eq_true, if_false, reduceCtorEq, thread_uses_exprs]
      rfl
  | funcImport decl => rfl
  | initializer exprs => exact thread_uses_initializer find funcTypes exprs

theorem thread_uses_fields (funcTypes : List FuncSignature) (fields : List ModuleField) :
    thread (resolveUse find) funcTypes (fields.flatMap ModuleField.uses) =
      ((thread (resolveField find) funcTypes fields).1.flatMap ModuleField.uses,
        (thread (resolveField find) funcTypes fields).2) := by
  induction fields generalizing funcTypes with
  | nil => rfl
  | cons field fields inductionHypothesis =>
      rw [List.flatMap_cons, thread_append, thread_uses_field, inductionHypothesis, thread]
      rfl

end Resolving

theorem uses_resolveFuncTypes (iteration : IterationOrder) (module : Module) :
    thread (resolveUse (findIndex iteration module.funcTypeBindings)) module.funcTypes
        module.uses =
      ((resolveFuncTypes iteration module).uses,
        (resolveFuncTypes iteration module).funcTypes) :=
  thread_uses_fields _ module.funcTypes module.fields

/-! ## The types -/

section Types

variable (find : Var -> Option Nat) {funcTypes final : List FuncSignature} {sig : FuncSignature}

/-- The signature has an index, which is that of the first type equal to it. -/
def HasIndex (funcTypes : List FuncSignature) (sig : FuncSignature) : Prop :=
  ∃ index, getFuncTypeIndex funcTypes sig = some index ∧ funcTypes[index]? = some sig ∧
    forall earlier, earlier < index -> funcTypes[earlier]? ≠ some sig

theorem getFuncTypeIndex_none : getFuncTypeIndex funcTypes sig = none ↔ sig ∉ funcTypes := by
  rw [getFuncTypeIndex, List.findIdx?_eq_none_iff]
  constructor
  · intro differs isMember
    simpa using differs sig isMember
  · intro absent funcType isMember
    exact decide_eq_false fun same => absent (same ▸ isMember)

theorem hasIndex_iff : HasIndex funcTypes sig ↔ sig ∈ funcTypes := by
  constructor
  · rintro ⟨index, _found, isThere, _first⟩
    exact List.mem_of_getElem? isThere
  · intro isMember
    cases found : getFuncTypeIndex funcTypes sig with
    | none => exact absurd isMember (getFuncTypeIndex_none.mp found)
    | some index =>
        rcases List.findIdx?_eq_some_iff_getElem.mp found with ⟨below, same, first⟩
        refine ⟨index, found, List.getElem?_eq_some_iff.mpr ⟨below, of_decide_eq_true same⟩, ?_⟩
        intro earlier before isThere
        rcases List.getElem?_eq_some_iff.mp isThere with ⟨inside, equal⟩
        have differs := first earlier before
        rw [decide_eq_true_eq] at differs
        exact differs equal

/-- A type keeps its index when types are appended. -/
theorem getFuncType_earlier {var : Var} (grown : funcTypes <+: final)
    (found : getFuncType find funcTypes var = some sig) :
    getFuncType find final var = some sig := by
  rcases Option.bind_eq_some_iff.mp found with ⟨index, isIndex, isThere⟩
  refine Option.bind_eq_some_iff.mpr ⟨index, isIndex, ?_⟩
  rcases grown with ⟨appended, rfl⟩
  exact (List.getElem?_append_left (List.getElem?_eq_some_iff.mp isThere).1).trans isThere

/-- A declaration without a type use that is resolved adds its signature, unless
there is a type for it. -/
theorem resolveFuncType_types (funcTypes : List FuncSignature) (decl : FuncDeclaration) :
    (resolveFuncType find funcTypes decl).2 = funcTypes ∨
      decl.typeVar = none ∧ decl.sig ∉ funcTypes ∧
        (resolveFuncType find funcTypes decl).2 = funcTypes ++ [decl.sig] := by
  unfold resolveFuncType
  cases isVar : decl.typeVar with
  | some var =>
      left
      dsimp only
      split <;> rfl
  | none =>
      dsimp only
      cases found : getFuncTypeIndex funcTypes decl.sig with
      | some index => exact Or.inl rfl
      | none => exact Or.inr ⟨rfl, getFuncTypeIndex_none.mp found, rfl⟩

theorem resolveUse_types (funcTypes : List FuncSignature) (use : TypeUse) :
    (resolveUse find funcTypes use).2 = funcTypes ∨
      use.decl.typeVar = none ∧ use.decl.sig ∉ funcTypes ∧
        (resolveUse find funcTypes use).2 = funcTypes ++ [use.decl.sig] := by
  unfold resolveUse
  split
  · exact Or.inl rfl
  · dsimp only
    split
    · unfold resolveBlockDeclaration
      split
      · exact resolveFuncType_types find funcTypes use.decl
      · exact Or.inl rfl
    · exact resolveFuncType_types find funcTypes use.decl

theorem resolveUse_grows (funcTypes : List FuncSignature) (use : TypeUse) :
    funcTypes <+: (resolveUse find funcTypes use).2 := by
  rcases resolveUse_types find funcTypes use with same | ⟨_, _, appended⟩
  · exact same.symm ▸ List.prefix_rfl
  · exact appended.symm ▸ List.prefix_append funcTypes _

/-- The types that are appended: each one once, for a declaration without a type
use, and none that was there before. -/
structure Appended (before : List FuncSignature) (uses : List TypeUse)
    (appended : List FuncSignature) : Prop where
  nodup : appended.Nodup
  fresh : forall sig, sig ∈ appended -> sig ∉ before
  used : forall sig, sig ∈ appended -> ∃ use, use ∈ uses ∧ use.decl.typeVar = none ∧
    use.decl.sig = sig

theorem thread_appended (funcTypes : List FuncSignature) (uses : List TypeUse) :
    ∃ appended, (thread (resolveUse find) funcTypes uses).2 = funcTypes ++ appended ∧
      Appended funcTypes uses appended := by
  induction uses generalizing funcTypes with
  | nil =>
      exact ⟨[], (List.append_nil _).symm, List.nodup_nil,
        fun _sig isMember => (List.not_mem_nil isMember).elim,
        fun _sig isMember => (List.not_mem_nil isMember).elim⟩
  | cons use uses inductionHypothesis =>
      rcases inductionHypothesis (resolveUse find funcTypes use).2 with ⟨later, ended, appended⟩
      have used : forall sig, sig ∈ later ->
          ∃ other, other ∈ use :: uses ∧ other.decl.typeVar = none ∧ other.decl.sig = sig := by
        intro sig isMember
        rcases appended.used sig isMember with ⟨other, among, isUse⟩
        exact ⟨other, List.mem_cons_of_mem _ among, isUse⟩
      rcases resolveUse_types find funcTypes use with same | ⟨implicit, absent, added⟩
      · rw [same] at ended appended
        refine ⟨later, ?_, appended.nodup, appended.fresh, used⟩
        rw [thread]
        dsimp only
        rw [same, ended]
      · rw [added] at ended appended
        have apart : use.decl.sig ∉ later := fun isMember =>
          appended.fresh _ isMember (List.mem_append_right _ List.mem_cons_self)
        refine ⟨use.decl.sig :: later, ?_, List.nodup_cons.mpr ⟨apart, appended.nodup⟩, ?_, ?_⟩
        · rw [thread]
          dsimp only
          rw [added, ended, List.append_assoc, List.singleton_append]
        · intro sig isMember
          rcases List.mem_cons.mp isMember with rfl | isLater
          · exact absent
          · exact fun before => appended.fresh sig isLater (List.mem_append_left _ before)
        · intro sig isMember
          rcases List.mem_cons.mp isMember with rfl | isLater
          · exact ⟨use, List.mem_cons_self, implicit, rfl⟩
          · exact used sig isLater

end Types

/-! ## The validators -/

section Validators

variable (find : Var -> Option Nat) (funcTypes : List FuncSignature) (multiValue : Bool)

/-- Whether one of the validators says something about the declaration.  Only
the other one looks at the signature of a `call_indirect`. -/
def reported (use : TypeUse) : Bool :=
  if use.inInitializer then true
  else
    match use.kind with
    | .func =>
        checkFuncSignature find funcTypes use.decl ||
          (!multiValue && decide (use.decl.sig.resultTypes.length > 1))
    | .funcImport => checkTypeVar find funcTypes use.decl
    | .callIndirect => checkFuncSignature find funcTypes use.decl
    | .block => checkBlockDeclaration find funcTypes multiValue use.decl

theorem checkTypes_iff (actual expected : List ValueType) :
    checkTypes actual expected = true ↔ actual ≠ expected := by
  unfold checkTypes
  split
  · rename_i sameLength
    induction actual generalizing expected with
    | nil =>
        obtain rfl := (List.eq_nil_of_length_eq_zero sameLength.symm)
        simp
    | cons first actual inductionHypothesis =>
        rcases expected with _ | ⟨other, expected⟩
        · cases sameLength
        · have later := inductionHypothesis expected (Nat.succ.inj sameLength)
          rw [List.zipWith_cons_cons, List.any_cons, Bool.or_eq_true, later, id,
            decide_eq_true_eq]
          simp only [ne_eq, List.cons.injEq, not_and_or]
          exact or_congr_left (not_congr eq_comm)
  · rename_i differs
    exact iff_of_true rfl fun same => differs (congrArg List.length same)

/-- A type that is missing is reported wherever a wrong signature would be. -/
theorem checkFuncSignature_of_typeVar {decl : FuncDeclaration}
    (missing : checkTypeVar find funcTypes decl = true) :
    checkFuncSignature find funcTypes decl = true := by
  unfold checkTypeVar at missing
  unfold checkFuncSignature
  cases isVar : decl.typeVar with
  | none =>
      rw [isVar] at missing
      cases missing
  | some var =>
      rw [isVar] at missing
      have none := Option.isNone_iff_eq_none.mp missing
      simp only [none]

theorem checkFuncSignature_of_ne {decl : FuncDeclaration} {var : Var} {sig : FuncSignature}
    (isVar : decl.typeVar = some var) (found : getFuncType find funcTypes var = some sig)
    (differs : sig ≠ decl.sig) : checkFuncSignature find funcTypes decl = true := by
  simp only [checkFuncSignature, isVar, found, Bool.or_eq_true, checkTypes_iff]
  by_contra same
  rw [not_or, not_not, not_not] at same
  rcases sig with ⟨paramTypes, resultTypes⟩
  rcases declared : decl.sig with ⟨declParams, declResults⟩
  rw [declared] at same differs
  dsimp only at same
  rw [same.1, same.2] at differs
  exact differs rfl

theorem reported_of_declares (exprs : ExprList) :
    exprs.declares = (exprs.uses true).any (reported find funcTypes multiValue) := by
  induction exprs with
  | nil => rfl
  | plain rest inductionHypothesis => exact inductionHypothesis
  | callIndirect decl rest _ => rfl
  | body decl exprs rest _ _ => rfl
  | arms decl first second rest _ _ _ => rfl

/-- The two visitors together report what is reported of each declaration. -/
theorem checkExprs_iff (exprs : ExprList) :
    (checkExprSignatures find funcTypes exprs || checkExprList find funcTypes multiValue exprs) =
      (exprs.uses false).any (reported find funcTypes multiValue) := by
  induction exprs with
  | nil => rfl
  | plain rest inductionHypothesis => exact inductionHypothesis
  | callIndirect decl rest inductionHypothesis =>
      have covers : (checkFuncSignature find funcTypes decl || checkTypeVar find funcTypes decl) =
          checkFuncSignature find funcTypes decl := by
        cases missing : checkTypeVar find funcTypes decl with
        | false => exact Bool.or_false _
        | true => rw [checkFuncSignature_of_typeVar find funcTypes missing, Bool.or_true]
      rw [ExprList.uses, List.any_cons, ← inductionHypothesis]
      simp only [checkExprSignatures, checkExprList, reported, Bool.false_eq_true, if_false]
      rw [← covers]
      ac_rfl
  | body decl exprs rest inside behind =>
      rw [ExprList.uses, List.any_cons, List.any_append, ← inside, ← behind]
      simp only [checkExprSignatures, checkExprList, reported, Bool.false_eq_true, if_false]
      ac_rfl
  | arms decl first second rest inFirst inSecond behind =>
      rw [ExprList.uses, List.any_cons, List.any_append, List.any_append, ← inFirst, ← inSecond,
        ← behind]
      simp only [checkExprSignatures, checkExprList, reported, Bool.false_eq_true, if_false]
      ac_rfl

theorem checkField_iff (field : ModuleField) :
    (checkFieldSignatures find funcTypes field || checkField find funcTypes multiValue field) =
      field.uses.any (reported find funcTypes multiValue) := by
  cases field with
  | func func =>
      rw [ModuleField.uses, List.any_cons, ← checkExprs_iff]
      simp only [checkFieldSignatures, checkField, checkFunc, reported, Bool.false_eq_true,
        if_false]
      cases tooMany : (!multiValue && decide (func.decl.sig.resultTypes.length > 1)) with
      | false =>
          simp only [Bool.false_eq_true, if_false, Bool.or_false]
          cases checkFuncSignature find funcTypes func.decl <;> simp
      | true => simp
  | funcImport decl => simp [checkFieldSignatures, checkField, ModuleField.uses, reported]
  | initializer exprs => exact reported_of_declares find funcTypes multiValue exprs

end Validators

/-- The module is refused by one of the validators. -/
def Refused (iteration : IterationOrder) (multiValue others : Bool) (module : Module) : Prop :=
  validateFuncSignatures iteration module = true ∨
    validateModule iteration multiValue others module = true

theorem refused_iff (iteration : IterationOrder) (multiValue others : Bool) (module : Module) :
    Refused iteration multiValue others module ↔ others = true ∨ ∃ use, use ∈ module.uses ∧
      reported (findIndex iteration module.funcTypeBindings) module.funcTypes multiValue use =
        true := by
  have each : forall fields : List ModuleField,
      (fields.any (checkFieldSignatures (findIndex iteration module.funcTypeBindings)
          module.funcTypes) ||
        fields.any (checkField (findIndex iteration module.funcTypeBindings) module.funcTypes
          multiValue)) =
      (fields.flatMap ModuleField.uses).any
        (reported (findIndex iteration module.funcTypeBindings) module.funcTypes multiValue) := by
    intro fields
    induction fields with
    | nil => rfl
    | cons field fields inductionHypothesis =>
        rw [List.flatMap_cons, List.any_append, ← inductionHypothesis, ← checkField_iff,
          List.any_cons, List.any_cons]
        ac_rfl
  rw [← List.any_eq_true, Module.uses, ← each module.fields, Refused, validateFuncSignatures,
    validateModule, ← Bool.or_eq_true, ← Bool.or_eq_true]
  refine iff_of_eq (congrArg (· = true) ?_)
  ac_rfl

/-! ## What resolving is for -/

/-- A block with no parameters and at most one result. -/
def TypeUse.IsPlainBlock (use : TypeUse) : Prop :=
  use.kind = .block ∧ use.decl.sig.paramTypes.length = 0 ∧ use.decl.sig.resultTypes.length ≤ 1

section Exact

variable (find : Var -> Option Nat) (final : List FuncSignature)

/-- What becomes of a declaration: with a type use alone it has the signature of
that type, and otherwise its own, which has an index if there is no type use; and
a type use with another signature has the module refused. -/
structure Signed (refused : Prop) (use after : TypeUse) : Prop where
  typed : forall var, use.decl.typeVar = some var -> use.decl.sig.isEmpty = true ->
    forall sig, getFuncType find final var = some sig -> after.decl.sig = sig
  inline : use.decl.typeVar = none ∨ use.decl.sig.isEmpty = false ->
    after.decl.sig = use.decl.sig
  indexed : use.decl.typeVar = none -> ¬use.IsPlainBlock -> HasIndex final use.decl.sig
  checked : forall var, use.decl.typeVar = some var -> use.decl.sig.isEmpty = false ->
    forall sig, getFuncType find final var = some sig -> sig ≠ use.decl.sig -> refused

/-- When that is so, by the declaration and the types there are when it is
resolved: a type use alone is not on a block or in an initializer, and its type
is there already, unless the type is that of a function without parameters and
results; a signature without a type use is not in an initializer, unless there
is a type for it; and an import's signature is that of its type, unless the
module is refused for something else. -/
structure Plain (refused : Prop) (funcTypes : List FuncSignature) (use : TypeUse) : Prop where
  typed : forall var, use.decl.typeVar = some var -> use.decl.sig.isEmpty = true ->
    forall sig, getFuncType find final var = some sig -> sig.isEmpty = true ∨
      use.inInitializer = false ∧ use.kind ≠ .block ∧ (getFuncType find funcTypes var).isSome = true
  indexed : use.decl.typeVar = none -> ¬use.IsPlainBlock ->
    use.inInitializer = false ∨ use.decl.sig ∈ final
  checked : use.kind = .funcImport -> use.inInitializer = false ->
    forall var, use.decl.typeVar = some var -> use.decl.sig.isEmpty = false ->
      forall sig, getFuncType find final var = some sig -> sig ≠ use.decl.sig -> refused

end Exact

section Exact

variable {find : Var -> Option Nat} {funcTypes final : List FuncSignature}

theorem isEmpty_iff {sig : FuncSignature} : sig.isEmpty = true ↔ sig = ⟨[], []⟩ := by
  rcases sig with ⟨paramTypes, resultTypes⟩
  simp [FuncSignature.isEmpty, and_comm]

theorem resolveFuncType_inline {decl : FuncDeclaration}
    (own : decl.typeVar = none ∨ decl.sig.isEmpty = false) :
    (resolveFuncType find funcTypes decl).1 = decl := by
  unfold resolveFuncType
  cases isVar : decl.typeVar with
  | none =>
      dsimp only
      split <;> rfl
  | some var =>
      rcases own with none | inline
      · rw [isVar] at none
        cases none
      · simp only [inline, Bool.false_eq_true, if_false]

theorem resolveFuncType_typed {decl : FuncDeclaration} {var : Var}
    (isVar : decl.typeVar = some var) (empty : decl.sig.isEmpty = true) :
    (resolveFuncType find funcTypes decl).1.sig =
      (getFuncType find funcTypes var).getD decl.sig := by
  unfold resolveFuncType
  simp only [isVar, empty, if_true]

/-- A block is not resolved by its type use alone. -/
theorem resolveBlockDeclaration_typed {decl : FuncDeclaration}
    (empty : decl.sig.isEmpty = true) :
    (resolveBlockDeclaration find funcTypes decl).1 = decl := by
  have none := isEmpty_iff.mp empty
  unfold resolveBlockDeclaration
  rw [if_neg]
  rw [none]
  decide

/-- A declaration that has a signature of its own keeps it. -/
theorem resolveUse_inline {use : TypeUse}
    (own : use.decl.typeVar = none ∨ use.decl.sig.isEmpty = false) :
    (resolveUse find funcTypes use).1 = use := by
  unfold resolveUse
  split
  · rfl
  · dsimp only
    split
    · unfold resolveBlockDeclaration
      split
      · rw [resolveFuncType_inline own]
      · rfl
    · rw [resolveFuncType_inline own]

theorem mem_resolveFuncType {decl : FuncDeclaration} (implicit : decl.typeVar = none) :
    decl.sig ∈ (resolveFuncType find funcTypes decl).2 := by
  unfold resolveFuncType
  simp only [implicit]
  split
  · rename_i index found
    by_contra absent
    rw [getFuncTypeIndex_none.mpr absent] at found
    cases found
  · exact List.mem_append_right _ List.mem_cons_self

/-- A signature without a type use is among the types when it has been resolved. -/
theorem mem_resolveUse {use : TypeUse} (implicit : use.decl.typeVar = none)
    (notPlain : ¬use.IsPlainBlock) (visited : use.inInitializer = false) :
    use.decl.sig ∈ (resolveUse find funcTypes use).2 := by
  unfold resolveUse
  simp only [visited, Bool.false_eq_true, if_false]
  split
  · rename_i isBlock
    unfold resolveBlockDeclaration
    rw [if_pos]
    · exact mem_resolveFuncType implicit
    · by_contra small
      rw [not_or, not_not] at small
      exact notPlain ⟨isBlock, small.1, Nat.le_of_not_lt small.2⟩
  · exact mem_resolveFuncType implicit

/-- What a type use alone leads to. -/
theorem resolveUse_typed {use : TypeUse} {var : Var} (isVar : use.decl.typeVar = some var)
    (empty : use.decl.sig.isEmpty = true) :
    (resolveUse find funcTypes use).1.decl.sig =
      if use.inInitializer = false ∧ use.kind ≠ .block then
        (getFuncType find funcTypes var).getD ⟨[], []⟩
      else ⟨[], []⟩ := by
  have none := isEmpty_iff.mp empty
  unfold resolveUse
  cases use.inInitializer with
  | true => simpa using none
  | false =>
      by_cases isBlock : use.kind = .block
      · simp only [Bool.false_eq_true, if_false, isBlock, if_true, ne_eq, not_true, and_false,
          resolveBlockDeclaration_typed empty, none]
      · simp only [Bool.false_eq_true, if_false, isBlock, ne_eq, not_false_eq_true, and_self,
          if_true, resolveFuncType_typed isVar empty, none]

/-- A declaration with another signature than its type's is reported, unless it
is an import. -/
theorem reported_of_ne {use : TypeUse} {multiValue : Bool} {var : Var} {sig : FuncSignature}
    (notImport : use.kind = .funcImport -> use.inInitializer = true)
    (isVar : use.decl.typeVar = some var) (found : getFuncType find final var = some sig)
    (differs : sig ≠ use.decl.sig) : reported find final multiValue use = true := by
  have wrong := checkFuncSignature_of_ne find final isVar found differs
  unfold reported
  split
  · rfl
  · rename_i visited
    cases isKind : use.kind with
    | func => simp only [wrong, Bool.true_or]
    | funcImport => exact absurd (notImport isKind) visited
    | callIndirect => exact wrong
    | block => simp only [checkBlockDeclaration, wrong, Bool.or_true]

/-- A declaration comes out as it should exactly if it is plain. -/
theorem signed_iff {refused : Prop} {multiValue : Bool} {use : TypeUse}
    (grown : (resolveUse find funcTypes use).2 <+: final)
    (refuses : reported find final multiValue (resolveUse find funcTypes use).1 = true -> refused) :
    Signed find final refused use (resolveUse find funcTypes use).1 ↔
      Plain find final refused funcTypes use := by
  have before : funcTypes <+: final := (resolveUse_grows find funcTypes use).trans grown
  constructor
  · intro signed
    refine ⟨fun var isVar empty sig found => ?_, fun implicit notPlain => ?_,
      fun _isImport _visited => signed.checked⟩
    · have same := signed.typed var isVar empty sig found
      rw [resolveUse_typed isVar empty] at same
      split at same
      · rename_i visited
        cases there : getFuncType find funcTypes var with
        | some _ => exact Or.inr ⟨visited.1, visited.2, rfl⟩
        | none =>
            rw [there] at same
            exact Or.inl (isEmpty_iff.mpr same.symm)
      · exact Or.inl (isEmpty_iff.mpr same.symm)
    · exact Or.inr (hasIndex_iff.mp (signed.indexed implicit notPlain))
  · intro plain
    refine ⟨fun var isVar empty sig found => ?_, fun own => ?_, fun implicit notPlain => ?_,
      fun var isVar inline sig found differs => ?_⟩
    · rw [resolveUse_typed isVar empty]
      rcases plain.typed var isVar empty sig found with isEmpty | ⟨visited, notBlock, there⟩
      · have none := isEmpty_iff.mp isEmpty
        split
        · cases known : getFuncType find funcTypes var with
          | none => exact none.symm
          | some other =>
              have same := getFuncType_earlier find before known
              exact Option.some.inj (same.symm.trans found)
        · exact none.symm
      · rw [if_pos ⟨visited, notBlock⟩]
        rcases Option.isSome_iff_exists.mp there with ⟨other, known⟩
        rw [known]
        exact Option.some.inj ((getFuncType_earlier find before known).symm.trans found)
    · rw [resolveUse_inline own]
    · refine hasIndex_iff.mpr ?_
      rcases plain.indexed implicit notPlain with visited | isMember
      · exact grown.subset (mem_resolveUse implicit notPlain visited)
      · exact isMember
    · by_cases isImport : use.kind = .funcImport ∧ use.inInitializer = false
      · exact plain.checked isImport.1 isImport.2 var isVar inline sig found differs
      · refine refuses ?_
        rw [resolveUse_inline (Or.inr inline)]
        refine reported_of_ne (fun isKind => ?_) isVar found differs
        exact Bool.ne_false_iff.mp fun visited => isImport ⟨isKind, visited⟩

end Exact

/-! ## Modules -/

/-- What the name of a local refers to: a parameter, or a local by its place
behind the parameters. -/
def localOf (iteration : IterationOrder) (func : Func) (var : Var) : Option (Bool × Nat) :=
  match findIndex iteration func.paramBindings var with
  | some index => some (true, index)
  | none => (findIndex iteration func.localBindings var).map fun index => (false, index)

def Func.locals (func : Func) : Locals :=
  ⟨func.decl.sig.paramTypes.length, func.paramBindings, func.localBindings⟩

/-- The locals of a function keep their names, and are counted behind the
parameters that it has got. -/
def SameLocals (iteration : IterationOrder) (before after : ModuleField) : Prop :=
  forall func, before = .func func -> ∃ resolved, after = .func resolved ∧
    forall var, localOf iteration resolved var = localOf iteration func var ∧
      resolved.locals.getLocalIndex iteration var =
        (localOf iteration func var).map fun (isParam, index) =>
          if isParam then index else resolved.decl.sig.paramTypes.length + index

/-- What `ResolveFuncTypes` makes of a module. -/
structure Elaborated (iteration : IterationOrder) (multiValue others : Bool) (module : Module) :
    Prop where
  appended : ∃ appended,
    (resolveFuncTypes iteration module).funcTypes = module.funcTypes ++ appended ∧
      Appended module.funcTypes module.uses appended
  locals : List.Forall₂ (SameLocals iteration) module.fields
    (resolveFuncTypes iteration module).fields
  signed : List.Forall₂
    (Signed (findIndex iteration module.funcTypeBindings)
      (resolveFuncTypes iteration module).funcTypes
      (Refused iteration multiValue others (resolveFuncTypes iteration module)))
    module.uses (resolveFuncTypes iteration module).uses

/-- There is something to say about the resolved module. -/
def Reportable (iteration : IterationOrder) (multiValue others : Bool) (module : Module) : Prop :=
  others = true ∨ ∃ use, use ∈ module.uses ∧
    reported (findIndex iteration module.funcTypeBindings) module.funcTypes multiValue use = true

theorem sameLocals (iteration : IterationOrder) (find : Var -> Option Nat)
    (funcTypes : List FuncSignature) (field : ModuleField) :
    SameLocals iteration field (resolveField find funcTypes field).1 := by
  rintro func rfl
  refine ⟨_, rfl, fun var => ⟨rfl, ?_⟩⟩
  unfold Locals.getLocalIndex localOf Func.locals
  dsimp only
  cases findIndex iteration func.paramBindings var with
  | some index => rfl
  | none => cases findIndex iteration func.localBindings var <;> rfl

theorem thread_locals (iteration : IterationOrder) (find : Var -> Option Nat)
    (funcTypes : List FuncSignature) (fields : List ModuleField) :
    List.Forall₂ (SameLocals iteration) fields
      (thread (resolveField find) funcTypes fields).1 := by
  induction fields generalizing funcTypes with
  | nil => exact .nil
  | cons field fields inductionHypothesis =>
      exact .cons (sameLocals iteration find funcTypes field) (inductionHypothesis _)

/-- A module comes out as it should exactly if each of its declarations is plain
in the types that there are when it is resolved. -/
theorem elaborated_iff (iteration : IterationOrder) (multiValue others : Bool) (module : Module) :
    Elaborated iteration multiValue others module ↔
      EachStage (resolveUse (findIndex iteration module.funcTypeBindings))
        (Plain (findIndex iteration module.funcTypeBindings)
          (resolveFuncTypes iteration module).funcTypes
          (Reportable iteration multiValue others (resolveFuncTypes iteration module)))
        module.funcTypes module.uses := by
  have whole := uses_resolveFuncTypes iteration module
  have results := congrArg Prod.fst whole
  have types := congrArg Prod.snd whole
  have refuses : Refused iteration multiValue others (resolveFuncTypes iteration module) =
      Reportable iteration multiValue others (resolveFuncTypes iteration module) :=
    propext (refused_iff iteration multiValue others _)
  have each : forall funcTypes use,
      (resolveUse (findIndex iteration module.funcTypeBindings) funcTypes use).2 <+:
          (resolveFuncTypes iteration module).funcTypes ->
        (resolveUse (findIndex iteration module.funcTypeBindings) funcTypes use).1 ∈
            (resolveFuncTypes iteration module).uses ->
          (Signed (findIndex iteration module.funcTypeBindings)
              (resolveFuncTypes iteration module).funcTypes
              (Refused iteration multiValue others (resolveFuncTypes iteration module)) use
              (resolveUse (findIndex iteration module.funcTypeBindings) funcTypes use).1 ↔
            Plain (findIndex iteration module.funcTypeBindings)
              (resolveFuncTypes iteration module).funcTypes
              (Refused iteration multiValue others (resolveFuncTypes iteration module))
              funcTypes use) :=
    fun funcTypes use grown isMember => signed_iff grown fun found =>
      (refused_iff iteration multiValue others _).mpr (Or.inr ⟨_, isMember, found⟩)
  have exactly := forall₂_thread_iff (· <+: ·) (fun _types => List.prefix_rfl)
    (fun _first _second _third => List.IsPrefix.trans) (resolveUse_grows _) each types
    fun result isMember => by rwa [results] at isMember
  rw [results, refuses] at exactly
  constructor
  · intro elaborated
    refine exactly.mp ?_
    rw [← refuses]
    exact elaborated.signed
  · intro plain
    have appended := thread_appended (findIndex iteration module.funcTypeBindings)
      module.funcTypes module.uses
    rw [types] at appended
    refine ⟨appended, thread_locals iteration _ module.funcTypes module.fields, ?_⟩
    rw [refuses]
    exact exactly.mpr plain

/-! ## Declarations that are left behind -/

def listedOrder : IterationOrder := .inserted

/-- `(module (type (func (result i32))) (func (result i32) (block (type 0) ...)))` -/
def blockModule : Module where
  funcTypeBindings := []
  funcTypes := [⟨[], [.i32]⟩]
  fields :=
    [.func
      { decl := ⟨none, ⟨[], [.i32]⟩⟩
        paramBindings := []
        localBindings := []
        exprs := .body ⟨some (.index 0), ⟨[], []⟩⟩ (.plain .nil) .nil }]

/-- `(module (type (func)) (import "m" "f" (func (type 0) (param i32))))` -/
def importModule : Module where
  funcTypeBindings := []
  funcTypes := [⟨[], []⟩]
  fields := [.funcImport ⟨some (.index 0), ⟨[.i32], []⟩⟩]

/-- The block does not get the signature of its type, so that a valid module is
refused; and an import with another signature than its type's is accepted. -/
theorem type_uses_left :
    (¬Elaborated listedOrder false false blockModule ∧
      Refused listedOrder false false (resolveFuncTypes listedOrder blockModule)) ∧
    ¬Elaborated listedOrder false false importModule ∧
      ¬Refused listedOrder false false (resolveFuncTypes listedOrder importModule) := by
  refine ⟨⟨fun elaborated => ?_, Or.inr rfl⟩, fun elaborated => ?_, ?_⟩
  · rcases elaborated.signed with _ | ⟨_, _ | ⟨block, _⟩⟩
    have empty := block.typed (.index 0) rfl rfl ⟨[], [.i32]⟩ rfl
    cases empty
  · rcases elaborated.signed with _ | ⟨imported, _⟩
    have refused := imported.checked (.index 0) rfl rfl ⟨[], []⟩ rfl (by decide)
    rcases refused with impossible | impossible <;> cases impossible
  · rintro (impossible | impossible) <;> cases impossible

end TypeUses
end Text
end WasmSandboxing
