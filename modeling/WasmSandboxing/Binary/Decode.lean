import WasmSandboxing.Binary.FunctionBody

namespace WasmSandboxing
namespace Binary

open Foundation

/-!
# What a code section spells

The bodies of a code section by their bytes alone.  Reading the section with
any delegate is folding its callbacks over the opcodes decoded here.
-/

/-- A function body, its opcodes with the offsets behind them, and what keeps
the reader from its end, if something does. -/
structure Body where
  start : Nat
  endOffset : Nat
  instrs : List (Instr × Nat)
  failure : Option Failure

namespace Reader

variable (reader : Reader)

/-- The opcodes up to `endOffset`, and where or how they end. -/
def instructions (endOffset : Nat) : Nat -> Nat -> List (Instr × Nat) × Except Failure Nat
  | 0, offset => ([], .ok offset)
  | rounds + 1, offset =>
      if offset < endOffset then
        match reader.readInstr offset with
        | .error failure => ([], .error failure)
        | .ok (instr, next) =>
            ((instr, next) :: (instructions endOffset rounds next).1,
              (instructions endOffset rounds next).2)
      else
        ([], .ok offset)

/-- What the checks behind the loop find. -/
def bodyFailure (endOffset : Nat) (instrs : List (Instr × Nat)) : Except Failure Nat ->
    Option Failure
  | .error failure => some failure
  | .ok offset =>
      if offset ≠ endOffset then
        some (.error (.text "function body longer than given size"))
      else if !instrs.any fun item => closesFunction endOffset item.1 item.2 then
        some (.error (.text "function body must end with END opcode"))
      else
        none

def decodeBody (offset : Nat) : Body :=
  match reader.readBodyHeader offset with
  | .error failure => ⟨offset, offset, [], some failure⟩
  | .ok (start, endOffset, offset) =>
      let decoded := reader.instructions endOffset (endOffset - offset) offset
      ⟨start, endOffset, decoded.1, bodyFailure endOffset decoded.1 decoded.2⟩

/-- The bodies up to the first that does not end where it should. -/
def decodeBodies : Nat -> Nat -> List Body
  | 0, _offset => []
  | count + 1, offset =>
      let body := reader.decodeBody offset
      match body.failure with
      | none => body :: decodeBodies count body.endOffset
      | some _ => [body]

/-- The bodies of a code section; none if its header is refused. -/
def codeBodies (offset : Nat) : List Body :=
  match reader.readCodeHeader offset with
  | .error _ => []
  | .ok (count, offset) => reader.decodeBodies count offset

end Reader

/-- What a delegate makes of a body. -/
def Body.run (body : Body) (delegate : Delegate State) (index : Nat) (state : State) :
    Except Failure (Nat × State) := do
  let state <- delegate.beginFunctionBody index state
  let state <- body.instrs.foldlM
    (fun state item => Reader.callback delegate body.endOffset item.1 item.2 state) state
  match body.failure with
  | some failure => .error failure
  | none =>
      let state <- delegate.endFunctionBody index state
      .ok (body.endOffset, state)

namespace Reader

variable {reader : Reader} {delegate : Delegate State}

theorem readOpcodes_eq (endOffset rounds offset : Nat) (seen : Bool) (state : State) :
    reader.readOpcodes delegate endOffset rounds offset seen state = (do
      let decoded := reader.instructions endOffset rounds offset
      let state <- decoded.1.foldlM
        (fun state item => callback delegate endOffset item.1 item.2 state) state
      let last <- decoded.2
      .ok (last, (seen || decoded.1.any fun item => closesFunction endOffset item.1 item.2),
        state)) := by
  induction rounds generalizing offset seen state with
  | zero => simp [readOpcodes, instructions, pure, Except.pure, bind, Except.bind]
  | succ rounds inductionHypothesis =>
      rw [readOpcodes, instructions]
      by_cases inside : offset < endOffset
      · rw [if_pos inside, if_pos inside]
        cases decoded : reader.readInstr offset with
        | error failure => rfl
        | ok item =>
            rcases item with ⟨instr, next⟩
            simp only [bind, Except.bind, List.foldlM_cons, List.any_cons]
            cases called : callback delegate endOffset instr next state with
            | error failure => rfl
            | ok after =>
                simp only [inductionHypothesis, bind, Except.bind, Bool.or_assoc]
      · rw [if_neg inside, if_neg inside]
        simp [pure, Except.pure, bind, Except.bind]

theorem readFunctionBody_eq (endOffset offset : Nat) (state : State) :
    reader.readFunctionBody delegate endOffset offset state = (do
      let decoded := reader.instructions endOffset (endOffset - offset) offset
      let state <- decoded.1.foldlM
        (fun state item => callback delegate endOffset item.1 item.2 state) state
      match bodyFailure endOffset decoded.1 decoded.2 with
      | some failure => .error failure
      | none => .ok (endOffset, state)) := by
  rw [readFunctionBody, readOpcodes_eq]
  simp only [bind, Except.bind]
  generalize reader.instructions endOffset (endOffset - offset) offset = decoded
  rcases decoded with ⟨instrs, ending⟩
  cases folded : instrs.foldlM
      (fun state item => callback delegate endOffset item.1 item.2 state) state with
  | error failure => rfl
  | ok after =>
      cases ending with
      | error failure => rfl
      | ok last =>
          simp only [bodyFailure, Bool.false_or]
          by_cases same : last = endOffset
          · subst same
            by_cases closed : instrs.any fun item => closesFunction last item.1 item.2
            · simp [closed]
            · simp [closed]
          · simp [same]

/-- Reading a body folds the delegate over what the body spells. -/
theorem readBody_eq (index offset : Nat) (state : State) :
    reader.readBody delegate index offset state =
      (reader.decodeBody offset).run delegate index state := by
  rw [readBody, Body.run, decodeBody]
  simp only [bind, Except.bind]
  cases delegate.beginFunctionBody index state with
  | error failure => rfl
  | ok after =>
      cases header : reader.readBodyHeader offset with
      | error failure => rfl
      | ok found =>
          rcases found with ⟨start, endOffset, first⟩
          simp only [readFunctionBody_eq]
          simp only [bind, Except.bind]
          generalize reader.instructions endOffset (endOffset - first) first = decoded
          cases decoded.1.foldlM
              (fun state item => callback delegate endOffset item.1 item.2 state) after with
          | error failure => rfl
          | ok state =>
              cases bodyFailure endOffset decoded.1 decoded.2 with
              | some failure => rfl
              | none => rfl

/-- The last of several bodies is read where the others end. -/
theorem readBodies_succ (count index offset : Nat) (state : State) :
    reader.readBodies delegate (count + 1) index offset state =
      (reader.readBodies delegate count index offset state).bind fun after =>
        reader.readBody delegate (index + count) after.1 after.2 := by
  induction count generalizing index offset state with
  | zero =>
      simp only [readBodies, bind, Except.bind, Nat.add_zero]
      cases reader.readBody delegate index offset state with
      | error failure => rfl
      | ok after => rfl
  | succ count inductionHypothesis =>
      have first : reader.readBodies delegate (count + 1) index offset state =
          (reader.readBody delegate index offset state).bind fun after =>
            reader.readBodies delegate count (index + 1) after.1 after.2 := rfl
      rw [first]
      change (reader.readBody delegate index offset state).bind _ = _
      simp only [inductionHypothesis, Except.bind]
      cases reader.readBody delegate index offset state with
      | error failure => rfl
      | ok after =>
          simp only
          rw [show index + 1 + count = index + (count + 1) by omega]

/-! ## The opcodes of a body that is complete -/

theorem instructions_behind {endOffset rounds offset : Nat} {item : Instr × Nat}
    (isMember : item ∈ (reader.instructions endOffset rounds offset).1) : offset < item.2 := by
  induction rounds generalizing offset with
  | zero => exact nomatch isMember
  | succ rounds inductionHypothesis =>
      rw [instructions] at isMember
      split at isMember
      · cases decoded : reader.readInstr offset with
        | error failure =>
            rw [decoded] at isMember
            exact nomatch isMember
        | ok found =>
            rcases found with ⟨instr, next⟩
            have moved := readInstr_advances decoded
            rw [decoded] at isMember
            rcases List.mem_cons.mp isMember with rfl | later
            · exact moved
            · exact Nat.lt_trans moved (inductionHypothesis later)
      · exact nomatch isMember

/-- The loop has rounds for every opcode of the body. -/
theorem instructions_rounds {endOffset rounds offset last : Nat}
    (enough : endOffset - offset ≤ rounds)
    (ended : (reader.instructions endOffset rounds offset).2 = .ok last) : endOffset ≤ last := by
  induction rounds generalizing offset with
  | zero =>
      cases ended
      omega
  | succ rounds inductionHypothesis =>
      rw [instructions] at ended
      split at ended
      · cases decoded : reader.readInstr offset with
        | error failure =>
            rw [decoded] at ended
            exact nomatch ended
        | ok found =>
            rcases found with ⟨instr, next⟩
            have moved := readInstr_advances decoded
            rw [decoded] at ended
            exact inductionHypothesis (by omega) ended
      · cases ended
        omega

/-- No opcode reaches beyond the end that the loop comes to. -/
theorem instructions_inside {endOffset rounds offset : Nat} {item : Instr × Nat}
    (ended : (reader.instructions endOffset rounds offset).2 = .ok endOffset)
    (isMember : item ∈ (reader.instructions endOffset rounds offset).1) :
    item.2 ≤ endOffset := by
  have start : forall {rounds offset : Nat},
      (reader.instructions endOffset rounds offset).2 = .ok endOffset -> offset ≤ endOffset := by
    intro rounds offset ended
    cases rounds with
    | zero => exact Nat.le_of_eq (Except.ok.inj ended)
    | succ rounds =>
        rw [instructions] at ended
        split at ended
        · omega
        · exact Nat.le_of_eq (Except.ok.inj ended)
  induction rounds generalizing offset with
  | zero => exact nomatch isMember
  | succ rounds inductionHypothesis =>
      rw [instructions] at isMember ended
      split at isMember
      · rename_i inside
        rw [if_pos inside] at ended
        cases decoded : reader.readInstr offset with
        | error failure =>
            rw [decoded] at isMember
            exact nomatch isMember
        | ok found =>
            rcases found with ⟨instr, next⟩
            rw [decoded] at isMember ended
            rcases List.mem_cons.mp isMember with rfl | later
            · exact start ended
            · exact inductionHypothesis ended later
      · exact nomatch isMember

/-- Only the last opcode can be the function's own `end`. -/
theorem instructions_closing {endOffset rounds offset : Nat}
    (closed : (reader.instructions endOffset rounds offset).1.any
      (fun item => closesFunction endOffset item.1 item.2) = true) :
    exists inner last, (reader.instructions endOffset rounds offset).1 = inner ++ [last] ∧
      closesFunction endOffset last.1 last.2 = true ∧
      forall item, item ∈ inner -> closesFunction endOffset item.1 item.2 = false := by
  induction rounds generalizing offset with
  | zero => exact nomatch closed
  | succ rounds inductionHypothesis =>
      rw [instructions] at closed ⊢
      split
      · rename_i inside
        rw [if_pos inside] at closed
        cases decoded : reader.readInstr offset with
        | error failure =>
            rw [decoded] at closed
            exact nomatch closed
        | ok found =>
            rcases found with ⟨instr, next⟩
            rw [decoded] at closed
            by_cases here : closesFunction endOffset instr next = true
            · have done : next = endOffset := of_decide_eq_true (Bool.and_eq_true_iff.mp here).2
              have none_ : (reader.instructions endOffset rounds next).1 = [] := by
                rw [done]
                cases rounds with
                | zero => rfl
                | succ rounds => rw [instructions, if_neg (Nat.lt_irrefl _)]
              exact ⟨[], (instr, next), congrArg ((instr, next) :: ·) none_, here, nofun⟩
            · rcases inductionHypothesis ((Bool.or_eq_true_iff.mp closed).resolve_left here) with
                ⟨inner, last, same, lastCloses, others⟩
              refine ⟨(instr, next) :: inner, last, congrArg ((instr, next) :: ·) same, lastCloses,
                fun item isMember => ?_⟩
              rcases List.mem_cons.mp isMember with rfl | isMember
              · exact Bool.eq_false_iff.mpr here
              · exact others item isMember
      · rename_i outside
        rw [if_neg outside] at closed
        exact nomatch closed

end Reader

/-- The callbacks of opcodes without the function's own `end`. -/
def callbacksOf (endOffset : Nat) (items : List (Instr × Nat)) : List Callback :=
  (items.filter fun item => !Reader.closesFunction endOffset item.1 item.2).map (·.1.callback)

theorem callbacksOf_closing {endOffset : Nat} {item : Instr × Nat} {rest : List (Instr × Nat)}
    (closes : Reader.closesFunction endOffset item.1 item.2 = true) :
    callbacksOf endOffset (item :: rest) = callbacksOf endOffset rest := by
  simp [callbacksOf, closes]

theorem callbacksOf_other {endOffset : Nat} {item : Instr × Nat} {rest : List (Instr × Nat)}
    (other : Reader.closesFunction endOffset item.1 item.2 = false) :
    callbacksOf endOffset (item :: rest) = item.1.callback :: callbacksOf endOffset rest := by
  simp [callbacksOf, other]

def Body.callbacks (body : Body) : List Callback :=
  callbacksOf body.endOffset body.instrs

/-- A body that is complete lies within its offsets and ends with the function's
`end`. -/
structure Body.Complete (body : Body) : Prop where
  inside : forall item, item ∈ body.instrs -> body.start < item.2 ∧ item.2 ≤ body.endOffset
  closing : exists inner last, body.instrs = inner ++ [last] ∧
    Reader.closesFunction body.endOffset last.1 last.2 = true ∧
    body.callbacks = inner.map (·.1.callback)

theorem Reader.decodeBody_complete {reader : Reader} {offset : Nat}
    (complete : (reader.decodeBody offset).failure = none) :
    (reader.decodeBody offset).Complete := by
  unfold Reader.decodeBody at complete ⊢
  cases header : reader.readBodyHeader offset with
  | error failure =>
      rw [header] at complete
      exact nomatch complete
  | ok found =>
      rcases found with ⟨start, endOffset, first⟩
      have forward := readBodyHeader_forward header
      rw [header] at complete
      simp only at complete ⊢
      cases ended : (reader.instructions endOffset (endOffset - first) first).2 with
      | error failure =>
          rw [ended] at complete
          exact nomatch complete
      | ok last =>
          rw [ended] at complete
          simp only [bodyFailure] at complete
          split at complete
          · exact nomatch complete
          · rename_i same
            split at complete
            · exact nomatch complete
            · rename_i closed
              have atEnd : last = endOffset := Decidable.not_not.mp same
              rw [atEnd] at ended
              constructor
              · intro item isMember
                exact ⟨Nat.lt_of_le_of_lt forward (instructions_behind isMember),
                  instructions_inside ended isMember⟩
              · rw [Bool.not_eq_true', Bool.not_eq_false] at closed
                rcases instructions_closing closed with
                  ⟨inner, final, whole, finalCloses, others⟩
                refine ⟨inner, final, whole, finalCloses, ?_⟩
                unfold Body.callbacks callbacksOf
                rw [whole, List.filter_append, List.filter_eq_self.mpr fun item isMember => by
                  rw [others item isMember, Bool.not_false]]
                simp [finalCloses]

theorem decodeBodies_complete {reader : Reader} {count offset number : Nat} {body : Body}
    (found : (reader.decodeBodies count offset)[number]? = some body)
    (complete : body.failure = none) : body.Complete := by
  induction count generalizing offset number with
  | zero => exact nomatch found
  | succ count inductionHypothesis =>
      rw [Reader.decodeBodies] at found
      cases failed : (reader.decodeBody offset).failure with
      | none =>
          rw [failed] at found
          cases number with
          | zero =>
              cases Option.some.inj found
              exact Reader.decodeBody_complete complete
          | succ number => exact inductionHypothesis found
      | some failure =>
          rw [failed] at found
          cases number with
          | zero =>
              cases Option.some.inj found
              exact Reader.decodeBody_complete complete
          | succ number => exact nomatch found

theorem readCodeHeader_count {reader : Reader} {count first offset : Nat}
    (header : reader.readCodeHeader offset = .ok (count, first)) :
    reader.numFunctionSignatures = count := by
  rcases bind_ok.mp header with ⟨⟨number, after⟩, _, checked⟩
  change (if _ then _ else _) = _ at checked
  split at checked
  · cases checked
    assumption
  · exact nomatch checked

end Binary
end WasmSandboxing
