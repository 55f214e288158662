import WasmSandboxing.Binary.Decode
import WasmSandboxing.Binary.Labels

namespace WasmSandboxing
namespace Binary

open Foundation

/-!
# Function bodies apart from one another

`EndFunctionBody` takes one label away and does not ask whether it is the
function's own.  A body that leaves a construct open is accepted, leaves labels
behind, and the next body can append to the lists of these.  The bodies stay
apart exactly if the first body that does not close is refused for another
reason.
-/

/-- A body of balanced constructs and the function's own `end` behind them. -/
def Body.IsBalanced (body : Body) : Prop :=
  exists inner last, body.instrs = inner ++ [last] ∧
    Reader.closesFunction body.endOffset last.1 last.2 = true ∧
    Balanced (inner.map (·.1.callback))

/-- An opcode of the function's own body, at its place between the offsets. -/
def OwnOpcode (reader : Reader) (bodies : List Body) (index : Nat) (instr : Instr) (loc : Nat) :
    Prop :=
  exists number body, index = reader.numFuncImports + number ∧ bodies[number]? = some body ∧
    (instr, loc) ∈ body.instrs ∧ body.start < loc ∧ loc ≤ body.endOffset

/-- What holds of the delegate behind the first bodies of a code section. -/
structure KeptApart (reader : Reader) (bodies : List Body) (finished : Nat)
    (ir : BinaryReaderIR) : Prop where
  noLabel : ir.labelStack = []
  balanced : forall number, number < finished ->
    exists body, bodies[number]? = some body ∧ body.IsBalanced
  ownOpcodes : forall {index list : Nat} {expr : Expr}, ir.funcs[index]? = some list ->
    InTree ir.lists list expr -> OwnOpcode reader bodies index expr.instr expr.loc

/-- A body that is read to its end is balanced and leaves nothing behind, a
body that is not is refused with an error, and nothing fails otherwise. -/
def BodiesApart (reader : Reader) (offset : Nat) : Prop :=
  (forall count first, reader.readCodeHeader offset = .ok (count, first) ->
    forall finished, finished ≤ count -> forall last ir,
      reader.readBodies BinaryReaderIR.delegate finished reader.numFuncImports first
        (.beforeCode reader) = .ok (last, ir) ->
      KeptApart reader (reader.codeBodies offset) finished ir) ∧
  forall what, reader.readCodeSection BinaryReaderIR.delegate offset (.beforeCode reader) ≠
    .error (.fault what)

/-- The body is complete and every construct in it has its `end`. -/
def Body.closed (body : Body) : Bool :=
  body.failure.isNone && nesting [] body.callbacks == some []

/-- The first body that is not closed has an `else`, a `catch` or an `end` that
belongs to no construct of its own, or bytes that the reader reports. -/
def FirstOpenRefused (bodies : List Body) : Prop :=
  forall body, bodies.find? (fun body => !body.closed) = some body ->
    nesting [] body.callbacks = none ∨ exists message, body.failure = some (.error message)

/-! ## One body -/

variable {own : Nat -> Instr -> Nat -> Prop} {funcs : List Nat} {index : Nat}
variable {opened : List LabelType} {ir : BinaryReaderIR}

/-- What the delegate makes of some opcodes of a body. -/
def foldCallbacks (endOffset : Nat) (items : List (Instr × Nat)) (ir : BinaryReaderIR) :
    Except Failure BinaryReaderIR :=
  items.foldlM
    (fun state item => Reader.callback BinaryReaderIR.delegate endOffset item.1 item.2 state) ir

theorem foldCallbacks_closing {endOffset : Nat} {item : Instr × Nat} {rest : List (Instr × Nat)}
    (closes : Reader.closesFunction endOffset item.1 item.2 = true) :
    foldCallbacks endOffset (item :: rest) ir = foldCallbacks endOffset rest ir := by
  rw [foldCallbacks, List.foldlM_cons, Reader.callback, closes]
  rfl

theorem foldCallbacks_other {endOffset : Nat} {item : Instr × Nat} {rest : List (Instr × Nat)}
    (other : Reader.closesFunction endOffset item.1 item.2 = false) :
    foldCallbacks endOffset (item :: rest) ir =
      (BinaryReaderIR.onExpr item.1 item.2 ir).bind (foldCallbacks endOffset rest) := by
  rw [foldCallbacks, List.foldlM_cons, Reader.callback, other]
  rfl

/-- The delegate follows the scan. -/
theorem fold_taken {endOffset : Nat} {items : List (Instr × Nat)} {next : List LabelType}
    (reading : Reading own funcs index opened ir)
    (mine : forall item, item ∈ items -> own index item.1 item.2)
    (taken : nesting opened (callbacksOf endOffset items) = some next) :
    exists after, foldCallbacks endOffset items ir = .ok after ∧
      Reading own funcs index next after := by
  induction items generalizing opened ir with
  | nil =>
      cases Option.some.inj taken
      exact ⟨ir, rfl, reading⟩
  | cons item rest inductionHypothesis =>
      have later := fun other isMember => mine other (List.mem_cons_of_mem item isMember)
      cases closes : Reader.closesFunction endOffset item.1 item.2 with
      | true =>
          rw [callbacksOf_closing closes] at taken
          rw [foldCallbacks_closing closes]
          exact inductionHypothesis reading later taken
      | false =>
          rw [callbacksOf_other closes] at taken
          rcases Option.bind_eq_some_iff.mp taken with ⟨between, stepped, taken⟩
          rcases reading.onExpr (mine item (List.mem_cons_self ..)) stepped with
            ⟨after, called, reading⟩
          rw [foldCallbacks_other closes, called]
          exact inductionHypothesis reading later taken

/-- What the scan refuses the delegate refuses with an error. -/
theorem fold_refused {endOffset : Nat} {items : List (Instr × Nat)}
    (reading : Reading own funcs index opened ir)
    (mine : forall item, item ∈ items -> own index item.1 item.2)
    (refused : nesting opened (callbacksOf endOffset items) = none) :
    exists message, foldCallbacks endOffset items ir = .error (.error message) := by
  induction items generalizing opened ir with
  | nil => exact nomatch refused
  | cons item rest inductionHypothesis =>
      have later := fun other isMember => mine other (List.mem_cons_of_mem item isMember)
      cases closes : Reader.closesFunction endOffset item.1 item.2 with
      | true =>
          rw [callbacksOf_closing closes] at refused
          rw [foldCallbacks_closing closes]
          exact inductionHypothesis reading later refused
      | false =>
          rw [callbacksOf_other closes, nesting] at refused
          rw [foldCallbacks_other closes]
          cases stepped : nestingStep opened item.1.callback with
          | none =>
              rcases reading.refuse stepped with ⟨message, called⟩
              exact ⟨message, by rw [called]; rfl⟩
          | some between =>
              rw [stepped] at refused
              rcases reading.onExpr (mine item (List.mem_cons_self ..)) stepped with
                ⟨after, called, reading⟩
              rw [called]
              exact inductionHypothesis reading later refused

/-- A delegate between two bodies that begins one has it as its own. -/
theorem Body.run_begin (body : Body) (between : Between own funcs ir)
    (declared : index < funcs.length) :
    exists begun, Reading own funcs index [] begun ∧
      body.run BinaryReaderIR.delegate index ir =
        (foldCallbacks body.endOffset body.instrs begun).bind fun after =>
          match body.failure with
          | some failure => .error failure
          | none => (BinaryReaderIR.endFunctionBody index after).bind fun final =>
              .ok (body.endOffset, final) := by
  rcases between.begin declared with ⟨begun, called, reading⟩
  refine ⟨begun, reading, ?_⟩
  have first : BinaryReaderIR.delegate.beginFunctionBody index ir = .ok begun := called
  rw [Body.run, first]
  rfl

variable {body : Body}

/-- A complete body of which the scan leaves `next` open is read to its end. -/
theorem Body.run_complete {next : List LabelType} (between : Between own funcs ir)
    (declared : index < funcs.length)
    (mine : forall item, item ∈ body.instrs -> own index item.1 item.2)
    (complete : body.failure = none) (scanned : nesting [] body.callbacks = some next) :
    exists after, body.run BinaryReaderIR.delegate index ir = .ok (body.endOffset, after) ∧
      after.labelStack.length = next.length ∧ (next = [] -> Between own funcs after) := by
  rcases body.run_begin between declared with ⟨begun, reading, run⟩
  rcases fold_taken reading mine scanned with ⟨after, folded, reading⟩
  rcases reading.finish with ⟨final, finished, depth, whole⟩
  refine ⟨final, ?_, depth, whole⟩
  rw [run, folded, complete]
  change (BinaryReaderIR.endFunctionBody index after).bind _ = _
  rw [finished]
  rfl

/-- Where the bytes of a body fail and its opcodes nest, reading fails alike. -/
theorem Body.run_failed {next : List LabelType} {failure : Failure}
    (between : Between own funcs ir) (declared : index < funcs.length)
    (mine : forall item, item ∈ body.instrs -> own index item.1 item.2)
    (failed : body.failure = some failure) (scanned : nesting [] body.callbacks = some next) :
    body.run BinaryReaderIR.delegate index ir = .error failure := by
  rcases body.run_begin between declared with ⟨begun, reading, run⟩
  rcases fold_taken reading mine scanned with ⟨after, folded, reading⟩
  rw [run, folded, failed]
  rfl

theorem Body.run_refused (between : Between own funcs ir) (declared : index < funcs.length)
    (mine : forall item, item ∈ body.instrs -> own index item.1 item.2)
    (refused : nesting [] body.callbacks = none) :
    exists message, body.run BinaryReaderIR.delegate index ir = .error (.error message) := by
  rcases body.run_begin between declared with ⟨begun, reading, run⟩
  rcases fold_refused reading mine refused with ⟨message, folded⟩
  refine ⟨message, ?_⟩
  rw [run, folded]
  rfl

theorem Body.closed_iff : body.closed = true ↔
    body.failure = none ∧ nesting [] body.callbacks = some [] := by
  rw [Body.closed, Bool.and_eq_true, Option.isNone_iff_eq_none, beq_iff_eq]

/-- A complete body that is closed is one that the grammar derives. -/
theorem Body.Complete.isBalanced (complete : body.Complete) (closed : body.closed = true) :
    body.IsBalanced := by
  rcases complete.closing with ⟨inner, last, whole, lastCloses, callbacks⟩
  refine ⟨inner, last, whole, lastCloses, ?_⟩
  rw [← callbacks, ← nesting_closed_iff]
  exact (Body.closed_iff.mp closed).2

/-! ## All bodies -/

variable {reader : Reader}

/-- Nothing is asked of what a function owns. -/
def ownAnything (_index : Nat) (_instr : Instr) (_loc : Nat) : Prop := True

theorem Between.forget (between : Between own funcs ir) : Between ownAnything funcs ir := by
  rcases between.owned with ⟨owner, owned⟩
  refine ⟨between.noLabel, between.sameFuncs, owner, ⟨fun found isMember => ?_, owned.funcs⟩⟩
  exact ⟨trivial, (owned.exprs found isMember).2⟩

theorem find_closed {rest : List Body} (closed : body.closed = true) :
    (body :: rest).find? (fun body => !body.closed) = rest.find? (fun body => !body.closed) := by
  rw [List.find?_cons, closed]
  rfl

theorem find_open {rest : List Body} (isOpen : body.closed = false) :
    (body :: rest).find? (fun body => !body.closed) = some body := by
  rw [List.find?_cons, isOpen]
  rfl

/-- The bodies behind one that closes. -/
theorem decodeBodies_closed (count : Nat) {offset : Nat}
    (closed : (reader.decodeBody offset).closed = true) :
    reader.decodeBodies (count + 1) offset = reader.decodeBody offset ::
      reader.decodeBodies count (reader.decodeBody offset).endOffset := by
  rw [Reader.decodeBodies, (Body.closed_iff.mp closed).1]

theorem decodeBodies_head (reader : Reader) (count offset : Nat) : exists rest,
    reader.decodeBodies (count + 1) offset = reader.decodeBody offset :: rest := by
  rw [Reader.decodeBodies]
  cases (reader.decodeBody offset).failure with
  | none => exact ⟨_, rfl⟩
  | some failure => exact ⟨_, rfl⟩

theorem readBodies_first {after : BinaryReaderIR} {offset next : Nat}
    (run : (reader.decodeBody offset).run BinaryReaderIR.delegate index ir = .ok (next, after))
    (count : Nat) : reader.readBodies BinaryReaderIR.delegate (count + 1) index offset ir =
      reader.readBodies BinaryReaderIR.delegate count (index + 1) next after := by
  rw [Reader.readBodies, Reader.readBody_eq, run]
  rfl

theorem readBodies_failed {failure : Failure} {offset : Nat}
    (run : (reader.decodeBody offset).run BinaryReaderIR.delegate index ir = .error failure)
    (count : Nat) : reader.readBodies BinaryReaderIR.delegate (count + 1) index offset ir =
      .error failure := by
  rw [Reader.readBodies, Reader.readBody_eq, run]
  rfl

/-- A body that closes is read and leaves the delegate between two bodies. -/
theorem run_closed {offset : Nat} (between : Between own funcs ir)
    (declared : index < funcs.length)
    (mine : forall item, item ∈ (reader.decodeBody offset).instrs ->
      (reader.decodeBody offset).closed = true -> own index item.1 item.2)
    (closed : (reader.decodeBody offset).closed = true) :
    exists after, (reader.decodeBody offset).run BinaryReaderIR.delegate index ir =
        .ok ((reader.decodeBody offset).endOffset, after) ∧ Between own funcs after := by
  rcases Body.closed_iff.mp closed with ⟨complete, scanned⟩
  rcases Body.run_complete between declared (fun item isMember => mine item isMember closed)
    complete scanned with ⟨after, run, _, whole⟩
  exact ⟨after, run, whole rfl⟩

/-- Bodies of which the first open one is refused stay apart. -/
theorem readBodies_apart {count offset : Nat} (between : Between own funcs ir)
    (declared : index + count ≤ funcs.length)
    (mine : forall number body, (reader.decodeBodies count offset)[number]? = some body ->
      body.closed = true -> forall item, item ∈ body.instrs -> own (index + number) item.1 item.2)
    (refused : FirstOpenRefused (reader.decodeBodies count offset)) :
    (forall finished, finished ≤ count -> forall last after,
      reader.readBodies BinaryReaderIR.delegate finished index offset ir = .ok (last, after) ->
      Between own funcs after ∧ forall number, number < finished -> exists body,
        (reader.decodeBodies count offset)[number]? = some body ∧ body.closed = true) ∧
    forall what, reader.readBodies BinaryReaderIR.delegate count index offset ir ≠
      .error (.fault what) := by
  induction count generalizing index offset ir with
  | zero =>
      refine ⟨fun finished none_ last after read => ?_, fun what => nofun⟩
      cases Nat.le_zero.mp none_
      cases read
      exact ⟨between, nofun⟩
  | succ count inductionHypothesis =>
      have inside : index < funcs.length := by omega
      have others : index + 1 + count ≤ funcs.length := by omega
      cases closed : (reader.decodeBody offset).closed with
      | true =>
          have bodies := decodeBodies_closed count closed
          rw [bodies] at mine refused ⊢
          rcases run_closed between inside (fun item isMember closed =>
            mine 0 _ rfl closed item isMember) closed with ⟨after, run, between⟩
          have later := inductionHypothesis between others
            (fun number body found => by
              rw [Nat.add_assoc, Nat.add_comm 1 number]
              exact mine (number + 1) body found)
            (fun body found => refused body ((find_closed closed).trans found))
          refine ⟨fun finished enough last final read => ?_, fun what failed => ?_⟩
          · cases finished with
            | zero =>
                cases read
                exact ⟨by assumption, nofun⟩
            | succ finished =>
                rw [readBodies_first run] at read
                rcases later.1 finished (by omega) last final read with ⟨whole, closes⟩
                refine ⟨whole, fun number below => ?_⟩
                cases number with
                | zero => exact ⟨_, rfl, closed⟩
                | succ number => exact closes number (by omega)
          · rw [readBodies_first run] at failed
            exact later.2 what failed
      | false =>
          rcases decodeBodies_head reader count offset with ⟨rest, bodies⟩
          rw [bodies] at refused
          have rejected : exists message, (reader.decodeBody offset).run BinaryReaderIR.delegate
              index ir = .error (.error message) := by
            have free := between.forget
            cases scanned : nesting [] (reader.decodeBody offset).callbacks with
            | none => exact Body.run_refused free inside (fun _ _ => trivial) scanned
            | some next =>
                rcases refused _ (find_open closed) with misplaced | ⟨message, failed⟩
                · exact nomatch scanned.symm.trans misplaced
                · exact ⟨message, Body.run_failed free inside (fun _ _ => trivial) failed
                    scanned⟩
          rcases rejected with ⟨message, run⟩
          refine ⟨fun finished enough last after read => ?_, fun what failed => ?_⟩
          · cases finished with
            | zero =>
                cases read
                exact ⟨between, nofun⟩
            | succ finished =>
                rw [readBodies_failed run] at read
                exact nomatch read
          · rw [readBodies_failed run] at failed
            exact nomatch failed

/-- Bodies behind which no label is left, read without a fault: the first open
one is refused. -/
theorem firstOpenRefused_of_apart {count offset : Nat} (between : Between ownAnything funcs ir)
    (declared : index + count ≤ funcs.length)
    (noLabel : forall finished, finished ≤ count -> forall last after,
      reader.readBodies BinaryReaderIR.delegate finished index offset ir = .ok (last, after) ->
      after.labelStack = [])
    (noFault : forall what, reader.readBodies BinaryReaderIR.delegate count index offset ir ≠
      .error (.fault what)) :
    FirstOpenRefused (reader.decodeBodies count offset) := by
  induction count generalizing index offset ir with
  | zero => exact nofun
  | succ count inductionHypothesis =>
      have inside : index < funcs.length := by omega
      have others : index + 1 + count ≤ funcs.length := by omega
      cases closed : (reader.decodeBody offset).closed with
      | true =>
          rcases run_closed between inside (fun _ _ _ => trivial) closed with
            ⟨after, run, next⟩
          have later := inductionHypothesis next others
            (fun finished enough last final read => noLabel (finished + 1) (by omega) last final
              ((readBodies_first run finished).trans read))
            (fun what failed => noFault what ((readBodies_first run count).trans failed))
          rw [decodeBodies_closed count closed]
          exact fun body found => later body ((find_closed closed).symm.trans found)
      | false =>
          rcases decodeBodies_head reader count offset with ⟨rest, bodies⟩
          rw [bodies]
          intro body found
          rw [find_open closed] at found
          cases found
          cases scanned : nesting [] (reader.decodeBody offset).callbacks with
          | none => exact .inl rfl
          | some next =>
              right
              cases failed : (reader.decodeBody offset).failure with
              | none =>
                  exfalso
                  rcases Body.run_complete between inside (fun _ _ => trivial) failed scanned
                    with ⟨after, run, depth, _⟩
                  have empty := noLabel 1 (by omega) _ after
                    ((readBodies_first run 0).trans rfl)
                  rw [empty] at depth
                  have none_ : next = [] := List.eq_nil_of_length_eq_zero depth.symm
                  rw [none_] at scanned
                  exact nomatch closed.symm.trans (Body.closed_iff.mpr ⟨failed, scanned⟩)
              | some failure =>
                  cases failure with
                  | error message => exact ⟨message, rfl⟩
                  | fault what =>
                      exfalso
                      exact noFault what (readBodies_failed
                        (Body.run_failed between inside (fun _ _ => trivial) failed scanned)
                        count)

/-! ## The code section -/

/-- Before the code no list has an expression and there is no label. -/
theorem between_beforeCode (own : Nat -> Instr -> Nat -> Prop) (reader : Reader) :
    Between own (List.range reader.numTotalFuncs) (.beforeCode reader) := by
  refine ⟨rfl, rfl, id, ⟨fun {list exprs expr} found isMember => ?_, fun {index list} found => ?_⟩⟩
  · have empty : exprs = [] := (List.mem_replicate.mp (List.mem_of_getElem? found)).2
    rw [empty] at isMember
    exact nomatch isMember
  · rcases List.getElem?_eq_some_iff.mp found with ⟨inside, same⟩
    rw [List.getElem_range] at same
    rw [List.length_range] at inside
    change list < (List.replicate reader.numTotalFuncs ([] : List Expr)).length ∧ list = index
    rw [List.length_replicate]
    omega

/-- The header reads numbers only, and these report what they refuse. -/
theorem readCodeHeader_error {failure : Failure} {offset : Nat}
    (header : reader.readCodeHeader offset = .error failure) :
    exists message, failure = .error message := by
  change (reader.readCount _ offset).bind _ = _ at header
  cases counted : reader.readCount "function body count" offset with
  | error failure' =>
      rw [counted] at header
      cases header
      change (reader.readIndex _ offset).bind _ = _ at counted
      cases indexed : reader.readIndex "function body count" offset with
      | error failure' =>
          rw [indexed] at counted
          cases counted
          exact Reader.readU32Leb128_error indexed
      | ok found =>
          rw [indexed] at counted
          change (if _ then _ else _) = _ at counted
          split at counted
          · cases counted
            exact ⟨_, rfl⟩
          · exact nomatch counted
  | ok found =>
      rw [counted] at header
      change (if _ then _ else _) = _ at header
      split at header
      · exact nomatch header
      · cases header
        exact ⟨_, rfl⟩

theorem readCodeSection_eq {count first offset : Nat}
    (header : reader.readCodeHeader offset = .ok (count, first)) :
    reader.readCodeSection BinaryReaderIR.delegate offset (.beforeCode reader) =
      reader.readBodies BinaryReaderIR.delegate count reader.numFuncImports first
        (.beforeCode reader) := by
  have same := readCodeHeader_count header
  have counted : BinaryReaderIR.onFunctionBodyCount count (.beforeCode reader) =
      .ok (.beforeCode reader) := by
    refine if_pos ?_
    change reader.numFuncImports + count = (List.range reader.numTotalFuncs).length
    rw [List.length_range, Reader.numTotalFuncs, same]
  change (reader.readCodeHeader offset).bind _ = _
  rw [header]
  change (BinaryReaderIR.onFunctionBodyCount count (.beforeCode reader)).bind _ = _
  rw [counted]
  rfl

/-- The opcodes of closed bodies are opcodes of their own functions. -/
theorem own_closed {count first number : Nat} {body : Body} {offset : Nat}
    (header : reader.readCodeHeader offset = .ok (count, first))
    (found : (reader.decodeBodies count first)[number]? = some body)
    (closed : body.closed = true) (item : Instr × Nat) (isMember : item ∈ body.instrs) :
    OwnOpcode reader (reader.codeBodies offset) (reader.numFuncImports + number) item.1 item.2 := by
  have complete := decodeBodies_complete found (Body.closed_iff.mp closed).1
  have range := complete.inside item isMember
  refine ⟨number, body, rfl, ?_, isMember, range.1, range.2⟩
  rw [Reader.codeBodies, header]
  exact found

/-- The bodies of a code section stay apart from one another exactly if the
first that does not close all its constructs is refused on other grounds: by an
`else`, `catch` or `end` without a construct of its own or by its bytes. -/
theorem bodiesApart_iff (reader : Reader) (offset : Nat) :
    BodiesApart reader offset ↔ FirstOpenRefused (reader.codeBodies offset) := by
  cases header : reader.readCodeHeader offset with
  | error failure =>
      have none_ : reader.codeBodies offset = [] := by rw [Reader.codeBodies, header]
      rw [none_]
      refine ⟨fun _ => nofun, fun _ => ⟨fun count first found => ?_, fun what failed => ?_⟩⟩
      · exact nomatch header.symm.trans found
      · have known := readCodeHeader_error header
        rcases known with ⟨message, rfl⟩
        change (reader.readCodeHeader offset).bind _ = _ at failed
        rw [header] at failed
        exact nomatch failed
  | ok found =>
      rcases found with ⟨count, first⟩
      have bodies : reader.codeBodies offset = reader.decodeBodies count first := by
        rw [Reader.codeBodies, header]
      have declared : reader.numFuncImports + count ≤
          (List.range reader.numTotalFuncs).length := by
        rw [List.length_range, Reader.numTotalFuncs, readCodeHeader_count header]
      constructor
      · rintro ⟨apart, noFault⟩
        rw [bodies]
        refine firstOpenRefused_of_apart (between_beforeCode _ reader) declared ?_ ?_
        · intro finished enough last after read
          exact (apart count first header finished enough last after read).noLabel
        · rw [← readCodeSection_eq header]
          exact noFault
      · intro refused
        have between := between_beforeCode (OwnOpcode reader (reader.codeBodies offset)) reader
        rw [bodies] at refused
        rcases readBodies_apart between declared (fun number body found closed =>
          own_closed header found closed) refused with ⟨apart, noFault⟩
        refine ⟨fun count' first' header' finished enough last ir read => ?_, ?_⟩
        · cases header.symm.trans header'
          rcases apart finished enough last ir read with ⟨between, closes⟩
          refine ⟨between.noLabel, fun number below => ?_, fun listed inTree => ?_⟩
          · rcases closes number below with ⟨body, found, closed⟩
            rw [bodies]
            exact ⟨body, found, (decodeBodies_complete found
              (Body.closed_iff.mp closed).1).isBalanced closed⟩
          · rcases between.owned with ⟨owner, owned⟩
            rw [between.sameFuncs] at listed
            have mine := owned.tree inTree
            rw [(owned.funcs listed).2] at mine
            exact mine
        · rw [readCodeSection_eq header]
          exact noFault

/-- Two bodies of which the first leaves a block open and the second has an
`end` more, then a `nop`. -/
def openBlockThenEnd : Reader where
  data := [0x02, 0x04, 0x00, 0x02, 0x40, 0x0b, 0x04, 0x00, 0x0b, 0x01, 0x0b]
  readEnd := 11
  features := ⟨false, false, false, false, false⟩
  numFuncImports := 0
  numFunctionSignatures := 2
  numSignatures := 1

/-- They are accepted, and the `nop` of the second is in the first function. -/
theorem nop_in_first_function :
    (exists last ir, openBlockThenEnd.readCodeSection BinaryReaderIR.delegate 0
        (.beforeCode openBlockThenEnd) = .ok (last, ir) ∧
      InTree ir.lists 0 (.leaf ⟨0x01, .expr .nop, []⟩ 10)) ∧
    ¬ BodiesApart openBlockThenEnd 0 := by
  have read : openBlockThenEnd.readCodeSection BinaryReaderIR.delegate 0
      (.beforeCode openBlockThenEnd) = .ok (11,
        { numFuncImports := 0, funcs := [0, 1], labelStack := [],
          lists := [[.block ⟨0x02, .construct .block, [-0x40]⟩ 5 2,
            .leaf ⟨0x01, .expr .nop, []⟩ 10], [], []] }) := by
    decide +kernel
  refine ⟨⟨_, _, read, .here rfl (by decide)⟩, fun apart => ?_⟩
  have first : openBlockThenEnd.readBodies BinaryReaderIR.delegate 1 0 1
      (.beforeCode openBlockThenEnd) = .ok (6,
        { numFuncImports := 0, funcs := [0, 1], labelStack := [⟨.func, 0⟩],
          lists := [[.block ⟨0x02, .construct .block, [-0x40]⟩ 5 2], [], []] }) := by
    decide +kernel
  have noLabel := (apart.1 2 1 (by decide +kernel) 1 (by decide) 6 _ first).noLabel
  exact nomatch noLabel

end Binary
end WasmSandboxing
