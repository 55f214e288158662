import WasmSandboxing.Text.Lexer

namespace WasmSandboxing
namespace Text
namespace Lexer

open Foundation LexerBuffer

/-!
# The lexer works on the source

While every refill is ample, the rounds of the lexer are those over the padded
source, whatever the scanner asks for inside of a lexeme.
-/

/-! ## Lexemes -/

/-- Nothing is matched as malformed from here on. -/
def State.Matching : State -> Prop
  | matched rule => rule ≠ .malformed
  | more after _ _ => after.Matching
  | _ => True

theorem codePoint_matching {after state : State} {c : UInt8} (matching : after.Matching)
    (found : codePoint after c = some state) : state.Matching := by
  unfold codePoint at found
  grind [State.Matching]

theorem matched_matching (rule : Rule) (different : rule ≠ .malformed) :
    (State.matched rule).Matching := different

theorem State.next_matching {state next : State} {c : UInt8} (matching : state.Matching)
    (found : state.next c = some next) : next.Matching := by
  have codePoints := @codePoint_matching
  have unexpected := matched_matching Rule.unexpectedChar (by decide)
  have character := matched_matching Rule.badTextCharacter (by decide)
  have escape := matched_matching Rule.badEscape (by decide)
  have comment := matched_matching Rule.blockCommentCharacter (by decide)
  have text : State.text.Matching := trivial
  have line : State.lineCommentText.Matching := trivial
  cases state with
  | start condition => cases condition <;> grind [State.next, startNext, State.Matching]
  | more after follow count => cases count <;> grind [State.next, State.Matching]
  | _ => grind [State.next, textNext, State.Matching]

theorem longest_ne_malformed {state : State} {text : List UInt8} {count : Nat}
    {best : Option (Rule × Nat)} (matching : state.Matching)
    (before : forall pair, best = some pair -> pair.1 ≠ .malformed) :
    forall pair, longest state text count best = some pair -> pair.1 ≠ .malformed := by
  induction text generalizing state count best with
  | nil => exact before
  | cons c rest inductionHypothesis =>
      rw [longest]
      rcases stepped : state.next c with _ | next
      · exact before
      · have later := State.next_matching matching stepped
        have bests : forall pair, (next.rule.map fun rule => (rule, count + 1)).or best = some pair ->
            pair.1 ≠ .malformed := by
          cases next with
          | matched rule =>
              rintro pair same
              cases same
              exact later
          | _ => grind [State.rule]
        dsimp only
        split
        · exact bests
        · exact inductionHypothesis later bests

theorem scan_malformed {condition : Condition} {text : List UInt8}
    (malformed : (scan condition text).1 = .malformed) : (scan condition text).2 = 1 := by
  unfold scan at malformed ⊢
  rcases found : longest (.start condition) text 0 none with _ | pair
  · rfl
  · rw [found] at malformed
    exact absurd malformed (longest_ne_malformed (by cases condition <;> trivial)
      (fun _ none => by cases none) pair found)

/-! ## Requests -/

variable {source : List UInt8} {noise : Nat -> Nat -> UInt8} {need : Nat}
  {buffer after : LexerBuffer} {demand : Demand}

/-- All calls of `Fill` are ample. -/
def AllAmple (source : List UInt8) (refills : List Refilling) : Prop :=
  forall refilling, refilling ∈ refills -> Ample source refilling.need refilling.buffer

theorem allAmple_append {first rest : List Refilling} :
    AllAmple source (first ++ rest) ↔ AllAmple source first ∧ AllAmple source rest :=
  List.forall_mem_append

/-- The pointers are at the same places of the source as before, and nothing is
lost. -/
structure Kept (buffer after : LexerBuffer) : Prop where
  token_at : after.bufferFileOffset + after.nextPos = buffer.bufferFileOffset + buffer.nextPos
  cursor_at : after.bufferFileOffset + after.cursor = buffer.bufferFileOffset + buffer.cursor
  marker_at : after.bufferFileOffset + after.marker = buffer.bufferFileOffset + buffer.marker
  limit_at : buffer.bufferFileOffset + buffer.limit ≤ after.bufferFileOffset + after.limit

theorem fill_kept (sound : Sound source buffer)
    (filled : buffer.fill source noise need = some after) : Kept buffer after := by
  rcases fill_refill sound filled with ⟨size, count, refill⟩
  have before := sound.token_le
  have below := sound.cursor_le
  have limit := refill.limit_eq
  have cursor := refill.cursor_eq
  have nextPos := refill.nextPos_eq
  have marker := refill.marker_eq
  have offset := refill.offset_eq
  refine ⟨?_, ?_, ?_, ?_⟩
  · omega
  · omega
  · omega
  · rw [limit, offset]
    split <;> omega

/-- A request is granted, or the source has ended. -/
theorem request_granted (sound : Sound source buffer) (small : need ≤ maxFill)
    (ample : AllAmple source (request source noise need buffer).2) :
    (∃ after, (request source noise need buffer).1 = some after ∧ Sound source after ∧
      Kept buffer after ∧ after.cursor + need ≤ after.limit) ∨
    ((request source noise need buffer).1 = none ∧ buffer.eof = true ∧
      buffer.limit < buffer.cursor + need) := by
  unfold request at ample ⊢
  split at ample
  · rename_i short
    rw [if_pos short]
    rcases filled : buffer.fill source noise need with _ | after
    · refine .inr ⟨rfl, ?_, short⟩
      rw [fill] at filled
      split at filled
      · assumption
      · cases filled
    · rw [filled] at ample
      have enough := (enough_iff_ample sound small filled).mpr (ample _ List.mem_cons_self)
      have later := fill_sound sound filled
      have ahead := later.cursor_le
      exact .inl ⟨after, rfl, later, fill_kept sound filled, by omega⟩
  · rename_i known
    rw [if_neg known]
    exact .inl ⟨buffer, rfl, sound, ⟨rfl, rfl, rfl, Nat.le_refl _⟩, Nat.le_of_not_lt known⟩

/-! ## A lexeme -/

/-- What the scanner looks at is what the padded source has there. -/
theorem byte_at (sound : Sound source buffer) (inside : buffer.cursor < buffer.limit) :
    ∃ c, buffer.bytes[buffer.cursor]? = some c ∧
      (source ++ padding).drop (buffer.bufferFileOffset + buffer.cursor) =
        c :: (source ++ padding).drop (buffer.bufferFileOffset + buffer.cursor + 1) := by
  have before := sound.token_le
  have limit_le := sound.limit_le
  have bounded : buffer.cursor < buffer.bytes.length := Nat.lt_of_lt_of_le inside limit_le
  have same := congrArg (fun bytes => bytes[buffer.cursor - buffer.nextPos]?) sound.holds
  simp only [window, slice, List.getElem?_drop, List.getElem?_take] at same
  rw [Nat.add_sub_cancel' before, if_pos inside, if_pos (by omega),
    show buffer.bufferFileOffset + buffer.nextPos + (buffer.cursor - buffer.nextPos) =
      buffer.bufferFileOffset + buffer.cursor by omega,
    List.getElem?_eq_getElem bounded] at same
  rcases List.getElem?_eq_some_iff.mp same.symm with ⟨known, value⟩
  refine ⟨buffer.bytes[buffer.cursor], List.getElem?_eq_getElem bounded, ?_⟩
  rw [List.drop_eq_getElem_cons known, value]

/-- The padding is not part of a lexeme that can go on. -/
theorem next_inside {state next : State} {c : UInt8} {position : Nat} {rest : List UInt8}
    (looked : (source ++ padding).drop position = c :: rest) (stepped : state.next c = some next) :
    position < source.length := by
  by_contra beyond
  rw [List.drop_append, List.drop_eq_nil_of_le (Nat.le_of_not_lt beyond), List.nil_append,
    padding, List.drop_replicate] at looked
  have fake := List.eq_of_mem_replicate (looked ▸ List.mem_cons_self)
  rw [fake, state.next_padding] at stepped
  cases stepped

/-- Where the lexer stands after a lexeme: the token begins at `first`, the cursor
is `length` bytes behind, and the first bytes that were asked for are there. -/
structure Passed (source : List UInt8) (first length asked : Nat) (buffer : LexerBuffer) :
    Prop where
  sound : Sound source buffer
  token_at : buffer.bufferFileOffset + buffer.nextPos = first
  cursor_at : buffer.bufferFileOffset + buffer.cursor = first + length
  reaches : first + asked ≤ buffer.bufferFileOffset + buffer.limit

/-- The marker is at the end of the longest lexeme so far, and not behind the
beginning of the token if there is none. -/
structure Marked (first : Nat) (best : Option (Rule × Nat)) (buffer : LexerBuffer) : Prop where
  unset : best = none -> buffer.bufferFileOffset + buffer.marker ≤ first
  set : forall pair, best = some pair ->
    buffer.bufferFileOffset + buffer.marker = first + pair.2

theorem stop_passed {first count asked : Nat} {best : Option (Rule × Nat)}
    (passed : Passed source first count asked buffer) (marked : Marked first best buffer)
    (inside : buffer.nextPos < buffer.limit) :
    ∃ after, stop (best.map Prod.fst) buffer = .lexeme (best.getD (.malformed, 1)).1 after ∧
      Passed source first (best.getD (.malformed, 1)).2 asked after := by
  rcases passed with ⟨sound, token, cursor, reaches⟩
  have behind := sound.marker_le
  have below := sound.cursor_le
  have ahead := sound.token_le
  cases best with
  | none =>
      have place := marked.unset rfl
      refine ⟨_, rfl, ⟨sound.moved (Nat.le_refl _) (Nat.le_succ _) (by omega) inside, token, ?_,
        reaches⟩⟩
      dsimp only [Option.getD]
      omega
  | some pair =>
      have place := marked.set pair rfl
      refine ⟨_, rfl, ⟨sound.moved (Nat.le_refl _) (by omega) (by omega) (by omega), token, ?_,
        reaches⟩⟩
      dsimp only [Option.getD]
      omega

theorem advance_passed {first count asked : Nat} {best : Option (Rule × Nat)}
    (rule : Option Rule) (passed : Passed source first count asked buffer)
    (marked : Marked first best buffer) (inside : buffer.cursor < buffer.limit) :
    Passed source first (count + 1) asked (advance rule buffer) ∧
      Marked first ((rule.map fun rule => (rule, count + 1)).or best) (advance rule buffer) := by
  rcases passed with ⟨sound, token, cursor, reaches⟩
  have behind := sound.marker_le
  have ahead := sound.token_le
  cases rule with
  | none =>
      refine ⟨⟨sound.moved (Nat.le_refl _) (Nat.le_succ_of_le ahead) (by omega) inside, token, ?_,
        reaches⟩, marked.unset, marked.set⟩
      exact congrArg (· + 1) cursor
  | some rule =>
      refine ⟨⟨sound.moved (Nat.le_refl _) (Nat.le_succ_of_le ahead) (Int.le_refl _) inside, token,
        ?_, reaches⟩, fun none => (by cases none), ?_⟩
      · exact congrArg (· + 1) cursor
      · rintro pair same
        obtain rfl := Option.some.inj same
        change (buffer.bufferFileOffset : Int) + ((buffer.cursor + 1 : Nat) : Int) =
          first + ((count + 1 : Nat) : Int)
        omega

theorem Kept.passed {first count asked : Nat} (kept : Kept buffer after)
    (later : Sound source after) (passed : Passed source first count asked buffer) :
    Passed source first count asked after :=
  ⟨later, kept.token_at.trans passed.token_at, kept.cursor_at.trans passed.cursor_at,
    Nat.le_trans passed.reaches kept.limit_at⟩

theorem Kept.marked {first : Nat} {best : Option (Rule × Nat)} (kept : Kept buffer after)
    (marked : Marked first best buffer) : Marked first best after :=
  ⟨fun none => kept.marker_at ▸ marked.unset none,
    fun pair same => kept.marker_at.trans (marked.set pair same)⟩

theorem map_fst_or (rule : Option Rule) (count : Nat) (best : Option (Rule × Nat)) :
    ((rule.map fun rule => (rule, count)).or best).map Prod.fst = rule.or (best.map Prod.fst) := by
  cases rule with
  | none => rfl
  | some rule => rfl

variable (noise demand) in
/-- The automaton takes the lexeme that is the longest in the source. -/
theorem scanOn_longest (condition : Condition) (fuel : Nat) (state : State)
    (best : Option (Rule × Nat)) (lexeme : List UInt8) (first count asked : Nat)
    (passed : Passed source first count asked buffer) (marked : Marked first best buffer)
    (inside : buffer.cursor < buffer.limit)
    (enough : (source ++ padding).length < fuel + (first + count))
    (ample : AllAmple source
      (scanOn source noise demand condition fuel state (best.map Prod.fst) lexeme buffer).2) :
    ∃ after, (scanOn source noise demand condition fuel state (best.map Prod.fst) lexeme buffer).1 =
        .lexeme ((longest state ((source ++ padding).drop (first + count)) count best).getD
          (.malformed, 1)).1 after ∧
      Passed source first
        ((longest state ((source ++ padding).drop (first + count)) count best).getD
          (.malformed, 1)).2 asked after := by
  induction fuel generalizing state best lexeme count buffer with
  | zero =>
      rcases byte_at passed.sound inside with ⟨c, byte, text⟩
      rw [passed.cursor_at, List.drop_eq_nil_of_le (by omega)] at text
      cases text
  | succ fuel inductionHypothesis =>
      have before := passed.sound.token_le
      rcases byte_at passed.sound inside with ⟨c, byte, text⟩
      rw [passed.cursor_at] at text
      rw [scanOn, byte] at ample ⊢
      rw [text, longest]
      rcases stepped : state.next c with _ | next
      · simp only [stepped]
        exact stop_passed passed marked (by omega)
      · have early := next_inside text stepped
        rcases advance_passed next.rule passed marked inside with ⟨ahead, moved⟩
        have token : (advance next.rule buffer).nextPos < (advance next.rule buffer).limit := by
          have order := ahead.sound.cursor_le
          have start := ahead.token_at
          have place := ahead.cursor_at
          omega
        simp only [stepped, ← map_fst_or next.rule (count + 1)] at ample ⊢
        split at ample
        · rename_i final
          rw [if_pos final, if_pos final]
          exact stop_passed ahead moved token
        · rename_i goesOn
          rw [if_neg goesOn, if_neg goesOn]
          have bounded := demand.bounded condition (lexeme ++ [c])
          have positive := demand.positive condition (lexeme ++ [c])
          rcases asking : request source noise (demand.need condition (lexeme ++ [c]))
            (advance next.rule buffer) with ⟨_ | after, refills⟩
          · rw [asking] at ample
            have answer := request_granted ahead.sound bounded (by rw [asking]; exact ample)
            rw [asking] at answer
            rcases answer with ⟨after, same, _⟩ | ⟨_, finished, short⟩
            · cases same
            · have last := (ahead.sound.ended finished).1
              have place := ahead.cursor_at
              omega
          · rw [asking] at ample
            dsimp only at ample ⊢
            rcases allAmple_append.mp ample with ⟨now, later⟩
            have answer := request_granted ahead.sound bounded (by rw [asking]; exact now)
            rw [asking] at answer
            rcases answer with ⟨same, given, sound, kept, enough⟩ | ⟨none, _⟩
            · cases given
              exact inductionHypothesis next _ (lexeme ++ [c]) (count + 1)
                (kept.passed sound ahead) (kept.marked moved) (by omega) (by omega) later
            · cases none

/-! ## Rounds -/

/-- A byte is taken for malformed alone, and where the source has ended. -/
theorem atEnd_iff {first asked : Nat} (passed : Passed source first 1 asked buffer)
    (several : 2 ≤ asked) :
    atEnd buffer = decide ((source ++ padding).length - (first + 1) ≤ maxFill) := by
  have total : (source ++ padding).length = source.length + maxFill := by
    rw [List.length_append, padding_length]
  have place := passed.cursor_at
  have reaches := passed.reaches
  have order := passed.sound.cursor_le
  rw [atEnd, total]
  cases finished : buffer.eof with
  | false =>
      have reading := passed.sound.reading finished
      rw [Bool.false_and]
      exact (decide_eq_false (by omega)).symm
  | true =>
      have last := (passed.sound.ended finished).1
      rw [Bool.true_and]
      exact decide_eq_decide.mpr (by omega)

theorem yytext_eq {first length asked : Nat} (passed : Passed source first length asked buffer) :
    yytext buffer = ((source ++ padding).drop first).take length := by
  have order := passed.sound.cursor_le
  have ahead := passed.sound.token_le
  have place := passed.cursor_at
  have token := passed.token_at
  have here : buffer.nextPos + length = buffer.cursor := by omega
  have whole := congrArg (List.take length) passed.sound.holds
  rw [window, slice_take (by omega), slice_take (by omega), here, token] at whole
  rw [yytext, whole, take_drop_eq_slice]

variable (noise demand) in
/-- A round takes the lexeme that `scan` finds, or the source has ended. -/
theorem scanRound_scan (fuel : Nat) (condition : Condition) {first : Nat} (sound : Sound source buffer)
    (place : buffer.bufferFileOffset + buffer.cursor = first)
    (enough : (source ++ padding).length < fuel + first)
    (ample : AllAmple source (scanRound source noise demand fuel condition buffer).2) :
    if ((source ++ padding).drop first).length < condition.need then
      (scanRound source noise demand fuel condition buffer).1 = .eof
    else ∃ after,
      (scanRound source noise demand fuel condition buffer).1 =
        .lexeme (scan condition ((source ++ padding).drop first)).1 after ∧
      Passed source first (scan condition ((source ++ padding).drop first)).2 condition.need
        after := by
  have bounds := condition.need_bounds
  have order := sound.cursor_le
  have begun : Sound source { buffer with nextPos := buffer.cursor } :=
    sound.moved sound.token_le (Nat.le_refl _) sound.marker_le order
  have total : ((source ++ padding).drop first).length = source.length + maxFill - first := by
    rw [List.length_drop, List.length_append, padding_length]
  rw [total]
  unfold scanRound at ample ⊢
  rcases asking : request source noise condition.need { buffer with nextPos := buffer.cursor } with
    ⟨_ | given, refills⟩
  · rw [asking] at ample
    have answer := request_granted begun bounds.2 (by rw [asking]; exact ample)
    rw [asking] at answer
    rcases answer with ⟨after, same, _⟩ | ⟨_, finished, short⟩
    · cases same
    · have last := (begun.ended finished).1
      dsimp only at last short
      rw [if_pos (by omega)]
  · rw [asking] at ample
    dsimp only at ample ⊢
    rcases allAmple_append.mp ample with ⟨now, later⟩
    have answer := request_granted begun bounds.2 (by rw [asking]; exact now)
    rw [asking] at answer
    rcases answer with ⟨same, isSame, later', kept, long⟩ | ⟨none, _⟩
    case inr => cases none
    cases isSame
    have token := kept.token_at
    have cursor := kept.cursor_at
    have marker := kept.marker_at
    have behind := begun.marker_le
    dsimp only at token cursor marker behind
    have ended := later'.ended
    have reading := later'.reading
    rw [if_neg ?_]
    · have scanned := scanOn_longest noise demand condition fuel
        (.start condition) none [] first 0 condition.need
        ⟨later', by omega, by omega, by omega⟩ ⟨fun _ => by omega, fun _ none => by cases none⟩
        (by omega) (by omega) later
      exact scanned
    · cases finished : given.eof with
      | true =>
          have last := (ended finished).1
          omega
      | false =>
          have last := reading finished
          omega

theorem cursor_bounded (sound : Sound source buffer) :
    buffer.bufferFileOffset + buffer.cursor ≤ (source ++ padding).length := by
  have order := sound.cursor_le
  rw [List.length_append, padding_length]
  cases finished : buffer.eof with
  | true =>
      have last := (sound.ended finished).1
      omega
  | false =>
      have reading := sound.reading finished
      omega

theorem act_atEnd {rule : Rule} {first second : Bool} (text : List UInt8) (scanning : Scanning)
    (same : rule = .malformed -> first = second) :
    rule.act first text scanning = rule.act second text scanning := by
  cases rule with
  | malformed => rw [same rfl]
  | _ => rfl

/-- The rounds are those over the padded source. -/
theorem lexFrom_lexText (fuel : Nat) (scanning : Scanning) {first : Nat}
    (sound : Sound source buffer) (place : buffer.bufferFileOffset + buffer.cursor = first)
    (enough : (source ++ padding).length < fuel + first)
    (ample : AllAmple source (lexFrom source noise demand fuel scanning buffer).2) :
    (lexFrom source noise demand fuel scanning buffer).1 =
      some (lexText fuel scanning ((source ++ padding).drop first)) := by
  induction fuel generalizing scanning buffer first with
  | zero =>
      have bound := cursor_bounded sound
      omega
  | succ fuel inductionHypothesis =>
      rw [lexFrom] at ample ⊢
      rw [lexText]
      have round := scanRound_scan noise demand (fuel + 1)
        scanning.condition sound place (by omega)
      rcases asking : scanRound source noise demand (fuel + 1) scanning.condition buffer with
        ⟨scanned, refills⟩
      rw [asking] at ample round
      have now : AllAmple source refills := by
        cases scanned with
        | lexeme rule after => exact (allAmple_append.mp ample).1
        | eof | stuck => exact ample
      have round := round now
      split at round
      · rename_i short
        obtain rfl : scanned = .eof := round
        rw [if_pos short]
      · rename_i long
        rcases round with ⟨after, isLexeme, passed⟩
        obtain rfl : scanned = _ := isLexeme
        rw [if_neg long]
        have later := (allAmple_append.mp ample).2
        have positive := scan_positive scanning.condition ((source ++ padding).drop first)
        have ended : (scan scanning.condition ((source ++ padding).drop first)).1 = .malformed ->
            atEnd after = decide (((source ++ padding).drop first).length -
              (scan scanning.condition ((source ++ padding).drop first)).2 ≤ maxFill) := by
          intro malformed
          rw [scan_malformed malformed] at passed ⊢
          rw [atEnd_iff passed scanning.condition.need_bounds.1, List.length_drop, Nat.sub_sub]
        dsimp only at later ⊢
        rw [act_atEnd _ scanning ended, yytext_eq passed] at later ⊢
        rw [inductionHypothesis _ passed.sound passed.cursor_at (by omega) later, List.drop_drop]
        rfl

/-! ## Whole sources -/

/-- The lexer works on the source, as long as every call of `Fill` is ample. -/
theorem lex_lexText (source : List UInt8) (noise : Nat -> Nat -> UInt8) (demand : Demand)
    (ample : AllAmple source (lex source noise demand).2) :
    (lex source noise demand).1 =
      some (lexText (source.length + maxFill + 1) ⟨.i, 0⟩ (source ++ padding)) := by
  refine lexFrom_lexText _ _ (start_sound source) rfl ?_ ample
  rw [List.length_append, padding_length]
  exact Nat.lt_succ_self _

/-! ## Short sources -/

variable (source noise need) in
theorem request_ended (finished : buffer.eof = true) :
    (request source noise need buffer).2 = [] ∧
      forall after, (request source noise need buffer).1 = some after -> after = buffer := by
  unfold request
  split
  · rw [fill, if_pos finished]
    exact ⟨rfl, fun _ none => by cases none⟩
  · exact ⟨rfl, fun _ same => (Option.some.inj same).symm⟩

theorem advance_eof (rule : Option Rule) (buffer : LexerBuffer) :
    (advance rule buffer).eof = buffer.eof := by
  cases rule <;> rfl

theorem stop_eof {best : Option Rule} {rule : Rule} (stopped : stop best buffer = .lexeme rule after) :
    after.eof = buffer.eof := by
  cases best with
  | none | some => cases stopped; rfl

variable (source noise demand) in
theorem scanOn_ended (condition : Condition) (fuel : Nat) (state : State) (best : Option Rule)
    (lexeme : List UInt8) (finished : buffer.eof = true) :
    (scanOn source noise demand condition fuel state best lexeme buffer).2 = [] ∧
      forall rule after, (scanOn source noise demand condition fuel state best lexeme buffer).1 =
        .lexeme rule after -> after.eof = true := by
  induction fuel generalizing state best lexeme buffer with
  | zero => exact ⟨rfl, fun _ _ stuck => by cases stuck⟩
  | succ fuel inductionHypothesis =>
      rw [scanOn]
      rcases buffer.bytes[buffer.cursor]? with _ | c
      · exact ⟨rfl, fun _ _ stuck => by cases stuck⟩
      · rcases stepped : state.next c with _ | next
        · simp only [stepped]
          exact ⟨trivial, fun _ _ stopped => (stop_eof stopped).trans finished⟩
        · have passed := (advance_eof next.rule buffer).trans finished
          simp only [stepped]
          split
          · exact ⟨rfl, fun _ _ stopped => (stop_eof stopped).trans passed⟩
          · have unread := request_ended source noise
              (demand.need condition (lexeme ++ [c])) passed
            rcases asking : request source noise (demand.need condition (lexeme ++ [c]))
              (advance next.rule buffer) with ⟨_ | given, refills⟩
            · rw [asking] at unread
              exact ⟨unread.1, fun _ _ ended => by cases ended⟩
            · rw [asking] at unread
              obtain rfl : refills = [] := unread.1
              obtain rfl := unread.2 given rfl
              exact inductionHypothesis next (next.rule.or best) (lexeme ++ [c]) passed

variable (source noise demand) in
theorem scanRound_ended (condition : Condition) (fuel : Nat) (finished : buffer.eof = true) :
    (scanRound source noise demand fuel condition buffer).2 = [] ∧
      forall rule after, (scanRound source noise demand fuel condition buffer).1 =
        .lexeme rule after -> after.eof = true := by
  have begun : ({ buffer with nextPos := buffer.cursor } : LexerBuffer).eof = true := finished
  have unread := request_ended source noise condition.need begun
  unfold scanRound
  rcases asking : request source noise condition.need { buffer with nextPos := buffer.cursor } with
    ⟨_ | given, refills⟩
  · rw [asking] at unread
    exact ⟨unread.1, fun _ _ ended => by cases ended⟩
  · rw [asking] at unread
    obtain rfl : refills = [] := unread.1
    obtain rfl := unread.2 given rfl
    exact scanOn_ended source noise demand condition fuel (.start condition) none [] finished

variable (source noise demand) in
/-- Once the source has ended nothing is read. -/
theorem lexFrom_ended (fuel : Nat) (scanning : Scanning) (finished : buffer.eof = true) :
    (lexFrom source noise demand fuel scanning buffer).2 = [] := by
  induction fuel generalizing scanning buffer with
  | zero => rfl
  | succ fuel inductionHypothesis =>
      have round := scanRound_ended source noise demand
        scanning.condition (fuel + 1) finished
      rw [lexFrom]
      rcases asking : scanRound source noise demand (fuel + 1) scanning.condition buffer with
        ⟨scanned, refills⟩
      rw [asking] at round
      obtain rfl : refills = [] := round.1
      cases scanned with
      | lexeme rule after => exact inductionHypothesis _ (round.2 rule after rfl)
      | eof | stuck => rfl

/-- The first refill reads the whole of a short source. -/
theorem fill_start (short : source.length + maxFill < initialLexerBufferSize)
    (filled : start.fill source noise 29 = some after) : after.eof = true := by
  have sound := fill_sound (start_sound source) filled
  rcases fill_refill (start_sound source) filled with ⟨size, count, refill⟩
  have newSize : start.newBufferSize 29 = initialLexerBufferSize := by
    show doubleUntil 0 0 29 initialLexerBufferSize = initialLexerBufferSize
    rw [doubleUntil, if_neg (by decide)]
  rcases refill.grown (by decide) with ⟨rfl, rfl⟩
  have limit := refill.limit_eq
  have offset : after.bufferFileOffset = 0 := refill.offset_eq
  have before : start.limit = 0 ∧ start.nextPos = 0 ∧ start.bytes.length = 0 ∧
      start.readOffset = 0 := ⟨rfl, rfl, rfl, rfl⟩
  have positive : 0 < maxFill := by decide
  rw [newSize, before.1, before.2.1, before.2.2.1, before.2.2.2, if_pos (by omega)] at limit
  simp only [Nat.sub_zero, Nat.zero_add] at limit
  by_contra unfinished
  have reading := sound.reading (Bool.not_eq_true _ ▸ unfinished)
  omega

theorem lex_ample (source : List UInt8) (noise : Nat -> Nat -> UInt8) (demand : Demand)
    (short : source.length + maxFill < initialLexerBufferSize) :
    AllAmple source (lex source noise demand).2 := by
  rw [lex, lexFrom]
  rcases filled : start.fill source noise 29 with _ | after
  · cases filled
  have finished := fill_start short filled
  have asking : request source noise Condition.i.need { start with nextPos := start.cursor } =
      (some after, [⟨29, start⟩]) := by
    change request source noise 29 start = _
    rw [request, if_pos (by decide), filled]
  have ample : AllAmple source [⟨29, start⟩] := by
    intro refilling isMember
    rcases List.mem_singleton.mp isMember with rfl
    exact .inl (by decide)
  have round := scanOn_ended source noise demand .i
    (source.length + maxFill + 1) (.start .i) none [] finished
  unfold scanRound
  rw [asking]
  dsimp only
  rcases scanned : scanOn source noise demand .i (source.length + maxFill + 1) (.start .i) none []
    after with ⟨outcome, refills⟩
  rw [scanned] at round
  obtain rfl : refills = [] := round.1
  cases outcome with
  | lexeme rule later =>
      have rest := lexFrom_ended source noise demand
        (source.length + maxFill) (rule.act (atEnd later) (yytext later) ⟨.i, 0⟩).2
        (round.2 rule later rfl)
      dsimp only
      rw [rest]
      exact ample
  | eof | stuck => exact ample

end Lexer
end Text
end WasmSandboxing
