import WasmSandboxing.Tools.OptionParser

namespace WasmSandboxing
namespace Tools

open Foundation Wasm

/-!
# Command lines

`Parse` does what the words stand for, as long as none of them is misread, and from
the first one on that is it does something else.
-/

namespace OptionParser

section Arguments

variable {arguments : List Argument} {count : Nat} {progress : Progress}

theorem reached_nil (count : Nat) : reached [] count = 0 := Nat.min_zero _

theorem reached_cons_zero (argument : Argument) (rest : List Argument) :
    reached (argument :: rest) 0 = 0 :=
  Nat.zero_min _

theorem reached_cons_succ {argument : Argument} (one : argument.count = .one)
    (rest : List Argument) (count : Nat) :
    reached (argument :: rest) (count + 1) = reached rest count + 1 := by
  simp only [reached, List.takeWhile_cons, one, beq_self_eq_true, if_true, List.length_cons]
  omega

theorem reached_cons_more {argument : Argument} (more : argument.count ≠ .one)
    (rest : List Argument) (count : Nat) : reached (argument :: rest) count = 0 := by
  rw [reached, List.takeWhile_cons, if_neg (by simpa using more), List.length_nil, Nat.min_zero]

/-- Another word is for the next argument where the one that is reached takes one. -/
theorem reached_succ (arguments : List Argument) (count : Nat) :
    reached arguments (count + 1) =
      if arguments[reached arguments count]?.any fun argument => argument.count == .one then
        reached arguments count + 1
      else reached arguments count := by
  induction arguments generalizing count with
  | nil => rw [reached_nil, reached_nil, if_neg (by simp)]
  | cons argument rest inductionHypothesis =>
      rcases Classical.em (argument.count = .one) with one | more
      · cases count with
        | zero =>
            rw [reached_cons_zero, reached_cons_succ one, if_pos (by simp [one]), reached,
              Nat.zero_min]
        | succ count =>
            rw [reached_cons_succ one, reached_cons_succ one, inductionHypothesis,
              List.getElem?_cons_succ]
            split <;> rfl
      · rw [reached_cons_more more, reached_cons_more more, if_neg (by simp [more])]

/-- The variables of `Parse` after a number of words that went to arguments. -/
structure Tracks (arguments : List Argument) (count : Nat) (progress : Progress) : Prop where
  index : progress.argIndex = reached arguments count
  handled : forall index, index < arguments.length ->
    (progress.handled index = 0 ↔ forall earlier, earlier < count ->
      reached arguments earlier ≠ index)

theorem Tracks.start : Tracks arguments 0 ⟨0, fun _ => 0⟩ where
  index := (Nat.zero_min _).symm
  handled := fun _ _ => iff_of_true rfl fun _ below => absurd below (Nat.not_lt_zero _)

theorem Tracks.handle (tracks : Tracks arguments count progress) (word : Word) :
    ∃ next, handleArgument arguments progress word = (place arguments count word, next) ∧
      Tracks arguments (count + 1) next := by
  rcases tracks with ⟨index, handled⟩
  rw [handleArgument, index, place]
  have succ := reached_succ arguments count
  cases here : arguments[reached arguments count]? with
  | none =>
      have beyond := List.getElem?_eq_none_iff.mp here
      rw [here] at succ
      refine ⟨progress, by rw [if_neg (Nat.not_lt.mpr beyond)], index.trans succ.symm, ?_⟩
      intro other below
      rw [handled other below]
      grind
  | some argument =>
      have below := (List.getElem?_eq_some_iff.mp here).1
      rw [here] at succ
      rw [Option.any_some] at succ
      refine ⟨_, by rw [if_pos below], ?_, ?_⟩
      · rw [succ]
        simp only [beq_iff_eq]
      · intro other otherBelow
        dsimp only
        rcases eq_or_ne other (reached arguments count) with rfl | different
        · rw [Function.update_self]
          exact iff_of_false (Nat.succ_ne_zero _) fun never =>
            never count (Nat.lt_succ_self _) rfl
        · rw [Function.update_of_ne different, handled other otherBelow]
          grind

theorem Tracks.finish (tracks : Tracks arguments count progress) :
    finish arguments progress = missing arguments count := by
  rw [OptionParser.finish, missing, tracks.index]
  cases arguments with
  | nil => rfl
  | cons first rest =>
      have last := tracks.handled ((first :: rest).length - 1) (by simp)
      congr 1
      simp only [ne_eq, reduceCtorEq, not_false_eq_true, decide_true, Bool.true_and,
        decide_eq_true_eq, List.all_eq_true, List.mem_range, last]

end Arguments

section Words

variable {options : List ParserOption} {arguments : List Argument} {word arg : Word}
  {rest words : List Word}

/-- A word that does not begin with a dash goes to an argument. -/
theorem shape_plain (noDash : word.head? ≠ some dash) : shape word = .plain := by
  match word, noDash with
  | [], _ => rfl
  | [_], _ => rfl
  | first :: second :: rest, noDash =>
      rw [shape, if_pos fun same => noDash (congrArg some same)]

theorem items_plain (plain : shape word = .plain) : items word = [.plain word] := by
  rw [items, plain]

theorem items_long (long : shape word = .long) : items word = [.long word] := by
  rw [items, long]

theorem items_short {chars : Word} (short : shape word = .short chars) :
    items word = chars.map .short := by
  rw [items, short]

theorem shape_short {chars : Word} (short : shape word = .short chars) : chars ≠ [] := by
  match word, short with
  | first :: second :: rest, short =>
      rw [shape] at short
      split at short
      · cases short
      · split at short <;> cases short
        exact List.cons_ne_nil _ _

theorem shape_long (long : shape arg = .long) : ∃ s, arg = dash :: dash :: s := by
  match arg, long with
  | first :: second :: rest, long =>
      rw [shape] at long
      split at long
      case isTrue => cases long
      case isFalse isDash =>
        split at long
        case isTrue alsoDash => exact ⟨rest, by rw [not_not.mp isDash, alsoDash]⟩
        case isFalse => cases long

/-- The value that the next word is, as a word and as an item. -/
theorem valueItem_eq (rest : List Word) : valueItem (rest.flatMap items) = valueWord rest := by
  cases rest with
  | nil => rfl
  | cons next later =>
      rw [List.flatMap_cons, valueWord]
      rcases Classical.em (next.head? = some dash) with isDash | noDash
      · rw [if_pos isDash]
        cases shaped : shape next with
        | long =>
            rw [items_long shaped]
            rfl
        | short chars =>
            rw [items_short shaped]
            cases chars with
            | nil => exact absurd rfl (shape_short shaped)
            | cons => rfl
        | plain =>
            rw [items_plain shaped]
            exact if_pos isDash
      · rw [if_neg noDash, items_plain (shape_plain noDash)]
        exact if_neg noDash

theorem valueWord_some {value : Word} (found : valueWord rest = some value) :
    ∃ later, rest = value :: later ∧ value.head? ≠ some dash := by
  cases rest with
  | nil => cases found
  | cons next later =>
      rw [valueWord] at found
      split at found
      case isTrue => cases found
      case isFalse noDash =>
        cases found
        exact ⟨later, rfl, noDash⟩

theorem denoted_long (arg : Word) (rest : List Item) (count : Nat) :
    denoted options arguments false (.long arg :: rest) count =
      (denotedStep options rest (.long arg)).events ++
        denoted options arguments (denotedStep options rest (.long arg)).takesNext rest count :=
  rfl

theorem denoted_short (char : UInt8) (rest : List Item) (count : Nat) :
    denoted options arguments false (.short char :: rest) count =
      (denotedStep options rest (.short char)).events ++
        denoted options arguments (denotedStep options rest (.short char)).takesNext rest count :=
  rfl

theorem denoted_plain (word : Word) (rest : List Item) (count : Nat) :
    denoted options arguments false (.plain word :: rest) count =
      place arguments count word :: denoted options arguments false rest (count + 1) :=
  rfl

/-- A word of short options does what they do one after the other. -/
theorem shortOptions_denoted (chars : Word) (rest : List Word) (count : Nat) :
    denoted options arguments false (chars.map .short ++ rest.flatMap items) count =
      (shortOptions options chars rest).events ++
        denoted options arguments (shortOptions options chars rest).takesNext
          (rest.flatMap items) count := by
  induction chars with
  | nil => rfl
  | cons char chars inductionHypothesis =>
      rw [List.map_cons, List.cons_append, denoted_short, denotedStep, shortOptions]
      cases shortIndex options char with
      | none =>
          dsimp only
          rw [inductionHypothesis]
          rfl
      | some index =>
          dsimp only
          rw [takesValue]
          split
          case isTrue takes =>
            cases chars with
            | nil =>
                rw [List.map_nil, List.nil_append, valueItem_eq]
                cases valueWord rest <;> rfl
            | cons next chars =>
                have noValue :
                    valueItem ((next :: chars).map .short ++ rest.flatMap items) = none := rfl
                rw [noValue]
                dsimp only
                rw [inductionHypothesis]
                rfl
          case isFalse =>
            rw [inductionHypothesis]
            rfl

section Chosen

variable {index length : Nat} {option : ParserOption}

theorem longOption_flag (selected : selectOption options (arg.drop 2) = .option (some index) length)
    (here : options[index]? = some option) (flag : option.hasArgument = false) :
    longOption options arg rest = some ⟨[.option index none], false⟩ := by
  simp only [longOption, selected, here, flag, Option.bind_eq_bind, Option.bind_some,
    Bool.false_eq_true, if_false]

theorem longOption_equals
    (selected : selectOption options (arg.drop 2) = .option (some index) length)
    (here : options[index]? = some option) (takes : option.hasArgument = true)
    (isEquals : charAt arg length = some equals) :
    longOption options arg rest =
      some ⟨[.option index (some (arg.drop (length + 1)))], false⟩ := by
  simp only [longOption, selected, here, takes, isEquals, Option.bind_eq_bind, Option.bind_some,
    if_true]

theorem longOption_next {char : UInt8}
    (selected : selectOption options (arg.drop 2) = .option (some index) length)
    (here : options[index]? = some option) (takes : option.hasArgument = true)
    (isChar : charAt arg length = some char) (noEquals : char ≠ equals) :
    longOption options arg rest = some ((valueWord rest).elim
      ⟨[.error (.requiresArgument option.longName)], false⟩
      fun value => ⟨[.option index (some value)], true⟩) := by
  simp only [longOption, selected, here, takes, isChar, noEquals, Option.bind_eq_bind,
    Option.bind_some, if_true, if_false]
  cases valueWord rest <;> rfl

/-- Where no `=` is seen, the value is the next word. -/
theorem longOption_separate {char : UInt8}
    (selected : selectOption options (arg.drop 2) = .option (some index) length)
    (here : options[index]? = some option) (isChar : charAt arg length = some char)
    (noEquals : option.hasArgument = true -> char ≠ equals)
    (denotes : denotedOption options (arg.drop 2) = .exact index ∨
      denotedOption options (arg.drop 2) = .abbreviated index) :
    longOption options arg rest =
      some (denotedStep options (rest.flatMap items) (.long arg)) := by
  have takesEq : takesValue options index = option.hasArgument := by
    rw [takesValue, here]
    rfl
  have name : (options[index]?.map ParserOption.longName).getD [] = option.longName := by
    rw [here]
    rfl
  cases flag : option.hasArgument with
  | false =>
      rw [longOption_flag selected here flag, denotedStep]
      rcases denotes with denotes | denotes <;>
        simp only [denotes, takesEq, flag, Bool.false_eq_true, if_false]
  | true =>
      rw [longOption_next selected here flag isChar (noEquals flag), denotedStep, valueItem_eq]
      rcases denotes with denotes | denotes <;>
        simp only [denotes, takesEq, flag, if_true, name] <;> cases valueWord rest <;> rfl

end Chosen

theorem charAt_eq {index : Nat} {char : UInt8} (here : arg[index]? = some char) :
    charAt arg index = some char := by
  rw [charAt, if_neg (Nat.ne_of_lt (List.getElem?_eq_some_iff.mp here).1), here]

/-- A character before the terminator. -/
theorem charAt_lt {index : Nat} (below : index < arg.length) :
    ∃ char, charAt arg index = some char ∧ arg[index]? = some char :=
  ⟨arg[index], charAt_eq (List.getElem?_eq_getElem below), List.getElem?_eq_getElem below⟩

theorem getLast_long (s : Word) :
    (dash :: dash :: s).getLast? = (dash :: dash :: s)[s.length + 1]? := by
  rw [List.getLast?_eq_getElem?]
  rfl

theorem dropLast_long (s : Word) :
    (dash :: dash :: s).dropLast.getLast? = (dash :: dash :: s)[s.length]? := by
  rw [List.getLast?_eq_getElem?, List.getElem?_dropLast, List.length_dropLast]
  simp

/-- A long option that is not misread does what it stands for. -/
theorem longOption_denoted (wellFormed : WellFormed options) (long : shape arg = .long)
    (readable : misread options arg = false) (rest : List Word) :
    longOption options arg rest =
      some (denotedStep options (rest.flatMap items) (.long arg)) := by
  rcases shape_long long with ⟨s, rfl⟩
  have selected := selectOption_denoted wellFormed s
  have dropped : (dash :: dash :: s).drop 2 = s := rfl
  simp only [misread, long, beq_self_eq_true, Bool.true_and, dropped] at readable
  rcases denotedOption_cases options s with unknown | ambiguous |
    ⟨index, option, here, exact' | abbreviated | ⟨joins, joined⟩⟩
  · rw [unknown] at selected
    simp only [longOption, dropped, selected, Denotation.selection, denotedStep, unknown]
  · rw [ambiguous] at selected
    simp only [longOption, dropped, selected, Denotation.selection, denotedStep, ambiguous]
  · rw [exact'] at selected readable
    dsimp only at readable
    have below : s.length + 1 < (dash :: dash :: s).length := Nat.lt_succ_self _
    rcases charAt_lt below with ⟨char, isChar, last⟩
    refine longOption_separate selected here isChar (fun takes isEquals => ?_) (.inl exact')
    rw [getLast_long, last, isEquals, takesValue, here, Option.any_some, takes] at readable
    cases readable
  · rw [abbreviated] at selected readable
    dsimp only at readable
    have below : s.length < (dash :: dash :: s).length := Nat.lt_succ_of_lt (Nat.lt_succ_self _)
    rcases charAt_lt below with ⟨char, isChar, last⟩
    refine longOption_separate selected here isChar (fun takes isEquals => ?_) (.inr abbreviated)
    rw [dropLast_long, last, isEquals, takesValue, here, Option.any_some, takes] at readable
    cases readable
  · rw [joined] at readable
    cases readable

/-- A misread word passes a value that it does not stand for, or reports that there is
none, or takes a word that is not its value or does not take one that is. -/
theorem longOption_misread (wellFormed : WellFormed options) (long : shape arg = .long)
    (unreadable : misread options arg = true) (rest : List Word) :
    longOption options arg rest ≠ some (denotedStep options (rest.flatMap items) (.long arg)) := by
  rcases shape_long long with ⟨s, rfl⟩
  have selected := selectOption_denoted wellFormed s
  have dropped : (dash :: dash :: s).drop 2 = s := rfl
  simp only [misread, long, beq_self_eq_true, Bool.true_and, dropped] at unreadable
  rw [denotedStep, valueItem_eq, dropped]
  rcases denotedOption_cases options s with unknown | ambiguous |
    ⟨index, option, here, exact' | abbreviated | ⟨joins, joined⟩⟩
  · rw [unknown] at unreadable
    cases unreadable
  · rw [ambiguous] at unreadable
    cases unreadable
  · rw [exact'] at selected unreadable ⊢
    dsimp only at unreadable ⊢
    rw [takesValue, here, Option.any_some, Bool.and_eq_true, beq_iff_eq, getLast_long]
      at unreadable
    have isEquals := charAt_eq unreadable.2
    rw [longOption_equals selected here unreadable.1 isEquals, takesValue, here, Option.any_some,
      if_pos unreadable.1]
    cases valueWord rest <;> simp
  · rw [abbreviated] at selected unreadable ⊢
    dsimp only at unreadable ⊢
    rw [takesValue, here, Option.any_some, Bool.and_eq_true, beq_iff_eq, dropLast_long]
      at unreadable
    have isEquals := charAt_eq unreadable.2
    rw [longOption_equals selected here unreadable.1 isEquals, takesValue, here, Option.any_some,
      if_pos unreadable.1]
    cases valueWord rest <;> simp
  · rw [joined] at selected ⊢
    dsimp only
    have inside := joins.length
    have position : s.length - ((s.drop (option.longName.length + 1)).length + 1) =
        option.longName.length := by
      rw [List.length_drop]
      omega
    rw [ Denotation.selection, position] at selected
    have below : option.longName.length < (dash :: dash :: s).length :=
      Nat.lt_succ_of_lt (Nat.lt_succ_of_lt inside)
    rcases charAt_lt below with ⟨char, isChar, _⟩
    rcases eq_or_ne char equals with rfl | noEquals
    · rw [longOption_equals selected here joins.1 isChar]
      intro same
      have lengths := congrArg List.length (Option.some.inj (Event.option.inj (List.cons.inj
        (Step.mk.inj (Option.some.inj same)).1).1).2)
      simp only [List.length_drop, List.length_cons] at lengths
      omega
    · rw [longOption_next selected here joins.1 isChar noEquals]
      cases valueWord rest <;> simp

/-! ## Events of options and of arguments -/

/-- The events of words that go to arguments. -/
def Positional : Event -> Prop
  | .argument _ _ => True
  | .error (.unexpectedArgument _) => True
  | _ => False

theorem positional_place (arguments : List Argument) (count : Nat) (word : Word) :
    Positional (place arguments count word) := by
  rw [place]
  split <;> trivial

theorem place_injective {count : Nat} {word other : Word}
    (same : place arguments count word = place arguments count other) : word = other := by
  unfold place at same
  split at same
  · exact (Event.argument.inj same).2
  · exact Report.unexpectedArgument.inj (Event.error.inj same)

theorem missing_ne {count : Nat} {event : Event} {later : List Event}
    (positional : Positional event) (same : missing arguments count = event :: later) : False := by
  have member : event ∈ missing arguments count := same ▸ List.mem_cons_self
  unfold missing at member
  split at member
  · rcases List.mem_map.mp member with ⟨argument, _, rfl⟩
    exact positional
  · cases member

/-- A long option has one event. -/
theorem denotedStep_long (options : List ParserOption) (rest : List Item) (arg : Word) :
    ∃ event, (denotedStep options rest (.long arg)).events = [event] ∧ ¬ Positional event := by
  rw [denotedStep]
  cases denotedOption options (arg.drop 2) with
  | unknown => exact ⟨_, rfl, id⟩
  | ambiguous => exact ⟨_, rfl, id⟩
  | joined index value => exact ⟨_, rfl, id⟩
  | exact index | abbreviated index =>
      dsimp only
      split
      · cases valueItem rest <;> exact ⟨_, rfl, id⟩
      · exact ⟨_, rfl, id⟩

theorem denotedStep_takes {rest : List Item} {arg : Word}
    (takes : (denotedStep options rest (.long arg)).takesNext = true) : valueItem rest ≠ none := by
  intro noValue
  rw [denotedStep, noValue] at takes
  cases denoted : denotedOption options (arg.drop 2) with
  | unknown | ambiguous | joined index value =>
      rw [denoted] at takes
      cases takes
  | exact index | abbreviated index =>
      rw [denoted] at takes
      dsimp only at takes
      split at takes <;> cases takes

theorem longOption_chosen {index length : Nat} {option : ParserOption}
    (selected : selectOption options (arg.drop 2) = .option (some index) length)
    (here : options[index]? = some option) (below : length < arg.length) (rest : List Word) :
    ∃ event takes, longOption options arg rest = some ⟨[event], takes⟩ ∧
      ¬ Positional event ∧ (takes = true -> valueWord rest ≠ none) := by
  cases flag : option.hasArgument with
  | false => exact ⟨_, _, longOption_flag selected here flag, id, nofun⟩
  | true =>
      rcases charAt_lt below with ⟨char, isChar, _⟩
      rcases eq_or_ne char equals with rfl | noEquals
      · exact ⟨_, _, longOption_equals selected here flag isChar, id, nofun⟩
      · rw [longOption_next selected here flag isChar noEquals]
        cases valueWord rest with
        | none => exact ⟨_, _, rfl, id, nofun⟩
        | some value => exact ⟨_, _, rfl, id, fun _ => nofun⟩

/-- So does the code have one, which reads no character behind the terminator. -/
theorem longOption_event (wellFormed : WellFormed options) (long : shape arg = .long)
    (rest : List Word) : ∃ event takes, longOption options arg rest = some ⟨[event], takes⟩ ∧
      ¬ Positional event ∧ (takes = true -> valueWord rest ≠ none) := by
  rcases shape_long long with ⟨s, rfl⟩
  have selected := selectOption_denoted wellFormed s
  have whole : (dash :: dash :: s).length = s.length + 2 := rfl
  rcases denotedOption_cases options s with unknown | ambiguous |
    ⟨index, option, here, exact' | abbreviated | ⟨joins, joined⟩⟩
  · rw [unknown] at selected
    refine ⟨.error (.unknownOption (dash :: dash :: s)), false, ?_, id, nofun⟩
    simp only [longOption, List.drop_succ_cons, List.drop_zero, selected, Denotation.selection]
  · rw [ambiguous] at selected
    refine ⟨.error (.ambiguousOption (dash :: dash :: s)), false, ?_, id, nofun⟩
    simp only [longOption, List.drop_succ_cons, List.drop_zero, selected, Denotation.selection]
  · rw [exact'] at selected
    exact longOption_chosen selected here (by omega) rest
  · rw [abbreviated] at selected
    exact longOption_chosen selected here (by omega) rest
  · rw [joined] at selected
    exact longOption_chosen selected here (by omega) rest

theorem shortOptions_event (options : List ParserOption) {chars : Word} (filled : chars ≠ [])
    (rest : List Word) :
    ∃ event later, (shortOptions options chars rest).events = event :: later ∧
      ¬ Positional event := by
  cases chars with
  | nil => exact absurd rfl filled
  | cons char chars =>
      rw [shortOptions]
      cases shortIndex options char with
      | none => exact ⟨_, _, rfl, id⟩
      | some index =>
          dsimp only
          split
          · cases chars with
            | nil => cases valueWord rest <;> exact ⟨_, _, rfl, id⟩
            | cons next chars => exact ⟨_, _, rfl, id⟩
          · exact ⟨_, _, rfl, id⟩

theorem shortOptions_takes {chars : Word}
    (takes : (shortOptions options chars rest).takesNext = true) : valueWord rest ≠ none := by
  induction chars with
  | nil => cases takes
  | cons char chars inductionHypothesis =>
      rw [shortOptions] at takes
      cases found : shortIndex options char with
      | none =>
          rw [found] at takes
          exact inductionHypothesis takes
      | some index =>
          rw [found] at takes
          dsimp only at takes
          split at takes
          · intro noValue
            rw [noValue] at takes
            cases chars <;> exact inductionHypothesis takes noValue
          · exact inductionHypothesis takes

/-! ## Parsing -/

theorem parseFrom_long (long : shape arg = .long) (rest : List Word) (progress : Progress) :
    parseFrom options arguments false (arg :: rest) progress =
      (longOption options arg rest).bind fun step =>
        (parseFrom options arguments step.takesNext rest progress).map (step.events ++ ·) := by
  rw [parseFrom, long]
  cases longOption options arg rest with
  | none => rfl
  | some step =>
      simp only [Option.bind_eq_bind, Option.bind_some]
      cases parseFrom options arguments step.takesNext rest progress <;> rfl

theorem parseFrom_short {chars : Word} (short : shape arg = .short chars) (rest : List Word)
    (progress : Progress) :
    parseFrom options arguments false (arg :: rest) progress =
      (parseFrom options arguments (shortOptions options chars rest).takesNext rest progress).map
        ((shortOptions options chars rest).events ++ ·) := by
  rw [parseFrom, short]
  dsimp only
  cases parseFrom options arguments (shortOptions options chars rest).takesNext rest progress <;>
    rfl

theorem parseFrom_plain {count : Nat} {progress : Progress}
    (tracks : Tracks arguments count progress) (plain : shape arg = .plain) (rest : List Word) :
    ∃ next, Tracks arguments (count + 1) next ∧
      parseFrom options arguments false (arg :: rest) progress =
        (parseFrom options arguments false rest next).map (place arguments count arg :: ·) := by
  rcases tracks.handle arg with ⟨next, handled, tracksNext⟩
  refine ⟨next, tracksNext, ?_⟩
  rw [parseFrom, plain]
  dsimp only
  rw [handled]
  cases parseFrom options arguments false rest next <;> rfl

/-- `Parse` comes to its end. -/
theorem parseFrom_total (wellFormed : WellFormed options) (skip : Bool) (words : List Word)
    (progress : Progress) : ∃ events, parseFrom options arguments skip words progress =
      some events := by
  induction words generalizing skip progress with
  | nil => cases skip <;> exact ⟨_, rfl⟩
  | cons arg rest inductionHypothesis =>
      cases skip with
      | true => exact inductionHypothesis false progress
      | false =>
          cases shaped : shape arg with
          | long =>
              rcases longOption_event wellFormed shaped rest with ⟨event, takes, found, _⟩
              rcases inductionHypothesis takes progress with ⟨later, parsed⟩
              rw [parseFrom_long shaped, found, Option.bind_some, parsed]
              exact ⟨_, rfl⟩
          | short chars =>
              rcases inductionHypothesis _ progress with ⟨later, parsed⟩
              rw [parseFrom_short shaped, parsed]
              exact ⟨_, rfl⟩
          | plain =>
              rcases inductionHypothesis false (handleArgument arguments progress arg).2 with
                ⟨later, parsed⟩
              rw [parseFrom, shaped]
              dsimp only
              rw [parsed]
              exact ⟨_, rfl⟩

end Words

section Differ

variable {options : List ParserOption} {arguments : List Argument} {words : List Word}
  {count : Nat} {progress : Progress}

/-- The first event for a word that does not go to an argument. -/
theorem parseFrom_head (wellFormed : WellFormed options) {arg : Word} (option : shape arg ≠ .plain)
    (rest : List Word) {events : List Event}
    (parsed : parseFrom options arguments false (arg :: rest) progress = some events) :
    ∃ event later, events = event :: later ∧ ¬ Positional event := by
  cases shaped : shape arg with
  | long =>
      rcases longOption_event wellFormed shaped rest with ⟨event, takes, found, notPositional, _⟩
      rw [parseFrom_long shaped, found, Option.bind_some] at parsed
      rcases Option.map_eq_some_iff.mp parsed with ⟨later, _, rfl⟩
      exact ⟨event, later, rfl, notPositional⟩
  | short chars =>
      rcases shortOptions_event options (shape_short shaped) rest with
        ⟨event, later, same, notPositional⟩
      rw [parseFrom_short shaped, same] at parsed
      rcases Option.map_eq_some_iff.mp parsed with ⟨others, _, rfl⟩
      exact ⟨event, later ++ others, rfl, notPositional⟩
  | plain => exact absurd shaped option

theorem denoted_head (options : List ParserOption) (arguments : List Argument) (count : Nat)
    {arg : Word} (option : shape arg ≠ .plain) (rest : List Word) :
    ∃ event later, denoted options arguments false (items arg ++ rest.flatMap items) count =
      event :: later ∧ ¬ Positional event := by
  cases shaped : shape arg with
  | long =>
      rcases denotedStep_long options (rest.flatMap items) arg with ⟨event, same, notPositional⟩
      rw [items_long shaped, List.singleton_append, denoted_long, same]
      exact ⟨event, _, rfl, notPositional⟩
  | short chars =>
      rcases shortOptions_event options (shape_short shaped) rest with
        ⟨event, later, same, notPositional⟩
      rw [items_short shaped, shortOptions_denoted, same]
      exact ⟨event, _, rfl, notPositional⟩
  | plain => exact absurd shaped option

/-- What words do is not what they stand for with another word before them. -/
theorem parseFrom_behind (wellFormed : WellFormed options)
    (tracks : Tracks arguments count progress) (word : Word) :
    parseFrom options arguments false words progress ≠ some (place arguments count word ::
        denoted options arguments false (words.flatMap items) (count + 1)) := by
  induction words generalizing word count progress with
  | nil =>
      intro same
      rw [parseFrom, tracks.finish] at same
      exact missing_ne (positional_place arguments count word) (Option.some.inj same)
  | cons next rest inductionHypothesis =>
      intro same
      rcases Classical.em (shape next = .plain) with plain | option
      · rcases parseFrom_plain tracks plain rest with ⟨after, tracksAfter, parsed⟩
        rw [parsed] at same
        rcases Option.map_eq_some_iff.mp same with ⟨later, parsedLater, split⟩
        rcases List.cons.inj split with ⟨samePlace, sameLater⟩
        rw [sameLater, List.flatMap_cons, items_plain plain, List.singleton_append,
          denoted_plain] at parsedLater
        exact inductionHypothesis tracksAfter next parsedLater
      · rcases parseFrom_head wellFormed option rest same with ⟨event, later, split, notPositional⟩
        rw [← (List.cons.inj split).1] at notPositional
        exact notPositional (positional_place arguments count word)

/-- What words do with another word before them is not what they stand for. -/
theorem parseFrom_before (tracks : Tracks arguments count progress) (word : Word)
    (plain : shape word = .plain) : parseFrom options arguments false (word :: words) progress ≠
      some (denoted options arguments false (words.flatMap items) count) := by
  induction words generalizing word count progress with
  | nil =>
      intro same
      rcases parseFrom_plain tracks plain [] with ⟨after, _, parsed⟩
      rw [parsed] at same
      rcases Option.map_eq_some_iff.mp same with ⟨later, _, split⟩
      exact missing_ne (positional_place arguments count word) split.symm
  | cons next rest inductionHypothesis =>
      intro same
      rcases parseFrom_plain tracks plain (next :: rest) with ⟨after, tracksAfter, parsed⟩
      rw [parsed] at same
      rcases Option.map_eq_some_iff.mp same with ⟨later, parsedLater, split⟩
      rcases Classical.em (shape next = .plain) with nextPlain | option
      · rw [List.flatMap_cons, items_plain nextPlain, List.singleton_append, denoted_plain] at split
        rw [(List.cons.inj split).2] at parsedLater
        exact inductionHypothesis tracksAfter next nextPlain parsedLater
      · rcases denoted_head options arguments count option rest with
          ⟨event, others, head, notPositional⟩
        rw [List.flatMap_cons, head] at split
        rw [← (List.cons.inj split).1] at notPositional
        exact notPositional (positional_place arguments count word)

end Differ

theorem map_append_some {events : List Event} {parsed : Option (List Event)} {later : List Event} :
    parsed.map (events ++ ·) = some (events ++ later) ↔ parsed = some later := by
  rw [Option.map_eq_some_iff]
  constructor
  · rintro ⟨found, same, joined⟩
    rw [same, List.append_cancel_left joined]
  · exact fun same => ⟨later, same, rfl⟩

section Exact

variable {options : List ParserOption} {arguments : List Argument}

/-- A word that has been taken for a value is not misread. -/
theorem readable_plain {word : Word} (plain : shape word = .plain) :
    misread options word = false := by
  rw [misread, plain]
  rfl

/-- It matters whether the next word is taken for a value. -/
theorem takes_same (wellFormed : WellFormed options) {rest : List Word} {count : Nat}
    {progress : Progress} (tracks : Tracks arguments count progress) {takes other : Bool}
    (taken : takes = true -> valueWord rest ≠ none)
    (otherTaken : other = true -> valueWord rest ≠ none)
    (parsed : parseFrom options arguments takes rest progress =
      some (denoted options arguments other (rest.flatMap items) count)) : takes = other := by
  by_contra different
  have some_ : valueWord rest ≠ none := by
    cases takes with
    | true => exact taken rfl
    | false => exact otherTaken (by simpa using different)
  rcases Option.ne_none_iff_exists'.mp some_ with ⟨value, found⟩
  rcases valueWord_some found with ⟨later, rfl, noDash⟩
  have plain := shape_plain noDash
  rw [List.flatMap_cons, items_plain plain, List.singleton_append] at parsed
  cases takes with
  | true =>
      cases other with
      | true => exact different rfl
      | false => exact parseFrom_behind wellFormed tracks value parsed
  | false =>
      cases other with
      | true => exact parseFrom_before tracks value plain parsed
      | false => exact different rfl

/-- From the first misread word on, words do not do what they stand for. -/
theorem parseFrom_misread (wellFormed : WellFormed options) {arg : Word} {count : Nat}
    {progress : Progress} (tracks : Tracks arguments count progress) (long : shape arg = .long)
    (unreadable : misread options arg = true) (rest : List Word) :
    parseFrom options arguments false (arg :: rest) progress ≠
      some (denoted options arguments false (items arg ++ rest.flatMap items) count) := by
  intro same
  rcases longOption_event wellFormed long rest with ⟨event, takes, found, _, taken⟩
  rcases denotedStep_long options (rest.flatMap items) arg with ⟨other, stands, _⟩
  have differs := longOption_misread wellFormed long unreadable rest
  have otherTaken : (denotedStep options (rest.flatMap items) (.long arg)).takesNext = true ->
      valueWord rest ≠ none := fun takesOther => valueItem_eq rest ▸ denotedStep_takes takesOther
  rw [parseFrom_long long, found, Option.bind_some, items_long long, List.singleton_append,
    denoted_long] at same
  rw [found] at differs
  revert differs same stands otherTaken
  cases denotedStep options (rest.flatMap items) (.long arg) with
  | mk events otherTakes =>
      rintro same stands differs otherTaken
      dsimp only at stands
      subst stands
      rcases Option.map_eq_some_iff.mp same with ⟨later, parsed, split⟩
      rcases List.cons.inj split with ⟨rfl, rfl⟩
      have same : takes = otherTakes := takes_same wellFormed tracks taken otherTaken parsed
      exact differs (by rw [same])

/-- Words do what they stand for exactly when none of them is misread. -/
theorem parseFrom_iff (wellFormed : WellFormed options) (words : List Word) {skip : Bool}
    {count : Nat} {progress : Progress} (tracks : Tracks arguments count progress)
    (taken : skip = true -> valueWord words ≠ none) :
    parseFrom options arguments skip words progress =
        some (denoted options arguments skip (words.flatMap items) count) ↔
      forall arg, arg ∈ words -> misread options arg = false := by
  induction words generalizing skip count progress with
  | nil =>
      cases skip with
      | true => exact absurd rfl (taken rfl)
      | false =>
          refine iff_of_true ?_ fun _ member => absurd member List.not_mem_nil
          rw [parseFrom, tracks.finish]
          rfl
  | cons arg rest inductionHypothesis =>
      rw [List.forall_mem_cons, List.flatMap_cons]
      cases skip with
      | true =>
          rcases Option.ne_none_iff_exists'.mp (taken rfl) with ⟨value, found⟩
          rcases valueWord_some found with ⟨later, same, noDash⟩
          cases same
          have plain := shape_plain noDash
          rw [items_plain plain, and_iff_right (readable_plain plain)]
          exact inductionHypothesis tracks nofun
      | false =>
          cases shaped : shape arg with
          | plain =>
              rcases parseFrom_plain tracks shaped rest with ⟨next, tracksNext, parsed⟩
              have later := @inductionHypothesis false _ _ tracksNext nofun
              rw [items_plain shaped, and_iff_right (readable_plain shaped), parsed,
                List.singleton_append, denoted_plain, ← later]
              exact @map_append_some [place arguments count arg] _ _
          | short chars =>
              have readable : misread options arg = false := by
                rw [misread, shaped]
                rfl
              rw [items_short shaped, and_iff_right readable, parseFrom_short shaped,
                shortOptions_denoted, map_append_some]
              exact inductionHypothesis tracks shortOptions_takes
          | long =>
              cases read : misread options arg with
              | true =>
                  exact iff_of_false (parseFrom_misread wellFormed tracks shaped read rest)
                    fun none => nomatch none.1
              | false =>
                  rw [items_long shaped, and_iff_right rfl, parseFrom_long shaped,
                    longOption_denoted wellFormed shaped read rest, Option.bind_some,
                    List.singleton_append, denoted_long, map_append_some]
                  exact inductionHypothesis tracks fun takes =>
                    valueItem_eq rest ▸ denotedStep_takes takes

/-- `Parse` reads no character and no word behind the end, and calls what the words
stand for exactly when none of them is misread. -/
theorem parse_denoted_iff (wellFormed : WellFormed options) (arguments : List Argument)
    (words : List Word) :
    (∃ events, parse options arguments words = some events) ∧
      (parse options arguments words =
          some (denoted options arguments false (words.flatMap items) 0) ↔
        forall arg, arg ∈ words -> misread options arg = false) :=
  ⟨parseFrom_total wellFormed false words _, parseFrom_iff wellFormed words Tracks.start nofun⟩

end Exact

/-! ## An option with a value -/

/-- `-o` or `--output` with a value, `-v` or `--verbose`, and `--version`. -/
def compiler : List ParserOption :=
  [⟨111, ascii "output", true⟩, ⟨118, ascii "verbose", false⟩, ⟨0, ascii "version", false⟩]

theorem compiler_wellFormed : WellFormed compiler := ⟨by decide, by decide⟩

def filename : List Argument := [⟨ascii "filename", .one⟩]

/-- A beginning that tells an option, an ambiguous one, a value, and combined short
options, of which the last one takes a value. -/
theorem parse_denoted_compiler :
    parse compiler filename [ascii "--out", ascii "a", ascii "--ver", ascii "-vo", ascii "b",
        ascii "c"] =
      some [.option 0 (some (ascii "a")), .error (.ambiguousOption (ascii "--ver")),
        .option 1 none, .option 0 (some (ascii "b")), .argument 0 (ascii "c")] :=
  ((parse_denoted_iff compiler_wellFormed filename [ascii "--out", ascii "a", ascii "--ver",
    ascii "-vo", ascii "b", ascii "c"]).2.mpr (by decide)).trans (by decide)

/-- With `=`, the next word is passed, or the value is reported to be missing. -/
theorem parse_joined :
    parse compiler filename [ascii "--output=a", ascii "c"] ≠
        some (denoted compiler filename false ([ascii "--output=a", ascii "c"].flatMap items) 0) ∧
      denoted compiler filename false ([ascii "--output=a", ascii "c"].flatMap items) 0 =
          [.option 0 (some (ascii "a")), .argument 0 (ascii "c")] ∧
      parse compiler filename [ascii "--output=a", ascii "c"] =
        some [.option 0 (some (ascii "c")), .error (.expectedArgument (ascii "filename"))] ∧
      parse compiler filename [ascii "c", ascii "--output=a"] =
        some [.argument 0 (ascii "c"), .error (.requiresArgument (ascii "output"))] := by
  decide

end OptionParser

end Tools
end WasmSandboxing
