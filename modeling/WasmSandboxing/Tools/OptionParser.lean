import WasmSandboxing.Foundation.BestMatch
import WasmSandboxing.Wasm.Names

namespace WasmSandboxing
namespace Tools

open Foundation Wasm

/-!
# Options of the command line

`OptionParser::Parse` with `Match` and `HandleArgument`.  A C string is the list of
its characters up to the terminator, which a read may come to but not pass; the
words are those of `argv` after the program's name, and a word of them may be the
value of the one before.

What is called is a list of events, and what it is to be is said by the items that
words stand for.  A long option with `=` and a value is looked for at the wrong
place, so that the two differ.
-/

namespace OptionParser

abbrev Word := List UInt8

def dash : UInt8 := 45

def equals : UInt8 := 61

/-- `OptionParser::Option`; a short name of zero is none. -/
structure ParserOption where
  shortName : UInt8
  longName : Word
  hasArgument : Bool
  deriving DecidableEq, Repr

inductive ArgumentCount where
  | one | oneOrMore
  deriving DecidableEq, Repr

/-- `OptionParser::Argument` -/
structure Argument where
  name : Word
  count : ArgumentCount
  deriving DecidableEq, Repr

/-- What `Errorf` is called with. -/
inductive Report where
  | ambiguousOption (arg : Word)
  | unknownOption (arg : Word)
  | requiresArgument (longName : Word)
  | shortRequiresArgument (shortName : UInt8)
  | unknownShortOption (char : UInt8)
  | unexpectedArgument (argValue : Word)
  | expectedArgument (name : Word)
  deriving DecidableEq, Repr

/-- The message that `Errorf` prints for the error handler. -/
def Report.text : Report -> Word
  | .ambiguousOption arg => ascii "ambiguous option '" ++ arg ++ ascii "'"
  | .unknownOption arg => ascii "unknown option '" ++ arg ++ ascii "'"
  | .requiresArgument longName =>
      ascii "option '--" ++ longName ++ ascii "' requires argument"
  | .shortRequiresArgument shortName =>
      ascii "option '-" ++ [shortName] ++ ascii "' requires argument"
  | .unknownShortOption char => ascii "unknown option '-" ++ [char] ++ ascii "'"
  | .unexpectedArgument argValue => ascii "unexpected argument '" ++ argValue ++ ascii "'"
  | .expectedArgument name => ascii "expected " ++ name ++ ascii " argument.\n"

/-- A call of a callback, with the index of its option or argument, or of the
error handler. -/
inductive Event where
  | option (index : Nat) (value : Option Word)
  | argument (index : Nat) (value : Word)
  | error (report : Report)
  deriving DecidableEq, Repr

/-! ## The code -/

/-- The loop of `Match`: what is left of the full name and of the word, and `i`. -/
def matchFrom (hasArgument : Bool) : Word -> Word -> Nat -> Option Nat
  | [], [], i => some (i + 1)
  | [], char :: _, i => if hasArgument && char == equals then some i else none
  | _ :: _, [], i => some i
  | full :: fulls, char :: chars, i =>
      if char ≠ full then none else matchFrom hasArgument fulls chars (i + 1)

/-- `Match`; `none` is -1. -/
def matchName (s full : Word) (hasArgument : Bool) : Option Nat :=
  matchFrom hasArgument full s 0

/-- What the loop over the options compares. -/
def matchLength (s : Word) (option : ParserOption) : Option Nat :=
  if option.longName = [] then none else matchName s option.longName option.hasArgument

inductive Selection where
  | ambiguous
  | unknown
  | option (bestIndex : Option Nat) (bestLength : Nat)
  deriving DecidableEq, Repr

def selectOption (options : List ParserOption) (s : Word) : Selection :=
  let best := Best.search ⟨none, 0, 0⟩ 0 (options.map (matchLength s))
  if 1 < best.count then .ambiguous
  else if best.count = 0 then .unknown
  else .option best.index best.score

/-- A character of a word; there is none behind the terminator. -/
def charAt (arg : Word) (index : Nat) : Option UInt8 :=
  if index = arg.length then some 0 else arg[index]?

/-- The word behind the current one, unless it is missing or begins with a dash. -/
def valueWord : List Word -> Option Word
  | [] => none
  | next :: _ => if next.head? = some dash then none else some next

/-- `arg_index`, and `handled_count` of every argument. -/
structure Progress where
  argIndex : Nat
  handled : Nat -> Nat

/-- `HandleArgument` -/
def handleArgument (arguments : List Argument) (progress : Progress) (argValue : Word) :
    Event × Progress :=
  match arguments[progress.argIndex]? with
  | none => (.error (.unexpectedArgument argValue), progress)
  | some argument =>
      (.argument progress.argIndex argValue,
        { argIndex := if argument.count = .one then progress.argIndex + 1 else progress.argIndex
          handled := Function.update progress.handled progress.argIndex
            (progress.handled progress.argIndex + 1) })

/-- What the first characters of a word say: it is a long option, short ones, or
neither, as a single dash is. -/
inductive Shape where
  | long | short (chars : Word) | plain
  deriving DecidableEq, Repr

def shape : Word -> Shape
  | first :: second :: rest =>
      if first ≠ dash then .plain
      else if second = dash then .long
      else .short (second :: rest)
  | _ => .plain

/-- What a word does, and whether the one behind it is taken for its value. -/
structure Step where
  events : List Event
  takesNext : Bool

/-- The part of `Parse` for a long option, whose word is `arg`. -/
def longOption (options : List ParserOption) (arg : Word) (rest : List Word) : Option Step :=
  match selectOption options (arg.drop 2) with
  | .ambiguous => some ⟨[.error (.ambiguousOption arg)], false⟩
  | .unknown => some ⟨[.error (.unknownOption arg)], false⟩
  | .option bestIndex bestLength => do
      let bestIndex <- bestIndex
      let bestOption <- options[bestIndex]?
      if bestOption.hasArgument then
        let char <- charAt arg bestLength
        if char = equals then
          some ⟨[.option bestIndex (some (arg.drop (bestLength + 1)))], false⟩
        else
          match valueWord rest with
          | none => some ⟨[.error (.requiresArgument bestOption.longName)], false⟩
          | some optionArgument => some ⟨[.option bestIndex (some optionArgument)], true⟩
      else some ⟨[.option bestIndex none], false⟩

/-- The option that a character is the short name of. -/
def shortIndex (options : List ParserOption) (char : UInt8) : Option Nat :=
  options.findIdx? fun option => option.shortName ≠ 0 && char == option.shortName

/-- The loop of `Parse` over the characters of a word of short options. -/
def shortOptions (options : List ParserOption) : Word -> List Word -> Step
  | [], _ => ⟨[], false⟩
  | char :: chars, rest =>
      let later := shortOptions options chars rest
      match shortIndex options char with
      | none => ⟨.error (.unknownShortOption char) :: later.events, later.takesNext⟩
      | some index =>
          if options[index]?.any fun option => option.hasArgument then
            match chars, valueWord rest with
            | [], some optionArgument => ⟨[.option index (some optionArgument)], true⟩
            | _, _ =>
                ⟨.error (.shortRequiresArgument char) :: .error (.unknownShortOption char) ::
                  later.events, later.takesNext⟩
          else ⟨.option index none :: later.events, later.takesNext⟩

/-- The errors after the loop of `Parse`. -/
def missingArguments (arguments : List Argument) (argIndex : Nat) : List Event :=
  (arguments.drop argIndex).map fun argument => .error (.expectedArgument argument.name)

def finish (arguments : List Argument) (progress : Progress) : List Event :=
  if arguments ≠ [] && progress.handled (arguments.length - 1) = 0 then
    missingArguments arguments progress.argIndex
  else []

/-- `Parse` from a word on, which may have been taken for a value already. -/
def parseFrom (options : List ParserOption) (arguments : List Argument) :
    Bool -> List Word -> Progress -> Option (List Event)
  | _, [], progress => some (finish arguments progress)
  | true, _ :: rest, progress => parseFrom options arguments false rest progress
  | false, arg :: rest, progress =>
      match shape arg with
      | .long => do
          let step <- longOption options arg rest
          let later <- parseFrom options arguments step.takesNext rest progress
          some (step.events ++ later)
      | .short chars => do
          let step := shortOptions options chars rest
          let later <- parseFrom options arguments step.takesNext rest progress
          some (step.events ++ later)
      | .plain => do
          let handled := handleArgument arguments progress arg
          let later <- parseFrom options arguments false rest handled.2
          some (handled.1 :: later)

/-- `Parse` for the words behind the program's name. -/
def parse (options : List ParserOption) (arguments : List Argument) (words : List Word) :
    Option (List Event) :=
  parseFrom options arguments false words ⟨0, fun _ => 0⟩

/-! ## What words stand for -/

inductive Item where
  | long (arg : Word)
  | short (char : UInt8)
  | plain (word : Word)
  deriving DecidableEq, Repr

/-- Short options that are combined are as many items. -/
def items (word : Word) : List Item :=
  match shape word with
  | .long => [.long word]
  | .short chars => chars.map .short
  | .plain => [.plain word]

/-- The option that the characters behind the dashes stand for, by its whole name, by
a beginning of it, or by its name with a value behind `=`. -/
inductive Denotation where
  | unknown
  | ambiguous
  | exact (index : Nat)
  | abbreviated (index : Nat)
  | joined (index : Nat) (value : Word)
  deriving DecidableEq, Repr

def abbreviations (options : List ParserOption) (s : Word) : List Nat :=
  (List.range options.length).filter fun index =>
    options[index]?.any fun option => s.isPrefixOf option.longName

/-- The last `=` before a position that the name of an option with a value stands
before, with the option and what comes after it. -/
def joinedBefore (options : List ParserOption) (s : Word) : Nat -> Option (Nat × Word)
  | 0 => none
  | position + 1 =>
      match if s[position]? = some equals then
          options.findIdx? fun option => option.hasArgument && option.longName == s.take position
        else none with
      | some index => some (index, s.drop (position + 1))
      | none => joinedBefore options s position

def denotedOption (options : List ParserOption) (s : Word) : Denotation :=
  match options.findIdx? fun option => option.longName == s with
  | some index => .exact index
  | none =>
      match if s = [] then [] else abbreviations options s with
      | [index] => .abbreviated index
      | _ :: _ :: _ => .ambiguous
      | [] =>
          match joinedBefore options s s.length with
          | some (index, value) => .joined index value
          | none => .unknown

def takesValue (options : List ParserOption) (index : Nat) : Bool :=
  options[index]?.any fun option => option.hasArgument

/-- The item behind an option is its value, unless it begins with a dash. -/
def valueItem : List Item -> Option Word
  | .plain word :: _ => if word.head? = some dash then none else some word
  | _ => none

/-- What an option does, given the items behind it. -/
def denotedStep (options : List ParserOption) (rest : List Item) : Item -> Step
  | .long arg =>
      match denotedOption options (arg.drop 2) with
      | .unknown => ⟨[.error (.unknownOption arg)], false⟩
      | .ambiguous => ⟨[.error (.ambiguousOption arg)], false⟩
      | .joined index value => ⟨[.option index (some value)], false⟩
      | .exact index | .abbreviated index =>
          if takesValue options index then
            match valueItem rest with
            | some value => ⟨[.option index (some value)], true⟩
            | none =>
                ⟨[.error (.requiresArgument ((options[index]?.map ParserOption.longName).getD []))],
                  false⟩
          else ⟨[.option index none], false⟩
  | .short char =>
      match shortIndex options char with
      | none => ⟨[.error (.unknownShortOption char)], false⟩
      | some index =>
          if takesValue options index then
            match valueItem rest with
            | some value => ⟨[.option index (some value)], true⟩
            | none =>
                ⟨[.error (.shortRequiresArgument char), .error (.unknownShortOption char)], false⟩
          else ⟨[.option index none], false⟩
  | .plain _ => ⟨[], false⟩

/-- The argument that a word goes to after `count` others: each takes one, until one
takes all that follow. -/
def reached (arguments : List Argument) (count : Nat) : Nat :=
  min count (arguments.takeWhile fun argument => argument.count == .one).length

def place (arguments : List Argument) (count : Nat) (word : Word) : Event :=
  if reached arguments count < arguments.length then .argument (reached arguments count) word
  else .error (.unexpectedArgument word)

/-- What is reported at the end, where no word has gone to the last argument. -/
def missing (arguments : List Argument) (count : Nat) : List Event :=
  if arguments ≠ [] && (List.range count).all fun earlier =>
      reached arguments earlier ≠ arguments.length - 1 then
    missingArguments arguments (reached arguments count)
  else []

/-- What items from one on stand for, which may have been taken for a value already,
after `count` words that went to arguments. -/
def denoted (options : List ParserOption) (arguments : List Argument) :
    Bool -> List Item -> Nat -> List Event
  | _, [], count => missing arguments count
  | true, _ :: rest, count => denoted options arguments false rest count
  | false, .plain word :: rest, count =>
      place arguments count word :: denoted options arguments false rest (count + 1)
  | false, item :: rest, count =>
      let step := denotedStep options rest item
      step.events ++ denoted options arguments step.takesNext rest count

/-- The words whose value, or lack of one, is not seen: those with `=` and a value,
and those with `=` where it is looked for in the name. -/
def misread (options : List ParserOption) (arg : Word) : Bool :=
  shape arg == .long &&
    match denotedOption options (arg.drop 2) with
    | .joined _ _ => true
    | .exact index => takesValue options index && arg.getLast? == some equals
    | .abbreviated index => takesValue options index && arg.dropLast.getLast? == some equals
    | _ => false

/-- The names of the options are different ones. -/
structure WellFormed (options : List ParserOption) : Prop where
  named : forall option, option ∈ options -> option.longName ≠ []
  distinct : (options.map ParserOption.longName).Nodup

/-! ## Matching -/

theorem matchFrom_iff (hasArgument : Bool) (full s : Word) (i length : Nat) :
    matchFrom hasArgument full s i = some length ↔
      s = full ∧ length = i + s.length + 1 ∨ s <+: full ∧ s ≠ full ∧ length = i + s.length ∨
        hasArgument = true ∧ full ++ [equals] <+: s ∧ length = i + full.length := by
  induction full generalizing s i with
  | nil =>
      cases s with
      | nil =>
          rw [matchFrom]
          simp
          grind
      | cons char chars =>
          rw [matchFrom]
          simp only [reduceCtorEq, false_and, List.prefix_nil, List.nil_append,
            List.cons_prefix_cons, List.nil_prefix, and_true, List.length_nil, Nat.add_zero,
            false_or, Bool.and_eq_true, beq_iff_eq]
          grind
  | cons first fulls inductionHypothesis =>
      cases s with
      | nil =>
          rw [matchFrom]
          simp
          grind
      | cons char chars =>
          rw [matchFrom]
          by_cases same : char = first
          · subst same
            rw [if_neg (by simp), inductionHypothesis]
            simp only [List.cons_prefix_cons, List.cons.injEq, true_and, List.length_cons, ne_eq,
              List.cons_append]
            grind
          · simp [same, Ne.symm same]

/-- What a denotation is for the loop over the options. -/
def Denotation.selection (s : Word) : Denotation -> Selection
  | .unknown => .unknown
  | .ambiguous => .ambiguous
  | .exact index => .option (some index) (s.length + 1)
  | .abbreviated index => .option (some index) s.length
  | .joined index value => .option (some index) (s.length - (value.length + 1))

section Selecting

variable {options : List ParserOption} {s : Word}

/-- An option whose name with `=` behind it is the beginning of the word. -/
def Joins (s : Word) (option : ParserOption) : Prop :=
  option.hasArgument = true ∧ option.longName ++ [equals] <+: s

theorem joins_iff {option : ParserOption} : Joins s option ↔
    option.hasArgument = true ∧ s[option.longName.length]? = some equals ∧
      option.longName = s.take option.longName.length := by
  refine and_congr_right fun _ => ?_
  constructor
  · rintro ⟨rest, rfl⟩
    simp
  · rintro ⟨here, name⟩
    rw [List.prefix_iff_eq_take, List.length_append, List.length_singleton, List.take_add_one, here,
      ← name]
    rfl

theorem score_iff (wellFormed : WellFormed options) (index score : Nat) :
    (options.map (matchLength s))[index]? = some (some score) ↔
      ∃ option, options[index]? = some option ∧
        (s = option.longName ∧ score = s.length + 1 ∨
          s <+: option.longName ∧ s ≠ option.longName ∧ score = s.length ∨
          Joins s option ∧ score = option.longName.length) := by
  rw [List.getElem?_map, Option.map_eq_some_iff]
  refine exists_congr fun option => and_congr_right fun here => ?_
  rw [matchLength, if_neg (wellFormed.named option (List.mem_of_getElem? here)), matchName,
    matchFrom_iff, Nat.zero_add, Nat.zero_add, Joins, and_assoc]

theorem same_index (wellFormed : WellFormed options) {first second : Nat}
    {option other : ParserOption} (here : options[first]? = some option)
    (there : options[second]? = some other) (same : option.longName = other.longName) :
    first = second := by
  have firstName : (options.map ParserOption.longName)[first]? = some option.longName := by
    rw [List.getElem?_map, here]
    rfl
  have secondName : (options.map ParserOption.longName)[second]? = some option.longName := by
    rw [List.getElem?_map, there, same]
    rfl
  rcases List.getElem?_eq_some_iff.mp firstName with ⟨firstBelow, firstEq⟩
  rcases List.getElem?_eq_some_iff.mp secondName with ⟨secondBelow, secondEq⟩
  exact (wellFormed.distinct.getElem_inj_iff).mp (firstEq.trans secondEq.symm)

theorem mem_abbreviations (index : Nat) : index ∈ abbreviations options s ↔
    ∃ option, options[index]? = some option ∧ s <+: option.longName := by
  rw [abbreviations, List.mem_filter, List.mem_range, Option.any_eq_true]
  constructor
  · rintro ⟨_, option, here, begins⟩
    exact ⟨option, here, List.isPrefixOf_iff_prefix.mp begins⟩
  · rintro ⟨option, here, begins⟩
    exact ⟨(List.getElem?_eq_some_iff.mp here).1, option, here,
      List.isPrefixOf_iff_prefix.mpr begins⟩

theorem findIdx_name {property : ParserOption -> Bool} {index : Nat}
    (found : options.findIdx? property = some index) :
    ∃ option, options[index]? = some option ∧ property option = true := by
  rcases List.findIdx?_eq_some_iff_getElem.mp found with ⟨below, holds, _⟩
  exact ⟨_, List.getElem?_eq_getElem below, holds⟩

/-- The option that is looked for at one position. -/
def joinedAt (options : List ParserOption) (s : Word) (position : Nat) : Option Nat :=
  if s[position]? = some equals then
    options.findIdx? fun option => option.hasArgument && option.longName == s.take position
  else none

theorem joinedAt_some {position index : Nat} (below : position < s.length)
    (found : joinedAt options s position = some index) :
    ∃ option, options[index]? = some option ∧ Joins s option ∧
      option.longName.length = position := by
  unfold joinedAt at found
  split at found
  case isTrue here =>
    rcases findIdx_name found with ⟨option, isOption, holds⟩
    simp only [Bool.and_eq_true, beq_iff_eq] at holds
    have length : option.longName.length = position := by
      rw [holds.2, List.length_take]
      omega
    refine ⟨option, isOption, joins_iff.mpr ⟨holds.1, ?_, ?_⟩, length⟩
    · rwa [length]
    · rw [length]
      exact holds.2
  case isFalse => cases found

theorem joinedAt_none {position : Nat} (none : joinedAt options s position = none)
    {option : ParserOption} (member : option ∈ options) (joins : Joins s option) :
    option.longName.length ≠ position := by
  rintro rfl
  rcases joins_iff.mp joins with ⟨takes, here, name⟩
  rw [joinedAt, if_pos here, List.findIdx?_eq_none_iff] at none
  have differs := none option member
  simp only [Bool.and_eq_false_iff, takes, beq_eq_false_iff_ne, Bool.true_eq_false, false_or]
    at differs
  exact differs name

theorem joinedBefore_succ (options : List ParserOption) (s : Word) (position : Nat) :
    joinedBefore options s (position + 1) =
      match joinedAt options s position with
      | some index => some (index, s.drop (position + 1))
      | none => joinedBefore options s position :=
  rfl

theorem joinedBefore_none {position : Nat} (none : joinedBefore options s position = none)
    {option : ParserOption} (member : option ∈ options) (joins : Joins s option) :
    position ≤ option.longName.length := by
  induction position with
  | zero => exact Nat.zero_le _
  | succ position inductionHypothesis =>
      rw [joinedBefore_succ] at none
      cases found : joinedAt options s position with
      | some index =>
          rw [found] at none
          cases none
      | none =>
          rw [found] at none
          exact Nat.lt_of_le_of_ne (inductionHypothesis none)
            (joinedAt_none found member joins).symm

theorem joinedBefore_some {position index : Nat} {value : Word} (inside : position ≤ s.length)
    (found : joinedBefore options s position = some (index, value)) :
    ∃ option, options[index]? = some option ∧ Joins s option ∧
      value = s.drop (option.longName.length + 1) ∧
      forall other, other ∈ options -> Joins s other ->
        other.longName.length ≤ option.longName.length ∨ position ≤ other.longName.length := by
  induction position with
  | zero => cases found
  | succ position inductionHypothesis =>
      rw [joinedBefore_succ] at found
      cases here : joinedAt options s position with
      | some last =>
          rw [here] at found
          cases found
          rcases joinedAt_some inside here with ⟨option, isOption, joins, rfl⟩
          exact ⟨option, isOption, joins, rfl, fun other _ _ => by omega⟩
      | none =>
          rw [here] at found
          rcases inductionHypothesis (Nat.le_of_succ_le inside) found with
            ⟨option, isOption, joins, isValue, longest⟩
          refine ⟨option, isOption, joins, isValue, fun other member otherJoins => ?_⟩
          refine (longest other member otherJoins).imp_right fun atLeast => ?_
          exact Nat.lt_of_le_of_ne atLeast (joinedAt_none here member otherJoins).symm

theorem Joins.length {option : ParserOption} (joins : Joins s option) :
    option.longName.length < s.length := by
  have bounded := joins.2.length_le
  rwa [List.length_append] at bounded

theorem Best.Of.selects {index score : Nat}
    (holds : Best.Of (options.map (matchLength s))
      (Best.search ⟨none, 0, 0⟩ 0 (options.map (matchLength s))))
    (here : (options.map (matchLength s))[index]? = some (some score)) (positive : 0 < score)
    (others : forall (other less : Nat), (options.map (matchLength s))[other]? = some (some less) ->
      other ≠ index -> less < score) : selectOption options s = .option (some index) score := by
  rw [selectOption, holds.single here positive others]
  rfl

theorem selects_exact (wellFormed : WellFormed options) {index : Nat} {option : ParserOption}
    (here : options[index]? = some option) (name : option.longName = s) :
    selectOption options s = .option (some index) (s.length + 1) := by
  have holds := Best.Of.start.search (options.map (matchLength s))
  refine Best.Of.selects holds
    ((score_iff wellFormed ..).mpr ⟨option, here, .inl ⟨name.symm, rfl⟩⟩) (Nat.succ_pos _) ?_
  intro other less there different
  rcases (score_iff wellFormed ..).mp there with ⟨otherOption, isOther, same | begins | joins⟩
  · exact absurd (same_index wellFormed isOther here (same.1.symm.trans name.symm)) different
  · rw [begins.2.2]
    exact Nat.lt_succ_self _
  · rw [joins.2]
    exact Nat.lt_succ_of_lt joins.1.length

theorem selects_abbreviated (wellFormed : WellFormed options) {index : Nat}
    (noName : forall option, option ∈ options -> option.longName ≠ s) (filled : s ≠ [])
    (only : abbreviations options s = [index]) :
    selectOption options s = .option (some index) s.length := by
  have holds := Best.Of.start.search (options.map (matchLength s))
  rcases (mem_abbreviations index).mp (only ▸ List.mem_cons_self) with ⟨option, here, begins⟩
  have longer := noName option (List.mem_of_getElem? here)
  refine Best.Of.selects holds
    ((score_iff wellFormed ..).mpr ⟨option, here, .inr (.inl ⟨begins, longer.symm, rfl⟩)⟩)
    (List.length_pos_of_ne_nil filled) ?_
  intro other less there different
  rcases (score_iff wellFormed ..).mp there with ⟨otherOption, isOther, same | begins | joins⟩
  · exact absurd same.1.symm (noName otherOption (List.mem_of_getElem? isOther))
  · have member := (mem_abbreviations other).mpr ⟨otherOption, isOther, begins.1⟩
    rw [only, List.mem_singleton] at member
    exact absurd member different
  · rw [joins.2]
    exact joins.1.length

theorem selects_ambiguous (wellFormed : WellFormed options) {first second : Nat} {rest : List Nat}
    (noName : forall option, option ∈ options -> option.longName ≠ s) (filled : s ≠ [])
    (several : abbreviations options s = first :: second :: rest) :
    selectOption options s = .ambiguous := by
  have holds := Best.Of.start.search (options.map (matchLength s))
  have scores {index : Nat} (member : index ∈ abbreviations options s) :
      (options.map (matchLength s))[index]? = some (some s.length) := by
    rcases (mem_abbreviations index).mp member with ⟨option, here, begins⟩
    have longer := noName option (List.mem_of_getElem? here)
    exact (score_iff wellFormed ..).mpr ⟨option, here, .inr (.inl ⟨begins, longer.symm, rfl⟩)⟩
  have distinct : (abbreviations options s).Nodup := List.nodup_range.filter _
  rw [several] at scores distinct
  have different : first ≠ second := fun same =>
    (List.nodup_cons.mp distinct).1 (same ▸ List.mem_cons_self)
  rw [selectOption, if_pos]
  refine holds.several (scores List.mem_cons_self)
    (scores (List.mem_cons_of_mem first List.mem_cons_self)) different
    (List.length_pos_of_ne_nil filled) ?_
  intro other most there
  rcases (score_iff wellFormed ..).mp there with ⟨otherOption, isOther, same | begins | joins⟩
  · exact absurd same.1.symm (noName otherOption (List.mem_of_getElem? isOther))
  · exact Nat.le_of_eq begins.2.2
  · rw [joins.2]
    exact Nat.le_of_lt joins.1.length

theorem selects_joined (wellFormed : WellFormed options) {index : Nat} {value : Word}
    (noName : forall option, option ∈ options -> option.longName ≠ s)
    (noBeginning : forall option, option ∈ options -> s <+: option.longName -> s = [])
    (found : joinedBefore options s s.length = some (index, value)) :
    selectOption options s = .option (some index) (s.length - (value.length + 1)) := by
  have holds := Best.Of.start.search (options.map (matchLength s))
  rcases joinedBefore_some (Nat.le_refl _) found with ⟨option, here, joins, rfl, longest⟩
  have member := List.mem_of_getElem? here
  have position : s.length - ((s.drop (option.longName.length + 1)).length + 1) =
      option.longName.length := by
    have inside := joins.length
    rw [List.length_drop]
    omega
  rw [position]
  have positive := List.length_pos_of_ne_nil (wellFormed.named option member)
  refine Best.Of.selects holds
    ((score_iff wellFormed ..).mpr ⟨option, here, .inr (.inr ⟨joins, rfl⟩)⟩) positive ?_
  intro other less there different
  rcases (score_iff wellFormed ..).mp there with ⟨otherOption, isOther, same | begins | otherJoins⟩
  · exact absurd same.1.symm (noName otherOption (List.mem_of_getElem? isOther))
  · have empty := noBeginning otherOption (List.mem_of_getElem? isOther) begins.1
    rw [begins.2.2, empty]
    exact positive
  · have otherMember := List.mem_of_getElem? isOther
    rcases longest otherOption otherMember otherJoins.1 with atMost | beyond
    · rw [otherJoins.2]
      refine Nat.lt_of_le_of_ne atMost fun sameLength => different ?_
      have otherName := (joins_iff.mp otherJoins.1).2.2
      rw [sameLength, ← (joins_iff.mp joins).2.2] at otherName
      exact same_index wellFormed isOther here otherName
    · exact absurd otherJoins.1.length (Nat.not_lt.mpr beyond)

theorem selects_unknown (wellFormed : WellFormed options)
    (noName : forall option, option ∈ options -> option.longName ≠ s)
    (noBeginning : forall option, option ∈ options -> s <+: option.longName -> s = [])
    (none : joinedBefore options s s.length = none) : selectOption options s = .unknown := by
  have holds := Best.Of.start.search (options.map (matchLength s))
  have count : (Best.search ⟨.none, 0, 0⟩ 0 (options.map (matchLength s))).count = 0 := by
    refine holds.none fun index score there => ?_
    rcases (score_iff wellFormed ..).mp there with ⟨option, isOption, same | begins | joins⟩
    · exact absurd same.1.symm (noName option (List.mem_of_getElem? isOption))
    · rw [begins.2.2, noBeginning option (List.mem_of_getElem? isOption) begins.1]
      rfl
    · have beyond := joinedBefore_none none (List.mem_of_getElem? isOption) joins.1
      exact absurd joins.1.length (Nat.not_lt.mpr beyond)
  rw [selectOption, count]
  rfl

/-- The loop over the options finds what is denoted. -/
theorem selectOption_denoted (wellFormed : WellFormed options) (s : Word) :
    selectOption options s = (denotedOption options s).selection s := by
  rw [denotedOption]
  cases named : options.findIdx? fun option => option.longName == s with
  | some index =>
      rcases findIdx_name named with ⟨option, here, same⟩
      exact selects_exact wellFormed here (beq_iff_eq.mp same)
  | none =>
      have noName (option : ParserOption) (member : option ∈ options) : option.longName ≠ s := by
        have differs := List.findIdx?_eq_none_iff.mp named option member
        exact beq_eq_false_iff_ne.mp differs
      -- the empty beginning is not looked at
      have filled {index : Nat} {rest : List Nat}
          (several : (if s = [] then [] else abbreviations options s) = index :: rest) :
          s ≠ [] ∧ abbreviations options s = index :: rest := by
        split at several
        · cases several
        · exact ⟨‹_›, several⟩
      cases found : if s = [] then [] else abbreviations options s with
      | nil =>
          have noBeginning (option : ParserOption) (member : option ∈ options)
              (begins : s <+: option.longName) : s = [] := by
            by_contra notEmpty
            rw [if_neg notEmpty] at found
            rcases List.getElem?_of_mem member with ⟨index, here⟩
            have isThere := (mem_abbreviations index).mpr ⟨option, here, begins⟩
            rw [found] at isThere
            cases isThere
          cases joined : joinedBefore options s s.length with
          | none => exact selects_unknown wellFormed noName noBeginning joined
          | some pair => exact selects_joined wellFormed noName noBeginning joined
      | cons first rest =>
          rcases filled found with ⟨notEmpty, several⟩
          cases rest with
          | nil => exact selects_abbreviated wellFormed noName notEmpty several
          | cons second rest => exact selects_ambiguous wellFormed noName notEmpty several

/-- The option that is denoted is one of the options. -/
theorem denotedOption_cases (options : List ParserOption) (s : Word) :
    denotedOption options s = .unknown ∨ denotedOption options s = .ambiguous ∨
      ∃ index option, options[index]? = some option ∧
        (denotedOption options s = .exact index ∨ denotedOption options s = .abbreviated index ∨
          Joins s option ∧
            denotedOption options s = .joined index (s.drop (option.longName.length + 1))) := by
  rw [denotedOption]
  cases named : options.findIdx? fun option => option.longName == s with
  | some index =>
      rcases findIdx_name named with ⟨option, here, _⟩
      exact .inr (.inr ⟨index, option, here, .inl rfl⟩)
  | none =>
      cases found : if s = [] then [] else abbreviations options s with
      | nil =>
          cases joined : joinedBefore options s s.length with
          | none => exact .inl rfl
          | some pair =>
              rcases joinedBefore_some (Nat.le_refl _) joined with ⟨option, here, joins, value, _⟩
              refine .inr (.inr ⟨pair.1, option, here, .inr (.inr ⟨joins, ?_⟩)⟩)
              rw [← value]
      | cons first rest =>
          have member : first ∈ abbreviations options s := by
            split at found
            · cases found
            · rw [found]
              exact List.mem_cons_self
          cases rest with
          | nil =>
              rcases (mem_abbreviations first).mp member with ⟨option, here, _⟩
              exact .inr (.inr ⟨first, option, here, .inr (.inl rfl)⟩)
          | cons second rest => exact .inr (.inl rfl)

end Selecting

end OptionParser

end Tools
end WasmSandboxing
