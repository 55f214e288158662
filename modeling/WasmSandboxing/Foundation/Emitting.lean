import Mathlib.Init

namespace WasmSandboxing
namespace Foundation

/-!
# Computations that emit

A computation that changes a state, emits items on its way and may fail.  What
it emitted before it failed stays emitted.

`Meets` is the weakest precondition of a computation: every item is allowed
behind the items before it, and a result meets the postcondition.  The rules
below compute it.
-/

structure Emitting (State Item Error Result : Type) where
  run : State -> List Item × Except Error (Result × State)

namespace Emitting

variable {State Item Error First Second Result : Type}

def pure (result : Result) : Emitting State Item Error Result where
  run state := ([], .ok (result, state))

/-- Go on behind a result. -/
def chain (later : First -> Emitting State Item Error Second) :
    List Item × Except Error (First × State) -> List Item × Except Error (Second × State)
  | (items, .error error) => (items, .error error)
  | (items, .ok (value, after)) =>
      (items ++ ((later value).run after).1, ((later value).run after).2)

def bind (first : Emitting State Item Error First)
    (later : First -> Emitting State Item Error Second) : Emitting State Item Error Second where
  run state := chain later (first.run state)

instance : Monad (Emitting State Item Error) where
  pure := pure
  bind := bind

def fail (error : Error) : Emitting State Item Error Result where
  run _ := ([], .error error)

/-- Emit what the state makes of an item. -/
def emit (item : State -> Item) : Emitting State Item Error Unit where
  run state := ([item state], .ok ((), state))

def get (value : State -> Result) : Emitting State Item Error Result where
  run state := ([], .ok (value state, state))

def modify (change : State -> State) : Emitting State Item Error Unit where
  run state := ([], .ok ((), change state))

/-- A step that emits nothing. -/
def step (next : State -> Except Error (Result × State)) :
    Emitting State Item Error Result where
  run state := ([], next state)

def check (holds : Bool) (error : Error) : Emitting State Item Error Unit :=
  if holds then pure () else fail error

/-- `count` rounds, numbered from `index`. -/
def repeated (body : Nat -> Emitting State Item Error Unit) :
    Nat -> Nat -> Emitting State Item Error Unit
  | 0, _index => pure ()
  | count + 1, index => bind (body index) fun _ => repeated body count (index + 1)

/-- `count` rounds whose results are collected. -/
def collected (body : Nat -> Emitting State Item Error Result) :
    Nat -> Nat -> Emitting State Item Error (List Result)
  | 0, _index => pure []
  | count + 1, index =>
      bind (body index) fun first =>
        bind (collected body count (index + 1)) fun rest => pure (first :: rest)

theorem run_bind_error {first : Emitting State Item Error First}
    {later : First -> Emitting State Item Error Second} {state : State} {items : List Item}
    {error : Error} (ran : first.run state = (items, .error error)) :
    (first >>= later).run state = (items, .error error) := by
  change chain later (first.run state) = _
  rw [ran]
  rfl

theorem run_bind_ok {first : Emitting State Item Error First}
    {later : First -> Emitting State Item Error Second} {state after : State} {items : List Item}
    {value : First} (ran : first.run state = (items, .ok (value, after))) :
    (first >>= later).run state =
      (items ++ ((later value).run after).1, ((later value).run after).2) := by
  change chain later (first.run state) = _
  rw [ran]
  rfl

/-! ## The weakest precondition -/

/-- Every item is allowed behind those before it. -/
def Sequel (allowed : List Item -> Item -> Prop) : List Item -> List Item -> Prop
  | _log, [] => True
  | log, item :: rest => allowed log item ∧ Sequel allowed (log ++ [item]) rest

variable {allowed : List Item -> Item -> Prop}

theorem sequel_append {log first second : List Item} :
    Sequel allowed log (first ++ second) ↔
      Sequel allowed log first ∧ Sequel allowed (log ++ first) second := by
  induction first generalizing log with
  | nil => simp [Sequel]
  | cons item rest inductionHypothesis =>
      simp only [List.cons_append, Sequel, inductionHypothesis, and_assoc, List.append_assoc,
        List.nil_append]

theorem sequel_split (log items : List Item) :
    Sequel (fun before item => exists rest, log ++ items = before ++ item :: rest) log items := by
  have general : forall before rest, log ++ items = before ++ rest ->
      Sequel (fun before item => exists rest, log ++ items = before ++ item :: rest) before rest := by
    intro before rest split
    induction rest generalizing before with
    | nil => trivial
    | cons item rest inductionHypothesis =>
        refine ⟨⟨rest, split⟩, inductionHypothesis (before ++ [item]) ?_⟩
        rw [split, List.append_assoc]
        rfl
  exact general log items rfl

theorem Sequel.both {log items : List Item} {other : List Item -> Item -> Prop}
    (sequel : Sequel allowed log items) (too : Sequel other log items) :
    Sequel (fun log item => allowed log item ∧ other log item) log items := by
  induction items generalizing log with
  | nil => trivial
  | cons item rest inductionHypothesis =>
      exact ⟨⟨sequel.1, too.1⟩, inductionHypothesis sequel.2 too.2⟩

theorem Sequel.and {log items : List Item} {holds : Item -> Prop} (sequel : Sequel allowed log items)
    (all : forall item, item ∈ items -> holds item) :
    Sequel (fun log item => allowed log item ∧ holds item) log items := by
  induction items generalizing log with
  | nil => trivial
  | cons item rest inductionHypothesis =>
      exact ⟨⟨sequel.1, all item List.mem_cons_self⟩, inductionHypothesis sequel.2
        fun item isMember => all item (List.mem_cons_of_mem _ isMember)⟩

theorem Sequel.at {log items before after : List Item} {item : Item}
    (sequel : Sequel allowed log items) (split : items = before ++ item :: after) :
    allowed (log ++ before) item := by
  rw [split] at sequel
  exact (sequel_append.mp sequel).2.1

def Meets (allowed : List Item -> Item -> Prop) (computation : Emitting State Item Error Result)
    (post : List Item -> Result -> State -> Prop) (log : List Item) (state : State) : Prop :=
  Sequel allowed log (computation.run state).1 ∧
    forall result after, (computation.run state).2 = .ok (result, after) ->
      post (log ++ (computation.run state).1) result after

variable {log : List Item} {state : State}

@[simp] theorem meets_pure {post : List Item -> Result -> State -> Prop} {result : Result} :
    Meets allowed (Pure.pure result : Emitting State Item Error Result) post log state ↔
      post log result state := by
  change (True ∧ forall found after, Except.ok (result, state) = Except.ok (found, after) ->
    post (log ++ []) found after) ↔ _
  rw [List.append_nil]
  constructor
  · exact fun meets => meets.2 result state rfl
  · intro holds
    refine ⟨trivial, fun found after same => ?_⟩
    cases same
    exact holds

@[simp] theorem meets_bind {post : List Item -> Second -> State -> Prop}
    {first : Emitting State Item Error First}
    {later : First -> Emitting State Item Error Second} :
    Meets allowed (first >>= later) post log state ↔
      Meets allowed first (fun log value state => Meets allowed (later value) post log state)
        log state := by
  rw [Meets, Meets]
  cases ran : first.run state with
  | mk items result =>
      rcases result with error | ⟨value, after⟩
      · rw [run_bind_error ran]
        exact ⟨fun meets => ⟨meets.1, nofun⟩, fun meets => ⟨meets.1, nofun⟩⟩
      · rw [run_bind_ok ran]
        simp only [sequel_append, Meets, List.append_assoc]
        constructor
        · rintro ⟨⟨here, there⟩, ends⟩
          refine ⟨here, fun found next same => ?_⟩
          cases same
          exact ⟨there, ends⟩
        · rintro ⟨here, later⟩
          rcases later value after rfl with ⟨there, ends⟩
          exact ⟨⟨here, there⟩, ends⟩

@[simp] theorem meets_fail {post : List Item -> Result -> State -> Prop} {error : Error} :
    Meets allowed (fail error : Emitting State Item Error Result) post log state :=
  ⟨trivial, nofun⟩

@[simp] theorem meets_emit {post : List Item -> Unit -> State -> Prop} {item : State -> Item} :
    Meets allowed (emit item : Emitting State Item Error Unit) post log state ↔
      allowed log (item state) ∧ post (log ++ [item state]) () state := by
  change ((allowed log (item state) ∧ True) ∧ forall found after,
    Except.ok ((), state) = Except.ok (found, after) -> post _ found after) ↔ _
  constructor
  · exact fun meets => ⟨meets.1.1, meets.2 () state rfl⟩
  · rintro ⟨isAllowed, holds⟩
    refine ⟨⟨isAllowed, trivial⟩, fun found after same => ?_⟩
    cases same
    exact holds

@[simp] theorem meets_get {post : List Item -> Result -> State -> Prop}
    {value : State -> Result} :
    Meets allowed (get value : Emitting State Item Error Result) post log state ↔
      post log (value state) state :=
  meets_pure

@[simp] theorem meets_modify {post : List Item -> Unit -> State -> Prop}
    {change : State -> State} :
    Meets allowed (modify change : Emitting State Item Error Unit) post log state ↔
      post log () (change state) := by
  change (True ∧ forall found after, Except.ok ((), change state) = Except.ok (found, after) ->
    post (log ++ []) found after) ↔ _
  rw [List.append_nil]
  constructor
  · exact fun meets => meets.2 () (change state) rfl
  · intro holds
    refine ⟨trivial, fun found after same => ?_⟩
    cases same
    exact holds

@[simp] theorem meets_step {post : List Item -> Result -> State -> Prop}
    {next : State -> Except Error (Result × State)} :
    Meets allowed (step next : Emitting State Item Error Result) post log state ↔
      forall result after, next state = .ok (result, after) -> post log result after := by
  change (True ∧ forall found after, next state = .ok (found, after) ->
    post (log ++ []) found after) ↔ _
  rw [List.append_nil]
  exact Iff.of_eq (true_and _)

@[simp] theorem meets_check {post : List Item -> Unit -> State -> Prop} {holds : Bool}
    {error : Error} :
    Meets allowed (check holds error : Emitting State Item Error Unit) post log state ↔
      (holds = true -> post log () state) := by
  cases holds with
  | true =>
      change Meets allowed (Pure.pure () : Emitting State Item Error Unit) post log state ↔ _
      rw [meets_pure]
      exact ⟨fun known _ => known, fun known => known rfl⟩
  | false =>
      exact ⟨fun _ => nofun, fun _ => meets_fail⟩

theorem Meets.of_run {post : List Item -> Result -> State -> Prop}
    {computation : Emitting State Item Error Result}
    (holds : forall items result after, computation.run state = (items, .ok (result, after)) ->
      post (log ++ items) result after) :
    Meets (fun _ _ => True) computation post log state := by
  refine ⟨?_, fun result after same => holds _ result after (Prod.ext rfl same)⟩
  generalize (computation.run state).1 = items
  clear holds
  induction items generalizing log with
  | nil => trivial
  | cons item rest inductionHypothesis => exact ⟨trivial, inductionHypothesis⟩

theorem Meets.allow {looser : List Item -> Item -> Prop}
    {post : List Item -> Result -> State -> Prop}
    {computation : Emitting State Item Error Result} (meets : Meets allowed computation post log state)
    (isLooser : forall log item, allowed log item -> looser log item) :
    Meets looser computation post log state := by
  refine ⟨?_, meets.2⟩
  have sequel := meets.1
  generalize (computation.run state).1 = items at sequel
  clear meets
  induction items generalizing log with
  | nil => trivial
  | cons item rest inductionHypothesis =>
      exact ⟨isLooser log item sequel.1, inductionHypothesis sequel.2⟩

theorem Meets.mono {post stronger : List Item -> Result -> State -> Prop}
    {computation : Emitting State Item Error Result}
    (meets : Meets allowed computation stronger log state)
    (weaken : forall log result state, stronger log result state -> post log result state) :
    Meets allowed computation post log state :=
  ⟨meets.1, fun result after same => weaken _ _ _ (meets.2 result after same)⟩

/-- What each round keeps holds behind all of them. -/
theorem meets_repeated (invariant : Nat -> List Item -> State -> Prop)
    {body : Nat -> Emitting State Item Error Unit} (count index : Nat)
    (round : forall current log state, current < index + count -> invariant current log state ->
      Meets allowed (body current) (fun log _ state => invariant (current + 1) log state) log state)
    (holds : invariant index log state) :
    Meets allowed (repeated body count index)
      (fun log _ state => invariant (index + count) log state) log state := by
  induction count generalizing index log state with
  | zero => exact meets_pure.mpr holds
  | succ count inductionHypothesis =>
      refine meets_bind.mpr ((round index log state (by omega) holds).mono ?_)
      intro log _ state after
      have rest := inductionHypothesis (index + 1)
        (fun current log state bound => round current log state (by omega)) after
      rw [show index + 1 + count = index + (count + 1) by omega] at rest
      exact rest

theorem meets_collected (invariant : Nat -> List Item -> List Result -> State -> Prop)
    {body : Nat -> Emitting State Item Error Result}
    (round : forall index log results state, invariant index log results state ->
      Meets allowed (body index)
        (fun log result state => invariant (index + 1) log (results ++ [result]) state) log state)
    (count index : Nat) (results : List Result) (holds : invariant index log results state) :
    Meets allowed (collected body count index)
      (fun log rest state => invariant (index + count) log (results ++ rest) state)
      log state := by
  induction count generalizing index log results state with
  | zero => exact meets_pure.mpr (by simpa using holds)
  | succ count inductionHypothesis =>
      refine meets_bind.mpr ((round index log results state holds).mono ?_)
      intro log first state after
      refine meets_bind.mpr ((inductionHypothesis (index + 1) _ after).mono ?_)
      intro log rest state final
      refine meets_pure.mpr ?_
      rw [show index + (count + 1) = index + 1 + count by omega]
      simpa using final

/-! ## Frames

Most of a computation is told by what it leaves alone. -/

/-- Everything emitted is `quiet`, and a result leaves what is `kept` as it was. -/
def Frames (quiet : Item -> Prop) (kept : State -> Kept)
    (computation : Emitting State Item Error Result) : Prop :=
  forall state, (forall item, item ∈ (computation.run state).1 -> quiet item) ∧
    forall result after, (computation.run state).2 = .ok (result, after) -> kept after = kept state

section

variable {Kept : Type} {quiet : Item -> Prop} {kept : State -> Kept}

theorem Frames.weaken {louder : Item -> Prop}
    {computation : Emitting State Item Error Result} (frames : Frames quiet kept computation)
    (isLouder : forall item, quiet item -> louder item) : Frames louder kept computation :=
  fun state => ⟨fun item isMember => isLouder item ((frames state).1 item isMember),
    (frames state).2⟩

theorem Frames.meets {computation : Emitting State Item Error Result}
    (frames : Frames quiet kept computation) (log : List Item) (state : State) :
    Meets (fun _ item => quiet item) computation
      (fun after _ next => kept next = kept state ∧ exists items, after = log ++ items ∧
        forall item, item ∈ items -> quiet item) log state := by
  refine ⟨?_, fun result after same =>
    ⟨(frames state).2 result after same, _, rfl, (frames state).1⟩⟩
  have all := (frames state).1
  generalize (computation.run state).1 = items at all
  induction items generalizing log with
  | nil => trivial
  | cons item rest inductionHypothesis =>
      exact ⟨all item List.mem_cons_self, inductionHypothesis (log ++ [item]) fun item isMember =>
        all item (List.mem_cons_of_mem _ isMember)⟩

theorem Frames.forget {computation : Emitting State Item Error Result}
    (frames : Frames quiet kept computation) : Frames quiet (fun _ => ()) computation :=
  fun state => ⟨(frames state).1, fun _ _ _ => rfl⟩

theorem Meets.and_kept {allowed : List Item -> Item -> Prop}
    {post : List Item -> Result -> State -> Prop}
    {computation : Emitting State Item Error Result} {log : List Item} {state : State}
    (meets : Meets allowed computation post log state) (frames : Frames quiet kept computation) :
    Meets allowed computation
      (fun log result next => post log result next ∧ kept next = kept state) log state :=
  ⟨meets.1, fun result after same =>
    ⟨meets.2 result after same, (frames state).2 result after same⟩⟩

/-- What emits nothing meets what holds whatever it comes to. -/
theorem Frames.meets_silent {post : List Item -> Result -> State -> Prop}
    {computation : Emitting State Item Error Result}
    (frames : Frames (fun _ => False) kept computation)
    (holds : forall result next, kept next = kept state -> post log result next) :
    Meets allowed computation post log state := by
  have none_ : (computation.run state).1 = [] :=
    List.eq_nil_iff_forall_not_mem.mpr fun item => (frames state).1 item
  refine ⟨?_, fun result next same => ?_⟩
  · rw [none_]
    trivial
  · rw [none_, List.append_nil]
    exact holds result next ((frames state).2 result next same)

@[simp] theorem frames_pure {result : Result} :
    Frames quiet kept (Pure.pure result : Emitting State Item Error Result) := by
  refine fun state => ⟨nofun, fun found after same => ?_⟩
  cases same
  rfl

theorem frames_bind {first : Emitting State Item Error First}
    {later : First -> Emitting State Item Error Second} (here : Frames quiet kept first)
    (there : forall value, Frames quiet kept (later value)) :
    Frames quiet kept (first >>= later) := by
  intro state
  have framed := here state
  cases ran : first.run state with
  | mk items result =>
      rw [ran] at framed
      rcases result with error | ⟨value, middle⟩
      · rw [run_bind_error ran]
        exact ⟨framed.1, nofun⟩
      · rw [run_bind_ok ran]
        have behind := there value middle
        refine ⟨fun item isMember => ?_, fun result after same => ?_⟩
        · rcases List.mem_append.mp isMember with isMember | isMember
          · exact framed.1 item isMember
          · exact behind.1 item isMember
        · exact (behind.2 result after same).trans (framed.2 value middle rfl)

@[simp] theorem frames_fail {error : Error} :
    Frames quiet kept (fail error : Emitting State Item Error Result) :=
  fun _ => ⟨nofun, nofun⟩

theorem frames_emit {item : State -> Item} (isQuiet : forall state, quiet (item state)) :
    Frames quiet kept (emit item : Emitting State Item Error Unit) := by
  refine fun state => ⟨fun found isMember => ?_, fun result after same => ?_⟩
  · rw [List.mem_singleton.mp isMember]
    exact isQuiet state
  · cases same
    rfl

@[simp] theorem frames_get {value : State -> Result} :
    Frames quiet kept (get value : Emitting State Item Error Result) := by
  refine fun state => ⟨nofun, fun found after same => ?_⟩
  cases same
  rfl

theorem frames_modify {change : State -> State}
    (keeps : forall state, kept (change state) = kept state) :
    Frames quiet kept (modify change : Emitting State Item Error Unit) := by
  refine fun state => ⟨nofun, fun found after same => ?_⟩
  cases same
  exact keeps state

theorem frames_step {next : State -> Except Error (Result × State)}
    (keeps : forall state result after, next state = .ok (result, after) ->
      kept after = kept state) :
    Frames quiet kept (step next : Emitting State Item Error Result) :=
  fun state => ⟨nofun, keeps state⟩

@[simp] theorem frames_check {holds : Bool} {error : Error} :
    Frames quiet kept (check holds error : Emitting State Item Error Unit) := by
  cases holds with
  | true => exact frames_pure
  | false => exact frames_fail

theorem frames_repeated {body : Nat -> Emitting State Item Error Unit}
    (round : forall index, Frames quiet kept (body index)) (count index : Nat) :
    Frames quiet kept (repeated body count index) := by
  induction count generalizing index with
  | zero => exact frames_pure
  | succ count inductionHypothesis =>
      exact frames_bind (round index) fun _ => inductionHypothesis (index + 1)

theorem frames_collected {body : Nat -> Emitting State Item Error Result}
    (round : forall index, Frames quiet kept (body index)) (count index : Nat) :
    Frames quiet kept (collected body count index) := by
  induction count generalizing index with
  | zero => exact frames_pure
  | succ count inductionHypothesis =>
      exact frames_bind (round index) fun _ =>
        frames_bind (inductionHypothesis (index + 1)) fun _ => frames_pure

end

end Emitting

end Foundation
end WasmSandboxing
