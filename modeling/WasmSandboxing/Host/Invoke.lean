import WasmSandboxing.Foundation.Transition
import Mathlib.Data.List.Basic

namespace WasmSandboxing
namespace Host

open Foundation

/-!
# Nested invocations on one thread

`invokeFunction` with what it calls, as the steps at which control passes
between host and guest.  Each invocation calls `setjmp` on the jump buffer of
its sandbox's library, serialises its arguments, makes its sandbox the thread's
current one, calls the guest, and restores the sandbox that was current.  While
it does so it invokes the guest's `malloc` and `free` by the same function, and
a callback may invoke any sandbox.
-/

/-- How far an invocation is: arguments are serialised, the sandbox is current,
guest code runs, a callback runs, the guest has returned, the former sandbox is
current again. -/
inductive Phase where
  | serializing | entered | guest | callback | returned | restored
  deriving DecidableEq, Repr

/-- An active call of `invokeFunction`.  No step reads `reentered`: it records
whether another invocation of the same library has started since. -/
structure Frame (Sandbox : Type) where
  id : Nat
  sandbox : Sandbox
  phase : Phase
  oldCurrThreadSandbox : Option Sandbox
  reentered : Bool

/-- The state of a thread: the active invocations with the innermost first,
`CurrThreadSandbox`, for each library the invocation that last called `setjmp`
on its `g_jmp_buf`, and where a trap has jumped, after which `invokeFunction`
aborts. -/
structure Thread (Sandbox Library : Type) where
  stack : List (Frame Sandbox)
  currThreadSandbox : Option Sandbox
  jmpBuf : Library -> Option Nat
  nextId : Nat
  landed : Option (Option Nat)

/-- The steps within an invocation. -/
inductive Move where
  | enter | call | callback | callbackReturn | guestReturn | restore
  deriving DecidableEq, Repr

namespace Move

def source : Move -> Phase
  | enter => .serializing
  | call => .entered
  | callback => .guest
  | callbackReturn => .callback
  | guestReturn => .guest
  | restore => .returned

def target : Move -> Phase
  | enter => .entered
  | call => .guest
  | callback => .callback
  | callbackReturn => .guest
  | guestReturn => .returned
  | restore => .restored

end Move

/-- The steps of a thread. -/
inductive InvokeEvent (Sandbox : Type) where
  | invoke (sandbox : Sandbox)
  | move (move : Move)
  | finish
  | trap
  deriving DecidableEq, Repr

namespace Thread

variable {Sandbox Library : Type} (library : Sandbox -> Library)

/-- A thread that has not invoked anything yet. -/
def start (current : Option Sandbox) (jmpBuf : Library -> Option Nat) : Thread Sandbox Library :=
  ⟨[], current, jmpBuf, 0, none⟩

/-- Whether host code runs that may invoke the sandbox: the program and its
callbacks may invoke any, an invocation only the allocator of its own. -/
def mayInvoke [DecidableEq Sandbox] (stack : List (Frame Sandbox)) (sandbox : Sandbox) : Bool :=
  match stack with
  | [] => true
  | frame :: _ =>
      match frame.phase with
      | .guest => false
      | .callback => true
      | _ => decide (sandbox = frame.sandbox)

/-- The beginning of `invokeFunction`: `setjmp` on the library's buffer. -/
def invoke [DecidableEq Library] (sandbox : Sandbox) (thread : Thread Sandbox Library) :
    Thread Sandbox Library where
  stack :=
    ⟨thread.nextId, sandbox, .serializing, none, false⟩ ::
      thread.stack.map fun frame =>
        { frame with
          reentered := frame.reentered || decide (library frame.sandbox = library sandbox) }
  currThreadSandbox := thread.currThreadSandbox
  jmpBuf other := if other = library sandbox then some thread.nextId else thread.jmpBuf other
  nextId := thread.nextId + 1
  landed := none

/-- A step within the innermost invocation. -/
def makeMove (move : Move) (frame : Frame Sandbox) (rest : List (Frame Sandbox))
    (thread : Thread Sandbox Library) : Thread Sandbox Library :=
  match move with
  | .enter =>
      { thread with
        stack := { frame with
          phase := .entered
          oldCurrThreadSandbox := thread.currThreadSandbox } :: rest
        currThreadSandbox := some frame.sandbox }
  | .restore =>
      { thread with
        stack := { frame with phase := .restored } :: rest
        currThreadSandbox := frame.oldCurrThreadSandbox }
  | move => { thread with stack := { frame with phase := move.target } :: rest }

def step [DecidableEq Sandbox] [DecidableEq Library] (thread : Thread Sandbox Library)
    (event : InvokeEvent Sandbox) : Option (Thread Sandbox Library) :=
  if thread.landed.isSome then none
  else match event, thread.stack with
    | .invoke sandbox, stack =>
        if mayInvoke stack sandbox then some (thread.invoke library sandbox) else none
    | .move move, frame :: rest =>
        if frame.phase = move.source then some (makeMove move frame rest thread) else none
    | .finish, frame :: rest =>
        if frame.phase = .restored then some { thread with stack := rest } else none
    | .trap, frame :: _ =>
        -- `wasm_rt_trap` jumps to whatever the library's buffer holds.
        if frame.phase = .guest then
          some { thread with landed := some (thread.jmpBuf (library frame.sandbox)) }
        else none
    | _, [] => none

def system [DecidableEq Sandbox] [DecidableEq Library] :
    System (Thread Sandbox Library) (InvokeEvent Sandbox) :=
  ⟨step library⟩

/-- Guest code runs in the innermost invocation. -/
def GuestRuns (thread : Thread Sandbox Library) (frame : Frame Sandbox) : Prop :=
  (∃ rest, thread.stack = frame :: rest) ∧ frame.phase = .guest

/-- While guest code runs, a trap would jump to its invocation and its sandbox is
current; and a trap has jumped to the innermost invocation. -/
structure Disciplined (thread : Thread Sandbox Library) : Prop where
  target : forall frame, thread.GuestRuns frame ->
    thread.jmpBuf (library frame.sandbox) = some frame.id
  current : forall frame, thread.GuestRuns frame -> thread.currThreadSandbox = some frame.sandbox
  landing : forall target, thread.landed = some target ->
    ∃ frame rest, thread.stack = frame :: rest ∧ target = some frame.id

/-- A step does not start or resume guest code in an invocation that has been
re-entered. -/
def NotReentered (thread : Thread Sandbox Library) (event : InvokeEvent Sandbox) : Prop :=
  event = .move .call ∨ event = .move .callbackReturn ->
    forall frame rest, thread.stack = frame :: rest -> frame.reentered = false

/-! ## The invariant -/

/-- Which sandbox is current, given the stack: an invocation that has entered and
not yet restored determines it, and saved what the rest of the stack asks for. -/
def Linked (current : Option Sandbox) : List (Frame Sandbox) -> Prop
  | [] => True
  | frame :: rest =>
      if frame.phase = .serializing ∨ frame.phase = .restored then Linked current rest
      else current = some frame.sandbox ∧ Linked frame.oldCurrThreadSandbox rest

structure Invariant (thread : Thread Sandbox Library) : Prop where
  fresh : forall frame, frame ∈ thread.stack -> frame.id < thread.nextId
  buffer : forall frame, frame ∈ thread.stack ->
    (thread.jmpBuf (library frame.sandbox) = some frame.id ↔ frame.reentered = false)
  linked : Linked thread.currThreadSandbox thread.stack
  waiting : forall frame, frame ∈ thread.stack.tail -> frame.phase ≠ .guest

variable {library} {thread : Thread Sandbox Library}

theorem linked_map (change : Frame Sandbox -> Bool) (current : Option Sandbox)
    (stack : List (Frame Sandbox)) :
    Linked current (stack.map fun frame => { frame with reentered := change frame }) ↔
      Linked current stack := by
  induction stack generalizing current with
  | nil => exact Iff.rfl
  | cons frame rest inductionHypothesis =>
      simp only [List.map_cons, Linked, inductionHypothesis]

theorem invariant_start (current : Option Sandbox) (jmpBuf : Library -> Option Nat) :
    Invariant library (start current jmpBuf) where
  fresh _frame member := absurd member List.not_mem_nil
  buffer _frame member := absurd member List.not_mem_nil
  linked := trivial
  waiting _frame member := absurd member List.not_mem_nil

/-- Under the invariant the sandbox whose guest code runs is current. -/
theorem Invariant.current (holds : Invariant library thread) {frame : Frame Sandbox}
    (runs : thread.GuestRuns frame) : thread.currThreadSandbox = some frame.sandbox := by
  rcases runs with ⟨⟨rest, top⟩, guest⟩
  have linked := holds.linked
  rw [top, Linked, if_neg (by rw [guest]; decide)] at linked
  exact linked.1

/-- Under the invariant a thread on which no trap has jumped is disciplined
exactly when the invocation whose guest code runs has not been re-entered. -/
theorem Invariant.disciplined_iff (holds : Invariant library thread)
    (running : thread.landed = none) :
    Disciplined library thread ↔
      forall frame, thread.GuestRuns frame -> frame.reentered = false := by
  have recorded : forall frame, thread.GuestRuns frame ->
      (thread.jmpBuf (library frame.sandbox) = some frame.id ↔ frame.reentered = false) := by
    rintro frame ⟨⟨rest, top⟩, _guest⟩
    exact holds.buffer frame (top ▸ List.mem_cons_self)
  constructor
  · intro disciplined frame runs
    exact (recorded frame runs).mp (disciplined.target frame runs)
  · intro unrecorded
    refine ⟨fun frame runs => (recorded frame runs).mpr (unrecorded frame runs),
      fun frame runs => holds.current runs, fun target landed => ?_⟩
    rw [running] at landed
    cases landed

/-- No guest code runs where the innermost invocation is in another phase. -/
theorem not_guestRuns {top : Frame Sandbox} {rest : List (Frame Sandbox)}
    (stack : thread.stack = top :: rest) (other : top.phase ≠ .guest) (frame : Frame Sandbox) :
    ¬ thread.GuestRuns frame := by
  rintro ⟨⟨below, same⟩, guest⟩
  rw [stack] at same
  cases same
  exact other guest

/-! ## Steps -/

theorem linked_move {move : Move} {frame : Frame Sandbox} {rest : List (Frame Sandbox)}
    (phase : frame.phase = move.source)
    (linked : Linked thread.currThreadSandbox (frame :: rest)) :
    Linked (makeMove move frame rest thread).currThreadSandbox
      (makeMove move frame rest thread).stack := by
  cases move <;> simp_all [Linked, makeMove, Move.source, Move.target]

theorem invariant_move (holds : Invariant library thread) {move : Move} {frame : Frame Sandbox}
    {rest : List (Frame Sandbox)} (top : thread.stack = frame :: rest)
    (phase : frame.phase = move.source) :
    Invariant library (makeMove move frame rest thread) := by
  rcases holds with ⟨fresh, buffer, linked, waiting⟩
  rw [top] at fresh buffer linked waiting
  -- The innermost invocation keeps its identity and its record.
  have kept : ∃ moved : Frame Sandbox, (makeMove move frame rest thread).stack = moved :: rest ∧
      moved.id = frame.id ∧ moved.sandbox = frame.sandbox ∧
      moved.reentered = frame.reentered ∧
      (makeMove move frame rest thread).jmpBuf = thread.jmpBuf ∧
      (makeMove move frame rest thread).nextId = thread.nextId := by
    cases move <;> exact ⟨_, rfl, rfl, rfl, rfl, rfl, rfl⟩
  rcases kept with ⟨moved, stack, sameId, sameSandbox, sameRecord, sameBuffer, sameNext⟩
  refine ⟨?_, ?_, linked_move phase linked, ?_⟩
  · rw [stack, sameNext]
    refine List.forall_mem_cons.mpr ⟨?_, (List.forall_mem_cons.mp fresh).2⟩
    rw [sameId]
    exact (List.forall_mem_cons.mp fresh).1
  · rw [stack, sameBuffer]
    refine List.forall_mem_cons.mpr ⟨?_, (List.forall_mem_cons.mp buffer).2⟩
    rw [sameId, sameSandbox, sameRecord]
    exact (List.forall_mem_cons.mp buffer).1
  · rw [stack]
    exact waiting

variable [DecidableEq Sandbox] [DecidableEq Library]

theorem invariant_invoke (holds : Invariant library thread) {sandbox : Sandbox}
    (allowed : mayInvoke thread.stack sandbox = true) :
    Invariant library (thread.invoke library sandbox) := by
  constructor
  · intro frame member
    rcases List.mem_cons.mp member with same | older
    · rw [same]
      exact Nat.lt_succ_self _
    · rcases List.mem_map.mp older with ⟨before, present, same⟩
      rw [← same]
      exact Nat.lt_succ_of_lt (holds.fresh before present)
  · intro frame member
    rcases List.mem_cons.mp member with same | older
    · rw [same]
      simp [invoke]
    · rcases List.mem_map.mp older with ⟨before, present, same⟩
      rw [← same]
      by_cases shared : library before.sandbox = library sandbox
      · have different : thread.nextId ≠ before.id := Nat.ne_of_gt (holds.fresh before present)
        simp [invoke, shared, different]
      · simp [invoke, shared, holds.buffer before present]
  · rw [invoke, Linked, if_pos (Or.inl rfl)]
    exact (linked_map _ _ _).mpr holds.linked
  · intro frame member
    rcases List.mem_map.mp member with ⟨before, present, same⟩
    rw [← same]
    change before.phase ≠ .guest
    cases stack : thread.stack with
    | nil =>
        rw [stack] at present
        cases present
    | cons top rest =>
        rw [stack] at present allowed
        rcases List.mem_cons.mp present with first | later
        · intro guest
          rw [first] at guest
          simp [mayInvoke, guest] at allowed
        · refine holds.waiting before ?_
          rw [stack]
          exact later

/-- What a step can be. -/
inductive Stepped (library : Sandbox -> Library) (thread : Thread Sandbox Library) :
    InvokeEvent Sandbox -> Thread Sandbox Library -> Prop
  | invoke (sandbox : Sandbox) (allowed : mayInvoke thread.stack sandbox = true) :
      Stepped library thread (.invoke sandbox) (thread.invoke library sandbox)
  | move (move : Move) (frame : Frame Sandbox) (rest : List (Frame Sandbox))
      (top : thread.stack = frame :: rest) (phase : frame.phase = move.source) :
      Stepped library thread (.move move) (makeMove move frame rest thread)
  | finish (frame : Frame Sandbox) (rest : List (Frame Sandbox))
      (top : thread.stack = frame :: rest) (phase : frame.phase = .restored) :
      Stepped library thread .finish { thread with stack := rest }
  | trap (frame : Frame Sandbox) (rest : List (Frame Sandbox))
      (top : thread.stack = frame :: rest) (phase : frame.phase = .guest) :
      Stepped library thread .trap
        { thread with landed := some (thread.jmpBuf (library frame.sandbox)) }

variable {next : Thread Sandbox Library} {event : InvokeEvent Sandbox}

theorem stepped (took : (system library).step thread event = some next) :
    thread.landed = none ∧ Stepped library thread event next := by
  change step library thread event = some next at took
  unfold step at took
  split at took
  · cases took
  rename_i running
  refine ⟨Option.not_isSome_iff_eq_none.mp running, ?_⟩
  split at took
  · split at took
    · cases took
      exact .invoke _ ‹_›
    · cases took
  · rename_i move frame rest top
    split at took
    · cases took
      exact .move move frame rest top ‹_›
    · cases took
  · rename_i frame rest top
    split at took
    · cases took
      exact .finish frame rest top ‹_›
    · cases took
  · rename_i frame rest top
    split at took
    · cases took
      exact .trap frame rest top ‹_›
    · cases took
  · cases took

theorem invariant_step (holds : Invariant library thread)
    (took : (system library).step thread event = some next) : Invariant library next := by
  rcases stepped took with ⟨_running, kind⟩
  cases kind with
  | invoke sandbox allowed => exact invariant_invoke holds allowed
  | move move frame rest top phase => exact invariant_move holds top phase
  | finish frame rest top phase =>
      rcases holds with ⟨fresh, buffer, linked, waiting⟩
      rw [top] at fresh buffer linked waiting
      rw [Linked, if_pos (Or.inr phase)] at linked
      exact ⟨(List.forall_mem_cons.mp fresh).2, (List.forall_mem_cons.mp buffer).2, linked,
        fun other member => waiting other (List.mem_of_mem_tail member)⟩
  | trap frame rest top phase =>
      exact ⟨holds.fresh, holds.buffer, holds.linked, holds.waiting⟩

/-! ## Discipline of runs -/

theorem step_disciplined_iff (holds : Invariant library thread)
    (disciplined : Disciplined library thread)
    (took : (system library).step thread event = some next) :
    Disciplined library next ↔ thread.NotReentered event := by
  have nextHolds := invariant_step holds took
  rcases stepped took with ⟨running, kind⟩
  cases kind with
  | invoke sandbox allowed =>
      refine iff_of_true ((nextHolds.disciplined_iff rfl).mpr fun frame runs => ?_) ?_
      · exact absurd runs (not_guestRuns rfl (fun same => by cases same) frame)
      · rintro (same | same) <;> cases same
  | move move frame rest top phase =>
      have kept : (makeMove move frame rest thread).landed = none := by
        cases move <;> exact running
      rw [nextHolds.disciplined_iff kept]
      cases move with
      | call =>
          constructor
          · intro unrecorded _entering other below same
            cases top.symm.trans same
            exact unrecorded { frame with phase := .guest } ⟨⟨rest, rfl⟩, rfl⟩
          · rintro permitted other ⟨⟨below, same⟩, _guest⟩
            cases same
            exact permitted (Or.inl rfl) frame rest top
      | callbackReturn =>
          constructor
          · intro unrecorded _entering other below same
            cases top.symm.trans same
            exact unrecorded { frame with phase := .guest } ⟨⟨rest, rfl⟩, rfl⟩
          · rintro permitted other ⟨⟨below, same⟩, _guest⟩
            cases same
            exact permitted (Or.inr rfl) frame rest top
      | enter | callback | guestReturn | restore =>
          refine iff_of_true (fun other runs => ?_) (by rintro (same | same) <;> cases same)
          exact absurd runs (not_guestRuns rfl (fun same => by cases same) other)
  | finish frame rest top phase =>
      refine iff_of_true ((nextHolds.disciplined_iff running).mpr ?_) ?_
      · rintro other ⟨⟨below, same⟩, guest⟩
        refine absurd guest (holds.waiting other ?_)
        rw [top]
        change other ∈ rest
        rw [show rest = other :: below from same]
        exact List.mem_cons_self
      · rintro (same | same) <;> cases same
  | trap frame rest top phase =>
      refine iff_of_true ⟨disciplined.target, disciplined.current, fun target landed => ?_⟩ ?_
      · cases landed
        exact ⟨frame, rest, top, disciplined.target frame ⟨⟨rest, top⟩, phase⟩⟩
      · rintro (same | same) <;> cases same

/-- Whatever is invoked, guest code runs with its own sandbox current. -/
theorem currThreadSandbox_always (current : Option Sandbox) (jmpBuf : Library -> Option Nat)
    (events : List (InvokeEvent Sandbox)) :
    (system library).Always
      (fun thread => forall frame, thread.GuestRuns frame ->
        thread.currThreadSandbox = some frame.sandbox)
      (start current jmpBuf) events :=
  System.always_of_eachStep (fun _thread _event _next holds _any took => invariant_step holds took)
    (fun _thread holds _frame runs => holds.current runs)
    (@invariant_start Sandbox Library library current jmpBuf) (System.eachStep_true _ _)

/-- In every run, traps find the innermost invocation throughout exactly when
guest code is only started and resumed in invocations not re-entered. -/
theorem trap_discipline_iff (library : Sandbox -> Library) (current : Option Sandbox)
    (jmpBuf : Library -> Option Nat) (events : List (InvokeEvent Sandbox)) :
    (system library).Always (Disciplined library) (start current jmpBuf) events ↔
      (system library).EachStep NotReentered (start current jmpBuf) events := by
  refine System.always_iff_eachStep
    (fun _thread _event _next holds took => invariant_step holds took)
    (fun _thread _event _next holds disciplined took =>
      step_disciplined_iff holds disciplined took)
    (invariant_start current jmpBuf) ?_
  refine ((invariant_start current jmpBuf).disciplined_iff rfl).mpr fun frame runs => ?_
  rcases runs with ⟨⟨rest, top⟩, _guest⟩
  cases top

/-- An invocation with an allocated argument: the guest's `malloc` returns, and
the guest function then traps. -/
def allocateThenTrap : List (InvokeEvent Unit) :=
  [.invoke (), .invoke (), .move .enter, .move .call, .move .guestReturn, .move .restore, .finish,
    .move .enter, .move .call, .trap]

/-- The trap jumps to the finished invocation of `malloc`. -/
theorem trap_jumps_to_finished :
    ∃ last, (system (fun _ : Unit => ())).run (start none fun _ => none) allocateThenTrap =
        some last ∧
      last.landed = some (some 1) ∧ last.stack.map Frame.id = [0] ∧
      ¬ Disciplined (fun _ => ()) last := by
  refine ⟨_, rfl, rfl, rfl, fun disciplined => ?_⟩
  rcases disciplined.landing (some 1) rfl with ⟨frame, rest, stack, target⟩
  cases stack
  cases target

end Thread

end Host
end WasmSandboxing
