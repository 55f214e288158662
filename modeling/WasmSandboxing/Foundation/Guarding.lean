import WasmSandboxing.Foundation.Emitting

namespace WasmSandboxing
namespace Foundation
namespace Emitting

/-!
# What a computation lets out

Where every item is judged by itself, the items before it need not be kept in
mind: from a state of a kind a computation emits items of a kind only, gives
results of a kind only, and ends in a state of that kind again.
-/

variable {State Item Error First Second Result : Type}

def Guards (kept : State -> Prop) (fine : Item -> Prop)
    (computation : Emitting State Item Error Result) (post : Result -> Prop) : Prop :=
  forall state, kept state ->
    (forall item, item ∈ (computation.run state).1 -> fine item) ∧
      forall result after, (computation.run state).2 = .ok (result, after) ->
        post result ∧ kept after

variable {kept : State -> Prop} {fine : Item -> Prop} {post : Result -> Prop}

theorem Guards.mono {stronger : Result -> Prop} {computation : Emitting State Item Error Result}
    (guards : Guards kept fine computation stronger)
    (weaken : forall result, stronger result -> post result) :
    Guards kept fine computation post :=
  fun state holds => ⟨(guards state holds).1, fun result after same =>
    ((guards state holds).2 result after same).imp_left (weaken result)⟩

/-- What a computation frames, it guards. -/
theorem Frames.guards {Kept : Type} {quiet : Item -> Prop} {value : State -> Kept}
    {computation : Emitting State Item Error Result} (frames : Frames quiet value computation)
    (isFine : forall item, quiet item -> fine item)
    (same : forall state after, value after = value state -> kept state -> kept after) :
    Guards kept fine computation fun _ => True :=
  fun state holds => ⟨fun item isMember => isFine item ((frames state).1 item isMember),
    fun result after ran =>
      ⟨trivial, same state after ((frames state).2 result after ran) holds⟩⟩

theorem guards_pure {result : Result} (holds : post result) :
    Guards kept fine (Pure.pure result : Emitting State Item Error Result) post := by
  refine fun state isKept => ⟨fun _ isMember => (List.not_mem_nil isMember).elim, fun found after same => ?_⟩
  cases same
  exact ⟨holds, isKept⟩

theorem guards_bind {first : Emitting State Item Error First}
    {later : First -> Emitting State Item Error Second} {middle : First -> Prop}
    {post : Second -> Prop} (here : Guards kept fine first middle)
    (there : forall value, middle value -> Guards kept fine (later value) post) :
    Guards kept fine (first >>= later) post := by
  intro state isKept
  have guarded := here state isKept
  cases ran : first.run state with
  | mk items result =>
      rw [ran] at guarded
      rcases result with error | ⟨value, after⟩
      · rw [run_bind_error ran]
        exact ⟨guarded.1, fun result after same => by cases same⟩
      · rw [run_bind_ok ran]
        rcases guarded.2 value after rfl with ⟨holds, keptAfter⟩
        have behind := there value holds after keptAfter
        refine ⟨fun item isMember => ?_, behind.2⟩
        rcases List.mem_append.mp isMember with isMember | isMember
        · exact guarded.1 item isMember
        · exact behind.1 item isMember

theorem guards_fail {error : Error} :
    Guards kept fine (fail error : Emitting State Item Error Result) post :=
  fun _ _ => ⟨fun _ isMember => (List.not_mem_nil isMember).elim, fun result after same => by cases same⟩

theorem guards_emit {item : State -> Item} (isFine : forall state, kept state -> fine (item state)) :
    Guards kept fine (emit item : Emitting State Item Error Unit) fun _ => True := by
  refine fun state isKept => ⟨fun found isMember => ?_, fun result after same => ?_⟩
  · rw [List.mem_singleton.mp isMember]
    exact isFine state isKept
  · cases same
    exact ⟨trivial, isKept⟩

theorem guards_get {value : State -> Result} :
    Guards kept fine (get value : Emitting State Item Error Result)
      fun result => exists state, kept state ∧ result = value state := by
  refine fun state isKept => ⟨fun _ isMember => (List.not_mem_nil isMember).elim, fun found after same => ?_⟩
  cases same
  exact ⟨⟨state, isKept, rfl⟩, isKept⟩

theorem guards_modify {change : State -> State}
    (keeps : forall state, kept state -> kept (change state)) :
    Guards kept fine (modify change : Emitting State Item Error Unit) fun _ => True := by
  refine fun state isKept => ⟨fun _ isMember => (List.not_mem_nil isMember).elim, fun found after same => ?_⟩
  cases same
  exact ⟨trivial, keeps state isKept⟩

theorem guards_step {next : State -> Except Error (Result × State)}
    (keeps : forall state result after, kept state -> next state = .ok (result, after) ->
      post result ∧ kept after) :
    Guards kept fine (step next : Emitting State Item Error Result) post :=
  fun state isKept => ⟨fun _ isMember => (List.not_mem_nil isMember).elim, fun result after same =>
    keeps state result after isKept same⟩

theorem guards_check {holds : Bool} {error : Error} :
    Guards kept fine (check holds error : Emitting State Item Error Unit)
      fun _ => holds = true := by
  cases holds with
  | true => exact guards_pure rfl
  | false => exact guards_fail

theorem guards_repeated {body : Nat -> Emitting State Item Error Unit}
    (round : forall index, Guards kept fine (body index) fun _ => True) (count index : Nat) :
    Guards kept fine (repeated body count index) fun _ => True := by
  induction count generalizing index with
  | zero => exact guards_pure trivial
  | succ count inductionHypothesis =>
      exact guards_bind (round index) fun _ _ => inductionHypothesis (index + 1)

theorem guards_collected {body : Nat -> Emitting State Item Error Result}
    (round : forall index, Guards kept fine (body index) post) (count index : Nat) :
    Guards kept fine (collected body count index)
      fun results => results.length = count ∧ forall result, result ∈ results -> post result := by
  induction count generalizing index with
  | zero => exact guards_pure ⟨rfl, fun _ isMember => (List.not_mem_nil isMember).elim⟩
  | succ count inductionHypothesis =>
      refine guards_bind (round index) fun first holds => ?_
      refine guards_bind (inductionHypothesis (index + 1)) fun rest others => ?_
      refine guards_pure ⟨congrArg (· + 1) others.1, fun result isMember => ?_⟩
      rcases List.mem_cons.mp isMember with rfl | isMember
      · exact holds
      · exact others.2 result isMember

theorem guards_ite {holds : Prop} [Decidable holds]
    {first second : Emitting State Item Error Result}
    (here : holds -> Guards kept fine first post)
    (there : ¬ holds -> Guards kept fine second post) :
    Guards kept fine (if holds then first else second) post := by
  split
  · rename_i yes
    exact here yes
  · rename_i no
    exact there no

end Emitting
end Foundation
end WasmSandboxing
