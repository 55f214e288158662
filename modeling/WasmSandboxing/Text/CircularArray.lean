import WasmSandboxing.Foundation.Transition
import Mathlib.Data.Nat.ModEq
import Mathlib.Logic.Function.Basic

namespace WasmSandboxing
namespace Text

open Foundation

/-!
# Circular arrays

`circular-array.h`, which keeps the tokens that the parser looks ahead at.  An
array of a fixed capacity holds a sequence from a front position on, around
its end.  The values of the slots behind the sequence are of no use, and a slot
that the sequence leaves is given the value of a new object.
-/

/-- `CircularArray<T, kCapacity>`, whose capacity must be a power of two. -/
structure CircularArray (Element : Type) (exponent : Nat) where
  contents : Fin (2 ^ exponent) -> Element
  size : Nat
  front : Nat

namespace CircularArray

variable {Element : Type} {exponent : Nat}

def kCapacity (exponent : Nat) : Nat := 2 ^ exponent

def kMask (exponent : Nat) : Nat := kCapacity exponent - 1

theorem masked (exponent number : Nat) : number &&& kMask exponent = number % 2 ^ exponent :=
  Nat.and_two_pow_sub_one_eq_mod number exponent

/-- `position` -/
def position (array : CircularArray Element exponent) (index : Nat) : Fin (2 ^ exponent) :=
  ⟨(array.front + index) &&& kMask exponent,
    masked exponent _ ▸ Nat.mod_lt _ (Nat.two_pow_pos exponent)⟩

/-- The constructor leaves the slots as its elements are made. -/
def constructed (made : Fin (2 ^ exponent) -> Element) : CircularArray Element exponent :=
  ⟨made, 0, 0⟩

/-- `operator[]` -/
def element (array : CircularArray Element exponent) (index : Nat) : Element :=
  array.contents (array.position index)

/-- `at`, whose assertion may fail. -/
def at_ (array : CircularArray Element exponent) (index : Nat) : Option Element :=
  if index < array.size then some (array.element index) else none

def empty (array : CircularArray Element exponent) : Bool := array.size == 0

/-- `size_ - 1` is no index where there are no elements. -/
def back (array : CircularArray Element exponent) : Option Element :=
  if array.size = 0 then none else array.at_ (array.size - 1)

def front_ (array : CircularArray Element exponent) : Option Element := array.at_ 0

/-- `SetElement` -/
def setElement (array : CircularArray Element exponent) (index : Nat) (value : Element) :
    CircularArray Element exponent :=
  { array with contents := Function.update array.contents (array.position index) value }

/-- What `pop_back` does to an array that is not empty; `reset` is a new object. -/
def removeBack (reset : Element) (array : CircularArray Element exponent) :
    CircularArray Element exponent :=
  let emptied := array.setElement (array.size - 1) reset
  { emptied with size := emptied.size - 1 }

def popBack (reset : Element) (array : CircularArray Element exponent) :
    Option (CircularArray Element exponent) :=
  if 0 < array.size then some (array.removeBack reset) else none

def popFront (reset : Element) (array : CircularArray Element exponent) :
    Option (CircularArray Element exponent) :=
  if 0 < array.size then
    let emptied := array.setElement 0 reset
    some { emptied with
      front := (emptied.front + 1) &&& kMask exponent
      size := emptied.size - 1 }
  else none

def pushBack (array : CircularArray Element exponent) (value : Element) :
    Option (CircularArray Element exponent) :=
  if array.size < kCapacity exponent then
    some ({ array with size := array.size + 1 }.setElement array.size value)
  else none

def clear (reset : Element) (array : CircularArray Element exponent) :
    CircularArray Element exponent :=
  if 0 < array.size then clear reset (array.removeBack reset) else array
termination_by array.size
decreasing_by exact Nat.sub_lt ‹0 < array.size› Nat.one_pos

/-- An assignment through the reference that `at` gives. -/
def assignAt (array : CircularArray Element exponent) (index : Nat) (value : Element) :
    Option (CircularArray Element exponent) :=
  if index < array.size then some (array.setElement index value) else none

/-! ## Slots -/

/-- The slots of the sequence. -/
def live (array : CircularArray Element exponent) (slot : Fin (2 ^ exponent)) : Bool :=
  (List.range array.size).any fun index => array.position index == slot

theorem live_iff (array : CircularArray Element exponent) (slot : Fin (2 ^ exponent)) :
    array.live slot = true ↔ ∃ index, index < array.size ∧ array.position index = slot := by
  simp only [live, List.any_eq_true, List.mem_range, beq_iff_eq]

theorem position_val (array : CircularArray Element exponent) (index : Nat) :
    (array.position index).val = (array.front + index) % 2 ^ exponent :=
  masked exponent _

/-- Different indices within the capacity have different slots. -/
theorem position_ne (array : CircularArray Element exponent) {first second : Nat}
    (below : first < 2 ^ exponent) (above : second < 2 ^ exponent) (differ : first ≠ second) :
    array.position first ≠ array.position second := by
  intro same
  have congruent := congrArg Fin.val same
  rw [position_val, position_val] at congruent
  have cancelled : first % 2 ^ exponent = second % 2 ^ exponent :=
    Nat.ModEq.add_left_cancel' array.front congruent
  rw [Nat.mod_eq_of_lt below, Nat.mod_eq_of_lt above] at cancelled
  exact differ cancelled

theorem setElement_at (array : CircularArray Element exponent) (index : Nat) (value : Element) :
    (array.setElement index value).element index = value :=
  Function.update_self ..

theorem setElement_ne (array : CircularArray Element exponent) {index other : Nat}
    (value : Element) (below : index < 2 ^ exponent) (above : other < 2 ^ exponent)
    (differ : other ≠ index) :
    (array.setElement index value).element other = array.element other :=
  Function.update_of_ne (array.position_ne above below differ) ..

/-! ## The deque of an array -/

/-- The array holds the sequence from its front on. -/
structure Represents (deque : List Element) (array : CircularArray Element exponent) : Prop where
  size : array.size = deque.length
  fits : deque.length ≤ kCapacity exponent
  front : array.front < kCapacity exponent
  holds : forall index, index < deque.length -> deque[index]? = some (array.element index)

/-- A slot that the sequence leaves is reset, and a slot that is reset stays so
until the sequence enters it. -/
def Vacates (reset : Element) (before after : CircularArray Element exponent) : Prop :=
  forall slot, after.live slot = false ->
    (before.live slot = true ∨ before.contents slot = reset) -> after.contents slot = reset

theorem Vacates.trans {reset : Element} {before middle after : CircularArray Element exponent}
    (first : Vacates reset before middle) (second : Vacates reset middle after) :
    Vacates reset before after := by
  intro slot gone was
  cases entered : middle.live slot with
  | true => exact second slot gone (Or.inl entered)
  | false => exact second slot gone (Or.inr (first slot entered was))

theorem Vacates.refl (reset : Element) (array : CircularArray Element exponent) :
    Vacates reset array array := by
  intro slot gone was
  rcases was with live | same
  · exact absurd (live.symm.trans gone) nofun
  · exact same

/-- Where a slot of an index is reset and the slots of the others stay, nothing else is vacated. -/
theorem vacates_of_setElement {reset : Element} {array after : CircularArray Element exponent}
    {index : Nat} (contents : after.contents = (array.setElement index reset).contents)
    (keeps : forall slot, array.live slot = true -> after.live slot = false ->
      array.position index = slot) : Vacates reset array after := by
  intro slot gone was
  rw [contents]
  by_cases same : slot = array.position index
  · rw [same]
    exact Function.update_self ..
  · refine (Function.update_of_ne same ..).trans ?_
    rcases was with live | is_reset
    · exact absurd (keeps slot live gone).symm same
    · exact is_reset

section Operations

variable {deque : List Element} {array : CircularArray Element exponent} {reset value : Element}

theorem Represents.constructed (made : Fin (2 ^ exponent) -> Element) :
    Represents [] (CircularArray.constructed made) where
  size := rfl
  fits := Nat.zero_le _
  front := Nat.two_pow_pos exponent
  holds := fun _index inside => absurd inside (Nat.not_lt_zero _)

theorem Represents.pushBack (holds : Represents deque array)
    (room : deque.length < kCapacity exponent) (value : Element) :
    ∃ after, array.pushBack value = some after ∧ Represents (deque ++ [value]) after ∧
      Vacates reset array after := by
  have roomy : array.size < kCapacity exponent := holds.size ▸ room
  refine ⟨_, if_pos roomy, ⟨?_, ?_, holds.front, ?_⟩, ?_⟩
  · rw [List.length_append, ← holds.size]
    rfl
  · rw [List.length_append]
    exact room
  · intro index inside
    rw [List.length_append, List.length_singleton] at inside
    rcases Nat.lt_or_eq_of_le (Nat.le_of_lt_succ inside) with earlier | rfl
    · rw [List.getElem?_append_left earlier, holds.holds index earlier]
      refine congrArg some (setElement_ne _ value roomy (Nat.lt_trans earlier room) ?_).symm
      rw [holds.size]
      exact Nat.ne_of_lt earlier
    · rw [List.getElem?_append_right (Nat.le_refl _), Nat.sub_self, ← holds.size]
      exact congrArg some (setElement_at ..).symm
  · intro slot gone was
    have outside : forall index, index < array.size + 1 -> array.position index ≠ slot := by
      intro index inside same
      exact Bool.eq_false_iff.mp gone ((live_iff _ slot).mpr ⟨index, inside, same⟩)
    refine (Function.update_of_ne (outside array.size (Nat.lt_succ_self _)).symm ..).trans ?_
    rcases was with live | is_reset
    · rcases (live_iff _ slot).mp live with ⟨index, inside, same⟩
      exact absurd same (outside index (Nat.lt_succ_of_lt inside))
    · exact is_reset

theorem Represents.removeBack (holds : Represents deque array) (some_ : 0 < deque.length)
    (reset : Element) :
    Represents deque.dropLast (array.removeBack reset) ∧
      Vacates reset array (array.removeBack reset) := by
  have last : array.size - 1 < array.size := Nat.sub_lt (holds.size ▸ some_) Nat.one_pos
  have capacity : array.size ≤ kCapacity exponent := holds.size ▸ holds.fits
  refine ⟨⟨?_, ?_, holds.front, ?_⟩, vacates_of_setElement rfl ?_⟩
  · rw [List.length_dropLast, ← holds.size]
    rfl
  · rw [List.length_dropLast]
    exact Nat.le_trans (Nat.sub_le _ _) holds.fits
  · intro index inside
    rw [List.length_dropLast] at inside
    have before : index < deque.length := Nat.lt_of_lt_of_le inside (Nat.sub_le _ _)
    rw [List.getElem?_dropLast, if_pos inside, holds.holds index before]
    rw [← holds.size] at inside before
    exact congrArg some (setElement_ne array reset (Nat.lt_of_lt_of_le last capacity)
      (Nat.lt_of_lt_of_le before capacity) (Nat.ne_of_lt inside)).symm
  · intro slot live gone
    rcases (live_iff _ slot).mp live with ⟨index, inside, same⟩
    by_cases earlier : index < array.size - 1
    · exact absurd ((live_iff (array.removeBack reset) slot).mpr ⟨index, earlier, same⟩)
        (Bool.eq_false_iff.mp gone)
    · rw [← same, show index = array.size - 1 by omega]

theorem Represents.popBack (holds : Represents deque array) (some_ : 0 < deque.length) :
    ∃ after, array.popBack reset = some after ∧ Represents deque.dropLast after ∧
      Vacates reset array after :=
  ⟨_, if_pos (holds.size ▸ some_), holds.removeBack some_ reset⟩

/-- The slots from the second one on are those of the array with the next front. -/
theorem position_next (array : CircularArray Element exponent) (contents : Fin (2 ^ exponent) -> Element)
    (size index : Nat) :
    position ⟨contents, size, (array.front + 1) &&& kMask exponent⟩ index =
      array.position (index + 1) := by
  apply Fin.ext
  rw [position_val, position_val, masked, Nat.mod_add_mod, Nat.add_assoc, Nat.add_comm 1]

theorem Represents.popFront (holds : Represents deque array) (some_ : 0 < deque.length) :
    ∃ after, array.popFront reset = some after ∧ Represents deque.tail after ∧
      Vacates reset array after := by
  have positive : 0 < array.size := holds.size ▸ some_
  have capacity : array.size ≤ kCapacity exponent := holds.size ▸ holds.fits
  refine ⟨_, if_pos positive, ⟨?_, ?_, ?_, ?_⟩, vacates_of_setElement rfl ?_⟩
  · rw [List.length_tail, ← holds.size]
    rfl
  · rw [List.length_tail]
    exact Nat.le_trans (Nat.sub_le _ _) holds.fits
  · dsimp only
    rw [masked]
    exact Nat.mod_lt _ (Nat.two_pow_pos exponent)
  · intro index inside
    rw [List.length_tail] at inside
    have before : index + 1 < deque.length := by omega
    rw [List.getElem?_tail, holds.holds _ before]
    rw [← holds.size] at before
    refine congrArg some ?_
    rw [element, element, position_next]
    exact (setElement_ne array reset (Nat.lt_of_lt_of_le positive capacity)
      (Nat.lt_of_lt_of_le before capacity) (Nat.succ_ne_zero index)).symm
  · intro slot live gone
    rcases (live_iff _ slot).mp live with ⟨index, inside, same⟩
    cases index with
    | zero => exact same
    | succ index =>
        refine absurd ((live_iff _ slot).mpr ⟨index, ?_, (position_next array _ _ index).trans same⟩)
          (Bool.eq_false_iff.mp gone)
        exact Nat.lt_sub_of_add_lt inside

theorem Represents.assignAt (holds : Represents deque array) {index : Nat}
    (inside : index < deque.length) (value : Element) :
    ∃ after, array.assignAt index value = some after ∧ Represents (deque.set index value) after ∧
      Vacates reset array after := by
  have within : index < array.size := holds.size ▸ inside
  have capacity : array.size ≤ kCapacity exponent := holds.size ▸ holds.fits
  refine ⟨_, if_pos within, ⟨?_, ?_, holds.front, ?_⟩, ?_⟩
  · rw [List.length_set, ← holds.size]
    rfl
  · rw [List.length_set]
    exact holds.fits
  · intro other otherInside
    rw [List.length_set] at otherInside
    by_cases same : index = other
    · rw [← same, List.getElem?_set_self inside]
      exact congrArg some (setElement_at ..).symm
    · rw [List.getElem?_set_ne same, holds.holds other otherInside]
      rw [← holds.size] at otherInside
      exact congrArg some (setElement_ne array value (Nat.lt_of_lt_of_le within capacity)
        (Nat.lt_of_lt_of_le otherInside capacity) (Ne.symm same)).symm
  · intro slot gone was
    have outside : array.position index ≠ slot := fun same =>
      Bool.eq_false_iff.mp gone ((live_iff _ slot).mpr ⟨index, within, same⟩)
    refine (Function.update_of_ne outside.symm ..).trans ?_
    rcases was with live | is_reset
    · exact absurd (live.symm.trans gone) nofun
    · exact is_reset

theorem Represents.clear (holds : Represents deque array) :
    Represents [] (array.clear reset) ∧ Vacates reset array (array.clear reset) := by
  induction length : array.size generalizing deque array with
  | zero =>
      rw [CircularArray.clear, if_neg (by omega)]
      have empty : deque = [] := List.length_eq_zero_iff.mp (holds.size.symm.trans length)
      exact ⟨empty ▸ holds, Vacates.refl reset array⟩
  | succ size inductionHypothesis =>
      rw [CircularArray.clear, if_pos (by omega)]
      have some_ : 0 < deque.length := by
        rw [← holds.size]
        omega
      rcases holds.removeBack some_ reset with ⟨represents, vacates⟩
      have smaller : (array.removeBack reset).size = size := by
        change array.size - 1 = size
        omega
      rcases inductionHypothesis represents smaller with ⟨cleared, later⟩
      exact ⟨cleared, vacates.trans later⟩

end Operations

/-! ## Runs on any number of arrays -/

/-- What is done to the arrays, each by its name. -/
inductive Event (Name Element : Type) where
  | pushBack (name : Name) (value : Element)
  | popBack (name : Name)
  | popFront (name : Name)
  | clear (name : Name)
  | assignAt (name : Name) (index : Nat) (value : Element)
  | copy (name source : Name)

/-- An array and which of its slots have been vacated, which no object knows. -/
structure Tracked (Element : Type) (exponent : Nat) where
  array : CircularArray Element exponent
  vacated : Fin (2 ^ exponent) -> Bool

/-- The slots that an operation leaves are vacated until they are entered again. -/
def Tracked.changed (tracked : Tracked Element exponent)
    (after : CircularArray Element exponent) : Tracked Element exponent where
  array := after
  vacated := fun slot => !after.live slot && (tracked.array.live slot || tracked.vacated slot)

variable {Name : Type} [DecidableEq Name]

/-- The arrays by their names; an event whose assertion fails does not happen. -/
def arrays (Name : Type) [DecidableEq Name] (exponent : Nat) (reset : Element) :
    System (Name -> Tracked Element exponent) (Event Name Element) where
  step := fun state event =>
    let change := fun name (after : Option (CircularArray Element exponent)) =>
      after.map fun after => Function.update state name ((state name).changed after)
    match event with
    | .pushBack name value => change name ((state name).array.pushBack value)
    | .popBack name => change name ((state name).array.popBack reset)
    | .popFront name => change name ((state name).array.popFront reset)
    | .clear name => change name (some ((state name).array.clear reset))
    | .assignAt name index value => change name ((state name).array.assignAt index value)
    | .copy name source => some (Function.update state name (state source))

/-- Deques of at most `kCapacity` elements. -/
def deques (Name : Type) [DecidableEq Name] (exponent : Nat) :
    System (Name -> List Element) (Event Name Element) where
  step := fun state event =>
    match event with
    | .pushBack name value =>
        if (state name).length < kCapacity exponent then
          some (Function.update state name (state name ++ [value]))
        else none
    | .popBack name =>
        if 0 < (state name).length then
          some (Function.update state name (state name).dropLast)
        else none
    | .popFront name =>
        if 0 < (state name).length then some (Function.update state name (state name).tail)
        else none
    | .clear name => some (Function.update state name [])
    | .assignAt name index value =>
        if index < (state name).length then
          some (Function.update state name ((state name).set index value))
        else none
    | .copy name source => some (Function.update state name (state source))

/-- A tracked array of a deque, whose vacated slots are reset. -/
structure Tracks (reset : Element) (deque : List Element) (tracked : Tracked Element exponent) :
    Prop where
  represents : Represents deque tracked.array
  vacated : forall slot, tracked.vacated slot = true ->
    tracked.array.live slot = false ∧ tracked.array.contents slot = reset

theorem Tracks.changed {reset : Element} {deque next : List Element}
    {tracked : Tracked Element exponent} {after : CircularArray Element exponent}
    (tracks : Tracks reset deque tracked) (represents : Represents next after)
    (vacates : Vacates reset tracked.array after) : Tracks reset next (tracked.changed after) := by
  refine ⟨represents, fun slot vacated => ?_⟩
  rw [Tracked.changed, Bool.and_eq_true, Bool.not_eq_true', Bool.or_eq_true] at vacated
  refine ⟨vacated.1, vacates slot vacated.1 ?_⟩
  rcases vacated.2 with live | before
  · exact Or.inl live
  · exact Or.inr (tracks.vacated slot before).2

theorem tracks_update {reset : Element} {deques : Name -> List Element}
    {state : Name -> Tracked Element exponent}
    (tracks : forall name, Tracks reset (deques name) (state name)) {changed : Name}
    {deque : List Element} {tracked : Tracked Element exponent}
    (now : Tracks reset deque tracked) (name : Name) :
    Tracks reset (Function.update deques changed deque name)
      (Function.update state changed tracked name) := by
  by_cases same : name = changed
  · rw [same, Function.update_self, Function.update_self]
    exact now
  · rw [Function.update_of_ne same, Function.update_of_ne same]
    exact tracks name

/-- What happens to the arrays happens to their deques. -/
theorem deques_step {reset : Element} {state next : Name -> Tracked Element exponent}
    {sequences : Name -> List Element}
    (tracks : forall name, Tracks reset (sequences name) (state name))
    {event : Event Name Element}
    (stepped : (arrays Name exponent reset).step state event = some next) :
    ∃ after, (deques Name exponent).step sequences event = some after ∧
      forall name, Tracks reset (after name) (next name) := by
  cases event with
  | pushBack name value =>
      rcases Option.map_eq_some_iff.mp stepped with ⟨after, pushed, rfl⟩
      have room := (Option.ite_none_right_eq_some.mp pushed).1
      rw [(tracks name).represents.size] at room
      rcases (tracks name).represents.pushBack room value with ⟨_, same, represents, vacates⟩
      cases pushed.symm.trans same
      exact ⟨_, if_pos room, tracks_update tracks ((tracks name).changed represents vacates)⟩
  | popBack name =>
      rcases Option.map_eq_some_iff.mp stepped with ⟨after, popped, rfl⟩
      have some_ := (Option.ite_none_right_eq_some.mp popped).1
      rw [(tracks name).represents.size] at some_
      rcases (tracks name).represents.popBack some_ with ⟨_, same, represents, vacates⟩
      cases popped.symm.trans same
      exact ⟨_, if_pos some_, tracks_update tracks ((tracks name).changed represents vacates)⟩
  | popFront name =>
      rcases Option.map_eq_some_iff.mp stepped with ⟨after, popped, rfl⟩
      have some_ := (Option.ite_none_right_eq_some.mp popped).1
      rw [(tracks name).represents.size] at some_
      rcases (tracks name).represents.popFront some_ with ⟨_, same, represents, vacates⟩
      cases popped.symm.trans same
      exact ⟨_, if_pos some_, tracks_update tracks ((tracks name).changed represents vacates)⟩
  | clear name =>
      cases stepped
      rcases (tracks name).represents.clear with ⟨represents, vacates⟩
      exact ⟨_, rfl, tracks_update tracks ((tracks name).changed represents vacates)⟩
  | assignAt name index value =>
      rcases Option.map_eq_some_iff.mp stepped with ⟨after, assigned, rfl⟩
      have inside := (Option.ite_none_right_eq_some.mp assigned).1
      rw [(tracks name).represents.size] at inside
      rcases (tracks name).represents.assignAt inside value with ⟨_, same, represents, vacates⟩
      cases assigned.symm.trans same
      exact ⟨_, if_pos inside, tracks_update tracks ((tracks name).changed represents vacates)⟩
  | copy name source =>
      cases stepped
      exact ⟨_, rfl, tracks_update tracks (tracks source)⟩

/-! ## What is read -/

/-- Every way to read an array gives what its deque has there. -/
structure Agrees (deque : List Element) (array : CircularArray Element exponent) : Prop where
  size : array.size = deque.length
  fits : array.size ≤ kCapacity exponent
  front : array.front < kCapacity exponent
  empty : array.empty = deque.isEmpty
  at_ : forall index, array.at_ index = deque[index]?
  element : forall index, index < deque.length -> deque[index]? = some (array.element index)
  front_ : array.front_ = deque.head?
  back : array.back = deque.getLast?

theorem Represents.agrees {deque : List Element} {array : CircularArray Element exponent}
    (holds : Represents deque array) : Agrees deque array := by
  have reads : forall index, array.at_ index = deque[index]? := by
    intro index
    rw [CircularArray.at_]
    split
    · rename_i inside
      exact (holds.holds index (holds.size ▸ inside)).symm
    · rename_i outside
      exact (List.getElem?_eq_none (holds.size ▸ Nat.le_of_not_lt outside)).symm
  refine ⟨holds.size, holds.size ▸ holds.fits, holds.front, ?_, reads, holds.holds, ?_, ?_⟩
  · rw [CircularArray.empty, holds.size, Bool.eq_iff_iff, beq_iff_eq, List.isEmpty_iff,
      List.length_eq_zero_iff]
  · rw [CircularArray.front_, reads, List.head?_eq_getElem?]
  · rw [CircularArray.back, holds.size, reads, List.getLast?_eq_getElem?]
    split
    · rename_i empty
      rw [empty, List.length_eq_zero_iff.mp empty]
      rfl
    · rfl

/-- Arrays on which no assertion has failed hold the deques of the same events,
and what they have vacated is reset. -/
theorem arrays_deques (reset : Element) (made : Name -> Fin (2 ^ exponent) -> Element)
    (events : List (Event Name Element)) (last : Name -> Tracked Element exponent)
    (ran : (arrays Name exponent reset).run
      (fun name => ⟨constructed (made name), fun _slot => false⟩) events = some last) :
    ∃ sequences, (deques Name exponent).run (fun _name => []) events = some sequences ∧
      forall name, Agrees (sequences name) (last name).array ∧
        forall slot, (last name).vacated slot = true ->
          (last name).array.live slot = false ∧ (last name).array.contents slot = reset := by
  have matched : forall (state : Name -> Tracked Element exponent) sequences event next,
      (forall name, Tracks reset (sequences name) (state name)) ->
      (arrays Name exponent reset).step state event = some next ->
      ∃ after, (deques Name exponent).step sequences event = some after ∧ True ∧
        forall name, Tracks reset (after name) (next name) := by
    intro state sequences event next tracks stepped
    rcases deques_step tracks stepped with ⟨after, happens, tracked⟩
    exact ⟨after, happens, trivial, tracked⟩
  have start : forall name, Tracks reset []
      ⟨constructed (made name), fun _slot => false⟩ :=
    fun name => ⟨Represents.constructed (made name), nofun⟩
  rcases System.run_of_matched matched start ran with ⟨sequences, same, _each, tracks⟩
  exact ⟨sequences, same, fun name => ⟨(tracks name).represents.agrees, (tracks name).vacated⟩⟩

/-- The sequence goes around the end and comes back. -/
theorem arrays_deques_around :
    ∃ last, (arrays Unit 1 (0 : Nat)).run
        (fun _name => ⟨constructed fun _slot => 9, fun _slot => false⟩)
        [.pushBack () 1, .pushBack () 2, .popFront (), .pushBack () 3, .popFront ()] = some last ∧
      Agrees [3] (last ()).array ∧ (last ()).array.contents 1 = 0 := by
  rcases arrays_deques (0 : Nat) (fun (_name : Unit) (_slot : Fin (2 ^ 1)) => 9)
    [.pushBack () 1, .pushBack () 2, .popFront (), .pushBack () 3, .popFront ()] _ rfl with
    ⟨sequences, same, agrees⟩
  cases same
  exact ⟨_, rfl, (agrees ()).1, ((agrees ()).2 1 rfl).2⟩

end CircularArray

end Text
end WasmSandboxing
