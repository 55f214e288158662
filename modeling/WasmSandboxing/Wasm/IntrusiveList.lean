import Mathlib.Data.List.Nodup
import Mathlib.Logic.Function.Basic

namespace WasmSandboxing
namespace Wasm

/-!
# Intrusive lists

`intrusive-list.h`, in which fields and expressions are kept.  The links are in
the nodes, which the lists own, so that the state is that of all lists and of
the memory of all nodes.  An iterator is a node of its list, or null at the end.

What the nodes mean for a list is said by the sequence of them: the links of a
node are its neighbours there.
-/

namespace IntrusiveList

/-- `intrusive_list_base` -/
structure Links (Node : Type) where
  next : Option Node
  prev : Option Node
  deriving DecidableEq, Repr

/-- The members of an `intrusive_list`. -/
structure Ends (Node : Type) where
  first : Option Node
  last : Option Node
  size : Nat
  deriving DecidableEq, Repr

/-- All lists, and the memory of the nodes that have been made and not deleted. -/
structure Lists (Id Node : Type) where
  ends : Id -> Ends Node
  memory : Node -> Option (Links Node)

variable {Id Node : Type} [DecidableEq Id] [DecidableEq Node]

namespace Lists

/-- Before any list has been changed, and any node made. -/
def start : Lists Id Node := ⟨fun _ => ⟨none, none, 0⟩, fun _ => none⟩

/-! ## Memory -/

def setEnds (state : Lists Id Node) (list : Id) (ends : Ends Node) : Lists Id Node :=
  { state with ends := Function.update state.ends list ends }

def setFirst (state : Lists Id Node) (list : Id) (first : Option Node) : Lists Id Node :=
  state.setEnds list { state.ends list with first }

def setLast (state : Lists Id Node) (list : Id) (last : Option Node) : Lists Id Node :=
  state.setEnds list { state.ends list with last }

/-- `size_++` -/
def grow (state : Lists Id Node) (list : Id) : Lists Id Node :=
  state.setEnds list { state.ends list with size := (state.ends list).size + 1 }

/-- `size_--` -/
def shrink (state : Lists Id Node) (list : Id) : Lists Id Node :=
  state.setEnds list { state.ends list with size := (state.ends list).size - 1 }

/-- A node that is not in memory has no links. -/
def setLinks (state : Lists Id Node) (node : Node) (links : Links Node -> Links Node) :
    Option (Lists Id Node) :=
  (state.memory node).map fun before =>
    { state with memory := Function.update state.memory node (some (links before)) }

def setNext (state : Lists Id Node) (node : Node) (next : Option Node) :
    Option (Lists Id Node) :=
  state.setLinks node fun links => { links with next }

def setPrev (state : Lists Id Node) (node : Node) (prev : Option Node) :
    Option (Lists Id Node) :=
  state.setLinks node fun links => { links with prev }

/-- `new`, whose links are null. -/
def make (state : Lists Id Node) (node : Node) : Option (Lists Id Node) :=
  match state.memory node with
  | none => some { state with memory := Function.update state.memory node (some ⟨none, none⟩) }
  | some _ => none

/-- `delete` -/
def destroy (state : Lists Id Node) (node : Node) : Option (Lists Id Node) :=
  (state.memory node).map fun _ =>
    { state with memory := Function.update state.memory node none }

/-- The assertion that a node that is put into a list is not in one. -/
def checkApart (state : Lists Id Node) (node : Node) : Option Unit :=
  if state.memory node = some ⟨none, none⟩ then some () else none

/-! ## Operations -/

/-- `push_front` -/
def pushFront (state : Lists Id Node) (list : Id) (node : Node) : Option (Lists Id Node) := do
  state.checkApart node
  let state <- match (state.ends list).first with
    | some first => do
        let state <- state.setNext node (some first)
        state.setPrev first (some node)
    | none => some (state.setLast list (some node))
  some ((state.setFirst list (some node)).grow list)

/-- `push_back` -/
def pushBack (state : Lists Id Node) (list : Id) (node : Node) : Option (Lists Id Node) := do
  state.checkApart node
  let state <- match (state.ends list).last with
    | some last => do
        let state <- state.setPrev node (some last)
        state.setNext last (some node)
    | none => some (state.setFirst list (some node))
  some ((state.setLast list (some node)).grow list)

/-- Both links of a node become null, and the list has one node less. -/
def detach (state : Lists Id Node) (list : Id) (node : Node) : Option (Lists Id Node) := do
  let state <- state.setLinks node fun _ => ⟨none, none⟩
  some (state.shrink list)

/-- `extract_front`, with the node. -/
def extractFront (state : Lists Id Node) (list : Id) : Option (Node × Lists Id Node) := do
  if (state.ends list).size = 0 then none
  let node <- (state.ends list).first
  let state <-
    if (state.ends list).first = (state.ends list).last then
      some ((state.setFirst list none).setLast list none)
    else do
      let links <- state.memory node
      let first <- links.next
      (state.setFirst list (some first)).setPrev first none
  let state <- state.detach list node
  some (node, state)

/-- `extract_back`, with the node. -/
def extractBack (state : Lists Id Node) (list : Id) : Option (Node × Lists Id Node) := do
  if (state.ends list).size = 0 then none
  let node <- (state.ends list).last
  let state <-
    if (state.ends list).first = (state.ends list).last then
      some ((state.setFirst list none).setLast list none)
    else do
      let links <- state.memory node
      let last <- links.prev
      (state.setLast list (some last)).setNext last none
  let state <- state.detach list node
  some (node, state)

/-- `pop_front`, which deletes what it extracts. -/
def popFront (state : Lists Id Node) (list : Id) : Option (Lists Id Node) := do
  let (node, state) <- state.extractFront list
  state.destroy node

/-- `pop_back` -/
def popBack (state : Lists Id Node) (list : Id) : Option (Lists Id Node) := do
  let (node, state) <- state.extractBack list
  state.destroy node

/-- `insert` -/
def insert (state : Lists Id Node) (list : Id) (pos : Option Node) (node : Node) :
    Option (Lists Id Node) := do
  state.checkApart node
  match pos with
  | none => state.pushBack list node
  | some pos => do
      let links <- state.memory pos
      let state <- state.setPrev node links.prev
      let state <- state.setNext node (some pos)
      let links <- state.memory pos
      let state <- match links.prev with
        | some prev => state.setNext prev (some node)
        | none => some (state.setFirst list (some node))
      let state <- state.setPrev pos (some node)
      some (state.grow list)

/-- `extract` -/
def extract (state : Lists Id Node) (list : Id) (pos : Option Node) :
    Option (Node × Lists Id Node) := do
  if (state.ends list).size = 0 then none
  let node <- pos
  let state <-
    if (state.ends list).first = (state.ends list).last then
      some ((state.setFirst list none).setLast list none)
    else do
      let links <- state.memory node
      let state <- match links.prev with
        | some prev => state.setNext prev links.next
        | none => some (state.setFirst list links.next)
      let links <- state.memory node
      match links.next with
        | some next => state.setPrev next links.prev
        | none => some (state.setLast list links.prev)
  let state <- state.detach list node
  some (node, state)

/-- The iterator's `operator++`. -/
def following (state : Lists Id Node) (pos : Option Node) : Option (Option Node) := do
  let node <- pos
  let links <- state.memory node
  some links.next

/-- `erase` of one node, with the iterator behind it. -/
def erase (state : Lists Id Node) (list : Id) (pos : Option Node) :
    Option (Option Node × Lists Id Node) := do
  let next <- state.following pos
  let (node, state) <- state.extract list pos
  let state <- state.destroy node
  some (next, state)

/-- `erase` of a range, whose loop ends within `fuel` iterations. -/
def eraseRange (state : Lists Id Node) (list : Id) (first last : Option Node) :
    Nat -> Option (Lists Id Node)
  | 0 => none
  | fuel + 1 =>
      if first = last then some state
      else do
        let (first, state) <- state.erase list first
        eraseRange state list first last fuel

/-- `swap` -/
def swap (state : Lists Id Node) (list other : Id) : Lists Id Node :=
  (state.setEnds list (state.ends other)).setEnds other (state.ends list)

/-- The loop of `clear`. -/
def deleteFrom (state : Lists Id Node) : Option Node -> Nat -> Option (Lists Id Node)
  | _, 0 => none
  | none, _ + 1 => some state
  | some node, fuel + 1 => do
      let next <- state.following (some node)
      let state <- state.destroy node
      deleteFrom state next fuel

/-- `clear`, which is also what the destructor does. -/
def clear (state : Lists Id Node) (list : Id) (fuel : Nat) : Option (Lists Id Node) := do
  let state <- state.deleteFrom (state.ends list).first fuel
  some (state.setEnds list ⟨none, none, 0⟩)

/-- The move constructor. -/
def moveConstruct (state : Lists Id Node) (list other : Id) : Lists Id Node :=
  (state.setEnds list (state.ends other)).setEnds other ⟨none, none, 0⟩

/-- The assignment of a list that is moved from. -/
def moveAssign (state : Lists Id Node) (list other : Id) (fuel : Nat) :
    Option (Lists Id Node) := do
  let state <- state.clear list fuel
  some ((state.setEnds list (state.ends other)).setEnds other ⟨none, none, 0⟩)

/-- `splice` of one node. -/
def spliceOne (state : Lists Id Node) (list : Id) (pos : Option Node) (other : Id)
    (it : Option Node) : Option (Lists Id Node) := do
  let (node, state) <- state.extract other it
  state.insert list pos node

/-- `splice` of a range, whose loop ends within `fuel` iterations. -/
def splice (state : Lists Id Node) (list : Id) (pos : Option Node) (other : Id)
    (first last : Option Node) : Nat -> Option (Lists Id Node)
  | 0 => none
  | fuel + 1 =>
      if first = last then some state
      else do
        let next <- state.following first
        let (node, state) <- state.extract other first
        let state <- state.insert list pos node
        splice state list pos other next last fuel

/-- `splice` of a whole list. -/
def spliceAll (state : Lists Id Node) (list : Id) (pos : Option Node) (other : Id) (fuel : Nat) :
    Option (Lists Id Node) :=
  state.splice list pos other (state.ends other).first none fuel

/-! ## Chains -/

/-- A list is the chain of a sequence of nodes: its ends are theirs, and the links
of each are its neighbours. -/
structure Chain (state : Lists Id Node) (list : Id) (nodes : List Node) : Prop where
  first : (state.ends list).first = nodes.head?
  last : (state.ends list).last = nodes.getLast?
  size : (state.ends list).size = nodes.length
  links : forall before node after, nodes = before ++ node :: after ->
    state.memory node = some ⟨after.head?, before.getLast?⟩

/-- A node has been put between two that are neighbours, or at an end. -/
def linked (state : Lists Id Node) (list : Id) (before : Option Node) (node : Node)
    (after : Option Node) : Lists Id Node where
  ends := Function.update state.ends list
    { first := if before = none then some node else (state.ends list).first
      last := if after = none then some node else (state.ends list).last
      size := (state.ends list).size + 1 }
  memory := fun other =>
    if other = node then some ⟨after, before⟩
    else if some other = before then
      (state.memory other).map fun links => { links with next := some node }
    else if some other = after then
      (state.memory other).map fun links => { links with prev := some node }
    else state.memory other

/-- A node has been taken from between its neighbours. -/
def unlinked (state : Lists Id Node) (list : Id) (before : Option Node) (node : Node)
    (after : Option Node) : Lists Id Node where
  ends := Function.update state.ends list
    { first := if before = none then after else (state.ends list).first
      last := if after = none then before else (state.ends list).last
      size := (state.ends list).size - 1 }
  memory := fun other =>
    if other = node then some ⟨none, none⟩
    else if some other = before then
      (state.memory other).map fun links => { links with next := after }
    else if some other = after then
      (state.memory other).map fun links => { links with prev := before }
    else state.memory other

omit [DecidableEq Node] in
/-- The ends of a sequence are different nodes where there are two. -/
theorem ends_ne {nodes : List Node} (distinct : nodes.Nodup) (several : 1 < nodes.length) :
    nodes.head? ≠ nodes.getLast? := by
  cases nodes with
  | nil => cases several
  | cons first rest =>
      rcases List.eq_nil_or_concat' rest with rfl | ⟨middle, last, rfl⟩
      · exact absurd several (Nat.lt_irrefl 1)
      · rw [List.head?_cons, ← List.cons_append, List.getLast?_concat]
        rintro same
        cases same
        exact (List.nodup_cons.mp distinct).1 List.mem_concat_self

section Links

variable (state : Lists Id Node) (list : Id) (before : Option Node) (node : Node)
  (after : Option Node)

theorem linked_ends : (state.linked list before node after).ends list =
    ⟨if before = none then some node else (state.ends list).first,
      if after = none then some node else (state.ends list).last,
      (state.ends list).size + 1⟩ :=
  Function.update_self ..

theorem unlinked_ends : (state.unlinked list before node after).ends list =
    ⟨if before = none then after else (state.ends list).first,
      if after = none then before else (state.ends list).last,
      (state.ends list).size - 1⟩ :=
  Function.update_self ..

theorem linked_ends_ne {other : Id} (different : other ≠ list) :
    (state.linked list before node after).ends other = state.ends other :=
  Function.update_of_ne different ..

theorem unlinked_ends_ne {other : Id} (different : other ≠ list) :
    (state.unlinked list before node after).ends other = state.ends other :=
  Function.update_of_ne different ..

theorem linked_own : (state.linked list before node after).memory node = some ⟨after, before⟩ :=
  if_pos rfl

theorem unlinked_own : (state.unlinked list before node after).memory node = some ⟨none, none⟩ :=
  if_pos rfl

variable {state list before node after}

theorem linked_before {other : Node} (own : other ≠ node) (isBefore : before = some other) :
    (state.linked list before node after).memory other =
      (state.memory other).map fun links => { links with next := some node } :=
  (if_neg own).trans (if_pos isBefore.symm)

theorem linked_after {other : Node} (own : other ≠ node) (notBefore : some other ≠ before)
    (isAfter : after = some other) :
    (state.linked list before node after).memory other =
      (state.memory other).map fun links => { links with prev := some node } :=
  (if_neg own).trans ((if_neg notBefore).trans (if_pos isAfter.symm))

theorem linked_ne {other : Node} (own : other ≠ node) (notBefore : some other ≠ before)
    (notAfter : some other ≠ after) :
    (state.linked list before node after).memory other = state.memory other :=
  (if_neg own).trans ((if_neg notBefore).trans (if_neg notAfter))

theorem unlinked_before {other : Node} (own : other ≠ node) (isBefore : before = some other) :
    (state.unlinked list before node after).memory other =
      (state.memory other).map fun links => { links with next := after } :=
  (if_neg own).trans (if_pos isBefore.symm)

theorem unlinked_after {other : Node} (own : other ≠ node) (notBefore : some other ≠ before)
    (isAfter : after = some other) :
    (state.unlinked list before node after).memory other =
      (state.memory other).map fun links => { links with prev := before } :=
  (if_neg own).trans ((if_neg notBefore).trans (if_pos isAfter.symm))

theorem unlinked_ne {other : Node} (own : other ≠ node) (notBefore : some other ≠ before)
    (notAfter : some other ≠ after) :
    (state.unlinked list before node after).memory other = state.memory other :=
  (if_neg own).trans ((if_neg notBefore).trans (if_neg notAfter))

theorem linked_none {other : Node} (own : other ≠ node) :
    (state.linked list before node after).memory other = none ↔ state.memory other = none := by
  change (if other = node then _ else _) = none ↔ _
  rw [if_neg own]
  split_ifs <;> simp only [Option.map_eq_none_iff]

theorem unlinked_none {other : Node} (own : other ≠ node) :
    (state.unlinked list before node after).memory other = none ↔ state.memory other = none := by
  change (if other = node then _ else _) = none ↔ _
  rw [if_neg own]
  split_ifs <;> simp only [Option.map_eq_none_iff]

end Links

omit [DecidableEq Node] in
theorem ne_head {node : Node} {nodes : List Node} (absent : node ∉ nodes) :
    some node ≠ nodes.head? :=
  fun same => absent (List.mem_of_mem_head? same.symm)

omit [DecidableEq Node] in
theorem ne_last {node : Node} {nodes : List Node} (absent : node ∉ nodes) :
    some node ≠ nodes.getLast? :=
  fun same => absent (List.mem_of_getLast? same.symm)

omit [DecidableEq Node] in
/-- Two places in a sequence are the same, or one comes before the other. -/
theorem split_cases {before after before' after' : List Node} {node other : Node}
    (same : before ++ node :: after = before' ++ other :: after') :
    (before = before' ∧ node = other ∧ after = after') ∨
      (∃ middle, before = before' ++ other :: middle ∧ after' = middle ++ node :: after) ∨
      ∃ middle, before' = before ++ node :: middle ∧ after = middle ++ other :: after' := by
  rcases List.append_eq_append_iff.mp same with ⟨middle, first, second⟩ | ⟨middle, first, second⟩
  · cases middle with
    | nil =>
        cases second
        exact .inl ⟨by simpa using first.symm, rfl, rfl⟩
    | cons head middle =>
        cases second
        exact .inr (.inr ⟨middle, first, rfl⟩)
  · cases middle with
    | nil =>
        cases second
        exact .inl ⟨by simpa using first, rfl, rfl⟩
    | cons head middle =>
        cases second
        exact .inr (.inl ⟨middle, first, rfl⟩)

omit [DecidableEq Node] in
theorem split_append {before after before' after' : List Node} {other : Node}
    (same : before ++ after = before' ++ other :: after') :
    (∃ middle, before = before' ++ other :: middle ∧ after' = middle ++ after) ∨
      ∃ middle, before' = before ++ middle ∧ after = middle ++ other :: after' := by
  rcases List.append_eq_append_iff.mp same with ⟨middle, first, second⟩ | ⟨middle, first, second⟩
  · exact .inr ⟨middle, first, second⟩
  · cases middle with
    | nil => exact .inr ⟨[], by simpa using first.symm, second.symm⟩
    | cons head middle =>
        cases second
        exact .inl ⟨middle, first, rfl⟩

section Steps

variable {state : Lists Id Node} {list : Id} {node : Node}

omit [DecidableEq Id] in
theorem checkApart_eq (apart : state.memory node = some ⟨none, none⟩) :
    state.checkApart node = some () :=
  if_pos apart

theorem pushFront_eq {nodes : List Node} (chain : state.Chain list nodes)
    (apart : state.memory node = some ⟨none, none⟩) (outside : node ∉ nodes) :
    state.pushFront list node = some (state.linked list none node nodes.head?) := by
  cases nodes with
  | nil =>
      have noFirst : (state.ends list).first = none := chain.first
      simp only [pushFront, checkApart_eq apart, noFirst, setLast, setFirst, setEnds, grow,
        Function.update_self, Function.update_idem, Option.bind_eq_bind, Option.bind_some, linked,
        List.head?_nil, if_true, Option.some.injEq, mk.injEq, true_and]
      funext other
      grind
  | cons first rest =>
      have hasFirst : (state.ends list).first = some first := chain.first
      have firstLinks := chain.links [] first rest rfl
      have different : first ≠ node := fun same => outside (same ▸ List.mem_cons_self)
      simp only [pushFront, checkApart_eq apart, hasFirst, setNext, setPrev, setLinks, apart,
        Option.map_some, Function.update_of_ne different, firstLinks, setFirst, setEnds, grow,
        Function.update_self, Function.update_idem, Option.bind_eq_bind, Option.bind_some, linked,
        List.head?_cons, if_true, reduceCtorEq, if_false, Option.some.injEq, mk.injEq, true_and]
      funext other
      grind

theorem pushBack_eq {nodes : List Node} (chain : state.Chain list nodes)
    (apart : state.memory node = some ⟨none, none⟩) (outside : node ∉ nodes) :
    state.pushBack list node = some (state.linked list nodes.getLast? node none) := by
  rcases List.eq_nil_or_concat' nodes with rfl | ⟨rest, last, rfl⟩
  · have noLast : (state.ends list).last = none := chain.last
    simp only [pushBack, checkApart_eq apart, noLast, setLast, setFirst, setEnds, grow,
      Function.update_self, Function.update_idem, Option.bind_eq_bind, Option.bind_some, linked,
      List.getLast?_nil, if_true, Option.some.injEq, mk.injEq, true_and]
    funext other
    grind
  · have hasLast : (state.ends list).last = some last :=
      chain.last.trans List.getLast?_concat
    have lastLinks := chain.links rest last [] rfl
    have different : last ≠ node := fun same => outside (same ▸ List.mem_concat_self)
    simp only [pushBack, checkApart_eq apart, hasLast, setNext, setPrev, setLinks, apart,
      Option.map_some, Function.update_of_ne different, lastLinks, setLast, setEnds, grow,
      Function.update_self, Function.update_idem, Option.bind_eq_bind, Option.bind_some, linked,
      List.getLast?_concat, if_true, reduceCtorEq, if_false, Option.some.injEq, mk.injEq,
      true_and]
    funext other
    grind

theorem insert_eq {before after : List Node} (chain : state.Chain list (before ++ after))
    (apart : state.memory node = some ⟨none, none⟩) (outside : node ∉ before ++ after)
    (distinct : (before ++ after).Nodup) :
    state.insert list after.head? node =
      some (state.linked list before.getLast? node after.head?) := by
  cases after with
  | nil =>
      rw [List.append_nil] at chain outside
      rw [List.head?_nil, insert, checkApart_eq apart]
      exact pushBack_eq chain apart outside
  | cons pos after =>
      have posLinks := chain.links before pos after rfl
      have different : pos ≠ node := by grind
      rcases List.eq_nil_or_concat' before with rfl | ⟨before, prev, rfl⟩
      · simp only [insert, List.head?_cons, checkApart_eq apart, posLinks, setNext, setPrev,
          setLinks, apart, Option.map_some, Function.update_of_ne different, setFirst, setEnds,
          grow, List.getLast?_nil, Function.update_self, Function.update_idem, Option.bind_eq_bind,
          Option.bind_some, linked, if_true, reduceCtorEq, if_false, Option.some.injEq, mk.injEq,
          true_and]
        funext other
        grind
      · have prevLinks := chain.links before prev (pos :: after) (by simp)
        have prevNode : prev ≠ node := by grind
        have prevPos : pos ≠ prev := by grind
        simp only [insert, List.head?_cons, checkApart_eq apart, posLinks, setNext, setPrev,
          setLinks, apart, Option.map_some, Function.update_of_ne different, setEnds, grow,
          List.getLast?_concat, Function.update_of_ne prevNode, Function.update_of_ne prevPos,
          prevLinks, Function.update_self, Function.update_idem, Option.bind_eq_bind,
          Option.bind_some, linked, reduceCtorEq, if_false, Option.some.injEq, mk.injEq, true_and]
        funext other
        grind

theorem extract_eq {before after : List Node} (chain : state.Chain list (before ++ node :: after))
    (distinct : (before ++ node :: after).Nodup) :
    state.extract list (some node) =
      some (node, state.unlinked list before.getLast? node after.head?) := by
  have nodeLinks := chain.links before node after rfl
  have filled : (state.ends list).size ≠ 0 := by
    rw [chain.size, List.length_append, List.length_cons]
    omega
  rcases List.eq_nil_or_concat' before with rfl | ⟨before, prev, rfl⟩
  · cases after with
    | nil =>
        have same : (state.ends list).first = (state.ends list).last :=
          chain.first.trans chain.last.symm
        simp only [extract, filled, same, detach, setLinks, nodeLinks, shrink, unlinked, setFirst,
          setLast, setEnds, Option.map_some, Option.bind_eq_bind, Option.bind_some,
          Function.update_self, Function.update_idem, List.getLast?_nil, List.head?_nil,
          if_true, if_false, Option.some.injEq, mk.injEq, true_and, Prod.mk.injEq]
        funext other
        grind
    | cons next after =>
        have apart : (state.ends list).first ≠ (state.ends list).last := by
          rw [chain.first, chain.last]
          exact ends_ne distinct (by simp)
        have nextLinks := chain.links [node] next after rfl
        have different : next ≠ node := by grind
        simp only [extract, filled, apart, detach, setNext, setPrev, setLinks, nodeLinks, shrink,
          unlinked, setFirst, nextLinks, setLast, setEnds, Option.map_some, Option.bind_eq_bind,
          Option.bind_some, Function.update_self, Function.update_idem, List.getLast?_nil,
          List.head?_cons, Function.update_of_ne different.symm, if_true, if_false,
          Option.some.injEq, mk.injEq, true_and, Prod.mk.injEq, reduceCtorEq]
        funext other
        grind
  · have prevLinks := chain.links before prev (node :: after) (by simp)
    have prevNode : prev ≠ node := by grind
    have apart : (state.ends list).first ≠ (state.ends list).last := by
      rw [chain.first, chain.last]
      exact ends_ne distinct (by simp; omega)
    cases after with
    | nil =>
        simp only [extract, filled, apart, detach, setNext, setPrev, setLinks, nodeLinks, shrink,
          unlinked, setFirst, prevLinks, setLast, setEnds, Option.map_some, Option.bind_eq_bind,
          Option.bind_some, Function.update_self, Function.update_idem, List.getLast?_concat,
          List.head?_nil, Function.update_of_ne prevNode.symm, if_true, if_false, Option.some.injEq,
          mk.injEq, true_and, Prod.mk.injEq, reduceCtorEq]
        funext other
        grind
    | cons next after =>
        have nextLinks := chain.links (before ++ [prev] ++ [node]) next after (by simp)
        have nextNode : next ≠ node := by grind
        have nextPrev : next ≠ prev := by grind
        simp only [extract, filled, apart, detach, setNext, setPrev, setLinks, nodeLinks, shrink,
          unlinked, setFirst, prevLinks, nextLinks, Function.update_of_ne nextPrev,
          Function.update_of_ne nextNode.symm, setLast, setEnds, Option.map_some,
          Option.bind_eq_bind, Option.bind_some, Function.update_self, Function.update_idem,
          List.getLast?_concat, List.head?_cons, Function.update_of_ne prevNode.symm, if_false,
          Option.some.injEq, mk.injEq, true_and, Prod.mk.injEq, reduceCtorEq]
        funext other
        simp only [Function.update_apply]
        split_ifs <;> simp_all

theorem extractFront_eq {after : List Node} (chain : state.Chain list (node :: after))
    (distinct : (node :: after).Nodup) :
    state.extractFront list = some (node, state.unlinked list none node after.head?) := by
  have nodeLinks := chain.links [] node after rfl
  have filled : (state.ends list).size ≠ 0 := by
    rw [chain.size, List.length_cons]
    omega
  have hasFirst : (state.ends list).first = some node := chain.first
  cases after with
  | nil =>
      have hasLast : (state.ends list).last = some node := chain.last
      simp only [extractFront, filled, hasFirst, hasLast, detach, setLinks, nodeLinks, shrink,
        unlinked, setFirst, setLast, setEnds, Option.map_some, Option.bind_eq_bind,
        Option.bind_some, Function.update_self, Function.update_idem, List.head?_nil, if_true,
        if_false, Option.some.injEq, mk.injEq, true_and, Prod.mk.injEq]
      funext other
      grind
  | cons next after =>
      have apart : some node ≠ (state.ends list).last := by
        rw [chain.last]
        exact ends_ne distinct (by simp)
      have nextLinks := chain.links [node] next after rfl
      have different : next ≠ node := by grind
      simp only [extractFront, filled, hasFirst, apart, detach, setPrev, setLinks, nodeLinks,
        shrink, unlinked, setFirst, nextLinks, setEnds, Option.map_some,
        Option.bind_eq_bind, Option.bind_some, Function.update_self, Function.update_idem,
        List.head?_cons, Function.update_of_ne different.symm, if_true, if_false,
        Option.some.injEq, mk.injEq, true_and, Prod.mk.injEq, reduceCtorEq]
      funext other
      grind

theorem extractBack_eq {before : List Node} (chain : state.Chain list (before ++ [node]))
    (distinct : (before ++ [node]).Nodup) :
    state.extractBack list = some (node, state.unlinked list before.getLast? node none) := by
  have nodeLinks := chain.links before node [] rfl
  have filled : (state.ends list).size ≠ 0 := by
    rw [chain.size, List.length_append, List.length_singleton]
    omega
  have hasLast : (state.ends list).last = some node := chain.last.trans List.getLast?_concat
  rcases List.eq_nil_or_concat' before with rfl | ⟨before, prev, rfl⟩
  · have hasFirst : (state.ends list).first = some node := chain.first
    simp only [extractBack, filled, hasFirst, hasLast, detach, setLinks, nodeLinks, shrink,
      unlinked, setFirst, setLast, setEnds, Option.map_some, Option.bind_eq_bind,
      Option.bind_some, Function.update_self, Function.update_idem, List.getLast?_nil, if_true,
      if_false, Option.some.injEq, mk.injEq, true_and, Prod.mk.injEq]
    funext other
    grind
  · have apart : (state.ends list).first ≠ some node := by
      rw [chain.first, ← List.getLast?_concat (l := before ++ [prev])]
      exact ends_ne distinct (by simp)
    have prevLinks := chain.links before prev [node] (by simp)
    have different : prev ≠ node := by grind
    simp only [extractBack, filled, hasLast, apart, detach, setNext, setLinks, nodeLinks,
      shrink, unlinked, setLast, prevLinks, setEnds, Option.map_some,
      Option.bind_eq_bind, Option.bind_some, Function.update_self, Function.update_idem,
      List.getLast?_concat, Function.update_of_ne different.symm, if_true, if_false,
      Option.some.injEq, mk.injEq, true_and, Prod.mk.injEq, reduceCtorEq]
    funext other
    grind

omit [DecidableEq Id] [DecidableEq Node] in
/-- The iterator behind a node is that at the next one. -/
theorem following_eq {before after : List Node}
    (chain : state.Chain list (before ++ node :: after)) :
    state.following (some node) = some after.head? := by
  rw [following, Option.bind_eq_bind, Option.bind_some, chain.links before node after rfl]
  rfl

end Steps

omit [DecidableEq Id] [DecidableEq Node] in
/-- A chain does not depend on the other nodes. -/
theorem Chain.frame {state next : Lists Id Node} {list : Id} {nodes : List Node}
    (chain : state.Chain list nodes) (ends : next.ends list = state.ends list)
    (memory : forall node, node ∈ nodes -> next.memory node = state.memory node) :
    next.Chain list nodes where
  first := ends ▸ chain.first
  last := ends ▸ chain.last
  size := ends ▸ chain.size
  links := by
    intro before node after split
    have member : node ∈ nodes := by
      rw [split]
      exact List.mem_append_right before List.mem_cons_self
    rw [memory node member]
    exact chain.links before node after split

omit [DecidableEq Id] [DecidableEq Node] in
theorem Chain.ends_nil {state : Lists Id Node} {list : Id} (chain : state.Chain list []) :
    state.ends list = ⟨none, none, 0⟩ := by
  have first := chain.first
  have last := chain.last
  have size := chain.size
  revert first last size
  cases state.ends list
  rintro rfl rfl rfl
  rfl

theorem Chain.linked {state : Lists Id Node} {list : Id} {node : Node} {before after : List Node}
    (chain : state.Chain list (before ++ after)) (outside : node ∉ before ++ after)
    (distinct : (before ++ after).Nodup) :
    (state.linked list before.getLast? node after.head?).Chain list (before ++ node :: after) where
  first := by
    rw [linked_ends]
    cases before <;> simp [chain.first]
  last := by
    rw [linked_ends]
    cases after <;> simp [chain.last]
  size := by
    rw [linked_ends]
    simp [chain.size]
    omega
  links := by
    intro before' other after' split
    rcases split_cases split with ⟨rfl, rfl, rfl⟩ | ⟨middle, rfl, rfl⟩ | ⟨middle, rfl, rfl⟩
    · exact linked_own ..
    · -- a node before the new one
      have links := chain.links before' other (middle ++ after) (by simp)
      have own : other ≠ node := by grind
      have notAfter : other ∉ after := by grind
      rcases List.eq_nil_or_concat' middle with rfl | ⟨middle, prev, rfl⟩
      · rw [linked_before own List.getLast?_concat, links]
        rfl
      · have notBefore : some other ≠ (before' ++ other :: (middle ++ [prev])).getLast? := by
          rw [← List.cons_append, ← List.append_assoc, List.getLast?_concat]
          grind
        rw [linked_ne own notBefore (ne_head notAfter), links]
        simp
    · -- a node after the new one
      have links := chain.links (before ++ middle) other after' (by simp)
      have own : other ≠ node := by grind
      have notBefore : other ∉ before := by grind
      cases middle with
      | nil =>
          have isAfter : ([] ++ other :: after').head? = some other := rfl
          rw [linked_after own (ne_last notBefore) isAfter, links, List.getLast?_concat]
          rfl
      | cons next middle =>
          have notAfter : some other ≠ (next :: middle ++ other :: after').head? := by
            rw [List.cons_append, List.head?_cons]
            grind
          rw [linked_ne own (ne_last notBefore) notAfter, links]
          simp

theorem Chain.unlinked {state : Lists Id Node} {list : Id} {node : Node} {before after : List Node}
    (chain : state.Chain list (before ++ node :: after))
    (distinct : (before ++ node :: after).Nodup) :
    (state.unlinked list before.getLast? node after.head?).Chain list (before ++ after) where
  first := by
    rw [unlinked_ends]
    cases before <;> simp [chain.first]
  last := by
    rw [unlinked_ends]
    cases after <;> simp [chain.last]
  size := by
    rw [unlinked_ends]
    simp [chain.size]
  links := by
    intro before' other after' split
    rcases split_append split with ⟨middle, rfl, rfl⟩ | ⟨middle, rfl, rfl⟩
    · -- a node before the one that was taken
      have links := chain.links before' other (middle ++ node :: after) (by simp)
      have own : other ≠ node := by grind
      have notAfter : other ∉ after := by grind
      rcases List.eq_nil_or_concat' middle with rfl | ⟨middle, prev, rfl⟩
      · rw [unlinked_before own List.getLast?_concat, links]
        rfl
      · have notBefore : some other ≠ (before' ++ other :: (middle ++ [prev])).getLast? := by
          rw [← List.cons_append, ← List.append_assoc, List.getLast?_concat]
          grind
        rw [unlinked_ne own notBefore (ne_head notAfter), links]
        simp
    · -- a node after the one that was taken
      have links := chain.links (before ++ node :: middle) other after' (by simp)
      have own : other ≠ node := by grind
      have notBefore : other ∉ before := by grind
      cases middle with
      | nil =>
          have isAfter : ([] ++ other :: after').head? = some other := rfl
          rw [unlinked_after own (ne_last notBefore) isAfter, links, List.append_nil]
          rfl
      | cons next middle =>
          have notAfter : some other ≠ (next :: middle ++ other :: after').head? := by
            rw [List.cons_append, List.head?_cons]
            grind
          rw [unlinked_ne own (ne_last notBefore) notAfter, links]
          simp

end Lists

end IntrusiveList

end Wasm
end WasmSandboxing
