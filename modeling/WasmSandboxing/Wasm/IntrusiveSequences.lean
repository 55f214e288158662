import WasmSandboxing.Foundation.Transition
import WasmSandboxing.Wasm.IntrusiveList
import Mathlib.Data.Set.Insert
import Mathlib.Order.BooleanAlgebra.Set
import Mathlib.Logic.Equiv.Basic

namespace WasmSandboxing
namespace Wasm

open Foundation

/-!
# Intrusive lists as sequences

Lists of nodes change as the sequences of their nodes do, whatever operations are
performed on how many of them.  Operations that take nodes out and put them back
one by one are exempt where the position is among these nodes, or behind several:
these do not end, or leave a node that comes after itself.
-/

namespace IntrusiveList

variable {Id Node : Type} [DecidableEq Id] [DecidableEq Node]

/-- What the lists are for: sequences of nodes, and the nodes that are not in any
and that pointers of their own hold. -/
@[ext]
structure Sequences (Id Node : Type) where
  lists : Id -> List Node
  held : Set Node

namespace Sequences

def start : Sequences Id Node := ⟨fun _ => [], ∅⟩

def assign (sequences : Sequences Id Node) (list : Id) (nodes : List Node) : Sequences Id Node :=
  { sequences with lists := Function.update sequences.lists list nodes }

def hold (sequences : Sequences Id Node) (node : Node) : Sequences Id Node :=
  { sequences with held := insert node sequences.held }

def drop (sequences : Sequences Id Node) (node : Node) : Sequences Id Node :=
  { sequences with held := sequences.held \ {node} }

section Assign

variable (sequences : Sequences Id Node) (list : Id) (nodes : List Node)

omit [DecidableEq Node]

theorem assign_own : (sequences.assign list nodes).lists list = nodes := Function.update_self ..

theorem assign_ne {list other : Id} (different : other ≠ list) :
    (sequences.assign list nodes).lists other = sequences.lists other :=
  Function.update_of_ne different ..

theorem assign_assign (others : List Node) :
    (sequences.assign list nodes).assign list others = sequences.assign list others := by
  rw [assign, assign, assign, Function.update_idem]

theorem assign_same : sequences.assign list (sequences.lists list) = sequences := by
  rw [assign, Function.update_eq_self]

theorem assign_comm {list other : Id} (different : list ≠ other) (others : List Node) :
    (sequences.assign list nodes).assign other others =
      (sequences.assign other others).assign list nodes := by
  rw [assign, assign, assign, assign, Function.update_comm different]

theorem mem_assign {other : Id} {node : Node} :
    node ∈ (sequences.assign list nodes).lists other ↔
      other = list ∧ node ∈ nodes ∨ other ≠ list ∧ node ∈ sequences.lists other := by
  rcases eq_or_ne other list with rfl | different
  · simp only [assign_own, true_and, ne_eq, not_true_eq_false, false_and, or_false]
  · simp only [assign_ne _ _ different, different, false_and, ne_eq, not_false_eq_true, true_and,
      false_or]

end Assign

section Held

variable (sequences : Sequences Id Node) (node other : Node)

omit [DecidableEq Id] [DecidableEq Node]

theorem mem_hold : other ∈ (sequences.hold node).held ↔ other = node ∨ other ∈ sequences.held :=
  Set.mem_insert_iff

theorem mem_drop : other ∈ (sequences.drop node).held ↔ other ∈ sequences.held ∧ other ≠ node :=
  Iff.rfl

variable {sequences node}

theorem drop_hold (free : node ∉ sequences.held) : (sequences.hold node).drop node = sequences := by
  rw [drop, hold, Set.insert_sdiff_self_of_notMem free]

end Held

end Sequences

/-- No node is twice in the lists, or held and in a list. -/
structure Sequences.Apart (sequences : Sequences Id Node) : Prop where
  distinct : forall list, (sequences.lists list).Nodup
  lists : forall list other node, node ∈ sequences.lists list ->
    node ∈ sequences.lists other -> list = other
  held : forall node, node ∈ sequences.held -> forall list, node ∉ sequences.lists list

/-- The lists are chains of the sequences, the nodes that are held have null links,
and no other nodes are in memory. -/
structure Represents (sequences : Sequences Id Node) (state : Lists Id Node) : Prop where
  apart : sequences.Apart
  chains : forall list, state.Chain list (sequences.lists list)
  loose : forall node, node ∈ sequences.held -> state.memory node = some ⟨none, none⟩
  owned : forall node, state.memory node ≠ none ->
    node ∈ sequences.held ∨ ∃ list, node ∈ sequences.lists list

namespace Represents

variable {sequences : Sequences Id Node} {state : Lists Id Node} {list other : Id} {node : Node}
  {before after : List Node}

omit [DecidableEq Id] [DecidableEq Node] in
theorem start : Represents (Sequences.start : Sequences Id Node) Lists.start where
  apart := ⟨fun _ => List.nodup_nil, fun _ _ _ member => absurd member List.not_mem_nil,
    fun _ _ _ => List.not_mem_nil⟩
  chains := fun _ =>
    ⟨rfl, rfl, rfl, fun before node after split => by cases before <;> cases split⟩
  loose := fun _ member => absurd member (Set.notMem_empty _)
  owned := fun _ inMemory => absurd rfl inMemory

omit [DecidableEq Id] [DecidableEq Node] in
theorem free (represents : Represents sequences state)
    (inList : sequences.lists list = before ++ node :: after) : node ∉ sequences.held := by
  intro held
  apply represents.apart.held node held list
  rw [inList]
  exact List.mem_append_right before List.mem_cons_self

theorem linked (represents : Represents sequences state) (held : node ∈ sequences.held)
    (split : sequences.lists list = before ++ after) :
    Represents ((sequences.drop node).assign list (before ++ node :: after))
      (state.linked list before.getLast? node after.head?) := by
  rcases represents with ⟨⟨distinct, lists, outside⟩, chains, loose, owned⟩
  have ownDistinct := distinct list
  have ownOutside := outside node held list
  have chain := chains list
  have ownMem (other : Node) : other ∈ sequences.lists list ↔ other ∈ before ++ after := by
    rw [split]
  rw [split] at ownDistinct ownOutside chain
  -- the nodes of the other lists are none of those whose links change
  have others (other : Id) (different : other ≠ list) (otherNode : Node)
      (member : otherNode ∈ sequences.lists other) :
      otherNode ≠ node ∧ otherNode ∉ before ++ after := by
    grind
  refine ⟨⟨?distinct, ?apart, ?outside⟩, ?chains, ?loose, ?owned⟩
  case distinct =>
    intro other
    rcases eq_or_ne other list with rfl | different
    · rw [Sequences.assign_own]
      grind
    · rw [Sequences.assign_ne _ _ different]
      exact distinct other
  case apart =>
    intro first second otherNode
    rw [Sequences.mem_assign, Sequences.mem_assign]
    simp only [Sequences.drop]
    grind
  case outside =>
    intro otherNode member other
    rw [Sequences.mem_assign]
    have stillHeld : otherNode ∈ sequences.held ∧ otherNode ≠ node := member
    simp only [Sequences.drop]
    grind
  case chains =>
    intro other
    rcases eq_or_ne other list with rfl | different
    · rw [Sequences.assign_own]
      exact chain.linked ownOutside ownDistinct
    · rw [Sequences.assign_ne _ _ different]
      refine (chains other).frame (Lists.linked_ends_ne _ _ _ _ _ different) ?_
      intro otherNode member
      rcases others other different otherNode member with ⟨notNode, notOwn⟩
      rw [List.mem_append, not_or] at notOwn
      exact Lists.linked_ne notNode (Lists.ne_last notOwn.1) (Lists.ne_head notOwn.2)
  case loose =>
    intro otherNode member
    have stillHeld : otherNode ∈ sequences.held ∧ otherNode ≠ node := member
    have notOwn := outside otherNode stillHeld.1 list
    rw [split, List.mem_append, not_or] at notOwn
    rw [Lists.linked_ne stillHeld.2 (Lists.ne_last notOwn.1) (Lists.ne_head notOwn.2)]
    exact loose otherNode stillHeld.1
  case owned =>
    intro otherNode inMemory
    simp only [Sequences.mem_assign]
    rcases eq_or_ne otherNode node with rfl | different
    · exact .inr ⟨list, .inl ⟨rfl, List.mem_append_right before List.mem_cons_self⟩⟩
    · rw [ne_eq, Lists.linked_none different] at inMemory
      rcases owned otherNode inMemory with held | ⟨other, member⟩
      · exact .inl ⟨held, different⟩
      · rcases eq_or_ne other list with rfl | otherList
        · exact .inr ⟨other, .inl ⟨rfl, by grind⟩⟩
        · exact .inr ⟨other, .inr ⟨otherList, member⟩⟩

theorem unlinked (represents : Represents sequences state)
    (split : sequences.lists list = before ++ node :: after) :
    Represents ((sequences.assign list (before ++ after)).hold node)
      (state.unlinked list before.getLast? node after.head?) := by
  rcases represents with ⟨⟨distinct, lists, outside⟩, chains, loose, owned⟩
  have ownDistinct := distinct list
  have chain := chains list
  have ownMem (other : Node) : other ∈ sequences.lists list ↔ other ∈ before ++ node :: after := by
    rw [split]
  rw [split] at ownDistinct chain
  -- the nodes of the other lists are none of those whose links change
  have others (other : Id) (different : other ≠ list) (otherNode : Node)
      (member : otherNode ∈ sequences.lists other) : otherNode ∉ before ++ node :: after := by
    grind
  have elsewhere (otherNode : Node) (notOwn : otherNode ∉ before ++ node :: after) :
      (state.unlinked list before.getLast? node after.head?).memory otherNode =
        state.memory otherNode := by
    rw [List.mem_append, not_or, List.mem_cons, not_or] at notOwn
    exact Lists.unlinked_ne notOwn.2.1 (Lists.ne_last notOwn.1) (Lists.ne_head notOwn.2.2)
  refine ⟨⟨?distinct, ?apart, ?outside⟩, ?chains, ?loose, ?owned⟩
  case distinct =>
    intro other
    rcases eq_or_ne other list with rfl | different
    · rw [Sequences.hold, Sequences.assign_own]
      grind
    · rw [Sequences.hold, Sequences.assign_ne _ _ different]
      exact distinct other
  case apart =>
    intro first second otherNode
    rw [Sequences.hold, Sequences.mem_assign, Sequences.mem_assign]
    grind
  case outside =>
    intro otherNode member other
    rw [Sequences.hold, Sequences.mem_assign]
    rcases (Sequences.mem_hold ..).mp member with rfl | held
    · grind
    · have notIn := outside otherNode held
      grind
  case chains =>
    intro other
    rcases eq_or_ne other list with rfl | different
    · rw [Sequences.hold, Sequences.assign_own]
      exact chain.unlinked ownDistinct
    · rw [Sequences.hold, Sequences.assign_ne _ _ different]
      exact (chains other).frame (Lists.unlinked_ends_ne _ _ _ _ _ different)
        fun otherNode member => elsewhere otherNode (others other different otherNode member)
  case loose =>
    intro otherNode member
    rcases (Sequences.mem_hold ..).mp member with rfl | held
    · exact Lists.unlinked_own ..
    · have notOwn := outside otherNode held list
      rw [split] at notOwn
      rw [elsewhere otherNode notOwn]
      exact loose otherNode held
  case owned =>
    intro otherNode inMemory
    simp only [Sequences.mem_hold, Sequences.hold, Sequences.mem_assign]
    rcases eq_or_ne otherNode node with rfl | different
    · exact .inl (.inl rfl)
    · rw [ne_eq, Lists.unlinked_none different] at inMemory
      rcases owned otherNode inMemory with held | ⟨other, member⟩
      · exact .inl (.inr held)
      · rcases eq_or_ne other list with rfl | otherList
        · exact .inr ⟨other, .inl ⟨rfl, by grind⟩⟩
        · exact .inr ⟨other, .inr ⟨otherList, member⟩⟩

/-! ## Operations on one node -/

omit [DecidableEq Id] in
theorem make (represents : Represents sequences state) (free : node ∉ sequences.held)
    (outside : forall list, node ∉ sequences.lists list) :
    ∃ next, state.make node = some next ∧ Represents (sequences.hold node) next := by
  have unused : state.memory node = none := by
    by_contra inMemory
    rcases represents.owned node inMemory with held | ⟨list, member⟩
    · exact free held
    · exact outside list member
  rcases represents with ⟨⟨distinct, lists, apart⟩, chains, loose, owned⟩
  refine ⟨{ state with memory := Function.update state.memory node (some ⟨none, none⟩) },
    by rw [Lists.make, unused], ⟨distinct, lists, ?_⟩, ?_, ?_, ?_⟩
  · intro other member
    rcases (Sequences.mem_hold ..).mp member with rfl | held
    · exact outside
    · exact apart other held
  · refine fun list => (chains list).frame rfl fun other member => Function.update_of_ne ?_ ..
    rintro rfl
    exact outside list member
  · intro other member
    rcases eq_or_ne other node with rfl | different
    · exact Function.update_self ..
    · exact (Function.update_of_ne different ..).trans
        (loose other (((Sequences.mem_hold ..).mp member).resolve_left different))
  · intro other inMemory
    rcases eq_or_ne other node with rfl | different
    · exact .inl ((Sequences.mem_hold ..).mpr (.inl rfl))
    · have before := (Function.update_of_ne different ..).symm.trans_ne inMemory
      exact (owned other before).imp_left fun held => (Sequences.mem_hold ..).mpr (.inr held)

omit [DecidableEq Id] in
theorem destroy (represents : Represents sequences state) (held : node ∈ sequences.held) :
    ∃ next, state.destroy node = some next ∧ Represents (sequences.drop node) next := by
  rcases represents with ⟨⟨distinct, lists, apart⟩, chains, loose, owned⟩
  refine ⟨{ state with memory := Function.update state.memory node none },
    by rw [Lists.destroy, loose node held]; rfl, ⟨distinct, lists, ?_⟩, ?_, ?_, ?_⟩
  · exact fun other member => apart other member.1
  · refine fun list => (chains list).frame rfl fun other member => Function.update_of_ne ?_ ..
    rintro rfl
    exact apart other held list member
  · intro other member
    exact (Function.update_of_ne member.2 ..).trans (loose other member.1)
  · intro other inMemory
    rcases eq_or_ne other node with rfl | different
    · exact absurd (Function.update_self ..) inMemory
    · have before := (Function.update_of_ne different ..).symm.trans_ne inMemory
      exact (owned other before).imp_left fun held => ⟨held, different⟩

theorem pushFront (represents : Represents sequences state) (held : node ∈ sequences.held) :
    ∃ next, state.pushFront list node = some next ∧
      Represents ((sequences.drop node).assign list (node :: sequences.lists list)) next := by
  have atFront : sequences.lists list = [] ++ sequences.lists list := rfl
  exact ⟨_, Lists.pushFront_eq (represents.chains list) (represents.loose node held)
    (represents.apart.held node held list), represents.linked held atFront⟩

theorem pushBack (represents : Represents sequences state) (held : node ∈ sequences.held) :
    ∃ next, state.pushBack list node = some next ∧
      Represents ((sequences.drop node).assign list (sequences.lists list ++ [node])) next :=
  ⟨_, Lists.pushBack_eq (represents.chains list) (represents.loose node held)
    (represents.apart.held node held list),
    represents.linked held (List.append_nil _).symm⟩

theorem insert (represents : Represents sequences state) (held : node ∈ sequences.held)
    (split : sequences.lists list = before ++ after) :
    ∃ next, state.insert list after.head? node = some next ∧
      Represents ((sequences.drop node).assign list (before ++ node :: after)) next :=
  ⟨_, Lists.insert_eq (split ▸ represents.chains list) (represents.loose node held)
    (split ▸ represents.apart.held node held list) (split ▸ represents.apart.distinct list),
    represents.linked held split⟩

theorem extract (represents : Represents sequences state)
    (split : sequences.lists list = before ++ node :: after) :
    ∃ next, state.extract list (some node) = some (node, next) ∧
      Represents ((sequences.assign list (before ++ after)).hold node) next :=
  ⟨_, Lists.extract_eq (split ▸ represents.chains list) (split ▸ represents.apart.distinct list),
    represents.unlinked split⟩

theorem extractFront (represents : Represents sequences state)
    (split : sequences.lists list = node :: after) :
    ∃ next, state.extractFront list = some (node, next) ∧
      Represents ((sequences.assign list after).hold node) next := by
  have atFront : sequences.lists list = [] ++ node :: after := split
  exact ⟨_, Lists.extractFront_eq (split ▸ represents.chains list)
    (split ▸ represents.apart.distinct list), represents.unlinked atFront⟩

theorem extractBack (represents : Represents sequences state)
    (split : sequences.lists list = before ++ [node]) :
    ∃ next, state.extractBack list = some (node, next) ∧
      Represents ((sequences.assign list before).hold node) next := by
  have taken := represents.unlinked split
  rw [List.append_nil] at taken
  exact ⟨_, Lists.extractBack_eq (split ▸ represents.chains list)
    (split ▸ represents.apart.distinct list), taken⟩

omit [DecidableEq Id] in
/-- What has been taken out of a list can be deleted. -/
theorem discard {taken : Sequences Id Node} (represents : Represents (taken.hold node) state)
    (free : node ∉ taken.held) :
    ∃ next, state.destroy node = some next ∧ Represents taken next := by
  have dropped := represents.destroy ((Sequences.mem_hold ..).mpr (.inl rfl))
  rwa [Sequences.drop_hold free] at dropped

theorem popFront (represents : Represents sequences state)
    (split : sequences.lists list = node :: after) :
    ∃ next, state.popFront list = some next ∧ Represents (sequences.assign list after) next := by
  have atFront : sequences.lists list = [] ++ node :: after := split
  have free : node ∉ (sequences.assign list after).held := represents.free atFront
  rcases represents.extractFront split with ⟨taken, extracted, holds⟩
  rcases holds.discard free with ⟨next, destroyed, done⟩
  refine ⟨next, ?_, done⟩
  rw [Lists.popFront, extracted, Option.bind_eq_bind, Option.bind_some]
  exact destroyed

theorem popBack (represents : Represents sequences state)
    (split : sequences.lists list = before ++ [node]) :
    ∃ next, state.popBack list = some next ∧ Represents (sequences.assign list before) next := by
  have free : node ∉ (sequences.assign list before).held := represents.free split
  rcases represents.extractBack split with ⟨taken, extracted, holds⟩
  rcases holds.discard free with ⟨next, destroyed, done⟩
  refine ⟨next, ?_, done⟩
  rw [Lists.popBack, extracted, Option.bind_eq_bind, Option.bind_some]
  exact destroyed

theorem erase (represents : Represents sequences state)
    (split : sequences.lists list = before ++ node :: after) :
    ∃ next, state.erase list (some node) = some (after.head?, next) ∧
      Represents (sequences.assign list (before ++ after)) next := by
  have following := Lists.following_eq (split ▸ represents.chains list)
  have free : node ∉ (sequences.assign list (before ++ after)).held := represents.free split
  rcases represents.extract split with ⟨taken, extracted, holds⟩
  rcases holds.discard free with ⟨next, destroyed, done⟩
  refine ⟨next, ?_, done⟩
  rw [Lists.erase, following, extracted]
  simp only [Option.bind_eq_bind, Option.bind_some, destroyed]

theorem spliceOne (represents : Represents sequences state) {others rest : List Node}
    (split : sequences.lists other = others ++ node :: rest)
    (place : (sequences.assign other (others ++ rest)).lists list = before ++ after) :
    ∃ next, state.spliceOne list after.head? other (some node) = some next ∧
      Represents ((sequences.assign other (others ++ rest)).assign list (before ++ node :: after))
        next := by
  rcases represents.extract split with ⟨taken, extracted, holds⟩
  rcases holds.insert ((Sequences.mem_hold ..).mpr (.inl rfl)) place with ⟨next, inserted, done⟩
  have free : node ∉ (sequences.assign other (others ++ rest)).held := represents.free split
  rw [Sequences.drop_hold free] at done
  refine ⟨next, ?_, done⟩
  rw [Lists.spliceOne, extracted, Option.bind_eq_bind, Option.bind_some]
  exact inserted

/-! ## Loops -/

theorem eraseRange (represents : Represents sequences state) {erased : List Node}
    (split : sequences.lists list = before ++ (erased ++ after)) :
    ∃ next, (forall more, state.eraseRange list (erased ++ after).head? after.head?
        (erased.length + 1 + more) = some next) ∧
      Represents (sequences.assign list (before ++ after)) next := by
  induction erased generalizing sequences state with
  | nil =>
      refine ⟨state, fun more => ?_, ?_⟩
      · rw [List.nil_append, List.length_nil, Nat.zero_add, Nat.add_comm, Lists.eraseRange,
          if_pos rfl]
      · rw [← List.nil_append after, ← split, Sequences.assign_same]
        exact represents
  | cons node erased inductionHypothesis =>
      have distinct := represents.apart.distinct list
      rw [split] at distinct
      have different : some node ≠ after.head? := Lists.ne_head (by grind)
      rcases represents.erase split with ⟨between, stepped, holds⟩
      rcases inductionHypothesis holds (Sequences.assign_own ..) with ⟨next, later, done⟩
      rw [Sequences.assign_assign] at done
      refine ⟨next, fun more => ?_, done⟩
      have step : (node :: erased).length + 1 + more = erased.length + 1 + more + 1 := by
        rw [List.length_cons]
        omega
      rw [step, List.cons_append, List.head?_cons, Lists.eraseRange, if_neg different, stepped]
      exact later more

omit [DecidableEq Id] in
/-- The loop of `clear` deletes the nodes that it comes to, and reads no link of a
node that it has deleted. -/
theorem deleteFrom {nodes : List Node} (distinct : nodes.Nodup)
    (links : forall before node after, nodes = before ++ node :: after ->
      ∃ prev, state.memory node = some ⟨after.head?, prev⟩) :
    ∃ next, (forall more, state.deleteFrom nodes.head? (nodes.length + 1 + more) = some next) ∧
      next.ends = state.ends ∧ (forall node, node ∈ nodes -> next.memory node = none) ∧
      forall node, node ∉ nodes -> next.memory node = state.memory node := by
  induction nodes generalizing state with
  | nil =>
      refine ⟨state, fun more => ?_, rfl, fun _ member => absurd member List.not_mem_nil,
        fun _ _ => rfl⟩
      rw [List.length_nil, Nat.zero_add, Nat.add_comm]
      rfl
  | cons node nodes inductionHypothesis =>
      rcases links [] node nodes rfl with ⟨prev, own⟩
      rcases List.nodup_cons.mp distinct with ⟨notLater, distinctLater⟩
      have kept (other : Node) (different : other ≠ node) :
          Function.update state.memory node none other = state.memory other :=
        Function.update_of_ne different ..
      have laterLinks (before : List Node) (other : Node) (after : List Node)
          (split : nodes = before ++ other :: after) :
          ∃ prev, Function.update state.memory node none other = some ⟨after.head?, prev⟩ := by
        rcases links (node :: before) other after (by rw [split]; rfl) with ⟨otherPrev, found⟩
        refine ⟨otherPrev, (kept other ?_).trans found⟩
        rintro rfl
        exact notLater (split ▸ List.mem_append_right before List.mem_cons_self)
      rcases @inductionHypothesis
        { state with memory := Function.update state.memory node none } distinctLater
        laterLinks with ⟨next, later, ends, deleted, others⟩
      refine ⟨next, fun more => ?_, ends, ?_, ?_⟩
      · have step : (node :: nodes).length + 1 + more = nodes.length + 1 + more + 1 := by
          rw [List.length_cons]
          omega
        rw [step, List.head?_cons, Lists.deleteFrom, Lists.following, Lists.destroy]
        simp only [Option.bind_eq_bind, Option.bind_some, own, Option.map_some]
        exact later more
      · intro other member
        rcases eq_or_ne other node with rfl | different
        · rw [others other notLater]
          exact Function.update_self ..
        · exact deleted other ((List.mem_cons.mp member).resolve_left different)
      · intro other absent
        rcases not_or.mp (absent ∘ List.mem_cons.mpr) with ⟨different, notIn⟩
        rw [others other notIn]
        exact kept other different

theorem clear (represents : Represents sequences state) (list : Id) :
    ∃ next, (forall more, state.clear list ((sequences.lists list).length + 1 + more) =
        some next) ∧
      next.ends list = ⟨none, none, 0⟩ ∧ Represents (sequences.assign list []) next := by
  rcases represents with ⟨⟨distinct, lists, apart⟩, chains, loose, owned⟩
  rcases deleteFrom (distinct list)
    (fun before node after split => ⟨_, (chains list).links before node after split⟩) with
    ⟨next, cleared, ends, deleted, others⟩
  refine ⟨next.setEnds list ⟨none, none, 0⟩, fun more => ?_, Function.update_self ..,
    ⟨?_, ?_, ?_⟩, ?_, ?_, ?_⟩
  · rw [Lists.clear, (chains list).first, cleared]
    rfl
  · intro other
    rcases eq_or_ne other list with rfl | different
    · rw [Sequences.assign_own]
      exact List.nodup_nil
    · rw [Sequences.assign_ne _ _ different]
      exact distinct other
  · intro first second node
    rw [Sequences.mem_assign, Sequences.mem_assign]
    grind
  · intro node held other
    have notIn := apart node held other
    rw [Sequences.mem_assign]
    grind
  · intro other
    rcases eq_or_ne other list with rfl | different
    · rw [Sequences.assign_own]
      have own : (next.setEnds other ⟨none, none, 0⟩).ends other = ⟨none, none, 0⟩ :=
        Function.update_self ..
      exact ⟨by rw [own]; rfl, by rw [own]; rfl, by rw [own]; rfl,
        fun before node after split => by cases before <;> cases split⟩
    · rw [Sequences.assign_ne _ _ different]
      refine (chains other).frame ?_ ?_
      · exact (Function.update_of_ne different ..).trans (congrFun ends other)
      · exact fun node member => others node fun own => different (lists other list node member own)
  · exact fun node held => (others node (apart node held list)).trans (loose node held)
  · intro node inMemory
    rcases Classical.em (node ∈ sequences.lists list) with own | notOwn
    · exact absurd (deleted node own) inMemory
    · have before := (others node notOwn).symm.trans_ne inMemory
      refine (owned node before).imp_right ?_
      rintro ⟨other, member⟩
      refine ⟨other, (Sequences.mem_assign ..).mpr (.inr ⟨?_, member⟩)⟩
      rintro rfl
      exact notOwn member

omit [DecidableEq Node] in
/-- The lists change places. -/
theorem swap (represents : Represents sequences state) :
    Represents ((sequences.assign list (sequences.lists other)).assign other
      (sequences.lists list)) (state.swap list other) := by
  have lists_eq (each : Id) :
      ((sequences.assign list (sequences.lists other)).assign other (sequences.lists list)).lists
        each = sequences.lists (Equiv.swap list other each) := by
    simp only [Sequences.assign, Function.update_apply, Equiv.swap_apply_def]
    split_ifs <;> simp_all
  have ends_eq (each : Id) :
      (state.swap list other).ends each = state.ends (Equiv.swap list other each) := by
    simp only [Lists.swap, Lists.setEnds, Function.update_apply, Equiv.swap_apply_def]
    split_ifs <;> simp_all
  rcases represents with ⟨⟨distinct, lists, apart⟩, chains, loose, owned⟩
  refine ⟨⟨?_, ?_, ?_⟩, ?_, loose, ?_⟩
  · exact fun each => lists_eq each ▸ distinct _
  · intro first second node inFirst inSecond
    rw [lists_eq] at inFirst inSecond
    exact (Equiv.swap list other).injective (lists _ _ node inFirst inSecond)
  · exact fun node held each => lists_eq each ▸ apart node held _
  · intro each
    have chain := chains (Equiv.swap list other each)
    rw [lists_eq each]
    exact ⟨ends_eq each ▸ chain.first, ends_eq each ▸ chain.last, ends_eq each ▸ chain.size,
      chain.links⟩
  · intro node inMemory
    refine (owned node inMemory).imp_right ?_
    rintro ⟨each, member⟩
    refine ⟨Equiv.swap list other each, ?_⟩
    rw [lists_eq, Equiv.swap_apply_self]
    exact member

omit [DecidableEq Node] in
/-- Moving from a list into an empty one is the same as swapping. -/
theorem move (represents : Represents sequences state) (other : Id)
    (empty : state.ends list = ⟨none, none, 0⟩) :
    Represents ((sequences.assign list (sequences.lists other)).assign other [])
      ((state.setEnds list (state.ends other)).setEnds other ⟨none, none, 0⟩) := by
  have noNodes : sequences.lists list = [] := by
    have first := (represents.chains list).first
    rw [empty] at first
    exact List.head?_eq_none_iff.mp first.symm
  have swapped : Represents ((sequences.assign list (sequences.lists other)).assign other
      (sequences.lists list)) (state.swap list other) := represents.swap
  rwa [noNodes, Lists.swap, empty] at swapped

/-- The loop of `splice`, where every node can be put where the ones before it have
been: `between` says what the sequences are after some of the nodes. -/
theorem splice_loop {pos last : Option Node} (between : List Node -> List Node -> Sequences Id Node)
    (places : forall done node rest, ∃ others later before after,
      (between done (node :: rest)).lists other = others ++ node :: later ∧
      later.head? = rest.head?.or last ∧ pos = after.head? ∧
      ((between done (node :: rest)).assign other (others ++ later)).lists list = before ++ after ∧
      ((between done (node :: rest)).assign other (others ++ later)).assign list
        (before ++ node :: after) = between (done ++ [node]) rest)
    {done moved : List Node} (inRange : forall node, node ∈ moved -> some node ≠ last)
    (represents : Represents (between done moved) state) :
    ∃ next, (forall more, state.splice list pos other (moved.head?.or last) last
        (moved.length + 1 + more) = some next) ∧ Represents (between (done ++ moved) []) next := by
  induction moved generalizing done state with
  | nil =>
      refine ⟨state, fun more => ?_, by rwa [List.append_nil]⟩
      rw [List.length_nil, Nat.zero_add, Nat.add_comm, Lists.splice]
      exact if_pos rfl
  | cons node rest inductionHypothesis =>
      rcases places done node rest with
        ⟨others, later, before, after, split, head, rfl, place, same⟩
      have following := Lists.following_eq (split ▸ represents.chains other)
      rw [head] at following
      rcases represents.extract split with ⟨taken, extracted, holds⟩
      rcases represents.spliceOne split place with ⟨put, spliced, done'⟩
      rw [Lists.spliceOne, extracted, Option.bind_eq_bind, Option.bind_some] at spliced
      dsimp only at spliced
      rw [same] at done'
      have restInRange (other : Node) (member : other ∈ rest) : some other ≠ last :=
        inRange other (List.mem_cons_of_mem node member)
      rcases inductionHypothesis restInRange done' with ⟨next, continued, final⟩
      rw [List.append_assoc, List.singleton_append] at final
      refine ⟨next, fun more => ?_, final⟩
      have step : (node :: rest).length + 1 + more = rest.length + 1 + more + 1 := by
        rw [List.length_cons]
        omega
      have different : some node ≠ last := inRange node List.mem_cons_self
      rw [step, List.head?_cons, Option.some_or, Lists.splice, if_neg different, following,
        extracted]
      simp only [Option.bind_eq_bind, Option.bind_some, spliced]
      exact continued more

/-- Between different lists. -/
theorem splice_between (represents : Represents sequences state) (different : list ≠ other)
    {others moved rest : List Node} (split : sequences.lists other = others ++ (moved ++ rest))
    (place : sequences.lists list = before ++ after) :
    ∃ next, (forall more, state.splice list after.head? other (moved ++ rest).head? rest.head?
        (moved.length + 1 + more) = some next) ∧
      Represents ((sequences.assign other (others ++ rest)).assign list
        (before ++ (moved ++ after))) next := by
  have distinct := represents.apart.distinct other
  rw [split] at distinct
  have inRange (node : Node) (member : node ∈ moved) : some node ≠ rest.head? :=
    Lists.ne_head (by grind)
  have start : Represents ((sequences.assign other (others ++ (moved ++ rest))).assign list
      (before ++ ([] ++ after))) state := by
    rwa [List.nil_append, ← split, ← place, Sequences.assign_same, Sequences.assign_same]
  rw [List.head?_append]
  refine splice_loop (fun done remaining => (sequences.assign other
    (others ++ (remaining ++ rest))).assign list (before ++ (done ++ after))) ?_ inRange start
  intro done node remaining
  refine ⟨others, remaining ++ rest, before ++ done, after, ?_, List.head?_append, rfl, ?_, ?_⟩
  · rw [Sequences.assign_ne _ _ different.symm, Sequences.assign_own]
    rfl
  · rw [Sequences.assign_ne _ _ different, Sequences.assign_own, List.append_assoc]
  · rw [Sequences.assign_comm _ _ different, Sequences.assign_assign, Sequences.assign_assign,
      List.append_assoc, List.append_assoc]
    rfl

/-- To a place before the range. -/
theorem splice_before (represents : Represents sequences state) {middle moved rest : List Node}
    (split : sequences.lists list = before ++ (node :: middle ++ (moved ++ rest))) :
    ∃ next, (forall more, state.splice list (some node) list (moved ++ rest).head? rest.head?
        (moved.length + 1 + more) = some next) ∧
      Represents (sequences.assign list (before ++ (moved ++ (node :: middle ++ rest)))) next := by
  have distinct := represents.apart.distinct list
  rw [split] at distinct
  have inRange (other : Node) (member : other ∈ moved) : some other ≠ rest.head? :=
    Lists.ne_head (by grind)
  have start : Represents (sequences.assign list
      (before ++ ([] ++ (node :: middle ++ (moved ++ rest))))) state := by
    rwa [List.nil_append, ← split, Sequences.assign_same]
  rw [List.head?_append]
  refine splice_loop (fun done remaining => sequences.assign list
    (before ++ (done ++ (node :: middle ++ (remaining ++ rest))))) ?_ inRange start
  intro done other remaining
  refine ⟨before ++ (done ++ node :: middle), remaining ++ rest, before ++ done,
    node :: middle ++ (remaining ++ rest), ?_, List.head?_append, rfl, ?_, ?_⟩
  · simp only [Sequences.assign_own, List.append_assoc, List.cons_append]
  · simp only [Sequences.assign_own, List.append_assoc, List.cons_append]
  · simp only [Sequences.assign_assign, List.append_assoc, List.cons_append, List.nil_append]

/-- To a place behind the range, but not directly behind it. -/
theorem splice_behind (represents : Represents sequences state) {others moved middle : List Node}
    (split : sequences.lists list = others ++ (moved ++ (node :: middle ++ after))) :
    ∃ next, (forall more, state.splice list after.head? list
        (moved ++ (node :: middle ++ after)).head? (some node) (moved.length + 1 + more) =
          some next) ∧
      Represents (sequences.assign list (others ++ (node :: middle ++ (moved ++ after)))) next := by
  have distinct := represents.apart.distinct list
  rw [split] at distinct
  have inRange (other : Node) (member : other ∈ moved) : some other ≠ some node := by grind
  have start : Represents (sequences.assign list
      (others ++ (moved ++ (node :: middle ++ ([] ++ after))))) state := by
    rwa [List.nil_append, ← split, Sequences.assign_same]
  rw [List.head?_append]
  refine splice_loop (fun done remaining => sequences.assign list
    (others ++ (remaining ++ (node :: middle ++ (done ++ after))))) ?_ inRange start
  intro done other remaining
  refine ⟨others, remaining ++ (node :: middle ++ (done ++ after)),
    others ++ (remaining ++ (node :: middle ++ done)), after, ?_, List.head?_append, rfl, ?_, ?_⟩
  · simp only [Sequences.assign_own, List.cons_append]
  · simp only [Sequences.assign_own, List.append_assoc, List.cons_append]
  · simp only [Sequences.assign_assign, List.append_assoc, List.cons_append, List.nil_append]

/-- To the place where it is, for at most one node. -/
theorem splice_short (represents : Represents sequences state) {others moved rest : List Node}
    (split : sequences.lists list = others ++ (moved ++ rest)) (short : moved.length ≤ 1)
    :
    ∃ next, (forall more, state.splice list rest.head? list (moved ++ rest).head? rest.head?
        (moved.length + 1 + more) = some next) ∧
      Represents (sequences.assign list (others ++ (moved ++ rest))) next := by
  have distinct := represents.apart.distinct list
  rw [split] at distinct
  cases moved with
  | nil =>
      refine ⟨state, fun more => ?_, by rwa [← split, Sequences.assign_same]⟩
      rw [List.nil_append, List.length_nil, Nat.zero_add, Nat.add_comm, Lists.splice, if_pos rfl]
  | cons node more' =>
      have noMore : more' = [] := List.eq_nil_of_length_eq_zero (by simpa using short)
      subst noMore
      have here : sequences.lists list = others ++ node :: rest := split
      have different : some node ≠ rest.head? := Lists.ne_head (by grind)
      have following := Lists.following_eq (here ▸ represents.chains list)
      rcases represents.extract here with ⟨taken, extracted, holds⟩
      rcases represents.spliceOne here (Sequences.assign_own ..) with ⟨next, spliced, final⟩
      rw [Lists.spliceOne, extracted, Option.bind_eq_bind, Option.bind_some] at spliced
      dsimp only at spliced
      rw [Sequences.assign_assign] at final
      refine ⟨next, fun more => ?_, final⟩
      have step : [node].length + 1 + more = more + 1 + 1 := by
        rw [List.length_singleton]
        omega
      rw [step, List.cons_append, List.head?_cons, Lists.splice, if_neg different]
      simp only [following, extracted, spliced, Option.bind_eq_bind, Option.bind_some, Lists.splice,
        if_true]

theorem splice (represents : Represents sequences state) {others moved rest : List Node}
    (split : sequences.lists other = others ++ (moved ++ rest))
    (place : (sequences.assign other (others ++ rest)).lists list = before ++ after)
    (elsewhere : list = other -> after.head? = rest.head? -> moved.length ≤ 1) :
    ∃ next, (forall more, state.splice list after.head? other (moved ++ rest).head? rest.head?
        (moved.length + 1 + more) = some next) ∧
      Represents ((sequences.assign other (others ++ rest)).assign list
        (before ++ (moved ++ after))) next := by
  rcases eq_or_ne list other with rfl | different
  · rw [Sequences.assign_own] at place
    rw [Sequences.assign_assign]
    rcases List.append_eq_append_iff.mp place with ⟨middle, rfl, rfl⟩ | ⟨middle, rfl, rfl⟩
    · cases middle with
      | nil =>
          rw [List.append_nil]
          exact represents.splice_short split (elsewhere rfl rfl)
      | cons node middle =>
          rw [List.append_assoc]
          exact represents.splice_behind split
    · cases middle with
      | nil =>
          rw [List.append_nil] at split
          exact represents.splice_short split (elsewhere rfl rfl)
      | cons node middle =>
          rw [List.append_assoc] at split
          exact represents.splice_before split
  · rw [Sequences.assign_ne _ _ different] at place
    exact represents.splice_between different split place

end Represents

/-! ## Runs -/

/-- The operations, with their iterators; `make` and `destroy` are of the pointers that
hold single nodes. -/
inductive Operation (Id Node : Type) where
  | make (node : Node)
  | destroy (node : Node)
  | pushFront (list : Id) (node : Node)
  | pushBack (list : Id) (node : Node)
  | popFront (list : Id)
  | popBack (list : Id)
  | extractFront (list : Id)
  | extractBack (list : Id)
  | insert (list : Id) (pos : Option Node) (node : Node)
  | extract (list : Id) (pos : Option Node)
  | erase (list : Id) (pos : Option Node)
  | eraseRange (list : Id) (first last : Option Node)
  | swap (list other : Id)
  | moveConstruct (list other : Id)
  | moveAssign (list other : Id)
  | clear (list : Id)
  | spliceOne (list : Id) (pos : Option Node) (other : Id) (it : Option Node)
  | splice (list : Id) (pos : Option Node) (other : Id) (first last : Option Node)
  | spliceAll (list : Id) (pos : Option Node) (other : Id)

namespace Lists

/-- An operation, whose loops end within `fuel` iterations. -/
def perform (fuel : Nat) (state : Lists Id Node) : Operation Id Node -> Option (Lists Id Node)
  | .make node => state.make node
  | .destroy node => state.destroy node
  | .pushFront list node => state.pushFront list node
  | .pushBack list node => state.pushBack list node
  | .popFront list => state.popFront list
  | .popBack list => state.popBack list
  | .extractFront list => (state.extractFront list).map Prod.snd
  | .extractBack list => (state.extractBack list).map Prod.snd
  | .insert list pos node => state.insert list pos node
  | .extract list pos => (state.extract list pos).map Prod.snd
  | .erase list pos => (state.erase list pos).map Prod.snd
  | .eraseRange list first last => state.eraseRange list first last fuel
  | .swap list other => some (state.swap list other)
  | .moveConstruct list other => some (state.moveConstruct list other)
  | .moveAssign list other => state.moveAssign list other fuel
  | .clear list => state.clear list fuel
  | .spliceOne list pos other it => state.spliceOne list pos other it
  | .splice list pos other first last => state.splice list pos other first last fuel
  | .spliceAll list pos other => state.spliceAll list pos other fuel

/-- The program that performs operations. -/
def program (fuel : Nat) : System (Lists Id Node) (Operation Id Node) := ⟨perform fuel⟩

end Lists

/-- The same operations on sequences.  A node is put into a list by a pointer that
holds it, and an iterator is that of a place in its list. -/
inductive Sequences.Step :
    Sequences Id Node -> Operation Id Node -> Sequences Id Node -> Prop where
  | make {sequences node} : node ∉ sequences.held -> (forall list, node ∉ sequences.lists list) ->
      Step sequences (.make node) (sequences.hold node)
  | destroy {sequences node} : node ∈ sequences.held ->
      Step sequences (.destroy node) (sequences.drop node)
  | pushFront {sequences list node} : node ∈ sequences.held ->
      Step sequences (.pushFront list node)
        ((sequences.drop node).assign list (node :: sequences.lists list))
  | pushBack {sequences list node} : node ∈ sequences.held ->
      Step sequences (.pushBack list node)
        ((sequences.drop node).assign list (sequences.lists list ++ [node]))
  | popFront {sequences list node after} : sequences.lists list = node :: after ->
      Step sequences (.popFront list) (sequences.assign list after)
  | popBack {sequences list node before} : sequences.lists list = before ++ [node] ->
      Step sequences (.popBack list) (sequences.assign list before)
  | extractFront {sequences list node after} : sequences.lists list = node :: after ->
      Step sequences (.extractFront list) ((sequences.assign list after).hold node)
  | extractBack {sequences list node before} : sequences.lists list = before ++ [node] ->
      Step sequences (.extractBack list) ((sequences.assign list before).hold node)
  | insert {sequences list node before after} : node ∈ sequences.held ->
      sequences.lists list = before ++ after ->
      Step sequences (.insert list after.head? node)
        ((sequences.drop node).assign list (before ++ node :: after))
  | extract {sequences list node before after} :
      sequences.lists list = before ++ node :: after ->
      Step sequences (.extract list (some node))
        ((sequences.assign list (before ++ after)).hold node)
  | erase {sequences list node before after} : sequences.lists list = before ++ node :: after ->
      Step sequences (.erase list (some node)) (sequences.assign list (before ++ after))
  | eraseRange {sequences list before erased after} :
      sequences.lists list = before ++ (erased ++ after) ->
      Step sequences (.eraseRange list (erased ++ after).head? after.head?)
        (sequences.assign list (before ++ after))
  | swap {sequences} (list other) : Step sequences (.swap list other)
      ((sequences.assign list (sequences.lists other)).assign other (sequences.lists list))
  | moveConstruct {sequences list} (other) : sequences.lists list = [] ->
      Step sequences (.moveConstruct list other)
        ((sequences.assign list (sequences.lists other)).assign other [])
  | moveAssign {sequences} (list other) : Step sequences (.moveAssign list other)
      ((sequences.assign list (sequences.lists other)).assign other [])
  | clear {sequences} (list) : Step sequences (.clear list) (sequences.assign list [])
  | spliceOne {sequences list other node others rest before after} :
      sequences.lists other = others ++ node :: rest ->
      (sequences.assign other (others ++ rest)).lists list = before ++ after ->
      Step sequences (.spliceOne list after.head? other (some node))
        ((sequences.assign other (others ++ rest)).assign list (before ++ node :: after))
  | spliceItself {sequences list node} : node ∈ sequences.lists list ->
      Step sequences (.spliceOne list (some node) list (some node)) sequences
  | splice {sequences list other others moved rest before after} :
      sequences.lists other = others ++ (moved ++ rest) ->
      (sequences.assign other (others ++ rest)).lists list = before ++ after ->
      Step sequences (.splice list after.head? other (moved ++ rest).head? rest.head?)
        ((sequences.assign other (others ++ rest)).assign list (before ++ (moved ++ after)))
  | spliceAll {sequences list other before after} :
      (sequences.assign other []).lists list = before ++ after ->
      Step sequences (.spliceAll list after.head? other)
        ((sequences.assign other []).assign list (before ++ (sequences.lists other ++ after)))

/-- No node is spliced before itself, and no two before the node behind them. -/
def Sequences.Careful (sequences : Sequences Id Node) : Operation Id Node -> Prop
  | .spliceOne list pos other it => list = other -> pos ≠ it
  | .splice list pos other first last => list = other -> pos = last ->
      first = last ∨ ∃ before node after, sequences.lists list = before ++ node :: after ∧
        first = some node ∧ last = after.head?
  | .spliceAll list _ other => list = other -> (sequences.lists list).length ≤ 1
  | _ => True

section Runs

variable {sequences sequencesNext : Sequences Id Node} {state : Lists Id Node}
  {operation : Operation Id Node}

/-- A range that is put directly behind itself has at most one node. -/
theorem Sequences.Careful.short {list : Id} {others moved rest : List Node} {pos : Option Node}
    (distinct : (sequences.lists list).Nodup)
    (split : sequences.lists list = others ++ (moved ++ rest))
    (careful : sequences.Careful (.splice list pos list (moved ++ rest).head? rest.head?))
    (behind : pos = rest.head?) : moved.length ≤ 1 := by
  rw [split] at distinct
  cases moved with
  | nil => exact Nat.zero_le 1
  | cons node moved =>
      rcases careful rfl behind with same | ⟨before, other, after, place, first, last⟩
      · exact absurd same (Lists.ne_head (by grind))
      · cases first
        cases moved with
        | nil => exact Nat.le_refl 1
        | cons next moved =>
            rw [split] at place
            rcases Lists.split_cases place with ⟨rfl, -, rfl⟩ | ⟨middle, rfl, -⟩ | ⟨middle, rfl, -⟩
            · exact absurd last.symm (Lists.ne_head (by grind))
            · grind
            · grind

omit [DecidableEq Node] in
theorem Sequences.assign_moved (sequences : Sequences Id Node) (list other : Id) :
    ((sequences.assign list []).assign list ((sequences.assign list []).lists other)).assign other
        [] =
      (sequences.assign list (sequences.lists other)).assign other [] := by
  rcases eq_or_ne list other with rfl | different
  · rw [assign_assign, assign_assign, assign_assign]
  · rw [assign_assign, assign_ne _ _ different.symm]

/-- What an operation does to sequences, it does to the lists that they represent. -/
theorem Represents.perform (represents : Represents sequences state)
    (stepped : sequences.Step operation sequencesNext) (careful : sequences.Careful operation) :
    ∃ next enough, (forall more, state.perform (enough + more) operation = some next) ∧
      Represents sequencesNext next := by
  cases stepped with
  | make free outside =>
      rcases represents.make free outside with ⟨next, performed, holds⟩
      exact ⟨next, 0, fun _ => performed, holds⟩
  | destroy held =>
      rcases represents.destroy held with ⟨next, performed, holds⟩
      exact ⟨next, 0, fun _ => performed, holds⟩
  | pushFront held =>
      rcases represents.pushFront held with ⟨next, performed, holds⟩
      exact ⟨next, 0, fun _ => performed, holds⟩
  | pushBack held =>
      rcases represents.pushBack held with ⟨next, performed, holds⟩
      exact ⟨next, 0, fun _ => performed, holds⟩
  | popFront split =>
      rcases represents.popFront split with ⟨next, performed, holds⟩
      exact ⟨next, 0, fun _ => performed, holds⟩
  | popBack split =>
      rcases represents.popBack split with ⟨next, performed, holds⟩
      exact ⟨next, 0, fun _ => performed, holds⟩
  | extractFront split =>
      rcases represents.extractFront split with ⟨next, performed, holds⟩
      exact ⟨next, 0, fun _ => congrArg (Option.map Prod.snd) performed, holds⟩
  | extractBack split =>
      rcases represents.extractBack split with ⟨next, performed, holds⟩
      exact ⟨next, 0, fun _ => congrArg (Option.map Prod.snd) performed, holds⟩
  | insert held split =>
      rcases represents.insert held split with ⟨next, performed, holds⟩
      exact ⟨next, 0, fun _ => performed, holds⟩
  | extract split =>
      rcases represents.extract split with ⟨next, performed, holds⟩
      exact ⟨next, 0, fun _ => congrArg (Option.map Prod.snd) performed, holds⟩
  | erase split =>
      rcases represents.erase split with ⟨next, performed, holds⟩
      exact ⟨next, 0, fun _ => congrArg (Option.map Prod.snd) performed, holds⟩
  | eraseRange split =>
      rcases represents.eraseRange split with ⟨next, performed, holds⟩
      exact ⟨next, _, performed, holds⟩
  | swap list other => exact ⟨_, 0, fun _ => rfl, represents.swap⟩
  | moveConstruct other empty =>
      have chain := represents.chains
      exact ⟨_, 0, fun _ => rfl, represents.move other (Lists.Chain.ends_nil (empty ▸ chain _))⟩
  | moveAssign list other =>
      rcases represents.clear list with ⟨between, cleared, ends, holds⟩
      have moved := holds.move other ends
      rw [Sequences.assign_moved] at moved
      refine ⟨_, (sequences.lists list).length + 1, fun more => ?_, moved⟩
      rw [Lists.perform, Lists.moveAssign, cleared]
      rfl
  | clear list =>
      rcases represents.clear list with ⟨next, performed, _, holds⟩
      exact ⟨next, _, performed, holds⟩
  | spliceOne split place =>
      rcases represents.spliceOne split place with ⟨next, performed, holds⟩
      exact ⟨next, 0, fun _ => performed, holds⟩
  | spliceItself => exact absurd rfl (careful rfl)
  | @splice list other others moved rest before after split place =>
      have distinct := represents.apart.distinct
      rcases represents.splice split place fun same behind => by
        subst same
        exact careful.short (distinct list) split behind with ⟨next, performed, holds⟩
      exact ⟨next, _, performed, holds⟩
  | @spliceAll list other before after place =>
      have first := (represents.chains other).first
      have split : sequences.lists other = [] ++ (sequences.lists other ++ []) :=
        (List.append_nil _).symm
      rcases represents.splice split place fun same _behind => same ▸ careful same with
        ⟨next, performed, holds⟩
      rw [List.append_nil, ← first] at performed
      exact ⟨next, _, performed, holds⟩

/-- What is to hold of the lists after a run that does to sequences what it says. -/
structure Intact (sequences : Sequences Id Node) (state : Lists Id Node) : Prop where
  /-- The ends, the size and the links are those of the sequence. -/
  chains : forall list, state.Chain list (sequences.lists list)
  inverse : forall node other,
    (∃ prev, state.memory node = some ⟨some other, prev⟩) ↔
      ∃ next, state.memory other = some ⟨next, some node⟩
  distinct : forall list, (sequences.lists list).Nodup
  once : forall node, state.memory node ≠ none -> node ∉ sequences.held ->
    ∃! list, node ∈ sequences.lists list
  loose : forall node, node ∈ sequences.held ->
    state.memory node = some ⟨none, none⟩ ∧ forall list, node ∉ sequences.lists list

omit [DecidableEq Id] [DecidableEq Node] in
theorem Represents.place (represents : Represents sequences state) {node : Node}
    {links : Links Node} (found : state.memory node = some links) (linked : links ≠ ⟨none, none⟩) :
    ∃ list before after, sequences.lists list = before ++ node :: after ∧
      links = ⟨after.head?, before.getLast?⟩ := by
  rcases represents.owned node (by simp [found]) with held | ⟨list, member⟩
  · have null := represents.loose node held
    rw [found] at null
    exact absurd (Option.some.inj null) linked
  · rcases List.append_of_mem member with ⟨before, after, split⟩
    have own := (represents.chains list).links before node after split
    rw [found] at own
    exact ⟨list, before, after, split, Option.some.inj own⟩

omit [DecidableEq Id] [DecidableEq Node] in
theorem Represents.intact (represents : Represents sequences state) : Intact sequences state where
  chains := represents.chains
  inverse := by
    intro node other
    constructor
    · rintro ⟨prev, found⟩
      rcases represents.place found (by simp) with ⟨list, before, after, split, links⟩
      cases after with
      | nil => cases links
      | cons next after =>
          cases links
          have later := (represents.chains list).links (before ++ [node]) other after
            (by rw [split, List.append_assoc]; rfl)
          rw [List.getLast?_concat] at later
          exact ⟨_, later⟩
    · rintro ⟨next, found⟩
      rcases represents.place found (by simp) with ⟨list, before, after, split, links⟩
      rcases List.eq_nil_or_concat' before with rfl | ⟨before, prev, rfl⟩
      · cases links
      · rw [List.getLast?_concat] at links
        cases links
        have earlier := (represents.chains list).links before node (other :: after)
          (by rw [split, List.append_assoc]; rfl)
        exact ⟨_, earlier⟩
  distinct := represents.apart.distinct
  once := by
    intro node inMemory free
    rcases (represents.owned node inMemory).resolve_left free with ⟨list, member⟩
    exact ⟨list, member, fun other inOther => represents.apart.lists other list node inOther member⟩
  loose := fun node held => ⟨represents.loose node held, represents.apart.held node held⟩

theorem Lists.matched (sequences : Sequences Id Node) (state : Lists Id Node)
    (operation : Operation Id Node) (sequencesNext : Sequences Id Node)
    (represents : Represents sequences state)
    (stepped : Sequences.Step sequences operation sequencesNext ∧ sequences.Careful operation) :
    ∃ next enough, (forall more,
        (Lists.program (enough + more)).step state operation = some next) ∧
      Represents sequencesNext next :=
  represents.perform stepped.1 stepped.2

/-- The lists stay intact in every run of careful operations, and all of them return. -/
theorem lists_intact {operations : List (Operation Id Node)} {last : Sequences Id Node}
    (run : Reaches (fun sequences operation next => Sequences.Step sequences operation next ∧
      sequences.Careful operation) Sequences.start operations last) :
    ∃ state enough, (forall more,
        (Lists.program (enough + more)).run Lists.start operations = some state) ∧
      Intact last state := by
  rcases System.run_of_reaches Lists.matched Represents.start run with ⟨state, enough, ran, holds⟩
  exact ⟨state, enough, ran, holds.intact⟩

/-- A list of two nodes that is spliced whole behind itself is spliced for ever. -/
theorem Represents.splice_forever (represents : Represents sequences state) {list : Id}
    {first second : Node} (split : sequences.lists list = [first, second]) (fuel : Nat) :
    state.splice list none list (some first) none fuel = none := by
  induction fuel generalizing sequences state first second with
  | zero => rfl
  | succ fuel inductionHypothesis =>
      have here : sequences.lists list = [] ++ first :: [second] := split
      have place : (sequences.assign list ([] ++ [second])).lists list = [second] ++ [] :=
        Sequences.assign_own ..
      have following := Lists.following_eq (here ▸ represents.chains list)
      rcases represents.extract here with ⟨taken, extracted, _⟩
      rcases represents.spliceOne here place with ⟨next, spliced, holds⟩
      rw [Lists.spliceOne, extracted, Option.bind_eq_bind, Option.bind_some] at spliced
      dsimp only at spliced
      rw [List.head?_nil] at spliced
      rw [Lists.splice, if_neg nofun, following, extracted]
      simp only [Option.bind_eq_bind, Option.bind_some, spliced]
      exact inductionHypothesis holds (Sequences.assign_own ..)

end Runs

/-! ## A list of two nodes -/

/-- Two nodes are made and put into a list. -/
def pair : List (Operation Unit Bool) :=
  [.make false, .pushBack () false, .make true, .pushBack () true]

theorem pair_reaches : ∃ sequences : Sequences Unit Bool, sequences.lists () = [false, true] ∧
    Reaches (fun sequences operation next => Sequences.Step sequences operation next ∧
      sequences.Careful operation) Sequences.start pair sequences := by
  refine ⟨_, ?_, _, ⟨.make (Set.notMem_empty _) (fun _ => List.not_mem_nil), trivial⟩,
    _, ⟨.pushBack (.inl rfl), trivial⟩, _, ⟨.make ?_ ?_, trivial⟩,
    _, ⟨.pushBack (.inl rfl), trivial⟩, rfl⟩
  · rfl
  · rintro ⟨other | other, _⟩
    · cases other
    · exact other
  · intro list
    change true ∉ [false]
    decide

/-- The first node is spliced to the end. -/
theorem lists_intact_pair : ∃ (last : Sequences Unit Bool) (state : Lists Unit Bool)
    (enough : Nat), last.lists () = [true, false] ∧
      (forall more, (Lists.program (enough + more)).run Lists.start
        (pair ++ [.splice () none () (some false) (some true)]) = some state) ∧
      Intact last state := by
  rcases pair_reaches with ⟨sequences, nodes, reached⟩
  have split : sequences.lists () = [] ++ ([false] ++ [true]) := nodes
  have place : (sequences.assign () ([] ++ [true])).lists () = [true] ++ [] :=
    Sequences.assign_own ..
  have careful : sequences.Careful (.splice () none () (some false) (some true)) :=
    fun _same behind => nomatch behind
  have spliced := reached.append (Reaches.single ⟨.splice split place, careful⟩)
  rcases lists_intact spliced with ⟨state, enough, ran, intact⟩
  exact ⟨_, state, enough, Sequences.assign_own .., ran, intact⟩

/-- After a node has been spliced before itself, it comes after itself, and two nodes
are spliced behind themselves for ever. -/
theorem splice_itself :
    (∃ last, Reaches Sequences.Step Sequences.start
        (pair ++ [.spliceOne () (some false) () (some false)]) last ∧
      ¬ ∃ state enough, (forall more, (Lists.program (enough + more)).run Lists.start
          (pair ++ [.spliceOne () (some false) () (some false)]) = some state) ∧
        Intact last state) ∧
    ∃ last, Reaches Sequences.Step Sequences.start
        (pair ++ [.splice () none () (some false) none]) last ∧
      forall fuel, (Lists.program fuel).run Lists.start
        (pair ++ [.splice () none () (some false) none]) = none := by
  rcases pair_reaches with ⟨sequences, nodes, careful⟩
  have reached : Reaches Sequences.Step Sequences.start pair sequences :=
    careful.weaken fun _ _ _ stepped => stepped.1
  have first : false ∈ sequences.lists () := nodes ▸ List.mem_cons_self
  have split : sequences.lists () = [] ++ ([false, true] ++ []) := nodes
  have place : (sequences.assign () ([] ++ [])).lists () = [] ++ [] := Sequences.assign_own ..
  refine ⟨⟨_, reached.append (.single (.spliceItself first)), ?_⟩,
    _, reached.append (.single (.splice split place)), fun fuel => ?_⟩
  · rintro ⟨state, enough, ran, intact⟩
    have computed : ((Lists.program (enough + 0)).run Lists.start
        (pair ++ [.spliceOne () (some false) () (some false)])).map (fun state =>
          state.memory false) = some (some ⟨some false, some false⟩) := rfl
    rw [ran 0] at computed
    have links := (intact.chains ()).links [] false [true] nodes
    have clash := (Option.some.inj computed).symm.trans links
    cases clash
  · rcases System.run_of_reaches Lists.matched Represents.start careful with
      ⟨state, enough, ran, represents⟩
    have paired : (Lists.program fuel).run Lists.start pair = some state := ran 0
    rw [System.run_append, paired]
    change ((Lists.program fuel).run state [.splice () none () (some false) none]) = none
    have spliced := represents.splice_forever nodes fuel
    have step : (Lists.program fuel).step state (.splice () none () (some false) none) = none :=
      spliced
    rw [System.run, step]

end IntrusiveList

end Wasm
end WasmSandboxing
