import Mathlib.Data.List.Basic
import NestedSpec.Proofs.Members

/-!
# Freezing a tree

The groups of a tree stand in one table, each with the number of the group around it. Freezing the
table goes through it once, in order, and finds the bindings that hold in every group from its own
and from those that hold in the group around it. Groups are numbered in the order in which they were
declared, so the group around has always been done before, and it does not matter what earlier
passes have left in the table.
-/

namespace NestedSpec

variable {ν : Type}

structure Node (ν : Type) where
  parent : Option Nat
  bindings : List (Binding ν)
  scope : List (Binding ν)

def Node.bare (node : Node ν) : Node ν := { node with scope := [] }

abbrev Arena (ν : Type) := List (Node ν)

namespace Arena

def inherited (arena : Arena ν) (node : Node ν) : List (Binding ν) :=
  ((node.parent.bind fun parent => arena[parent]?).map (·.scope)).getD []

def freezeNode (arena : Arena ν) (index : Nat) : Arena ν :=
  arena.modify index fun node => { node with scope := node.bindings ++ arena.inherited node }

def freezeFirst (arena : Arena ν) (count : Nat) : Arena ν :=
  (List.range count).foldl freezeNode arena

def freeze (arena : Arena ν) : Arena ν :=
  arena.freezeFirst arena.length

def binding (arena : Arena ν) (index id : Nat) : Option (Binding ν) :=
  arena[index]?.bind fun node => bindingIn node.scope id

/-- The groups of a chain stand in the table, each below the one before it and behind it; the last
one has this number. -/
inductive Hangs (arena : Arena ν) : Chain ν → Option Nat → Prop
  | nil : Hangs arena [] none
  | inside {chain : Chain ν} {parent : Option Nat} {group : Group ν} {node : Node ν}
      (above : Hangs arena chain parent) (earlier : ∀ index ∈ parent, index < group.index)
      (place : arena[group.index]? = some node) (hangs : node.parent = parent)
      (own : node.bindings = group.bindings) : Hangs arena (chain ++ [group]) (some group.index)

variable {arena : Arena ν}

theorem freezeFirst_succ (arena : Arena ν) (count : Nat) :
    arena.freezeFirst (count + 1) = (arena.freezeFirst count).freezeNode count := by
  simp [freezeFirst, List.range_succ]

theorem getElem?_freezeNode_ne {index other : Nat} (away : index ≠ other) (arena : Arena ν) :
    (arena.freezeNode index)[other]? = arena[other]? := by
  simp [freezeNode, away]

theorem getElem?_freezeNode {index : Nat} {node : Node ν} (place : arena[index]? = some node) :
    (arena.freezeNode index)[index]? =
      some { node with scope := node.bindings ++ arena.inherited node } := by
  simp [freezeNode, place]

/-- A pass changes nothing of a node but what it finds. -/
theorem getElem?_freezeFirst {index : Nat} {node : Node ν} (place : arena[index]? = some node)
    (count : Nat) : ∃ scope, (arena.freezeFirst count)[index]? = some { node with scope } := by
  induction count with
  | zero => exact ⟨node.scope, place⟩
  | succ count ih =>
    obtain ⟨scope, found⟩ := ih
    rw [freezeFirst_succ]
    by_cases here : count = index
    · subst here
      exact ⟨_, by rw [getElem?_freezeNode found]⟩
    · exact ⟨scope, by rw [getElem?_freezeNode_ne here, found]⟩

/-- What a pass has found for a node it does not change any more. -/
theorem getElem?_freezeFirst_of_lt {index count : Nat} (done : index < count) :
    (arena.freezeFirst count)[index]? = (arena.freezeFirst (index + 1))[index]? := by
  induction count with
  | zero => exact absurd done (Nat.not_lt_zero _)
  | succ count ih =>
    rcases Nat.lt_succ_iff_lt_or_eq.mp done with before | rfl
    · rw [freezeFirst_succ, getElem?_freezeNode_ne (Nat.ne_of_gt before), ih before]
    · rfl

end Arena

theorem Chain.scope_append (chain : Chain ν) (group : Group ν) :
    scope (chain ++ [group]) = group.bindings ++ scope chain := by
  simp [scope]

namespace Arena

variable {arena : Arena ν}

/-- A pass that has come past a group has found what holds there. -/
theorem Hangs.scope_freezeFirst {chain : Chain ν} {last : Option Nat}
    (hangs : Hangs arena chain last) {index count : Nat} (innermost : last = some index)
    (done : index < count) :
    ((arena.freezeFirst count)[index]?).map (·.scope) = some chain.scope := by
  induction hangs generalizing index count with
  | nil => exact absurd innermost nofun
  | @inside chain parent group node above earlier place hangs own ih =>
    obtain rfl : group.index = index := Option.some.inj innermost
    obtain ⟨scope, found⟩ := getElem?_freezeFirst place group.index
    have outer : (arena.freezeFirst group.index).inherited { node with scope } = chain.scope := by
      unfold inherited
      cases above with
      | nil => simp [hangs, Chain.scope]
      | inside => simp [hangs, ih rfl (earlier _ rfl)]
    rw [getElem?_freezeFirst_of_lt done, freezeFirst_succ, getElem?_freezeNode found,
      Option.map_some, outer, Chain.scope_append, own]

/-- In a frozen table the bindings that hold in a group are those of its chain. -/
theorem Hangs.binding_freeze {chain : Chain ν} {last : Option Nat} (hangs : Hangs arena chain last)
    {group : Group ν} (innermost : chain.getLast? = some group) (id : Nat) :
    arena.freeze.binding group.index id = bindingIn chain.scope id := by
  have ends : last = some group.index ∧ group.index < arena.length := by
    cases hangs with
    | nil => simp at innermost
    | inside above earlier place =>
      obtain rfl := Option.some.inj (List.getLast?_concat.symm.trans innermost)
      exact ⟨rfl, (List.getElem?_eq_some_iff.mp place).1⟩
  have scope := hangs.scope_freezeFirst ends.1 ends.2
  obtain ⟨node, found, same⟩ := Option.map_eq_some_iff.mp scope
  rw [binding, freeze, found, Option.bind_some, same]

end Arena

/-! ## The table of a tree -/

def Member.around : Member ν → Chain ν
  | leaf chain _ => chain
  | group chain g => chain ++ [g]

namespace Item

mutual
def nodes (parent : Option Nat) : Item ν → Arena ν
  | leaf _ => []
  | group g items => ⟨parent, g.bindings, []⟩ :: nodesAll (some g.index) items

def nodesAll (parent : Option Nat) : List (Item ν) → Arena ν
  | [] => []
  | first :: rest => nodes parent first ++ nodesAll parent rest
end

mutual
theorem length_nodes (parent : Option Nat) :
    (item : Item ν) → (nodes parent item).length = (groups item).length
  | leaf _ => rfl
  | group g items => congrArg (· + 1) (length_nodesAll (some g.index) items)

theorem length_nodesAll (parent : Option Nat) :
    (items : List (Item ν)) → (nodesAll parent items).length = (groupsAll items).length
  | [] => rfl
  | first :: rest => by
    simp only [nodesAll, groupsAll, List.length_append, length_nodes parent first,
      length_nodesAll parent rest]
end

def NumberedFrom (start : Nat) (groups : List (Group ν)) : Prop :=
  groups.map (·.index) = List.range' start groups.length

theorem NumberedFrom.append_iff {start : Nat} {first second : List (Group ν)} :
    NumberedFrom start (first ++ second) ↔
      NumberedFrom start first ∧ NumberedFrom (start + first.length) second := by
  unfold NumberedFrom
  rw [List.map_append, List.length_append, ← List.range'_append_1]
  constructor
  · exact fun same => List.append_inj same (by simp)
  · rintro ⟨first, second⟩
    rw [first, second]

variable {arena : Arena ν}

mutual
theorem hangs_postOrder (before after : Arena ν) {chain : Chain ν} {parent : Option Nat}
    (above : arena.Hangs chain parent)
    (earlier : ∀ index ∈ parent, index < before.length) :
    (item : Item ν) → arena.map Node.bare = before ++ nodes parent item ++ after →
      NumberedFrom before.length (groups item) →
      ∀ member ∈ postOrder chain item, ∃ last, arena.Hangs member.around last
  | leaf l, _, _, member, among => by
    obtain rfl := List.mem_singleton.mp among
    exact ⟨parent, above⟩
  | group g items, layout, numbered, member, among => by
    obtain ⟨index, inside⟩ : g.index = before.length ∧
        NumberedFrom (before.length + 1) (groupsAll items) := by
      simpa [NumberedFrom, groups, List.range'_succ] using numbered
    have stands : (arena.map Node.bare)[g.index]? = some ⟨parent, g.bindings, []⟩ := by
      simp [layout, nodes, index]
    rw [List.getElem?_map] at stands
    obtain ⟨node, place, same⟩ := Option.map_eq_some_iff.mp stands
    have here : arena.Hangs (chain ++ [g]) (some g.index) :=
      .inside above (by rwa [index]) place (congrArg Node.parent same) (congrArg Node.bindings same)
    rcases List.mem_append.mp among with member_inside | itself
    · refine hangs_postOrderAll (before ++ [⟨parent, g.bindings, []⟩]) after here
        ?_ items ?_ ?_ member member_inside
      · simp [index]
      · simpa [nodes] using layout
      · simpa using inside
    · obtain rfl := List.mem_singleton.mp itself
      exact ⟨_, here⟩

theorem hangs_postOrderAll (before after : Arena ν) {chain : Chain ν} {parent : Option Nat}
    (above : arena.Hangs chain parent)
    (earlier : ∀ index ∈ parent, index < before.length) :
    (items : List (Item ν)) → arena.map Node.bare = before ++ nodesAll parent items ++ after →
      NumberedFrom before.length (groupsAll items) →
      ∀ member ∈ postOrderAll chain items, ∃ last, arena.Hangs member.around last
  | [], _, _, _, among => absurd among List.not_mem_nil
  | first :: rest, layout, numbered, member, among => by
    obtain ⟨numberedFirst, numberedRest⟩ := NumberedFrom.append_iff.mp numbered
    rcases List.mem_append.mp among with inFirst | inRest
    · refine hangs_postOrder before (nodesAll parent rest ++ after) above earlier
        first ?_ numberedFirst member inFirst
      simpa [nodesAll] using layout
    · refine hangs_postOrderAll (before ++ nodes parent first) after above ?_ rest
        ?_ ?_ member inRest
      · intro index at_
        rw [List.length_append]
        exact Nat.lt_add_right _ (earlier index at_)
      · simpa [nodesAll] using layout
      · rwa [List.length_append, length_nodes]
end

/-- Freezing finds for every place of a tree what is read off its chain, whatever earlier passes
have left in the table. -/
theorem binding_freeze {tree : Item ν} (numbered : NumberedFrom 0 (groups tree))
    (layout : arena.map Node.bare = nodes none tree) {member : Member ν}
    (among : member ∈ postOrder [] tree) {group : Group ν}
    (innermost : member.around.getLast? = some group) (id : Nat) :
    arena.freeze.binding group.index id = bindingIn member.around.scope id := by
  obtain ⟨last, hangs⟩ := hangs_postOrder [] [] .nil nofun tree
    (by simpa using layout) numbered member among
  exact hangs.binding_freeze innermost id

end Item
end NestedSpec
