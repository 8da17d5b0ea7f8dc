import Mathlib.Data.List.Basic
import NestedSpec.SpecTree

/-!
# The members of a tree

A tree lists its members in post-order, each with the groups around it: what is inside a group comes
before the group. Neither ordering siblings nor moving leaves behind the groups next to them changes
which members there are.
-/

namespace NestedSpec

variable {ν : Type}

def Chain.pathFrom (host : List String) (chain : Chain ν) : List String :=
  host ++ (chain.drop 1).map (·.description)

theorem Chain.pathFrom_append (host : List String) {chain : Chain ν} (inside : chain ≠ [])
    (group : Group ν) :
    pathFrom host (chain ++ [group]) = pathFrom host chain ++ [group.description] := by
  cases chain with
  | nil => exact absurd rfl inside
  | cons outermost rest => simp [pathFrom]

inductive Member (ν : Type) where
  | leaf (chain : Chain ν) (leaf : Leaf ν)
  | group (chain : Chain ν) (group : Group ν)

namespace Member

def path (host : List String) : Member ν → List String
  | leaf chain l => chain.pathFrom host ++ [l.description]
  | group chain g => chain.pathFrom host ++ [g.description]

def leaf? : Member ν → Option (Chain ν × Leaf ν)
  | leaf chain l => some (chain, l)
  | group _ _ => none

def leafName? : Member ν → Option String
  | leaf chain l => some (chain.leafPath l.description)
  | group _ _ => none

end Member

namespace Item

def members : Item ν → List (Item ν)
  | leaf _ => []
  | group _ items => items

mutual
def postOrder (chain : Chain ν) : Item ν → List (Member ν)
  | leaf l => [.leaf chain l]
  | group g items => postOrderAll (chain ++ [g]) items ++ [.group chain g]

def postOrderAll (chain : Chain ν) : List (Item ν) → List (Member ν)
  | [] => []
  | first :: rest => postOrder chain first ++ postOrderAll chain rest
end

theorem postOrderAll_eq_flatMap (chain : Chain ν) (items : List (Item ν)) :
    postOrderAll chain items = items.flatMap (postOrder chain) := by
  induction items with
  | nil => rfl
  | cons first rest ih => simp [postOrderAll, ih]

@[simp] theorem postOrderAll_append (chain : Chain ν) (first second : List (Item ν)) :
    postOrderAll chain (first ++ second) =
      postOrderAll chain first ++ postOrderAll chain second := by
  simp [postOrderAll_eq_flatMap]

theorem postOrderAll_perm (chain : Chain ν) {items items' : List (Item ν)}
    (perm : items.Perm items') :
    (postOrderAll chain items).Perm (postOrderAll chain items') := by
  simpa only [postOrderAll_eq_flatMap] using perm.flatMap_right _

/-! ## Ordering siblings -/

mutual
theorem postOrder_arrange (orderer : Orderer) (chain : Chain ν) :
    (item : Item ν) → (postOrder chain (arrange orderer chain item)).Perm (postOrder chain item)
  | leaf _ => .refl _
  | group g items => by
    let inner := (g.ordering.map orderer.withMode).getD orderer
    have ordered := Orderer.order_perm inner (Chain.path (chain ++ [g])) firstPlace
      (arrangeAll inner (chain ++ [g]) items)
    have members := (postOrderAll_perm (chain ++ [g]) ordered).trans
      (postOrderAll_arrangeAll inner (chain ++ [g]) items)
    simpa only [postOrder, arrange] using members.append_right _

theorem postOrderAll_arrangeAll (orderer : Orderer) (chain : Chain ν) :
    (items : List (Item ν)) →
      (postOrderAll chain (arrangeAll orderer chain items)).Perm (postOrderAll chain items)
  | [] => .refl _
  | first :: rest =>
    (postOrder_arrange orderer chain first).append (postOrderAll_arrangeAll orderer chain rest)
end

/-! ## Moving leaves behind groups -/

def isLeaf : Item ν → Bool
  | leaf _ => true
  | group _ _ => false

def groupsFirst (items : List (Item ν)) : List (Item ν) :=
  items.filter (!·.isLeaf) ++ items.filter (·.isLeaf)

theorem groupsFirst_perm (items : List (Item ν)) : (groupsFirst items).Perm items := by
  have split := List.filter_append_perm (fun item : Item ν => !item.isLeaf) items
  simpa only [groupsFirst, Bool.not_not] using split

mutual
/-- A member where, in every group that `moves` them, leaves come behind the groups next to them. -/
def leavesLast (moves : Chain ν → Bool) (chain : Chain ν) : Item ν → Item ν
  | leaf l => leaf l
  | group g items =>
    let inside := leavesLastAll moves (chain ++ [g]) items
    group g (if moves (chain ++ [g]) then groupsFirst inside else inside)

def leavesLastAll (moves : Chain ν → Bool) (chain : Chain ν) : List (Item ν) → List (Item ν)
  | [] => []
  | first :: rest => leavesLast moves chain first :: leavesLastAll moves chain rest
end

def membersLeavesLast (moves : Chain ν → Bool) (chain : Chain ν) (items : List (Item ν)) :
    List (Item ν) :=
  if moves chain then groupsFirst (leavesLastAll moves chain items)
  else leavesLastAll moves chain items

theorem membersLeavesLast_perm (moves : Chain ν → Bool) (chain : Chain ν) (items : List (Item ν)) :
    (membersLeavesLast moves chain items).Perm (leavesLastAll moves chain items) := by
  unfold membersLeavesLast
  split
  · exact groupsFirst_perm _
  · exact .refl _

mutual
theorem postOrder_leavesLast (moves : Chain ν → Bool) (chain : Chain ν) :
    (item : Item ν) → (postOrder chain (leavesLast moves chain item)).Perm (postOrder chain item)
  | leaf _ => .refl _
  | group g items => by
    have moved := postOrderAll_perm (chain ++ [g])
      (membersLeavesLast_perm moves (chain ++ [g]) items)
    have members := moved.trans (postOrderAll_leavesLastAll moves (chain ++ [g]) items)
    exact members.append_right _

theorem postOrderAll_leavesLastAll (moves : Chain ν → Bool) (chain : Chain ν) :
    (items : List (Item ν)) →
      (postOrderAll chain (leavesLastAll moves chain items)).Perm (postOrderAll chain items)
  | [] => .refl _
  | first :: rest =>
    (postOrder_leavesLast moves chain first).append (postOrderAll_leavesLastAll moves chain rest)
end

theorem leaf_mem_postOrderAll {chain : Chain ν} {l : Leaf ν} {items : List (Item ν)}
    (member : leaf l ∈ items) : Member.leaf chain l ∈ postOrderAll chain items := by
  rw [postOrderAll_eq_flatMap]
  exact List.mem_flatMap.mpr ⟨leaf l, member, List.mem_singleton.mpr rfl⟩

theorem groupsFirst_of_groups {items : List (Item ν)}
    (groups : ∀ item ∈ items, item.isLeaf = false) :
    groupsFirst items = items := by
  have kept : items.filter (!·.isLeaf) = items :=
    List.filter_eq_self.mpr fun item member => by simp [groups item member]
  have none : items.filter (·.isLeaf) = [] :=
    List.filter_eq_nil_iff.mpr fun item member => by simp [groups item member]
  rw [groupsFirst, kept, none, List.append_nil]

theorem membersLeavesLast_of_unmoved {moves : Chain ν → Bool} {chain : Chain ν}
    {items : List (Item ν)} (unchanged : leavesLastAll moves chain items = items)
    (unmoved : ∀ chain' l, Member.leaf chain' l ∈ postOrderAll chain items →
      moves chain' = false) : membersLeavesLast moves chain items = items := by
  unfold membersLeavesLast
  rw [unchanged]
  split
  · rename_i moving
    refine groupsFirst_of_groups fun item member => ?_
    cases item with
    | group g inside => rfl
    | leaf l =>
      have still := unmoved chain l (leaf_mem_postOrderAll member)
      rw [moving] at still
      cases still
  · rfl

mutual
theorem leavesLast_of_unmoved {moves : Chain ν → Bool} {chain : Chain ν} : (item : Item ν) →
    (∀ chain' l, Member.leaf chain' l ∈ postOrder chain item → moves chain' = false) →
    leavesLast moves chain item = item
  | leaf _, _ => rfl
  | group g items, unmoved => by
    have inside : ∀ chain' l, Member.leaf chain' l ∈ postOrderAll (chain ++ [g]) items →
        moves chain' = false :=
      fun chain' l member => unmoved chain' l (List.mem_append_left _ member)
    have unchanged := leavesLastAll_of_unmoved items inside
    exact congrArg (group g) (membersLeavesLast_of_unmoved unchanged inside)

theorem leavesLastAll_of_unmoved {moves : Chain ν → Bool} {chain : Chain ν} :
    (items : List (Item ν)) →
    (∀ chain' l, Member.leaf chain' l ∈ postOrderAll chain items → moves chain' = false) →
    leavesLastAll moves chain items = items
  | [], _ => rfl
  | first :: rest, unmoved => by
    rw [leavesLastAll,
      leavesLast_of_unmoved first fun _ _ member => unmoved _ _ (List.mem_append_left _ member),
      leavesLastAll_of_unmoved rest fun _ _ member => unmoved _ _ (List.mem_append_right _ member)]
end

/-! ## Leaves -/

mutual
def leaves (chain : Chain ν) : Item ν → List (Chain ν × Leaf ν)
  | leaf l => [(chain, l)]
  | group g items => leavesAll (chain ++ [g]) items

def leavesAll (chain : Chain ν) : List (Item ν) → List (Chain ν × Leaf ν)
  | [] => []
  | first :: rest => leaves chain first ++ leavesAll chain rest
end

theorem leavesAll_eq_flatMap (chain : Chain ν) (items : List (Item ν)) :
    leavesAll chain items = items.flatMap (leaves chain) := by
  induction items with
  | nil => rfl
  | cons first rest ih => simp [leavesAll, ih]

mutual
theorem leafPaths_eq_leaves (chain : Chain ν) : (item : Item ν) →
    leafPaths chain item = (leaves chain item).map fun place => place.1.leafPath place.2.description
  | leaf _ => rfl
  | group g items => leafPathsAll_eq_leavesAll (chain ++ [g]) items

theorem leafPathsAll_eq_leavesAll (chain : Chain ν) : (items : List (Item ν)) →
    leafPathsAll chain items =
      (leavesAll chain items).map fun place => place.1.leafPath place.2.description
  | [] => rfl
  | first :: rest => by
    simp only [leafPathsAll, leavesAll, List.map_append, leafPaths_eq_leaves chain first,
      leafPathsAll_eq_leavesAll chain rest]
end

mutual
theorem leaves_eq_postOrder (chain : Chain ν) : (item : Item ν) →
    leaves chain item = (postOrder chain item).filterMap Member.leaf?
  | leaf l => rfl
  | group g items => by
    simp [leaves, postOrder, leavesAll_eq_postOrderAll (chain ++ [g]) items, Member.leaf?]

theorem leavesAll_eq_postOrderAll (chain : Chain ν) : (items : List (Item ν)) →
    leavesAll chain items = (postOrderAll chain items).filterMap Member.leaf?
  | [] => rfl
  | first :: rest => by
    simp [leavesAll, postOrderAll, leaves_eq_postOrder chain first,
      leavesAll_eq_postOrderAll chain rest]
end

/-- The leaves of a member are announced in post-order. -/
theorem leafPathsAll_eq (chain : Chain ν) (items : List (Item ν)) :
    leafPathsAll chain items = (postOrderAll chain items).filterMap Member.leafName? := by
  have named : Member.leafName? = fun member : Member ν =>
      member.leaf?.map fun place => place.1.leafPath place.2.description := by
    funext member
    cases member <;> rfl
  rw [leafPathsAll_eq_leavesAll, leavesAll_eq_postOrderAll, List.map_filterMap, named]

end Item
end NestedSpec
