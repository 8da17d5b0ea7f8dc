import NestedSpec.Proofs.Operations
import NestedSpec.Proofs.OnceCalls

/-!
# What the calls on a spec say about its tree

The calls made so far tell what has been declared: which leaves there are, how the groups are
numbered, and what makes the leaves of a group parallel or not. One call after another keeps this
up. So whether a call is blocked is told by the calls before it, and so is the tree that is run; it
is run once, and nothing but calls that come too late is made after that.
-/

namespace NestedSpec

variable {ν α β : Type}

/-! ## Settings as they were made -/

def Modifier.setting? : Modifier → Option Bool
  | .sideEffect | .sequential => some false
  | .parallel => some true
  | .orderAs _ | .tag _ | .skip _ | .skipBenchmark => none

namespace Operation

def leaf? : Operation ν → Option (Nat × Leaf ν)
  | leaf group l => some (group, l)
  | modified _ _ _ | blocked _ _ | refused _ | finishedNested | finishedAgain | ran _ => none

def setting? (index : Nat) : Operation ν → Option Bool
  | modified _ group modifier => if group = index then modifier.setting? else none
  | leaf _ _ | blocked _ _ | refused _ | finishedNested | finishedAgain | ran _ => none

def place? : Operation ν → Option (List Nat × Nat)
  | modified around group _ | blocked around group => some (around, group)
  | leaf _ _ | refused _ | finishedNested | finishedAgain | ran _ => none

end Operation

def registered (history : List (Operation ν)) : List (Nat × Leaf ν) :=
  history.filterMap Operation.leaf?

def SideEffectIn (history : List (Operation ν)) (index : Nat) : Prop :=
  ∃ around, .modified around index .sideEffect ∈ history

def lastSetting (history : List (Operation ν)) (index : Nat) : Option Bool :=
  (history.filterMap (Operation.setting? index)).getLast?

@[simp] theorem registered_append (first second : List (Operation ν)) :
    registered (first ++ second) = registered first ++ registered second :=
  List.filterMap_append

theorem sideEffectIn_append {first second : List (Operation ν)} {index : Nat} :
    SideEffectIn (first ++ second) index ↔ SideEffectIn first index ∨ SideEffectIn second index := by
  simp only [SideEffectIn, List.mem_append, exists_or]

theorem lastSetting_append (first second : List (Operation ν)) (index : Nat) :
    lastSetting (first ++ second) index = (lastSetting second index).or (lastSetting first index) := by
  simp [lastSetting, List.getLast?_append]

structure Group.Settled (history : List (Operation ν)) (group : Group ν) : Prop where
  sideEffect : group.sideEffect = true ↔ SideEffectIn history group.index
  parallel : group.parallel = lastSetting history group.index

/-- Calls that say nothing about a group leave its settings as they are. -/
theorem Group.Settled.append {history more : List (Operation ν)} {group : Group ν}
    (settled : group.Settled history)
    (elsewhere : ∀ around modifier, .modified around group.index modifier ∉ more) :
    group.Settled (history ++ more) where
  sideEffect := by
    have none : ¬ SideEffectIn more group.index := fun ⟨around, member⟩ => elsewhere around _ member
    rw [sideEffectIn_append, settled.sideEffect, or_iff_left none]
  parallel := by
    have none : more.filterMap (Operation.setting? group.index) = [] := by
      refine List.filterMap_eq_nil_iff.mpr fun op member => ?_
      cases op with
      | modified around other modifier =>
        by_cases same : other = group.index
        · subst same
          exact absurd member (elsewhere around modifier)
        · exact if_neg same
      | _ => rfl
    rw [lastSetting_append, lastSetting, none, List.getLast?_nil, Option.none_or, settled.parallel]

theorem Group.Settled.modify {history : List (Operation ν)} {group : Group ν}
    (settled : group.Settled history) (around : List Nat) (modifier : Modifier) :
    (group.modify modifier).Settled (history ++ [.modified around group.index modifier]) := by
  have index : (group.modify modifier).index = group.index :=
    (unbinding_modify modifier).index group
  have effect : (group.modify modifier).sideEffect = true ↔
      group.sideEffect = true ∨ modifier = .sideEffect := by
    cases modifier <;> simp [Group.modify]
  have setting : (group.modify modifier).parallel = modifier.setting?.or group.parallel := by
    cases modifier <;> rfl
  constructor
  · rw [index, sideEffectIn_append, effect, settled.sideEffect]
    simp [SideEffectIn, eq_comm]
  · rw [index, lastSetting_append, setting, settled.parallel]
    simp only [lastSetting, List.filterMap_cons, List.filterMap_nil, Operation.setting?, if_true]
    cases modifier.setting? <;> rfl

theorem Chain.hasSideEffect_iff {history : List (Operation ν)} {chain : Chain ν}
    (settled : ∀ group ∈ chain, group.Settled history) :
    chain.hasSideEffect = true ↔ ∃ group ∈ chain, SideEffectIn history group.index := by
  rw [hasSideEffect, List.any_eq_true]
  constructor
  · rintro ⟨group, member, effect⟩
    exact ⟨group, member, (settled group member).sideEffect.mp effect⟩
  · rintro ⟨group, member, declared⟩
    exact ⟨group, member, (settled group member).sideEffect.mpr declared⟩

/-! ## What has been declared -/

namespace Item

mutual
def placed (around : List Nat) : Item ν → List (List Nat × Group ν)
  | leaf _ => []
  | group g items => (around, g) :: placedAll (around ++ [g.index]) items

def placedAll (around : List Nat) : List (Item ν) → List (List Nat × Group ν)
  | [] => []
  | first :: rest => placed around first ++ placedAll around rest
end

theorem placedAll_append (around : List Nat) (first second : List (Item ν)) :
    placedAll around (first ++ second) = placedAll around first ++ placedAll around second := by
  induction first with
  | nil => rfl
  | cons item rest ih => simp only [List.cons_append, placedAll, ih, List.append_assoc]

mutual
theorem groups_placed (around : List Nat) :
    (item : Item ν) → (placed around item).map (·.2) = groups item
  | leaf _ => rfl
  | group g items => congrArg (g :: ·) (groups_placedAll (around ++ [g.index]) items)

theorem groups_placedAll (around : List Nat) :
    (items : List (Item ν)) → (placedAll around items).map (·.2) = groupsAll items
  | [] => rfl
  | first :: rest => by
    simp only [placedAll, groupsAll, List.map_append, groups_placed around first,
      groups_placedAll around rest]
end

mutual
/-- The groups are members, inside those with the numbers that come with them. -/
theorem member_placed (chain : Chain ν) : (item : Item ν) → {place : List Nat × Group ν} →
    place ∈ placed chain.indices item →
      ∃ outer, Member.group outer place.2 ∈ postOrder chain item ∧ Chain.indices outer = place.1
  | leaf l, place, member => absurd member List.not_mem_nil
  | group g items, place, member => by
    have around : chain.indices ++ [g.index] = Chain.indices (chain ++ [g]) := by
      simp [Chain.indices]
    rcases List.mem_cons.mp member with rfl | inside
    · exact ⟨chain, List.mem_append_right _ (List.mem_singleton.mpr rfl), rfl⟩
    · rw [around] at inside
      obtain ⟨outer, among, same⟩ := member_placedAll (chain ++ [g]) items inside
      exact ⟨outer, List.mem_append_left _ among, same⟩

theorem member_placedAll (chain : Chain ν) : (items : List (Item ν)) →
    {place : List Nat × Group ν} → place ∈ placedAll chain.indices items →
      ∃ outer, Member.group outer place.2 ∈ postOrderAll chain items ∧
        Chain.indices outer = place.1
  | first :: rest, place, member => by
    rcases List.mem_append.mp member with inFirst | inRest
    · obtain ⟨outer, among, same⟩ := member_placed chain first inFirst
      exact ⟨outer, List.mem_append_left _ among, same⟩
    · obtain ⟨outer, among, same⟩ := member_placedAll chain rest inRest
      exact ⟨outer, List.mem_append_right _ among, same⟩
end

end Item

def declaredGroups : List (Group ν × List (Item ν)) → List (List Nat × Group ν)
  | [] => []
  | (group, items) :: outer => declaredGroups outer ++ Item.placed (numbers outer) (.group group items)

def declaredLeaves : List (Group ν × List (Item ν)) → List (Nat × Leaf ν)
  | [] => []
  | (group, items) :: outer => declaredLeaves outer ++ Item.heldAll group.index items

theorem numbers_cons (group : Group ν) (items : List (Item ν))
    (outer : List (Group ν × List (Item ν))) :
    numbers ((group, items) :: outer) = numbers outer ++ [group.index] := by
  simp [numbers]

theorem group_mem_declared {stack : List (Group ν × List (Item ν))} {group : Group ν}
    (member : group ∈ stack.map (·.1)) : ∃ around, (around, group) ∈ declaredGroups stack := by
  induction stack with
  | nil => exact absurd member List.not_mem_nil
  | cons entry outer ih =>
    rcases List.mem_cons.mp member with rfl | above
    · exact ⟨_, List.mem_append_right _ (List.mem_cons_self ..)⟩
    · obtain ⟨around, among⟩ := ih above
      exact ⟨around, List.mem_append_left _ among⟩

def Building.within (b : Building ν) (here : Surroundings ν) : List (Group ν × List (Item ν)) :=
  (b.group, b.items) :: here.enclosing

def address (place : List Nat × Group ν) : List Nat × Nat := (place.1, place.2.index)

structure Records (here : Surroundings ν) (b : Building ν) (history : List (Operation ν)) :
    Prop where
  isOpen : b.finished = false
  notRan : ∀ tree, .ran tree ∉ history
  numbered : (declaredGroups (b.within here)).map (·.2.index) = List.range b.nextIndex
  settled : ∀ place ∈ declaredGroups (b.within here), place.2.Settled history
  leaves : declaredLeaves (b.within here) = registered history
  places : ∀ op ∈ history, ∀ place, op.place? = some place →
    place ∈ (declaredGroups (b.within here)).map address

namespace Records

variable {here : Surroundings ν} {b : Building ν} {history more : List (Operation ν)}

theorem none_ran (records : Records here b history) : ¬ ∃ tree, .ran tree ∈ history :=
  fun ⟨tree, ran⟩ => records.notRan tree ran

theorem start (config : Config) (mode : RunMode) (name : String) :
    Records ⟨config, mode, []⟩ (.start name : Building ν) [] where
  isOpen := rfl
  notRan _ := List.not_mem_nil
  numbered := rfl
  settled place member := by
    obtain rfl := List.mem_singleton.mp member
    exact ⟨by simp [SideEffectIn, Building.start], rfl⟩
  leaves := rfl
  places _ member := absurd member List.not_mem_nil

/-- Whether a side effect has been declared around here is told by the calls. -/
theorem hasSideEffect_iff (records : Records here b history) :
    (Declaring.chainTo here b.group).hasSideEffect = true ↔
      ∃ index ∈ numbers here.enclosing ++ [b.group.index], SideEffectIn history index := by
  have chain : Declaring.chainTo here b.group = ((b.within here).map (·.1)).reverse := by
    simp [Declaring.chainTo, Building.within]
  have indices : numbers here.enclosing ++ [b.group.index] =
      (Declaring.chainTo here b.group).map (·.index) := by
    simp [Declaring.chainTo, numbers]
  have settled : ∀ group ∈ Declaring.chainTo here b.group, group.Settled history := by
    intro group member
    rw [chain, List.mem_reverse] at member
    obtain ⟨around, among⟩ := group_mem_declared member
    exact records.settled _ among
  rw [indices, Chain.hasSideEffect_iff settled]
  simp only [List.mem_map, exists_exists_and_eq_and]

/-- The number of the group that is being declared is its own. -/
theorem index_ne (records : Records here b history) {place : List Nat × Group ν}
    (member : place ∈ declaredGroups here.enclosing ∨
      place ∈ Item.placedAll (numbers here.enclosing ++ [b.group.index]) b.items) :
    place.2.index ≠ b.group.index := by
  have distinct : ((declaredGroups (b.within here)).map (·.2.index)).Nodup := by
    rw [records.numbered]
    exact List.nodup_range
  rw [Building.within, declaredGroups, Item.placed, List.map_append, List.map_cons,
    List.nodup_middle, List.nodup_cons] at distinct
  have listed := List.mem_map_of_mem (f := (·.2.index)) (List.mem_append.mpr member)
  rw [List.map_append] at listed
  exact fun same => distinct.1 (same ▸ listed)

/-- Calls that change nothing but the settings of the group that is being declared. -/
theorem regroup (records : Records here b history) {group : Group ν}
    (index : group.index = b.group.index) (settled : group.Settled (history ++ more))
    (here_only : ∀ around other modifier, .modified around other modifier ∈ more →
      other = b.group.index)
    (notRan : ∀ tree, .ran tree ∉ more) (noLeaf : registered more = [])
    (place : ∀ op ∈ more, ∀ place, op.place? = some place →
      place = (numbers here.enclosing, b.group.index)) :
    Records here { b with group } (history ++ more) where
  isOpen := records.isOpen
  notRan tree member := (List.mem_append.mp member).elim (records.notRan tree) (notRan tree)
  numbered := by
    rw [← records.numbered]
    simp [Building.within, declaredGroups, Item.placed, index]
  settled other member := by
    simp only [Building.within, declaredGroups, Item.placed, index, List.mem_append,
      List.mem_cons] at member
    -- Every other group has another number, so the new calls say nothing about it.
    have elsewhere : other.2.index ≠ b.group.index → other.2.Settled history →
        other.2.Settled (history ++ more) := fun away settled =>
      settled.append fun around modifier among => away (here_only around _ modifier among)
    rcases member with above | rfl | below
    · refine elsewhere (records.index_ne (.inl above)) (records.settled other ?_)
      exact List.mem_append_left _ above
    · exact settled
    · refine elsewhere (records.index_ne (.inr below)) (records.settled other ?_)
      exact List.mem_append_right _ (List.mem_cons_of_mem _ below)
  leaves := by
    have before := records.leaves
    simp only [Building.within, declaredLeaves] at before ⊢
    rw [index, registered_append, noLeaf, List.append_nil, before]
  places op member spot found := by
    have same : (declaredGroups ({ b with group }.within here)).map address =
        (declaredGroups (b.within here)).map address := by
      simp [Building.within, declaredGroups, Item.placed, address, index]
    rw [same]
    rcases List.mem_append.mp member with old | new
    · exact records.places op old spot found
    · rw [place op new spot found]
      exact List.mem_map_of_mem (a := (numbers here.enclosing, b.group))
        (List.mem_append_right _ (List.mem_cons_self ..))

theorem settled_here (records : Records here b history) : b.group.Settled history :=
  records.settled (numbers here.enclosing, b.group)
    (List.mem_append_right _ (List.mem_cons_self ..))

theorem change (records : Records here b history) {update : Group ν → Group ν}
    (unsettling : Unsettling update) : Records here { b with group := update b.group } history := by
  have settled : (update b.group).Settled (history ++ []) := by
    rw [List.append_nil]
    constructor
    · rw [unsettling.sideEffect, unsettling.index, records.settled_here.sideEffect]
    · rw [unsettling.parallel, unsettling.index, records.settled_here.parallel]
  have changed := records.regroup (unsettling.index b.group) settled nofun nofun rfl nofun
  rwa [List.append_nil] at changed

theorem modify (records : Records here b history) (modifier : Modifier) :
    Records here { b with group := b.group.modify modifier }
      (history ++ [.modified (numbers here.enclosing) b.group.index modifier]) := by
  refine records.regroup ((unbinding_modify modifier).index b.group)
    (records.settled_here.modify _ modifier) ?_ (by simp) rfl ?_
  · intro around other asked member
    cases List.mem_singleton.mp member
    rfl
  · intro op member place found
    rw [List.mem_singleton.mp member] at found
    exact (Option.some.inj found).symm

/-- A call that is a mistake leaves everything as it is. -/
theorem mistake (records : Records here b history) {op : Operation ν} (mistaken : op.mistaken = true)
    (place : ∀ place, op.place? = some place → place = (numbers here.enclosing, b.group.index)) :
    Records here b (history ++ [op]) := by
  have settled : b.group.Settled (history ++ [op]) := by
    refine records.settled_here.append fun around modifier member => ?_
    rw [← List.mem_singleton.mp member] at mistaken
    cases mistaken
  refine records.regroup rfl settled ?_ ?_ ?_ ?_
  · intro around other modifier member
    rw [← List.mem_singleton.mp member] at mistaken
    cases mistaken
  · intro tree member
    rw [← List.mem_singleton.mp member] at mistaken
    cases mistaken
  · cases op with
    | leaf | modified | finishedAgain | ran => cases mistaken
    | blocked | refused | finishedNested => rfl
  · intro other member spot found
    rw [List.mem_singleton.mp member] at found
    exact place spot found

theorem addLeaf (records : Records here b history) (leaf : Leaf ν) :
    Records here { b with items := b.items ++ [.leaf leaf] }
      (history ++ [.leaf b.group.index leaf]) := by
  let grown : Building ν := { b with items := b.items ++ [.leaf leaf] }
  have same : declaredGroups (grown.within here) = declaredGroups (b.within here) := by
    simp [grown, Building.within, declaredGroups, Item.placed, Item.placedAll_append, Item.placedAll]
  constructor
  · exact records.isOpen
  · intro tree member
    exact (List.mem_append.mp member).elim (records.notRan tree) (by simp)
  · rw [same]
    exact records.numbered
  · intro place member
    rw [same] at member
    exact (records.settled place member).append (by simp)
  · have before := records.leaves
    simp only [Building.within, declaredLeaves] at before ⊢
    rw [Item.heldAll_append, ← List.append_assoc, before, registered_append]
    rfl
  · intro op member place found
    rw [same]
    rcases List.mem_append.mp member with old | new
    · exact records.places op old place found
    · rw [List.mem_singleton.mp new] at found
      cases found

/-- A group that is new has no settings, and there is no call that would say anything about it. -/
theorem describe (records : Records here b history) (description : String) (place : Location) :
    Records { here with enclosing := (b.group, b.items) :: here.enclosing }
      (b.inner description place) history := by
  let fresh : Group ν := { index := b.nextIndex, description, place }
  have groups : declaredGroups ((b.inner description place).within
        { here with enclosing := (b.group, b.items) :: here.enclosing }) =
      declaredGroups (b.within here) ++ [(numbers (b.within here), fresh)] := rfl
  have unknown : ∀ around modifier, .modified around b.nextIndex modifier ∉ history := by
    intro around modifier member
    have known := records.places _ member _ rfl
    obtain ⟨other, among, same⟩ := List.mem_map.mp known
    have index : other.2.index ∈ List.range b.nextIndex :=
      records.numbered ▸ List.mem_map_of_mem (f := (·.2.index)) among
    have number : other.2.index = b.nextIndex := congrArg Prod.snd same
    simp [number] at index
  have blank : fresh.Settled [] := ⟨by simp [SideEffectIn, fresh], rfl⟩
  constructor
  · exact records.isOpen
  · exact records.notRan
  · rw [groups, List.map_append, records.numbered]
    exact List.range_succ.symm
  · intro other member
    rw [groups] at member
    rcases List.mem_append.mp member with old | new
    · exact records.settled other old
    · rw [List.mem_singleton.mp new]
      exact blank.append unknown
  · have before := records.leaves
    simp only [Building.within, declaredLeaves, Building.inner, Item.heldAll, List.append_nil]
      at before ⊢
    exact before
  · intro op member spot found
    rw [groups, List.map_append]
    exact List.mem_append_left _ (records.places op member spot found)

/-- When a nested spec has been declared, its group has become a member of the one around it. -/
theorem described (isOpen : b.finished = false) {inner : Building ν}
    (records : Records { here with enclosing := (b.group, b.items) :: here.enclosing } inner
      history) :
    Records here { b with
      items := b.items ++ [.group inner.group inner.items]
      nextIndex := inner.nextIndex } history := by
  let grown : Building ν := { b with
    items := b.items ++ [.group inner.group inner.items]
    nextIndex := inner.nextIndex }
  have groups : declaredGroups (grown.within here) = declaredGroups (inner.within
      { here with enclosing := (b.group, b.items) :: here.enclosing }) := by
    simp [grown, Building.within, declaredGroups, Item.placed, Item.placedAll_append, Item.placedAll,
      numbers_cons]
  have leaves : declaredLeaves (grown.within here) = declaredLeaves (inner.within
      { here with enclosing := (b.group, b.items) :: here.enclosing }) := by
    simp [grown, Building.within, declaredLeaves, Item.heldAll_append, Item.heldAll, Item.held]
  exact {
    isOpen := isOpen
    notRan := records.notRan
    numbered := groups ▸ records.numbered
    settled := groups ▸ records.settled
    leaves := leaves ▸ records.leaves
    places := groups ▸ records.places }

end Records

/-! ## What the calls say -/

structure Item.ToldBy (tree : Item ν) (history : List (Operation ν)) : Prop where
  numbered : NumberedFrom 0 tree.groups
  settled : ∀ group ∈ tree.groups, group.Settled history
  holds : tree.Holds (registered history)
  places : ∀ op ∈ history, ∀ around index, op.place? = some (around, index) →
    ∃ outer group, Member.group outer group ∈ tree.postOrder [] ∧
      Chain.indices outer = around ∧ group.index = index

theorem Records.toldBy {config : Config} {mode : RunMode} {b : Building ν}
    {history : List (Operation ν)} (records : Records ⟨config, mode, []⟩ b history) :
    (Item.group b.group b.items).ToldBy history := by
  have groups : (declaredGroups (b.within ⟨config, mode, []⟩)).map (·.2) =
      (Item.group b.group b.items).groups :=
    Item.groups_placed [] (.group b.group b.items)
  have indices : (Item.group b.group b.items).groups.map (·.index) = List.range b.nextIndex := by
    rw [← groups, List.map_map, ← records.numbered]
    rfl
  constructor
  · have count := congrArg List.length indices
    rw [List.length_map, List.length_range] at count
    rw [Item.NumberedFrom, indices, count, List.range_eq_range']
  · intro group member
    rw [← groups] at member
    obtain ⟨place, among, rfl⟩ := List.mem_map.mp member
    exact records.settled place among
  · have leaves : Item.heldAll b.group.index b.items = registered history := records.leaves
    rw [← leaves]
    exact Item.innermost_leavesAll [] b.group b.items
  · intro op member around index found
    obtain ⟨place, among, same⟩ := List.mem_map.mp (records.places op member _ found)
    obtain ⟨outer, inside, chain⟩ := Item.member_placed [] (.group b.group b.items) among
    exact ⟨outer, place.2, inside, chain.trans (congrArg Prod.fst same), congrArg Prod.snd same⟩

structure Operation.Fits (history : List (Operation ν)) (op : Operation ν) : Prop where
  late : op.late = true ↔ ∃ tree, .ran tree ∈ history
  blocked : ∀ around group, op = .blocked around group →
    ∃ index ∈ around ++ [group], SideEffectIn history index
  allowed : ∀ around group, op = .modified around group .parallel →
    ¬ ∃ index ∈ around ++ [group], SideEffectIn history index
  ran : ∀ tree, op = .ran tree → tree.ToldBy history

def FitAfter : List (Operation ν) → List (Operation ν) → Prop
  | _, [] => True
  | history, op :: rest => op.Fits history ∧ FitAfter (history ++ [op]) rest

theorem fitAfter_append {history first second : List (Operation ν)} :
    FitAfter history (first ++ second) ↔
      FitAfter history first ∧ FitAfter (history ++ first) second := by
  induction first generalizing history with
  | nil => simp [FitAfter]
  | cons op rest ih =>
    rw [List.cons_append, FitAfter, FitAfter, ih, and_assoc, List.append_assoc, List.cons_append,
      List.nil_append]

theorem FitAfter.at {history before after : List (Operation ν)} {op : Operation ν}
    (fit : FitAfter history (before ++ op :: after)) : op.Fits (history ++ before) :=
  (fitAfter_append.mp fit).2.1

theorem FitAfter.single {history : List (Operation ν)} {op : Operation ν} (fits : op.Fits history) :
    FitAfter history [op] :=
  ⟨fits, trivial⟩

theorem fitAfter_of_late {history ops : List (Operation ν)} {tree : Item ν}
    (ran : .ran tree ∈ history) (late : ∀ op ∈ ops, op.late = true) : FitAfter history ops := by
  induction ops generalizing history with
  | nil => trivial
  | cons op rest ih =>
    have here := late op (List.mem_cons_self ..)
    refine ⟨⟨iff_of_true here ⟨tree, ran⟩, ?_, ?_, ?_⟩,
      ih (List.mem_append_left _ ran) fun other member => late other (List.mem_cons_of_mem _ member)⟩
    · rintro around group rfl
      cases here
    · rintro around group rfl
      cases here
    · rintro other rfl
      cases here

/-- How far a spec has come: it is open, or it has run its tree and been emptied. -/
inductive Stands (here : Surroundings ν) (b : Building ν) (history : List (Operation ν)) : Prop
  | stillOpen (records : Records here b history)
  | closed (outermost : here.enclosing = []) (tree : Item ν) (ran : .ran tree ∈ history)
      (emptied : ∃ group nextIndex, b = Declaring.emptied group nextIndex)

namespace Operates

variable {here : Surroundings ν} {action : Declaring ν α} {b : Building ν} {s : State ν .flow}
  {ops : List (Operation ν)}

/-- After the leaves have run the spec stays as it is, and every call comes too late. -/
theorem of_finished (operates : Operates here action b s ops) (closed : b.finished = true)
    (outermost : here.enclosing = []) :
    (∀ op ∈ ops, op.late = true) ∧
      ∀ value b', ((action.run b).run s).result = .ok (value, b') → b' = b := by
  induction operates with
  | ret | read =>
    refine ⟨nofun, fun _ _ completed => ?_⟩
    cases completed
    rfl
  | lift => exact ⟨nofun, fun _ _ completed => result_lift completed⟩
  | bindOk _ completed _ ih ihLater =>
    obtain ⟨late, same⟩ := ih closed outermost
    obtain rfl := same _ _ completed
    obtain ⟨lateToo, still⟩ := ihLater closed outermost
    refine ⟨fun op member => (List.mem_append.mp member).elim (late op) (lateToo op), ?_⟩
    intro value b' ended
    exact still value b' (result_bind_ok completed ▸ ended)
  | bindError _ stopped ih =>
    exact ⟨(ih closed outermost).1, fun value b' ended =>
      absurd ended (result_bind_ne_ok stopped _)⟩
  | refused what body _ s =>
    refine ⟨List.forall_mem_singleton.mpr rfl, fun value b' ended => ?_⟩
    rw [Declaring.run_whileOpen_closed closed] at ended
    cases ended
    rfl
  | refusedBinding v init _ s =>
    refine ⟨List.forall_mem_singleton.mpr rfl, fun value b' ended => ?_⟩
    rw [Declaring.run_bindHere_closed closed] at ended
    cases ended
    rfl
  | finishNested nested =>
    rw [Surroundings.nested, outermost] at nested
    cases nested
  | finishAgain =>
    refine ⟨List.forall_mem_singleton.mpr rfl, fun value b' ended => ?_⟩
    rw [Declaring.run_finish_closed closed] at ended
    cases ended
    rfl
  | addLeaf _ _ isOpen | change _ _ isOpen | modify isOpen | blocked isOpen | bindHere _ _ isOpen
  | describe isOpen | finish _ isOpen =>
    rw [isOpen] at closed
    cases closed

end Operates

structure Tracked (here : Surroundings ν) (action : Declaring ν α) (b : Building ν)
    (s : State ν .flow) (history ops : List (Operation ν)) : Prop where
  fit : FitAfter history ops
  stands : ∀ value b', ((action.run b).run s).result = .ok (value, b') →
    Stands here b' (history ++ ops)

namespace Tracked

variable {here : Surroundings ν} {action : Declaring ν α} {b : Building ν} {s : State ν .flow}
  {history ops later : List (Operation ν)}

theorem silent (records : ∀ value b', ((action.run b).run s).result = .ok (value, b') →
    Records here b' history) : Tracked here action b s history [] where
  fit := trivial
  stands value b' completed := by
    rw [List.append_nil]
    exact .stillOpen (records value b' completed)

theorem single {op : Operation ν} (fits : op.Fits history)
    (records : ∀ value b', ((action.run b).run s).result = .ok (value, b') →
      Records here b' (history ++ [op])) : Tracked here action b s history [op] where
  fit := .single fits
  stands value b' completed := .stillOpen (records value b' completed)

theorem bind {first : Declaring ν α} {next : α → Declaring ν β} {value : α} {b₁ : Building ν}
    (tracked : Tracked here first b s history ops)
    (completed : ((first.run b).run s).result = .ok (value, b₁))
    (goesOn : Operates here (next value) b₁ ((first.run b).run s).state later)
    (trackedLater : Records here b₁ (history ++ ops) →
      Tracked here (next value) b₁ ((first.run b).run s).state (history ++ ops) later) :
    Tracked here (first >>= next) b s history (ops ++ later) := by
  cases tracked.stands _ _ completed with
  | stillOpen records =>
    obtain ⟨fitLater, standsLater⟩ := trackedLater records
    refine ⟨fitAfter_append.mpr ⟨tracked.fit, fitLater⟩, fun other b' ended => ?_⟩
    rw [result_bind_ok completed] at ended
    rw [← List.append_assoc]
    exact standsLater other b' ended
  | closed outermost tree ran emptied =>
    obtain ⟨group, nextIndex, rfl⟩ := emptied
    obtain ⟨late, still⟩ := goesOn.of_finished rfl outermost
    refine ⟨fitAfter_append.mpr ⟨tracked.fit, fitAfter_of_late ran late⟩, fun other b' ended => ?_⟩
    rw [result_bind_ok completed] at ended
    obtain rfl := still other b' ended
    rw [← List.append_assoc]
    exact .closed outermost tree (List.mem_append_left _ ran) ⟨group, nextIndex, rfl⟩

theorem describe {description : String} {place : Location}
    {body : Surroundings ν → Declaring ν Unit} (isOpen : b.finished = false)
    (inside : Tracked { here with enclosing := (b.group, b.items) :: here.enclosing }
      (body { here with enclosing := (b.group, b.items) :: here.enclosing })
      (b.inner description place) s history ops) :
    Tracked here (Declaring.describe here description place body) b s history ops := by
  refine ⟨inside.fit, fun value b' completed => ?_⟩
  obtain ⟨ended, came, rfl⟩ := describe_completes isOpen completed
  cases inside.stands () ended came with
  | stillOpen records => exact .stillOpen (Records.described isOpen records)
  | closed outermost => exact absurd outermost (List.cons_ne_nil _ _)

theorem finish {deeper : Deeper ν} {config : Config} {mode : RunMode}
    (records : Records ⟨config, mode, []⟩ b history) :
    Tracked ⟨config, mode, []⟩ (Declaring.finish deeper ⟨config, mode, []⟩) b s history
      [.ran (.group b.group b.items)] := by
  refine ⟨.single ⟨iff_of_false nofun records.none_ran, nofun, nofun, fun tree asked => ?_⟩,
    fun value b' completed => ?_⟩
  · obtain rfl := Operation.ran.inj asked
    exact records.toldBy
  · obtain ⟨group, items, finished, nextIndex⟩ := b
    obtain rfl : finished = false := records.isOpen
    rw [Declaring.run_finish] at completed
    obtain ⟨_, -, same⟩ := result_bind_pure completed
    obtain rfl := congrArg Prod.snd same
    exact .closed rfl _ (List.mem_append_right _ (List.mem_singleton.mpr rfl))
      ⟨group, nextIndex, rfl⟩

end Tracked

/-- What a call comes to is told by the calls before it, and what they tell is kept up. -/
theorem Operates.tracked {here : Surroundings ν} {action : Declaring ν α} {b : Building ν}
    {s : State ν .flow} {ops : List (Operation ν)} (operates : Operates here action b s ops)
    {history : List (Operation ν)} (records : Records here b history) :
    Tracked here action b s history ops := by
  induction operates generalizing history with
  | ret | read =>
    refine .silent fun _ _ completed => ?_
    cases completed
    exact records
  | lift =>
    refine .silent fun _ _ completed => ?_
    obtain rfl := result_lift completed
    exact records
  | bindOk _ completed goesOn ih ihLater => exact (ih records).bind completed goesOn ihLater
  | bindError _ stopped ih =>
    exact ⟨(ih records).fit, fun value b' ended => absurd ended (result_bind_ne_ok stopped _)⟩
  | addLeaf what leaf isOpen s =>
    refine .single ⟨iff_of_false nofun records.none_ran, nofun, nofun, nofun⟩ fun _ _ completed => ?_
    rw [Declaring.run_whileOpen isOpen] at completed
    cases completed
    exact records.addLeaf leaf
  | change what unsettling isOpen s =>
    refine .silent fun _ _ completed => ?_
    rw [Declaring.run_whileOpen isOpen] at completed
    cases completed
    exact records.change unsettling
  | modify isOpen allowed s =>
    refine .single ⟨iff_of_false nofun records.none_ran, nofun, fun around group asked => ?_, nofun⟩
      fun _ _ completed => ?_
    · obtain ⟨rfl, rfl, rfl⟩ := Operation.modified.inj asked
      rw [← records.hasSideEffect_iff, allowed rfl]
      exact Bool.false_ne_true
    · rw [Declaring.run_applyModifier isOpen allowed] at completed
      cases completed
      exact records.modify _
  | blocked isOpen blocked s =>
    refine .single ⟨iff_of_false nofun records.none_ran, fun around group asked => ?_, nofun, nofun⟩
      fun _ _ completed => ?_
    · obtain ⟨rfl, rfl⟩ := Operation.blocked.inj asked
      exact records.hasSideEffect_iff.mp blocked
    · rw [Declaring.run_applyModifier_blocked isOpen blocked] at completed
      cases completed
      exact records.mistake rfl fun _ found => (Option.some.inj found).symm
  | bindHere v init isOpen s =>
    refine .silent fun _ _ completed => ?_
    obtain rfl := Declaring.bindHere_completes isOpen completed
    have unsettling : Unsettling fun group : Group ν => group.bind ⟨v.id, v.label, init⟩ :=
      ⟨fun _ => rfl, fun _ => rfl, fun _ => rfl⟩
    exact records.change unsettling
  | describe isOpen _ ih => exact .describe isOpen (ih (records.describe _ _))
  | refused _ _ closed | refusedBinding _ _ closed | finishAgain closed =>
    rw [records.isOpen] at closed
    exact absurd closed nofun
  | finish => exact .finish records
  | finishNested nested b s =>
    refine .single ⟨iff_of_false nofun records.none_ran, nofun, nofun, nofun⟩ fun _ _ completed => ?_
    rw [Declaring.run_finish_nested nested] at completed
    cases completed
    exact records.mistake rfl nofun

/-- A declaration that comes to its end has run a tree, and the spec is empty. -/
theorem Registration.operates_run {deeper : Deeper ν} {config : Config} {mode : RunMode}
    {body : Registration ν} {name : String} {s : State ν .flow} {ops : List (Operation ν)}
    (operates : Operates ⟨config, mode, []⟩ (body.declaration deeper ⟨config, mode, []⟩)
      (.start name) s ops) {ended : Unit × Building ν}
    (completed : (((body.declaration deeper ⟨config, mode, []⟩).run (.start name)).run s).result =
      .ok ended) :
    (∃ before tree after, ops = before ++ .ran tree :: after) ∧
      ∃ group nextIndex, ended.2 = Declaring.emptied group nextIndex := by
  obtain ⟨-, stands⟩ := operates.tracked (Records.start config mode name)
  cases stands ended.1 ended.2 completed with
  | stillOpen records =>
    exact absurd (records.isOpen.symm.trans (finished_declaration completed)) nofun
  | closed _ tree ran emptied =>
    obtain ⟨before, after, split⟩ := List.append_of_mem ran
    exact ⟨⟨before, tree, after, split⟩, emptied⟩

end NestedSpec
