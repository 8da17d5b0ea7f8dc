import NestedSpec.Proofs.Entering

/-!
# Hooks that run last

The groups whose last hooks run are those that an invocation of a leaf has come to: the leaf is not
left out, and no hook that runs once for a group around has stopped while the leaf entered them. All
their last hooks run when the last leaf has ended, one after another, and those of a group come
before those of the groups around it.
-/

namespace NestedSpec

variable {ν : Type} {t : Target}

/-! ## Coming to a group -/

theorem result_inTurn_iff (parts : List (Flow ν t Unit)) (s : State ν t) :
    ((inTurn parts).run s).result = .ok () ↔ ∀ step ∈ visits parts s, step.result = .ok () := by
  induction parts generalizing s with
  | nil => simp [inTurn, visits]
  | cons part rest ih =>
    rcases ended : part.run s with ⟨stop | value, s', finalisers, cleanups⟩
    · simp [inTurn, visits, ended, Flow.run_bind_error _ ended]
    · simp [inTurn, visits, ended, Flow.run_bind_ok _ ended, ih s']

namespace Runner

variable {runner : Runner ν}

def entrySteps (runner : Runner ν) (chain : Chain ν) (s : State ν .leaf) :
    List (Step ν .leaf Unit) :=
  (walk runner.enter chain s).flatMap fun entry => runner.onceSteps entry.1 entry.2

def ComesThrough (runner : Runner ν) (chain : Chain ν) (s : State ν .leaf) : Prop :=
  ∀ step ∈ runner.entrySteps chain s, step.result = .ok ()

theorem result_enter_iff (runner : Runner ν) (group : Group ν) (s : State ν .leaf) :
    ((runner.enter group).run s).result = .ok () ↔
      ∀ step ∈ runner.onceSteps group s, step.result = .ok () := by
  rw [run_enter, onceSteps]
  split
  · simp [Step.together]
  · rw [← run_inTurn, result_inTurn_iff]

theorem comesThrough_nil (runner : Runner ν) (s : State ν .leaf) : runner.ComesThrough [] s :=
  List.forall_mem_nil _

theorem comesThrough_cons (runner : Runner ν) (group : Group ν) (chain : Chain ν)
    (s : State ν .leaf) : runner.ComesThrough (group :: chain) s ↔
      ((runner.enter group).run s).result = .ok () ∧
        runner.ComesThrough chain ((runner.enter group).run s).state := by
  have first := runner.result_enter_iff group s
  unfold ComesThrough entrySteps
  cases ended : ((runner.enter group).run s).result with
  | error stop =>
    simp only [walk, ended, List.flatMap_cons, List.flatMap_nil, List.append_nil, ← first]
    simp
  | ok value =>
    simp only [ended, true_iff] at first
    simp only [walk, ended, List.flatMap_cons, List.mem_append]
    constructor
    · exact fun all => ⟨trivial, fun step later => all step (.inr later)⟩
    · exact fun rest step member => member.elim (first step) (rest.2 step)

def ComesTo (runner : Runner ν) (index : Nat) (chain : Chain ν) (s : State ν .leaf) : Prop :=
  ∃ outer group inner, chain = outer ++ group :: inner ∧ group.index = index ∧
    runner.ComesThrough outer s

theorem comesTo_cons (runner : Runner ν) (index : Nat) (group : Group ν) (chain : Chain ν)
    (s : State ν .leaf) : runner.ComesTo index (group :: chain) s ↔
      group.index = index ∨ ((runner.enter group).run s).result = .ok () ∧
        runner.ComesTo index chain ((runner.enter group).run s).state := by
  constructor
  · rintro ⟨outer, last, inner, split, same, through⟩
    cases outer with
    | nil =>
      obtain ⟨rfl, -⟩ := List.cons.inj split
      exact .inl same
    | cons first outer =>
      obtain ⟨rfl, rest⟩ := List.cons.inj split
      obtain ⟨completed, deeper⟩ := (runner.comesThrough_cons group outer s).mp through
      exact .inr ⟨completed, outer, last, inner, rest, same, deeper⟩
  · rintro (same | ⟨completed, outer, last, inner, rfl, same, through⟩)
    · exact ⟨[], group, chain, rfl, same, runner.comesThrough_nil s⟩
    · exact ⟨group :: outer, last, inner, rfl, same,
        (runner.comesThrough_cons group outer s).mpr ⟨completed, through⟩⟩

/-! ## The groups entered -/

section
variable (below : (enteredGroups ν).Below runner.deeper)
include below

theorem mem_entered_enter (group : Group ν) (s : State ν .leaf) (index : Nat) :
    index ∈ ((runner.enter group).run s).state.world.entered ↔
      index ∈ s.world.entered ∨ group.index = index := by
  rw [entered_enter below]
  by_cases known : group.index ∈ s.world.entered
  · have seen : s.world.entered.contains group.index = true := by simpa using known
    rw [if_pos seen]
    exact ⟨.inl, fun either => either.elim id fun same => same ▸ known⟩
  · have unseen : ¬ s.world.entered.contains group.index = true := by simpa using known
    rw [if_neg unseen, List.mem_cons, eq_comm, or_comm]

/-- Parts that enter groups first and then leave those entered alone: one more group is entered for
each that they come to. -/
theorem mem_entered_inTurn {rest : List (Flow ν .leaf Unit)}
    (keeps : (enteredGroups ν).Keeps (inTurn rest)) (index : Nat) (chain : Chain ν)
    (s : State ν .leaf) :
    index ∈ ((inTurn (chain.map runner.enter ++ rest)).run s).state.world.entered ↔
      index ∈ s.world.entered ∨ runner.ComesTo index chain s := by
  induction chain generalizing s with
  | nil =>
    have none : ¬ runner.ComesTo index [] s := by
      rintro ⟨outer, group, inner, split, -⟩
      simp at split
    simp only [List.map_nil, List.nil_append, keeps.entered_eq s, none, or_false]
  | cons group chain ih =>
    rw [comesTo_cons, ← or_assoc, ← mem_entered_enter below]
    cases ended : ((runner.enter group).run s).result with
    | error stop =>
      rw [List.map_cons, List.cons_append, state_inTurn_error ended]
      simp
    | ok value =>
      rw [List.map_cons, List.cons_append, state_inTurn_ok ended, ih]
      simp

theorem keeps_inside (chain : Chain ν) (leaf : Leaf ν) :
    (enteredGroups ν).Keeps (inTurn ((Stage.inside chain).map (runner.stage leaf))) := by
  rw [← forM_eq_inTurn]
  refine .forM _ fun stage member => ?_
  rcases List.mem_append.mp member with hooks | body
  · obtain ⟨hook, -, rfl⟩ := List.mem_map.mp hooks
    exact keeps_runHook below hook
  · rw [List.mem_singleton.mp body]
    exact keeps_exec below leaf.body

/-- An invocation enters the groups that it comes to. -/
theorem mem_entered_runOnce (index : Nat) (chain : Chain ν) (leaf : Leaf ν) (s : State ν .flow) :
    index ∈ ((runner.runOnce chain leaf).run s).state.world.entered ↔
      index ∈ s.world.entered ∨
        runner.ComesTo index chain ⟨s.world, s.recorder, runner.leafStart chain leaf⟩ := by
  have parts : runner.parts chain leaf =
      chain.map runner.enter ++ (Stage.inside chain).map (runner.stage leaf) := by
    rw [parts_eq_stages, List.map_append, List.map_map]
    rfl
  rw [(entered_runOnce below chain leaf s).2, ← run_parts, parts]
  exact mem_entered_inTurn below (keeps_inside below chain leaf) index chain _

theorem mem_entered_repeatOnce (index : Nat) (chain : Chain ν) (leaf : Leaf ν) (count : Nat)
    (s : State ν .flow) :
    index ∈ ((runner.repeatOnce chain leaf count).run s).state.world.entered ↔
      index ∈ s.world.entered ∨ ∃ start ∈ runner.repeatStarts chain leaf count s,
        runner.ComesTo index chain ⟨start.world, start.recorder, runner.leafStart chain leaf⟩ := by
  induction count generalizing s with
  | zero => simp [repeatOnce, repeatStarts]
  | succ count ih =>
    have first := mem_entered_runOnce below index chain leaf s
    rcases ended : (runner.runOnce chain leaf).run s with ⟨stop | value, s', finalisers, cleanups⟩
    · rw [ended] at first
      rw [repeatOnce, Flow.run_bind_error _ ended, repeatStarts, ended, first]
      simp
    · rw [ended] at first
      rw [repeatOnce, Flow.run_bind_ok _ ended, repeatStarts, ended]
      simp only [ih s', first, List.exists_mem_cons_iff, or_assoc]

theorem mem_entered_endedLeaf (index : Nat) (chain : Chain ν) (leaf : Leaf ν)
    (start : State ν .flow) :
    index ∈ (runner.endedLeaf chain leaf start).world.entered ↔
      index ∈ start.world.entered ∨ ∃ s ∈ runner.invocations chain leaf start,
        runner.ComesTo index chain ⟨s.world, s.recorder, runner.leafStart chain leaf⟩ := by
  rw [entered_endedLeaf_eq below, invocations]
  cases runner.skipReason chain with
  | some reason => simp
  | none =>
    cases runner.mode with
    | test => simpa using mem_entered_runOnce below index chain leaf start
    | benchmark iterations => exact mem_entered_repeatOnce below index chain leaf _ start

theorem mem_entered_turns {tree : Item ν} {w last : World ν}
    {runs : List (Chain ν × Leaf ν × State ν .flow)} (turns : runner.TakeTurns tree w runs last)
    (index : Nat) : index ∈ last.entered ↔ index ∈ w.entered ∨
      ∃ run ∈ runs, ∃ s ∈ runner.invocations run.1 run.2.1 run.2.2,
        runner.ComesTo index run.1 ⟨s.world, s.recorder, runner.leafStart run.1 run.2.1⟩ := by
  induction turns with
  | done => simp
  | leaf among later ih =>
    rw [ih, mem_entered_endedLeaf below]
    simp only [List.exists_mem_cons_iff, or_assoc]

end
end Runner

/-! ## The order of groups -/

namespace Item

mutual
/-- A group comes behind those around it when groups are listed in the order of declaration. -/
theorem sublist_groups (above : Chain ν) : (item : Item ν) → {chain : Chain ν} → {g : Group ν} →
    Member.group chain g ∈ postOrder above item →
      ∃ inner, chain = above ++ inner ∧ (inner ++ [g]).Sublist (groups item)
  | leaf l, chain, g, among => by simp [postOrder] at among
  | group outer items, chain, g, among => by
    rcases List.mem_append.mp among with inside | itself
    · obtain ⟨inner, rfl, sub⟩ := sublist_groupsAll (above ++ [outer]) items inside
      exact ⟨outer :: inner, by simp, sub.cons_cons outer⟩
    · obtain ⟨rfl, rfl⟩ := Member.group.inj (List.mem_singleton.mp itself)
      exact ⟨[], by simp, (List.nil_sublist _).cons_cons g⟩

theorem sublist_groupsAll (above : Chain ν) : (items : List (Item ν)) → {chain : Chain ν} →
    {g : Group ν} → Member.group chain g ∈ postOrderAll above items →
      ∃ inner, chain = above ++ inner ∧ (inner ++ [g]).Sublist (groupsAll items)
  | first :: rest, chain, g, among => by
    rcases List.mem_append.mp among with inFirst | inRest
    · obtain ⟨inner, same, sub⟩ := sublist_groups above first inFirst
      exact ⟨inner, same, sub.trans (List.sublist_append_left ..)⟩
    · obtain ⟨inner, same, sub⟩ := sublist_groupsAll above rest inRest
      exact ⟨inner, same, sub.trans (List.sublist_append_right ..)⟩
end

theorem mem_groups_iff {tree : Item ν} {g : Group ν} :
    g ∈ groups tree ↔ ∃ outer, Member.group outer g ∈ postOrder [] tree := by
  rw [← (groups_postOrder [] tree).mem_iff]
  simp only [List.mem_map, List.mem_filterMap, Prod.exists, exists_eq_right]
  constructor
  · rintro ⟨outer, member, among, same⟩
    cases member with
    | leaf chain l => cases same
    | group chain g' =>
      obtain ⟨rfl, rfl⟩ := Prod.mk.inj (Option.some.inj same)
      exact ⟨chain, among⟩
  · exact fun ⟨outer, among⟩ => ⟨outer, _, among, rfl⟩

end Item

namespace Runner

def leftGroups (groups : List (Group ν)) (entered : List Nat) : List (Group ν) :=
  groups.reverse.filter fun group => entered.contains group.index

theorem mem_leftGroups {groups : List (Group ν)} {entered : List Nat} {g : Group ν} :
    g ∈ leftGroups groups entered ↔ g ∈ groups ∧ g.index ∈ entered := by
  simp [leftGroups]

theorem leftGroups_descending {groups : List (Group ν)} {start : Nat}
    (numbered : Item.NumberedFrom start groups) (entered : List Nat) :
    ((leftGroups groups entered).map (·.index)).Pairwise (· > ·) := by
  have ascending : (groups.map (·.index)).Pairwise (· < ·) := by
    rw [numbered]
    exact List.pairwise_lt_range'
  have descending : (groups.reverse.map (·.index)).Pairwise (· > ·) := by
    rw [List.map_reverse]
    exact List.pairwise_reverse.mpr ascending
  exact descending.sublist (List.filter_sublist.map _)

/-! ## The last hooks -/

variable {runner : Runner ν} {tree : Item ν}

/-- None of the last hooks stops the others. -/
theorem walk_runLast (runner : Runner ν) (hooks : List (Script ν .flow)) (s : State ν .flow) :
    (walk runner.runLast hooks s).map (·.1) = hooks := by
  induction hooks generalizing s with
  | nil => rfl
  | cons hook rest ih => simp [walk, (runner.run_runLast hook s).1, ih]

theorem run_runAfterAll_eq_walk (runner : Runner ν) (groups : List (Group ν)) (s : State ν .flow) :
    (runner.runAfterAll groups).run s = .together s
      ((walk runner.runLast (lastHooks groups s) s).map
        fun entry => (runner.runLast entry.1).run entry.2) := by
  rw [run_runAfterAll, run_inTurn, visits_eq_walk]

/-- After its last leaf a run goes on with the last hooks. -/
theorem run_eq_after (runner : Runner ν) (group : Group ν) (items : List (Item ν))
    (s : State ν .flow) : (runner.run (.group group items)).run s = (do
      runner.runAfterAll (Item.group group items).groups
      runner.reportOrder
      Flow.changeWorld fun w => { w with entered := s.world.entered }).run
        (runner.ranMembers group items s) := by
  have outer : (Flow.ask fun s => s.world.entered : Flow ν .flow (List Nat)).run s =
      ⟨.ok s.world.entered, s, [], []⟩ := rfl
  have fresh : (Flow.changeWorld fun w => { w with entered := [] } : Flow ν .flow Unit).run s =
      ⟨.ok (), started s, [], []⟩ := rfl
  have members := (runner.quiet_runPlan (runner.plan (.group group items))).run_bind
    (fun _ => do
      runner.runAfterAll (Item.group group items).groups
      runner.reportOrder
      Flow.changeWorld fun w => { w with entered := s.world.entered }) (started s)
  unfold run
  rw [Flow.run_bind_ok _ outer, Flow.run_bind_ok _ fresh, members]
  simp only [List.append_nil]
  rfl

/-- The groups around one that was entered were entered, too, and are left after it. -/
theorem left_inward (below : (enteredGroups ν).Below runner.deeper)
    (numbered : Item.NumberedFrom 0 tree.groups) {w last : World ν}
    {runs : List (Chain ν × Leaf ν × State ν .flow)} (blank : w.entered = [])
    (turns : runner.TakeTurns tree w runs last) {outer : Chain ν} {g : Group ν}
    (place : Member.group outer g ∈ tree.postOrder []) (entered : g.index ∈ last.entered) :
    (outer ++ [g]).reverse.Sublist (leftGroups tree.groups last.entered) := by
  have none : Logged tree w.entered [] := blank ▸ .empty tree
  have logged := logged_turns below numbered turns none
  have indices := (logged.outward outer g place entered).subset
  have known : ∀ around ∈ (outer ++ [g]).reverse, last.entered.contains around.index = true := by
    intro around member
    have index : around.index ∈ Chain.indices (outer ++ [g]) :=
      List.mem_map_of_mem (List.mem_reverse.mp member)
    simpa using indices index
  obtain ⟨inner, same, sub⟩ := Item.sublist_groups [] tree place
  rw [List.nil_append] at same
  subst same
  have kept := (List.reverse_sublist.mpr sub).filter fun group => last.entered.contains group.index
  rwa [List.filter_eq_self.mpr known] at kept

/-- An invocation of a leaf, among these runs of leaves, comes to a group: the leaf is inside and not
left out, and no hook that runs once for a group around it stops. -/
def Reached (runner : Runner ν) (runs : List (Chain ν × Leaf ν × State ν .flow)) (outer : Chain ν)
    (g : Group ν) : Prop :=
  ∃ chain leaf start, (chain, leaf, start) ∈ runs ∧ (∃ inner, chain = outer ++ g :: inner) ∧
    runner.skipReason chain = none ∧ ∃ s ∈ runner.invocations chain leaf start,
      runner.ComesThrough outer ⟨s.world, s.recorder, runner.leafStart chain leaf⟩

theorem skipReason_of_invocation {chain : Chain ν} {leaf : Leaf ν} {start s : State ν .flow}
    (member : s ∈ runner.invocations chain leaf start) : runner.skipReason chain = none := by
  unfold invocations at member
  cases reason : runner.skipReason chain with
  | none => rfl
  | some text => simp [reason] at member

theorem entered_iff_reached (below : (enteredGroups ν).Below runner.deeper)
    (numbered : Item.NumberedFrom 0 tree.groups) {w last : World ν}
    {runs : List (Chain ν × Leaf ν × State ν .flow)} (blank : w.entered = [])
    (turns : runner.TakeTurns tree w runs last) {outer : Chain ν} {g : Group ν}
    (place : Member.group outer g ∈ tree.postOrder []) :
    g.index ∈ last.entered ↔ runner.Reached runs outer g := by
  rw [mem_entered_turns below turns, blank]
  constructor
  · rintro (old | ⟨⟨chain, leaf, start⟩, member, s, invoked, found, group, inner, split, same, through⟩)
    · exact absurd old List.not_mem_nil
    · -- The group that the leaf comes to has the number of this one, so it is this one.
      have among := turns.among member
      have around := LeafOf.around ⟨numbered, among⟩ split
      obtain ⟨rfl, rfl⟩ := numbered.place_eq around place same
      exact ⟨chain, leaf, start, member, ⟨inner, split⟩, skipReason_of_invocation invoked, s,
        invoked, through⟩
  · rintro ⟨chain, leaf, start, member, ⟨inner, split⟩, -, s, invoked, through⟩
    exact .inr ⟨_, member, s, invoked, outer, g, inner, split, rfl, through⟩

structure LeavesEntered (runner : Runner ν) (tree : Item ν) : Prop where
  numbered : Item.NumberedFrom 0 tree.groups
  turns : ∀ group items, tree = .group group items → ∀ s, runner.TakeTurns tree (started s).world
    (Visit.startsAll (runner.planVisits group items s)) (runner.ranMembers group items s).world
  after : ∀ group items, tree = .group group items → ∀ s, (runner.run tree).run s = (do
    runner.runAfterAll tree.groups
    runner.reportOrder
    Flow.changeWorld fun w => { w with entered := s.world.entered }).run
      (runner.ranMembers group items s)
  hooks : ∀ s : State ν .flow, lastHooks tree.groups s =
    (leftGroups tree.groups s.world.entered).flatMap (·.afterAll)
  all : ∀ s, (runner.runAfterAll tree.groups).run s = .together s
      ((walk runner.runLast (lastHooks tree.groups s) s).map
        fun entry => (runner.runLast entry.1).run entry.2) ∧
    (walk runner.runLast (lastHooks tree.groups s) s).map (·.1) = lastHooks tree.groups s
  descending : ∀ entered, ((leftGroups tree.groups entered).map (·.index)).Pairwise (· > ·)
  reached : ∀ w runs last, w.entered = [] → runner.TakeTurns tree w runs last →
    ∀ g, g ∈ leftGroups tree.groups last.entered ↔
      ∃ outer, Member.group outer g ∈ tree.postOrder [] ∧ runner.Reached runs outer g
  inward : ∀ w runs last, w.entered = [] → runner.TakeTurns tree w runs last →
    ∀ outer g, Member.group outer g ∈ tree.postOrder [] → runner.Reached runs outer g →
      (outer ++ [g]).reverse.Sublist (leftGroups tree.groups last.entered)

theorem leavesEntered (below : (enteredGroups ν).Below runner.deeper)
    (numbered : Item.NumberedFrom 0 tree.groups) : runner.LeavesEntered tree where
  numbered := numbered
  turns := by
    rintro group items rfl s
    exact runner.turns_planVisits group items s
  after := by
    rintro group items rfl s
    exact runner.run_eq_after group items s
  hooks _ := rfl
  all s := ⟨runner.run_runAfterAll_eq_walk tree.groups s, runner.walk_runLast _ s⟩
  descending := leftGroups_descending numbered
  reached w runs last blank turns g := by
    rw [mem_leftGroups, Item.mem_groups_iff]
    constructor
    · rintro ⟨⟨outer, place⟩, entered⟩
      exact ⟨outer, place, (entered_iff_reached below numbered blank turns place).mp entered⟩
    · rintro ⟨outer, place, reached⟩
      exact ⟨⟨outer, place⟩, (entered_iff_reached below numbered blank turns place).mpr reached⟩
  inward w runs last blank turns outer g place reached :=
    left_inward below numbered blank turns place
      ((entered_iff_reached below numbered blank turns place).mpr reached)

end Runner

/-- Whatever is registered: the groups whose last hooks run are exactly those that a leaf has come
to, all their hooks run once when the last leaf has ended, and a group is left before the groups
around it. -/
theorem Registration.leaves_entered (levels : Nat) (config : Config) (mode : RunMode)
    (body : Registration ν) (name : String) (s : State ν .flow) :
    let declaration := body.declaration (Deeper.within levels) ⟨config, mode, []⟩
    ∃ log frozen, Registers false declaration (.start name) s log frozen ∧
      (∀ ended, ((declaration.run (.start name)).run s).result = .ok ended →
        ∃ tree, frozen = [tree]) ∧
      ∀ tree ∈ frozen, Runner.LeavesEntered ⟨config, mode, Deeper.within levels⟩ tree :=
  freezes fun _ _ keeps => Runner.leavesEntered (Runner.below_enteredGroups levels) keeps.numbered

end NestedSpec
