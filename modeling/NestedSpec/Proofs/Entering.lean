import NestedSpec.Proofs.EnteredGroups
import NestedSpec.Proofs.Enrolling
import NestedSpec.Proofs.Failures
import NestedSpec.Proofs.OnceCalls
import NestedSpec.Proofs.Turns

/-!
# Hooks that run once

A group is marked as entered before its hooks that run once start, so none of them ever starts
again. If one of them stops, the ones behind it never run, and later leaves go on without them. Apart
from that, whatever runs inside a group finds its hooks behind it, and before them those of the
groups around it.
-/

namespace NestedSpec

variable {ν : Type}

/-! ## What a run of leaves keeps -/

namespace Runner

variable {runner : Runner ν} {tree : Item ν}

theorem entered_enter (below : (enteredGroups ν).Below runner.deeper) (group : Group ν)
    (s : State ν .leaf) : ((runner.enter group).run s).state.world.entered =
      if s.world.entered.contains group.index then s.world.entered
      else group.index :: s.world.entered := by
  have entered : (Flow.ask fun s => s.world.entered : Flow ν .leaf (List Nat)).run s =
      ⟨.ok s.world.entered, s, [], []⟩ := rfl
  have hooks : (enteredGroups ν).Keeps
      (group.beforeAll.forM fun hook => Flow.onFlow (hook.exec runner.deeper) : Flow ν .leaf Unit) :=
    .forM _ fun hook _ => .onFlow (keeps_exec below hook)
  unfold enter
  rw [Flow.run_bind_ok _ entered]
  split
  · rfl
  · have marked : (Flow.changeWorld fun w => { w with entered := group.index :: w.entered } :
        Flow ν .leaf Unit).run s = ⟨.ok (), entering group s, [], []⟩ := rfl
    rw [Flow.run_bind_ok _ marked]
    exact hooks.entered_eq (entering group s)

def KeepsLog (runner : Runner ν) (tree : Item ν) (chain : Chain ν) (leaf : Leaf ν)
    (stages : List (Stage ν)) (s : State ν .leaf) : Prop :=
  ∀ log, Logged tree s.world.entered log →
    Logged tree ((inTurn (stages.map (runner.stage leaf))).run s).state.world.entered
      (log ++ (walk (runner.stage leaf) stages s).flatMap (runner.stageCalls chain leaf))

variable {chain : Chain ν} {leaf : Leaf ν}

theorem KeepsLog.cons {stage : Stage ν} {stages : List (Stage ν)} {s : State ν .leaf}
    {log : List (Invoked ν)}
    (first : Logged tree ((runner.stage leaf stage).run s).state.world.entered
      (log ++ runner.stageCalls chain leaf (stage, s)))
    (rest : ((runner.stage leaf stage).run s).result = .ok () →
      runner.KeepsLog tree chain leaf stages ((runner.stage leaf stage).run s).state) :
    Logged tree ((inTurn ((stage :: stages).map (runner.stage leaf))).run s).state.world.entered
      (log ++ (walk (runner.stage leaf) (stage :: stages) s).flatMap
        (runner.stageCalls chain leaf)) := by
  cases ended : ((runner.stage leaf stage).run s).result with
  | ok value =>
    have later := rest ended _ first
    rw [List.map_cons, state_inTurn_ok ended]
    simpa [walk, ended] using later
  | error stop =>
    rw [List.map_cons, state_inTurn_error ended]
    simpa [walk, ended] using first

structure LeafOf (tree : Item ν) (chain : Chain ν) (leaf : Leaf ν) : Prop where
  numbered : Item.NumberedFrom 0 tree.groups
  among : Member.leaf chain leaf ∈ tree.postOrder []

theorem LeafOf.around (place : LeafOf tree chain leaf) {outer rest : Chain ν} {group : Group ν}
    (split : chain = outer ++ group :: rest) : Member.group outer group ∈ tree.postOrder [] := by
  obtain ⟨inner, rfl, inside⟩ := Item.around_postOrder [] tree place.among
  exact inside outer group rest split

theorem LeafOf.known (place : LeafOf tree chain leaf) :
    ∀ group ∈ chain, ∃ outer, Member.group outer group ∈ tree.postOrder [] := by
  intro group member
  obtain ⟨outer, rest, split⟩ := List.append_of_mem member
  exact ⟨outer, place.around split⟩

variable (below : (enteredGroups ν).Below runner.deeper) (place : LeafOf tree chain leaf)
include below place

theorem keepsLog_inside {stages : List (Stage ν)}
    (inner : ∀ stage ∈ stages, stage = .body ∨ ∃ hook, stage = .hook hook) {s : State ν .leaf}
    (entered : chain.indices.Sublist s.world.entered.reverse) :
    runner.KeepsLog tree chain leaf stages s := by
  induction stages generalizing s with
  | nil => exact fun log logged => by simpa [inTurn, walk] using logged
  | cons stage stages ih =>
    intro log logged
    have before := logged.ranBefore entered place.known
    have same : ((runner.stage leaf stage).run s).state.world.entered = s.world.entered := by
      rcases inner stage (List.mem_cons_self ..) with rfl | ⟨hook, rfl⟩
      · exact (keeps_exec below leaf.body).entered_eq s
      · exact (keeps_runHook below hook).entered_eq s
    refine KeepsLog.cons ?_ fun _ => ih (fun other member => inner other (List.mem_cons_of_mem _ member))
      (by rwa [same])
    rw [same]
    rcases inner stage (List.mem_cons_self ..) with rfl | ⟨hook, rfl⟩
    · exact logged.call rfl fun _ around => Option.some.inj around ▸ before
    · exact logged.call rfl fun _ around => Option.some.inj around ▸ before

theorem keepsLog_stages {outer rest : Chain ν} (split : chain = outer ++ rest) {s : State ν .leaf}
    (entered : outer.indices.Sublist s.world.entered.reverse) :
    runner.KeepsLog tree chain leaf (rest.map Stage.enter ++ Stage.inside chain) s := by
  induction rest generalizing outer s with
  | nil =>
    rw [List.append_nil] at split
    subst split
    refine keepsLog_inside below place (fun stage member => ?_) entered
    rcases List.mem_append.mp (List.mem_append.mp member |>.resolve_left List.not_mem_nil) with
      hooks | body
    · obtain ⟨hook, -, rfl⟩ := List.mem_map.mp hooks
      exact .inr ⟨hook, rfl⟩
    · exact .inl (List.mem_singleton.mp body)
  | cons group rest ih =>
    intro log logged
    have here := place.around split
    have marks := runner.entered_enter below group s
    have further : chain = (outer ++ [group]) ++ rest := by simp [split]
    by_cases known : group.index ∈ s.world.entered
    -- The group was entered before, and so were the groups around it.
    · have seen : s.world.entered.contains group.index = true := by simpa using known
      rw [if_pos seen] at marks
      refine KeepsLog.cons ?_ fun _ => ih further ?_
      · have none : runner.stageCalls chain leaf (.enter group, s) = [] := by
          simp [stageCalls, onceSteps, known, onceCalls]
        rw [none, List.append_nil]
        exact marks.symm ▸ logged
      · exact marks.symm ▸ logged.outward outer group here known
    · have unseen : ¬ s.world.entered.contains group.index = true := by simpa using known
      rw [if_neg unseen] at marks
      have cut : Cut group.beforeAll.length ((runner.onceSteps group s).map (·.result.isOk)) := by
        have counted := cut_visits (group.beforeAll.map fun hook =>
          (Flow.onFlow (hook.exec runner.deeper) : Flow ν .leaf Unit)) (entering group s)
        rw [List.length_map] at counted
        rwa [onceSteps, if_neg unseen]
      have next := logged.enter place.numbered here entered known cut
      refine KeepsLog.cons (marks.symm ▸ next) fun _ => ih further ?_
      have last := next.outward outer group here (List.mem_cons_self ..)
      exact marks.symm ▸ last

theorem logged_runOnce (s : State ν .flow) {log : List (Invoked ν)}
    (logged : Logged tree s.world.entered log) :
    Logged tree ((runner.runOnce chain leaf).run s).state.world.entered
      (log ++ runner.invocationCalls chain leaf s) := by
  have kept : runner.KeepsLog tree chain leaf (chain.map Stage.enter ++ Stage.inside chain)
      ⟨s.world, s.recorder, runner.leafStart chain leaf⟩ :=
    keepsLog_stages below place (List.nil_append chain).symm (List.nil_sublist _)
  rw [(entered_runOnce below chain leaf s).2, ← run_parts, parts_eq_stages]
  exact kept log logged

theorem logged_repeatOnce (count : Nat) (s : State ν .flow) {log : List (Invoked ν)}
    (logged : Logged tree s.world.entered log) :
    Logged tree ((runner.repeatOnce chain leaf count).run s).state.world.entered
      (log ++ (runner.repeatStarts chain leaf count s).flatMap
        (runner.invocationCalls chain leaf)) := by
  induction count generalizing s log with
  | zero => simpa [repeatOnce, repeatStarts] using logged
  | succ count ih =>
    have first := logged_runOnce below place s logged
    rcases ended : (runner.runOnce chain leaf).run s with ⟨stop | value, s', finalisers, cleanups⟩
    · rw [ended] at first
      rw [repeatOnce, Flow.run_bind_error _ ended, repeatStarts, ended]
      simpa using first
    · rw [ended] at first
      rw [repeatOnce, Flow.run_bind_ok _ ended, repeatStarts, ended]
      simpa using ih s' first

theorem logged_endedLeaf (start : State ν .flow) {log : List (Invoked ν)}
    (logged : Logged tree start.world.entered log) :
    Logged tree (runner.endedLeaf chain leaf start).world.entered
      (log ++ runner.calls [(chain, leaf, start)]) := by
  rw [entered_endedLeaf_eq below]
  simp only [calls, invocations, List.flatMap_cons, List.flatMap_nil, List.append_nil]
  cases runner.skipReason chain with
  | some reason => simpa using logged
  | none =>
    cases runner.mode with
    | test => simpa using logged_runOnce below place start logged
    | benchmark iterations => exact logged_repeatOnce below place (max 1 iterations) start logged

omit place in
theorem logged_turns (numbered : Item.NumberedFrom 0 tree.groups) {w last : World ν}
    {runs : List (Chain ν × Leaf ν × State ν .flow)} (turns : runner.TakeTurns tree w runs last)
    {log : List (Invoked ν)} (logged : Logged tree w.entered log) :
    Logged tree last.entered (log ++ runner.calls runs) := by
  induction turns generalizing log with
  | done => simpa [calls] using logged
  | @leaf chain leaf start rest last among later ih =>
    have split : runner.calls ((chain, leaf, start) :: rest) =
        runner.calls [(chain, leaf, start)] ++ runner.calls rest := by simp [calls]
    rw [split, ← List.append_assoc]
    exact ih (logged_endedLeaf below ⟨numbered, among⟩ start logged)

/-- The hooks that run once, when the leaves of a tree take turns. -/
structure EntersOnce (runner : Runner ν) (tree : Item ν) : Prop where
  numbered : Item.NumberedFrom 0 tree.groups
  enters : ∀ (group : Group ν) (s : State ν .leaf), (runner.enter group).run s =
    .together (if s.world.entered.contains group.index then s else entering group s)
      (runner.onceSteps group s)
  visits : ∀ (chain : Chain ν) (leaf : Leaf ν) (s : State ν .flow), runner.visited chain leaf s =
    (walk (runner.stage leaf) (chain.map Stage.enter ++ Stage.inside chain)
      ⟨s.world, s.recorder, runner.leafStart chain leaf⟩).map
        fun entry => (runner.stage leaf entry.1).run entry.2
  turns : ∀ group items, tree = .group group items → ∀ s, runner.TakeTurns tree (started s).world
    (Visit.startsAll (runner.planVisits group items s)) (runner.ranMembers group items s).world
  once : ∀ w runs last, w.entered = [] → runner.TakeTurns tree w runs last →
    (((runner.calls runs).filterMap Invoked.once?).map fun call => (call.group, call.place)).Nodup
  prepared : ∀ w runs last, w.entered = [] → runner.TakeTurns tree w runs last →
    Prepared (runner.calls runs)
  complete : ∀ w runs last, w.entered = [] → runner.TakeTurns tree w runs last →
    ∀ earlier call, earlier ++ [call] <+: runner.calls runs → ∀ chain, call.around? = some chain →
      (AllRan chain earlier ↔
        ∀ group ∈ chain, ∀ call ∈ earlier.filterMap Invoked.once?, call.group = group.index →
          call.completed = false → call.place + 1 = group.beforeAll.length)

omit place in
theorem entersOnce (numbered : Item.NumberedFrom 0 tree.groups) : runner.EntersOnce tree := by
  have logged : ∀ {w last : World ν} {runs}, w.entered = [] → runner.TakeTurns tree w runs last →
      Logged tree last.entered (runner.calls runs) := by
    intro w last runs blank turns
    have start : Logged tree w.entered [] := blank ▸ .empty tree
    exact logged_turns below numbered turns start
  exact {
    numbered := numbered
    enters := runner.run_enter
    visits := fun chain leaf s => by rw [visited, parts_eq_stages, visits_eq_walk]
    turns := by
      rintro group items rfl s
      exact runner.turns_planVisits group items s
    once := fun _ _ _ blank turns => (logged blank turns).once
    prepared := fun _ _ _ blank turns => (logged blank turns).prepared
    complete := fun _ _ _ blank turns earlier call found chain around =>
      ((logged blank turns).prepared earlier call found chain around).allRan_iff }

end Runner

/-- Whatever is registered: no hook that runs once for a group is called twice, in whatever order
the leaves run, and whatever runs for a leaf finds the hooks of the groups around it called, outer
groups first and in the order of registration, up to the first of a group that stopped. -/
theorem Registration.enters_once (levels : Nat) (config : Config) (mode : RunMode)
    (body : Registration ν) (name : String) (s : State ν .flow) :
    let declaration := body.declaration (Deeper.within levels) ⟨config, mode, []⟩
    ∃ log frozen, Registers false declaration (.start name) s log frozen ∧
      (∀ ended, ((declaration.run (.start name)).run s).result = .ok ended →
        ∃ tree, frozen = [tree]) ∧
      ∀ tree ∈ frozen, Runner.EntersOnce ⟨config, mode, Deeper.within levels⟩ tree :=
  freezes fun _ _ keeps => Runner.entersOnce (Runner.below_enteredGroups levels) keeps.numbered

def orderedRunner : Runner Unit :=
  ⟨{ Config.default 0 with ordering := .defined }, .test, Deeper.within 1⟩

def cutShort : Group Unit := { plainGroup with beforeAll := [.skipNow, .done] }

def idleLeaf (description : String) : Leaf Unit := ⟨description, default, .done⟩

/-- The hook behind one that stops never runs, but the second leaf does. -/
theorem hook_behind_stop_is_lost :
    let runs := Visit.startsAll (orderedRunner.planVisits cutShort
      [.leaf (idleLeaf "one"), .leaf (idleLeaf "two")] (freshHost "spec"))
    orderedRunner.calls runs = [.once ⟨0, 0, false⟩, .body [cutShort] (idleLeaf "two")] ∧
      ¬ AllRan [cutShort] [(.once ⟨0, 0, false⟩ : Invoked Unit)] := by
  refine ⟨rfl, fun all => ?_⟩
  obtain ⟨call, among, -, place⟩ := all cutShort (List.mem_singleton.mpr rfl) 1 Nat.one_lt_two
  obtain rfl : call = ⟨0, 0, false⟩ := by simpa [Invoked.once?] using among
  exact absurd place Nat.zero_ne_one

end NestedSpec
