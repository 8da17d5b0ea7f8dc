import NestedSpec.Proofs.Coverage
import NestedSpec.Proofs.Playback

/-!
# Leaves take turns

Whether leaves run in place or apart, a run takes them one after another: each starts in the world
that the one before it has left. Nothing else that a run does between two leaves touches the world,
and playing reports back does not either.
-/

namespace NestedSpec.Runner

variable {ν : Type} {runner : Runner ν} {tree : Item ν} {chain : Chain ν}

/-- Leaves of a tree that run one after another, in any order and as often as may be, from one world
to another. -/
inductive TakeTurns (runner : Runner ν) (tree : Item ν) :
    World ν → List (Chain ν × Leaf ν × State ν .flow) → World ν → Prop
  | done (w : World ν) : TakeTurns runner tree w [] w
  | leaf {chain : Chain ν} {leaf : Leaf ν} {start : State ν .flow}
      {rest : List (Chain ν × Leaf ν × State ν .flow)} {last : World ν}
      (among : Member.leaf chain leaf ∈ tree.postOrder [])
      (later : TakeTurns runner tree (runner.endedLeaf chain leaf start).world rest last) :
      TakeTurns runner tree start.world ((chain, leaf, start) :: rest) last

theorem TakeTurns.append {first second : List (Chain ν × Leaf ν × State ν .flow)}
    {w between last : World ν} (before : runner.TakeTurns tree w first between)
    (after : runner.TakeTurns tree between second last) :
    runner.TakeTurns tree w (first ++ second) last := by
  induction before with
  | done => exact after
  | leaf among _ ih => exact .leaf among (ih after)

theorem TakeTurns.of_last_eq {runs : List (Chain ν × Leaf ν × State ν .flow)}
    {w last last' : World ν} (turns : runner.TakeTurns tree w runs last) (same : last' = last) :
    runner.TakeTurns tree w runs last' :=
  same ▸ turns

theorem TakeTurns.among {runs : List (Chain ν × Leaf ν × State ν .flow)} {w last : World ν}
    (turns : runner.TakeTurns tree w runs last) {leaf : Leaf ν} {start : State ν .flow}
    (member : (chain, leaf, start) ∈ runs) : Member.leaf chain leaf ∈ tree.postOrder [] := by
  induction turns with
  | done => exact absurd member List.not_mem_nil
  | leaf among _ ih =>
    rcases List.mem_cons.mp member with first | later
    · cases first
      exact among
    · exact ih later

/-! ## Leaves apart -/

theorem turns_apart (runner : Runner ν) {leaves : List (Leaf ν)}
    (among : ∀ leaf ∈ leaves, Member.leaf chain leaf ∈ tree.postOrder []) (host : String)
    (s : State ν .flow) :
    runner.TakeTurns tree s.world
      ((runner.startsApart chain host leaves s.world).map fun entry => (chain, entry.1, entry.2))
      ((runner.runApart chain host leaves).run s).state.world := by
  induction leaves generalizing s with
  | nil => exact .done _
  | cons leaf rest ih =>
    let start : State ν .flow := ⟨s.world, .detached host leaf.description, ()⟩
    have first : (Flow.isolate (.detached host leaf.description)
        (runner.runLeaf chain leaf)).run s =
      ⟨.ok (runner.endedLeaf chain leaf start).recorder,
        { s with world := (runner.endedLeaf chain leaf start).world }, [], []⟩ := rfl
    have later := ih (fun other member => among other (List.mem_cons_of_mem _ member))
      { s with world := (runner.endedLeaf chain leaf start).world }
    obtain ⟨w, ended⟩ := runner.run_runApart chain host rest
      { s with world := (runner.endedLeaf chain leaf start).world }
    rw [ended] at later
    rw [runApart, Flow.run_bind_ok _ first, Flow.run_bind_ok _ ended]
    exact .leaf (among leaf (List.mem_cons_self ..)) later

theorem startsAll_visitReplays (runner : Runner ν) (chain : Chain ν)
    (starts : List (Leaf ν × State ν .flow)) (s : State ν .flow) :
    Visit.startsAll (runner.visitReplays chain starts s) =
      starts.map fun entry => (chain, entry.1, entry.2) := by
  induction starts generalizing s with
  | nil => rfl
  | cons entry rest ih => simp [visitReplays, Visit.startsAll, Visit.starts, ih]

theorem world_replays (reports : List (String × RunReport)) (s : State ν .flow) :
    ((reports.forM fun entry => do
      let _ ← Flow.runChild entry.1 entry.2.replay : Flow ν .flow Unit).run s).state.world =
        s.world :=
  congrArg (fun step => step.state.world)
    (Flow.reports_forM reports (fun entry _ => entry.2.settles_replay.runChild entry.1) s)

theorem turns_visitBatch (runner : Runner ν) {items : List (Item ν)}
    (among : ∀ leaf ∈ Item.directLeaves items, Member.leaf chain leaf ∈ tree.postOrder [])
    (s : State ν .flow) :
    runner.TakeTurns tree s.world (Visit.startsAll (runner.visitBatch chain items s))
      ((runner.runBatch chain items).run s).state.world := by
  unfold runBatch visitBatch
  split
  · obtain ⟨w, apart⟩ := runner.run_runApart chain s.recorder.name (Item.directLeaves items) s
    have name : (Flow.ask fun s => s.recorder.name : Flow ν .flow String).run s =
        ⟨.ok s.recorder.name, s, [], []⟩ := rfl
    have turns := runner.turns_apart among s.recorder.name s
    rw [apart] at turns
    rw [startsAll_visitReplays, Flow.run_bind_ok _ name, Flow.run_bind_ok _ apart]
    exact turns.of_last_eq (world_replays _ (⟨w, s.recorder, ()⟩ : State ν .flow))
  · exact .done _

theorem member_directLeaves {items : List (Item ν)} {leaf : Leaf ν}
    (direct : leaf ∈ Item.directLeaves items) :
    Member.leaf chain leaf ∈ Item.postOrderAll chain items := by
  obtain ⟨item, among, same⟩ := List.mem_filterMap.mp direct
  rw [Item.postOrderAll_eq_flatMap]
  cases item with
  | leaf l =>
    obtain rfl := Option.some.inj same
    exact List.mem_flatMap.mpr ⟨_, among, List.mem_singleton.mpr rfl⟩
  | group g items => exact absurd same nofun

/-! ## All leaves of a run -/

mutual
theorem turns_visitItem (runner : Runner ν) (chain : Chain ν) : (item : Item ν) →
    (∀ member ∈ Item.postOrder chain item, member ∈ tree.postOrder []) → (s : State ν .flow) →
      runner.TakeTurns tree s.world (Visit.startsAll (runner.visitItem chain item s))
        ((runner.runItem chain item).run s).state.world
  | .leaf leaf, among, s => by
    unfold visitItem runItem
    split
    · exact .done _
    · let start : State ν .flow := ⟨s.world, s.recorder.child leaf.description, ()⟩
      have turns : runner.TakeTurns tree start.world [(chain, leaf, start)]
          (runner.endedLeaf chain leaf start).world :=
        .leaf (among _ (List.mem_singleton.mpr rfl)) (.done _)
      rw [Flow.run_bind_ok _ (Likeness.run_runChild ..)]
      exact turns
  | .group group items, among, s => by
    have inside : ∀ member ∈ Item.postOrderAll (chain ++ [group]) items,
        member ∈ tree.postOrder [] := fun member below =>
      among member (List.mem_append_left _ below)
    have turns := runner.turns_visitMembers (chain ++ [group]) items inside
      ⟨s.world, s.recorder.child group.description, ()⟩
    have settled := (runner.quiet_runMembers (chain ++ [group]) items).settle_eq
      ⟨s.world, s.recorder.child group.description, ()⟩
    rw [← settled] at turns
    unfold visitItem runItem
    rw [Flow.run_bind_ok _ (Likeness.run_runChild ..), Visit.startsAll, Visit.starts,
      Visit.startsAll, List.append_nil]
    exact turns

theorem turns_visitEach (runner : Runner ν) (chain : Chain ν) : (items : List (Item ν)) →
    (∀ member ∈ Item.postOrderAll chain items, member ∈ tree.postOrder []) →
      (s : State ν .flow) → runner.TakeTurns tree s.world
        (Visit.startsAll (runner.visitEach chain items s))
        ((runner.runEach chain items).run s).state.world
  | [], _, _ => .done _
  | first :: rest, among, s => by
    have one := runner.turns_visitItem chain first
      (fun member own => among member (List.mem_append_left _ own)) s
    have others := runner.turns_visitEach chain rest
      (fun member other => among member (List.mem_append_right _ other))
      ((runner.runItem chain first).run s).state
    rw [runEach, (runner.quiet_runItem chain first).run_bind, visitEach, Visit.startsAll_append]
    exact one.append others

theorem turns_visitMembers (runner : Runner ν) (chain : Chain ν) (items : List (Item ν))
    (among : ∀ member ∈ Item.postOrderAll chain items, member ∈ tree.postOrder [])
    (s : State ν .flow) : runner.TakeTurns tree s.world
      (Visit.startsAll (runner.visitMembers chain items s))
      ((runner.runMembers chain items).run s).state.world := by
  have each := runner.turns_visitEach chain items among s
  have batch := runner.turns_visitBatch (fun leaf direct => among _ (member_directLeaves direct))
    ((runner.runEach chain items).run s).state
  rw [runMembers, (runner.quiet_runEach chain items).run_bind, visitMembers, Visit.startsAll_append]
  exact each.append batch
end

theorem turns_planned (runner : Runner ν) (group : Group ν) (items : List (Item ν))
    (s : State ν .flow) : runner.TakeTurns (.group group items) s.world
      (Visit.startsAll (runner.visitMembers [group] (runner.planned group items) s))
      ((runner.runMembers [group] (runner.planned group items)).run s).state.world := by
  apply runner.turns_visitMembers
  intro member among
  exact List.mem_append_left _ ((runner.planned_perm group items).mem_iff.mp among)

/-- The leaves of a spec take turns when it is run. -/
theorem turns_planVisits (runner : Runner ν) (group : Group ν) (items : List (Item ν))
    (s : State ν .flow) : runner.TakeTurns (.group group items) (started s).world
      (Visit.startsAll (runner.planVisits group items s)) (runner.ranMembers group items s).world :=
  runner.turns_planned group items (started s)

end NestedSpec.Runner
