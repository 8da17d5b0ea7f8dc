import NestedSpec.Proofs.Growth
import NestedSpec.Proofs.Members

/-!
# What a run visits

A run of a plan visits its members: every group and every leaf is a sub-run with a recorder of its
own. The visits of a run are read off the flows that ran, with the state in which each leaf started
and what was recorded for it. A run does nothing to its recorder but to merge its visits, in order.
-/

namespace NestedSpec

variable {ν α β : Type} {t : Target}

def freshHost (name : String) : State ν .flow := ⟨{}, .new name, ()⟩

namespace Flow

def Quiet (flow : Flow ν t α) : Prop :=
  ∀ s, ∃ value s', flow.run s = ⟨.ok value, s', [], []⟩

theorem quiet_pure (value : α) : (pure value : Flow ν t α).Quiet :=
  fun s => ⟨value, s, rfl⟩

theorem Quiet.bind {first : Flow ν t α} {next : α → Flow ν t β} (quiet : first.Quiet)
    (later : ∀ value, (next value).Quiet) : (first >>= next).Quiet := by
  intro s
  obtain ⟨value, s', ended⟩ := quiet s
  obtain ⟨other, s'', endedLater⟩ := later value s'
  exact ⟨other, s'', by rw [run_bind_ok next ended, endedLater]; rfl⟩

theorem quiet_runChild (name : String) (body : Flow ν .flow Unit) :
    (runChild name body : Flow ν t Bool).Quiet :=
  fun _ => ⟨_, _, Likeness.run_runChild name body _⟩

theorem quiet_forM (items : List β) {part : β → Flow ν t Unit} (each : ∀ item, (part item).Quiet) :
    (items.forM part).Quiet :=
  forM_holds (quiet_pure ()) (fun first later => first.bind fun _ => later) fun item _ => each item

def Completes (flow : Flow ν t α) : Prop :=
  ∀ s, ∃ value, (flow.run s).result = .ok value

theorem Completes.bind {first : Flow ν t α} {next : α → Flow ν t β} (completes : first.Completes)
    (later : ∀ value, (next value).Completes) : (first >>= next).Completes := by
  intro s
  obtain ⟨value, completed⟩ := completes s
  have ended : first.run s =
      ⟨.ok value, (first.run s).state, (first.run s).finalisers, (first.run s).cleanups⟩ := by
    rw [← completed]
  obtain ⟨other, completedLater⟩ := later value (first.run s).state
  exact ⟨other, by rw [run_bind_ok next ended]; exact completedLater⟩

theorem completes_forM (items : List β) {part : β → Flow ν t Unit}
    (each : ∀ item, (part item).Completes) : (items.forM part).Completes :=
  forM_holds (fun _ => ⟨(), rfl⟩) (fun first later => first.bind fun _ => later)
    fun item _ => each item

namespace Quiet

theorem run_eq {flow : Flow ν t Unit} (quiet : flow.Quiet) (s : State ν t) :
    flow.run s = ⟨.ok (), (flow.run s).state, [], []⟩ := by
  obtain ⟨value, s', ended⟩ := quiet s
  rw [ended]

theorem run_bind {first : Flow ν t Unit} (quiet : first.Quiet) (next : Unit → Flow ν t β)
    (s : State ν t) : (first >>= next).run s = (next ()).run (first.run s).state := by
  rw [run_bind_ok next (quiet.run_eq s)]
  simp

theorem settle_eq {flow : Flow ν .flow Unit} (quiet : flow.Quiet) (s : State ν .flow) :
    settle (flow.run s) = (flow.run s).state := by
  rw [quiet.run_eq s]
  rfl

end Quiet
end Flow

/-- A visit to a member of a plan, with what was recorded for it. For a leaf it tells the state in
which the leaf started: that of its sub-run, or that of the flow apart if it ran in a batch. -/
inductive Visit (ν : Type) where
  | leaf (chain : Chain ν) (leaf : Leaf ν) (start : State ν .flow) (recorded : Recorder)
  | group (chain : Chain ν) (group : Group ν) (members : List (Visit ν)) (recorded : Recorder)

namespace Visit

def name : Visit ν → String
  | leaf _ l _ _ => l.description
  | group _ g _ _ => g.description

def recorded : Visit ν → Recorder
  | leaf _ _ _ recorded => recorded
  | group _ _ _ recorded => recorded

end Visit

def Recorder.case (r : Recorder) : Case := ⟨r.path, r.failed, r.skipped⟩

def mergeVisits (r : Recorder) (visits : List (Visit ν)) : Recorder :=
  visits.foldl (fun r visit => r.merge visit.recorded visit.name) r

@[simp] theorem mergeVisits_append (r : Recorder) (first second : List (Visit ν)) :
    mergeVisits r (first ++ second) = mergeVisits (mergeVisits r first) second :=
  List.foldl_append

@[simp] theorem mergeVisits_path (r : Recorder) (visits : List (Visit ν)) :
    (mergeVisits r visits).path = r.path := by
  induction visits generalizing r with
  | nil => rfl
  | cons visit rest ih => exact ih _

theorem mergeVisits_failed (r : Recorder) (visits : List (Visit ν)) :
    (mergeVisits r visits).failed = (r.failed || visits.any (·.recorded.failed)) := by
  induction visits generalizing r with
  | nil => simp [mergeVisits]
  | cons visit rest ih =>
    rw [List.any_cons, ← Bool.or_assoc]
    exact ih (r.merge visit.recorded visit.name)

theorem mergeVisits_cases (r : Recorder) (visits : List (Visit ν)) :
    (mergeVisits r visits).cases =
      r.cases ++ visits.flatMap fun visit => visit.recorded.cases ++ [visit.recorded.case] := by
  induction visits generalizing r with
  | nil => simp [mergeVisits]
  | cons visit rest ih =>
    change (mergeVisits (r.merge visit.recorded visit.name) rest).cases = _
    rw [ih]
    simp [Recorder.merge, Recorder.case]

namespace Visit

mutual
def starts : Visit ν → List (Chain ν × Leaf ν × State ν .flow)
  | leaf chain l start _ => [(chain, l, start)]
  | group _ _ members _ => startsAll members

def startsAll : List (Visit ν) → List (Chain ν × Leaf ν × State ν .flow)
  | [] => []
  | first :: rest => starts first ++ startsAll rest
end

@[simp] theorem startsAll_append (first second : List (Visit ν)) :
    startsAll (first ++ second) = startsAll first ++ startsAll second := by
  induction first with
  | nil => rfl
  | cons visit rest ih => simp only [List.cons_append, startsAll, ih, List.append_assoc]

end Visit

def plainRunner : Runner Unit := ⟨.default 0, .test, Deeper.within 1⟩

namespace Runner

/-! ## The visits of a run -/

def endedLeaf (runner : Runner ν) (chain : Chain ν) (leaf : Leaf ν) (start : State ν .flow) :
    State ν .flow :=
  Flow.settle ((runner.runLeaf chain leaf).run start)

def startsApart (runner : Runner ν) (chain : Chain ν) (host : String) :
    List (Leaf ν) → World ν → List (Leaf ν × State ν .flow)
  | [], _ => []
  | leaf :: rest, w =>
    let start : State ν .flow := ⟨w, .detached host leaf.description, ()⟩
    (leaf, start) :: startsApart runner chain host rest (runner.endedLeaf chain leaf start).world

def reportApart (runner : Runner ν) (chain : Chain ν) (leaf : Leaf ν) (start : State ν .flow) :
    RunReport :=
  (runner.endedLeaf chain leaf start).recorder.report

def visitReplays (runner : Runner ν) (chain : Chain ν) :
    List (Leaf ν × State ν .flow) → State ν .flow → List (Visit ν)
  | [], _ => []
  | (leaf, start) :: rest, s =>
    let replay : Flow ν .flow Unit := (runner.reportApart chain leaf start).replay
    .leaf chain leaf start
        (Flow.settle (replay.run ⟨s.world, s.recorder.child leaf.description, ()⟩)).recorder ::
      visitReplays runner chain rest ((Flow.runChild leaf.description replay).run s).state

def visitBatch (runner : Runner ν) (chain : Chain ν) (items : List (Item ν)) (s : State ν .flow) :
    List (Visit ν) :=
  if runner.batches chain then
    runner.visitReplays chain
      (runner.startsApart chain s.recorder.name (Item.directLeaves items) s.world)
      ((runner.runApart chain s.recorder.name (Item.directLeaves items)).run s).state
  else []

mutual
def visitItem (runner : Runner ν) (chain : Chain ν) : Item ν → State ν .flow → List (Visit ν)
  | .leaf leaf, s =>
    if runner.batches chain then []
    else
      let start : State ν .flow := ⟨s.world, s.recorder.child leaf.description, ()⟩
      [.leaf chain leaf start (runner.endedLeaf chain leaf start).recorder]
  | .group group items, s =>
    let inside := chain ++ [group]
    let start : State ν .flow := ⟨s.world, s.recorder.child group.description, ()⟩
    let members := visitEach runner inside items start ++
      runner.visitBatch inside items ((runner.runEach inside items).run start).state
    [.group chain group members ((runner.runMembers inside items).run start).state.recorder]

def visitEach (runner : Runner ν) (chain : Chain ν) :
    List (Item ν) → State ν .flow → List (Visit ν)
  | [], _ => []
  | first :: rest, s =>
    visitItem runner chain first s ++
      visitEach runner chain rest ((runner.runItem chain first).run s).state
end

def visitMembers (runner : Runner ν) (chain : Chain ν) (items : List (Item ν))
    (s : State ν .flow) : List (Visit ν) :=
  runner.visitEach chain items s ++
    runner.visitBatch chain items ((runner.runEach chain items).run s).state

/-! ## A run merges its visits -/

theorem quiet_runApart (runner : Runner ν) (chain : Chain ν) (host : String)
    (leaves : List (Leaf ν)) : (runner.runApart chain host leaves).Quiet := by
  induction leaves with
  | nil => exact Flow.quiet_pure _
  | cons leaf rest ih =>
    have first : (Flow.isolate (.detached host leaf.description)
        (runner.runLeaf chain leaf) : Flow ν .flow Recorder).Quiet := fun _ => ⟨_, _, rfl⟩
    exact first.bind fun _ => ih.bind fun _ => Flow.quiet_pure _

theorem quiet_runBatch (runner : Runner ν) (chain : Chain ν) (items : List (Item ν)) :
    (runner.runBatch chain items).Quiet := by
  unfold runBatch
  split
  · have name : (Flow.ask fun s => s.recorder.name : Flow ν .flow String).Quiet :=
      fun _ => ⟨_, _, rfl⟩
    refine name.bind fun host => (runner.quiet_runApart chain host _).bind fun reports => ?_
    exact Flow.quiet_forM _ fun entry =>
      (Flow.quiet_runChild entry.1 _).bind fun _ => Flow.quiet_pure ()
  · exact Flow.quiet_pure ()

theorem quiet_runItem (runner : Runner ν) (chain : Chain ν) (item : Item ν) :
    (runner.runItem chain item).Quiet := by
  cases item with
  | leaf leaf =>
    unfold runItem
    split
    · exact Flow.quiet_pure ()
    · exact (Flow.quiet_runChild _ _).bind fun _ => Flow.quiet_pure ()
  | group group items =>
    unfold runItem
    exact (Flow.quiet_runChild _ _).bind fun _ => Flow.quiet_pure ()

theorem quiet_runEach (runner : Runner ν) (chain : Chain ν) (items : List (Item ν)) :
    (runner.runEach chain items).Quiet := by
  induction items with
  | nil => exact Flow.quiet_pure ()
  | cons first rest ih =>
    unfold runEach
    exact (runner.quiet_runItem chain first).bind fun _ => ih

theorem quiet_runMembers (runner : Runner ν) (chain : Chain ν) (items : List (Item ν)) :
    (runner.runMembers chain items).Quiet :=
  (runner.quiet_runEach chain items).bind fun _ => runner.quiet_runBatch chain items

theorem run_runApart (runner : Runner ν) (chain : Chain ν) (host : String)
    (leaves : List (Leaf ν)) (s : State ν .flow) : ∃ w,
    (runner.runApart chain host leaves).run s =
      ⟨.ok ((runner.startsApart chain host leaves s.world).map fun entry =>
        (entry.1.description, runner.reportApart chain entry.1 entry.2)), { s with world := w },
        [], []⟩ := by
  induction leaves generalizing s with
  | nil => exact ⟨s.world, rfl⟩
  | cons leaf rest ih =>
    let start : State ν .flow := ⟨s.world, .detached host leaf.description, ()⟩
    have first : (Flow.isolate (.detached host leaf.description)
        (runner.runLeaf chain leaf)).run s =
      ⟨.ok (runner.endedLeaf chain leaf start).recorder,
        { s with world := (runner.endedLeaf chain leaf start).world }, [], []⟩ := rfl
    obtain ⟨w, later⟩ := ih { s with world := (runner.endedLeaf chain leaf start).world }
    refine ⟨w, ?_⟩
    rw [runApart, Flow.run_bind_ok _ first, Flow.run_bind_ok _ later]
    rfl

theorem recorder_replays (runner : Runner ν) (chain : Chain ν)
    (starts : List (Leaf ν × State ν .flow)) (s : State ν .flow) :
    (((starts.map fun entry : Leaf ν × State ν .flow =>
          (entry.1.description, runner.reportApart chain entry.1 entry.2)).forM
        fun entry : String × RunReport => do
          let _ ← Flow.runChild entry.1 entry.2.replay).run s).state.recorder =
      mergeVisits s.recorder (runner.visitReplays chain starts s) := by
  induction starts generalizing s with
  | nil => rfl
  | cons entry rest ih =>
    obtain ⟨leaf, start⟩ := entry
    have quiet : (do
        let _ ← Flow.runChild leaf.description (runner.reportApart chain leaf start).replay :
        Flow ν .flow Unit).Quiet :=
      (Flow.quiet_runChild _ _).bind fun _ => Flow.quiet_pure ()
    have first := quiet.run_bind (fun _ =>
      (rest.map fun entry : Leaf ν × State ν .flow =>
        (entry.1.description, runner.reportApart chain entry.1 entry.2)).forM
        fun entry : String × RunReport => do
          let _ ← Flow.runChild entry.1 entry.2.replay) s
    exact (congrArg (fun step => step.state.recorder) first).trans (ih _)

theorem recorder_runBatch (runner : Runner ν) (chain : Chain ν) (items : List (Item ν))
    (s : State ν .flow) :
    ((runner.runBatch chain items).run s).state.recorder =
      mergeVisits s.recorder (runner.visitBatch chain items s) := by
  unfold runBatch visitBatch
  split
  · obtain ⟨w, apart⟩ :=
      runner.run_runApart chain s.recorder.name (Item.directLeaves items) s
    have name : (Flow.ask fun s => s.recorder.name : Flow ν .flow String).run s =
        ⟨.ok s.recorder.name, s, [], []⟩ := rfl
    rw [Flow.run_bind_ok _ name, Flow.run_bind_ok _ apart, apart]
    exact runner.recorder_replays chain _ { s with world := w }
  · rfl

theorem recorder_runItem (runner : Runner ν) (chain : Chain ν) (item : Item ν)
    (s : State ν .flow) :
    ((runner.runItem chain item).run s).state.recorder =
      mergeVisits s.recorder (runner.visitItem chain item s) := by
  cases item with
  | leaf leaf =>
    unfold runItem visitItem
    split
    · rfl
    · rw [Flow.run_bind_ok _ (Likeness.run_runChild ..)]
      rfl
  | group group items =>
    have settled := (runner.quiet_runMembers (chain ++ [group]) items).settle_eq
      ⟨s.world, s.recorder.child group.description, ()⟩
    unfold runItem visitItem
    rw [Flow.run_bind_ok _ (Likeness.run_runChild ..)]
    change s.recorder.merge (Flow.settle ((runner.runMembers (chain ++ [group]) items).run _)).recorder
      group.description = _
    rw [settled]
    rfl

theorem recorder_runEach (runner : Runner ν) (chain : Chain ν) (items : List (Item ν))
    (s : State ν .flow) :
    ((runner.runEach chain items).run s).state.recorder =
      mergeVisits s.recorder (runner.visitEach chain items s) := by
  induction items generalizing s with
  | nil => rfl
  | cons first rest ih =>
    rw [runEach, (runner.quiet_runItem chain first).run_bind, ih, visitEach, mergeVisits_append,
      recorder_runItem]

theorem recorder_runMembers (runner : Runner ν) (chain : Chain ν) (items : List (Item ν))
    (s : State ν .flow) :
    ((runner.runMembers chain items).run s).state.recorder =
      mergeVisits s.recorder (runner.visitMembers chain items s) := by
  rw [runMembers, (runner.quiet_runEach chain items).run_bind, recorder_runBatch, recorder_runEach,
    visitMembers, mergeVisits_append]

/-! ## A whole run -/

def started (s : State ν .flow) : State ν .flow :=
  { s with world := { s.world with entered := [] } }

def planned (runner : Runner ν) (group : Group ν) (items : List (Item ν)) : List (Item ν) :=
  (runner.plan (.group group items)).members

def planVisits (runner : Runner ν) (group : Group ν) (items : List (Item ν)) (s : State ν .flow) :
    List (Visit ν) :=
  runner.visitMembers [group] (runner.planned group items) (started s)

def ranMembers (runner : Runner ν) (group : Group ν) (items : List (Item ν)) (s : State ν .flow) :
    State ν .flow :=
  ((runner.runMembers [group] (runner.planned group items)).run (started s)).state

def ranAfterAll (runner : Runner ν) (group : Group ν) (items : List (Item ν)) (s : State ν .flow) :
    Step ν .flow Unit :=
  (runner.runAfterAll (Item.group group items).groups).run (runner.ranMembers group items s)

theorem recorder_ranMembers (runner : Runner ν) (group : Group ν) (items : List (Item ν))
    (s : State ν .flow) : (runner.ranMembers group items s).recorder =
      mergeVisits s.recorder (runner.planVisits group items s) :=
  runner.recorder_runMembers [group] (runner.planned group items) (started s)

theorem completes_runAfterAll (runner : Runner ν) (groups : List (Group ν)) :
    (runner.runAfterAll groups).Completes := by
  refine Flow.Completes.bind (fun s => ⟨_, rfl⟩) fun entered => ?_
  refine Flow.completes_forM _ fun group => Flow.completes_forM _ fun hook => ?_
  refine Flow.Completes.bind (fun s => ⟨_, rfl⟩) fun outcome => ?_
  cases outcome.panicMessage? with
  | none => exact fun s => ⟨_, rfl⟩
  | some message => exact fun s => ⟨_, rfl⟩

def seedLine (runner : Runner ν) : String :=
  "leaves ran in random order; reproduce with " ++ seedKey ++ "=" ++
    toString runner.config.seed.toNat

/-- What is left on the recorder when a run has ended: if it has failed and the members were to be
ordered at random, a line says how to get the shuffle again. -/
def reported (runner : Runner ν) (r : Recorder) : Recorder :=
  if r.failed = true ∧ runner.config.ordering = .random then r.log runner.seedLine else r

theorem cases_reported (runner : Runner ν) (r : Recorder) :
    (runner.reported r).cases = r.cases := by
  unfold reported
  split <;> rfl

theorem failed_reported (runner : Runner ν) (r : Recorder) :
    (runner.reported r).failed = r.failed := by
  unfold reported
  split <;> rfl

theorem reportOrder_eq (runner : Runner ν) (s : State ν .flow) : runner.reportOrder.run s =
    ⟨.ok (), { s with recorder := runner.reported s.recorder }, [], []⟩ := by
  have mark : (Flow.ask fun s => s.recorder.failed : Flow ν .flow Bool).run s =
      ⟨.ok s.recorder.failed, s, [], []⟩ := rfl
  unfold reportOrder reported
  rw [Flow.run_bind_ok _ mark]
  simp only [Bool.and_eq_true, decide_eq_true_eq]
  split <;> rfl

theorem run_eq (runner : Runner ν) (group : Group ν) (items : List (Item ν)) (s : State ν .flow) :
    let last := runner.ranAfterAll group items s
    (runner.run (.group group items)).run s =
      ⟨.ok (), ⟨{ last.state.world with entered := s.world.entered },
        runner.reported last.state.recorder, ()⟩, last.finalisers, last.cleanups⟩ := by
  -- The groups that an outer run has entered are put aside and come back at the end.
  have outer : (Flow.ask fun s => s.world.entered : Flow ν .flow (List Nat)).run s =
      ⟨.ok s.world.entered, s, [], []⟩ := rfl
  have fresh : (Flow.changeWorld fun w => { w with entered := [] } : Flow ν .flow Unit).run s =
      ⟨.ok (), started s, [], []⟩ := rfl
  have members : (runner.runPlan (runner.plan (.group group items))).run (started s) =
      ⟨.ok (), runner.ranMembers group items s, [], []⟩ :=
    (runner.quiet_runMembers [group] (runner.planned group items)).run_eq (started s)
  obtain ⟨_, completed⟩ := runner.completes_runAfterAll (Item.group group items).groups
    (runner.ranMembers group items s)
  have last : (runner.runAfterAll (Item.group group items).groups).run
        (runner.ranMembers group items s) =
      ⟨.ok (), (runner.ranAfterAll group items s).state,
        (runner.ranAfterAll group items s).finalisers,
        (runner.ranAfterAll group items s).cleanups⟩ := by
    rw [← completed]
    rfl
  unfold run
  rw [Flow.run_bind_ok _ outer, Flow.run_bind_ok _ fresh, Flow.run_bind_ok _ members,
    Flow.run_bind_ok _ last, Flow.run_bind_ok _ (runner.reportOrder_eq _)]
  simp only [List.append_nil]
  rfl

end Runner
end NestedSpec
