import NestedSpec.Interpreter

/-!
# Running a spec

The plan of a spec is run from its outermost group inwards. Every group and every leaf is a sub-run
named by its description. In a group whose leaves may run at the same time, the leaves run after the
other members, each apart from the flow of the group, and their reports are played back in order.
-/

namespace NestedSpec

variable {ν α : Type} {t : Target}

namespace RunReport

/-- Marks a flow as one that has ended was marked, first as failed and then as skipped, which leaves
it. -/
def replayMarks (failed skipped : Bool) : Flow ν .flow Unit := do
  Flow.changeRecorder fun r => if failed then r.fail else r
  if skipped then Flow.skipNow

/-- Plays back the lines of one sub-run, given by its path in the report, and the sub-runs inside
it. The sub-runs inside have longer paths, so as many levels as names in the longest are enough. -/
def replayScope (report : RunReport) : Nat → List String → Flow ν .flow Unit
  | levels, scope => do
    (report.logs.filter (·.origin = scope)).forM fun line => Flow.log line.message
    match levels with
    | 0 => pure ()
    | levels + 1 =>
      (report.cases.filter fun c =>
          c.path.length = scope.length + 1 && scope.isPrefixOf c.path).forM fun c =>
        match c.path.getLast? with
        | none => pure ()
        | some name => do
          let _ ← Flow.runChild name do
            replayScope report levels c.path
            replayMarks c.failed c.skipped

/-- Plays back a report: its lines and sub-runs, then its failure, then its skipping. -/
def replay (report : RunReport) : Flow ν .flow Unit := do
  replayScope report (Case.depth report.cases) []
  replayMarks report.failed report.skipped

end RunReport

/-- A spec that is being run. -/
structure Runner (ν : Type) where
  config : Config
  mode : RunMode
  deeper : Deeper ν

namespace Runner

def orderer (runner : Runner ν) : Orderer := ⟨runner.config.ordering, runner.config.seed⟩

def skipReason (runner : Runner ν) (chain : Chain ν) : Option String :=
  let tags := chain.tags
  match chain.skipReason with
  | some reason => some reason
  | none =>
    if runner.mode ≠ .test && chain.skipsBenchmark then some "skipped in benchmark mode"
    else if !runner.config.tagInclude.isEmpty && !tags.any runner.config.tagInclude.contains then
      some ("no tag matches " ++ tagIncludeKey)
    else
      (tags.find? runner.config.tagExclude.contains).map fun tag =>
        "tag " ++ Text.quote tag ++ " is excluded"

/-- Runs the hooks that run once for a group, unless an earlier leaf has started them. -/
def enter (runner : Runner ν) (group : Group ν) : Flow ν .leaf Unit := do
  if (← Flow.ask fun s => s.world.entered).contains group.index then pure ()
  else
    Flow.changeWorld fun w => { w with entered := group.index :: w.entered }
    group.beforeAll.forM fun hook => Flow.onFlow (hook.exec runner.deeper)

/-- Runs what a hook does before the leaf, and puts on the stack what it does after it. -/
def runHook (runner : Runner ν) : Hook ν → Flow ν .leaf Unit
  | .before body => body.exec runner.deeper
  | .after body => Flow.pushFinaliser (body.exec runner.deeper)
  | .around enter exit => do
    enter.exec runner.deeper
    Flow.pushFinaliser (exit.exec runner.deeper)
  | .eager var => do
    let _ ← Flow.get runner.deeper var

/-- What a leaf has of its own when an invocation starts. -/
def leafStart (runner : Runner ν) (chain : Chain ν) (leaf : Leaf ν) : LeafState ν :=
  let seed := deriveSeed runner.config.seed (chain.leafPath leaf.description)
  ⟨chain.tags, chain.scope, [], .ofBytes seed, 0⟩

/-- One invocation of a leaf: the hooks that run once, the hooks from the outermost group inwards,
the body, and then the finalisers. -/
def runOnce (runner : Runner ν) (chain : Chain ν) (leaf : Leaf ν) : Flow ν .flow Unit :=
  Flow.invoke (runner.leafStart chain leaf) do
    chain.forM runner.enter
    chain.forM fun group => group.hooks.forM runner.runHook
    leaf.body.exec runner.deeper

/-- As many invocations of a leaf as asked for; the first that stops ends them. -/
def repeatOnce (runner : Runner ν) (chain : Chain ν) (leaf : Leaf ν) : Nat → Flow ν .flow Unit
  | 0 => pure ()
  | count + 1 => do
    runner.runOnce chain leaf
    runner.repeatOnce chain leaf count

/-- The invocations of a leaf. Time is not measured, so the mean duration is given as zero. -/
def runInvocations (runner : Runner ν) (chain : Chain ν) (leaf : Leaf ν) : Flow ν .flow Unit :=
  match runner.mode with
  | .test => runner.runOnce chain leaf
  | .benchmark iterations => do
    let count := max 1 iterations
    runner.repeatOnce chain leaf count
    Flow.log (toString count ++ " iterations, 0ns per iteration")

/-- What a leaf's sub-run does. -/
def runLeaf (runner : Runner ν) (chain : Chain ν) (leaf : Leaf ν) : Flow ν .flow Unit :=
  match runner.skipReason chain with
  | some reason => Flow.skip reason
  | none => runner.runInvocations chain leaf

/-- Whether the leaves of a group run after its other members, apart from it. -/
def batches (runner : Runner ν) (chain : Chain ν) : Bool :=
  runner.mode = .test && chain.isParallel

def runApart (runner : Runner ν) (chain : Chain ν) (host : String) :
    List (Leaf ν) → Flow ν .flow (List (String × RunReport))
  | [] => pure []
  | leaf :: rest => do
    let ended ← Flow.isolate (.detached host leaf.description) (runner.runLeaf chain leaf)
    let later ← runner.runApart chain host rest
    pure ((leaf.description, ended.report) :: later)

/-- If the leaves among the members of a group run apart, runs them and then plays their reports
back. -/
def runBatch (runner : Runner ν) (chain : Chain ν) (items : List (Item ν)) :
    Flow ν .flow Unit := do
  if runner.batches chain then
    let host ← Flow.ask fun s => s.recorder.name
    let reports ← runner.runApart chain host (Item.directLeaves items)
    reports.forM fun (name, report) => do
      let _ ← Flow.runChild name report.replay

mutual
/-- Runs a member of the group that ends a chain. -/
def runItem (runner : Runner ν) (chain : Chain ν) : Item ν → Flow ν .flow Unit
  | .leaf leaf =>
    if runner.batches chain then pure ()
    else do
      let _ ← Flow.runChild leaf.description (runner.runLeaf chain leaf)
  | .group group items => do
    let _ ← Flow.runChild group.description do
      runner.runEach (chain ++ [group]) items
      runner.runBatch (chain ++ [group]) items

def runEach (runner : Runner ν) (chain : Chain ν) : List (Item ν) → Flow ν .flow Unit
  | [] => pure ()
  | first :: rest => do
    runner.runItem chain first
    runner.runEach chain rest
end

def runMembers (runner : Runner ν) (chain : Chain ν) (items : List (Item ν)) :
    Flow ν .flow Unit := do
  runner.runEach chain items
  runner.runBatch chain items

/-- Runs the last hooks of the groups that were entered, those of inner groups first. None of them
stops the others. -/
def runAfterAll (runner : Runner ν) (groups : List (Group ν)) : Flow ν .flow Unit := do
  let entered ← Flow.ask fun s => s.world.entered
  (groups.reverse.filter fun group => entered.contains group.index).forM fun group =>
    group.afterAll.forM fun hook => do
      let outcome ← Flow.guard (hook.exec runner.deeper)
      if let some message := outcome.panicMessage? then
        Flow.error ("after_all panicked: " ++ message)

/-- The plan of a spec: every group's members in the order in which they run. -/
def plan (runner : Runner ν) (root : Item ν) : Item ν :=
  root.arrange runner.orderer []

def runPlan (runner : Runner ν) : Item ν → Flow ν .flow Unit
  | .leaf _ => pure ()
  | .group group items => runner.runMembers [group] items

/-- Says how to get a shuffle again if the flow has failed. -/
def reportOrder (runner : Runner ν) : Flow ν .flow Unit := do
  let failed ← Flow.ask fun s => s.recorder.failed
  if failed && runner.config.ordering = .random then
    Flow.log ("leaves ran in random order; reproduce with " ++ seedKey ++ "=" ++
      toString runner.config.seed.toNat)

/-- Runs a spec on a flow. The groups entered are counted for this run alone. -/
def run (runner : Runner ν) (root : Item ν) : Flow ν .flow Unit := do
  let outer ← Flow.ask fun s => s.world.entered
  Flow.changeWorld fun w => { w with entered := [] }
  runner.runPlan (runner.plan root)
  runner.runAfterAll root.groups
  runner.reportOrder
  Flow.changeWorld fun w => { w with entered := outer }

end Runner
end NestedSpec
