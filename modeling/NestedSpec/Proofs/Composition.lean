import NestedSpec.Session

/-!
# What flows are composed of

Every flow that user code or a run of a spec makes is composed of few things: it looks at what it is
told, it marks and logs, it changes what its leaf has of its own, it starts sub-runs, and it puts
computations on the stacks. What is to hold of all flows is proved by induction on how they are
composed.
-/

namespace NestedSpec

variable {ν α β : Type} {t : Target}

/-- What holds of the flow that does nothing, and of two flows in turn if it holds of both, holds of
flows one after another. -/
theorem Flow.forM_holds {P : Flow ν t Unit → Prop} (none : P (pure ()))
    (andThen : ∀ {first next : Flow ν t Unit}, P first → P next → P (first >>= fun _ => next))
    {items : List β} {part : β → Flow ν t Unit} (each : ∀ item ∈ items, P (part item)) :
    P (items.forM part) := by
  induction items with
  | nil => exact none
  | cons item rest ih =>
    have later := ih fun other member => each other (List.mem_cons_of_mem _ member)
    exact andThen (each item (List.mem_cons_self ..)) later

/-- What a flow is told about the world: variables looked up by name, the number of the next one and
the groups that have been entered. What is outside, the environment and the directories, is never
part of it, and neither is the journal. -/
structure View where
  names : String → Prop
  counts : Bool
  entered : Bool

def View.all (entered : Bool) : View := ⟨fun _ => True, true, entered⟩

structure World.Known (view : View) (w w' : World ν) : Prop where
  named : ∀ name, view.names name → w.named.lookup name = w'.named.lookup name
  nextVariable : view.counts = true → w.nextVariable = w'.nextVariable
  entered : view.entered = true → w.entered = w'.entered

def World.enter (index : Nat) (w : World ν) : World ν :=
  if w.entered.contains index then w else { w with entered := index :: w.entered }

theorem World.journal_enter (index : Nat) (w : World ν) : (w.enter index).journal = w.journal := by
  unfold enter
  split <;> rfl

theorem World.named_enter (index : Nat) (w : World ν) : (w.enter index).named = w.named := by
  unfold enter
  split <;> rfl

theorem World.nextVariable_enter (index : Nat) (w : World ν) :
    (w.enter index).nextVariable = w.nextVariable := by
  unfold enter
  split <;> rfl

theorem World.Known.enter {view : View} {w w' : World ν} (known : w.Known view w') (index : Nat) :
    (w.enter index).Known view (w'.enter index) := by
  refine ⟨fun name seen => ?_, fun seen => ?_, fun seen => ?_⟩
  · rw [named_enter, named_enter, known.named name seen]
  · rw [nextVariable_enter, nextVariable_enter, known.nextVariable seen]
  · unfold World.enter
    rw [known.entered seen]
    split
    · exact known.entered seen
    · rfl

structure State.Beside (view : View) (s s' : State ν t) : Prop where
  world : s.world.Known view s'.world
  own : s.own = s'.own
  name : s.recorder.name = s'.recorder.name
  failed : s.recorder.failed = s'.recorder.failed
  skipped : s.recorder.skipped = s'.recorder.skipped

inductive Call (ν : Type) where
  | note (entry : ν)
  | log (message : String)
  | fail
  | skip

def Call.flow : Call ν → Flow ν t Unit
  | note entry => Flow.note entry
  | log message => Flow.log message
  | fail => Flow.changeRecorder Recorder.fail
  | skip => Flow.changeRecorder Recorder.skip

namespace Flow

def makeDirectory : Flow ν t Unit := do
  let _ ← tempDir

def countingAnew (body : Flow ν .flow Unit) : Flow ν .flow Unit := do
  let outer ← ask fun s => s.world.entered
  changeWorld fun w => { w with entered := [] }
  body
  changeWorld fun w => { w with entered := outer }

end Flow

/-- How a flow is composed, where `deeper` are the entries to the interpreter one call further
down. What is put on the stacks runs later, and it may not look at the groups entered. -/
inductive Composed (deeper : Deeper ν) :
    Bool → {t : Target} → {α : Type} → Flow ν t α → Prop
  | pure {sees : Bool} {t : Target} {α : Type} (value : α) :
      Composed deeper sees (pure value : Flow ν t α)
  | raise {sees : Bool} {t : Target} {α : Type} (stop : Stop) :
      Composed deeper sees (Flow.raise stop : Flow ν t α)
  | ask {sees : Bool} {t : Target} {α : Type} {read : State ν t → α}
      (reads : ∀ s s', s.Beside (.all sees) s' → read s = read s') :
      Composed deeper sees (Flow.ask read)
  | look {sees : Bool} {t : Target} {α : Type} (read : World ν → α) :
      Composed deeper sees (Flow.ask fun s => read s.world : Flow ν t α)
  | adjust {sees : Bool} {t : Target} {update : World ν → World ν}
      (silent : ∀ w, (update w).journal = w.journal)
      (steady : ∀ w w', World.Known (.all sees) w w' →
        World.Known (.all sees) (update w) (update w')) :
      Composed deeper sees (Flow.changeWorld update : Flow ν t Unit)
  | call {sees : Bool} {t : Target} (call : Call ν) :
      Composed deeper sees (call.flow : Flow ν t Unit)
  | changeLeaf {sees : Bool} {update : LeafState ν → LeafState ν}
      (keeps : ∀ own, (update own).scope = own.scope) :
      Composed deeper sees (Flow.changeLeaf update)
  | bind {sees : Bool} {t : Target} {α β : Type} {first : Flow ν t α} {next : α → Flow ν t β}
      (composed : Composed deeper sees first) (later : ∀ value, Composed deeper sees (next value)) :
      Composed deeper sees (first >>= next)
  | guard {sees : Bool} {t : Target} {body : Flow ν t Unit} (inside : Composed deeper sees body) :
      Composed deeper sees (Flow.guard body)
  | pushCleanup {sees : Bool} {t : Target} {body : Flow ν .flow Unit}
      (inside : ∀ view, Composed deeper view body) :
      Composed deeper sees (Flow.pushCleanup body : Flow ν t Unit)
  | pushFinaliser {sees : Bool} {body : Flow ν .leaf Unit}
      (inside : ∀ view, Composed deeper view body) : Composed deeper sees (Flow.pushFinaliser body)
  | makeDirectory {sees : Bool} {t : Target} :
      Composed deeper sees (Flow.makeDirectory : Flow ν t Unit)
  | isolate {sees : Bool} {t : Target} {body : Flow ν .flow Unit} (recorder : Recorder)
      (inside : Composed deeper sees body) :
      Composed deeper sees (Flow.isolate recorder body : Flow ν t Recorder)
  | runChild {sees : Bool} {t : Target} {body : Flow ν .flow Unit} (name : String)
      (inside : Composed deeper sees body) :
      Composed deeper sees (Flow.runChild name body : Flow ν t Bool)
  | onFlow {sees : Bool} {t : Target} {α : Type} {body : Flow ν .flow α}
      (inside : Composed deeper sees body) : Composed deeper sees (Flow.onFlow body : Flow ν t α)
  | invoke {sees : Bool} {body : Flow ν .leaf Unit} (start : LeafState ν)
      (inside : Composed deeper sees body) : Composed deeper sees (Flow.invoke start body)
  | countingAnew {sees : Bool} {body : Flow ν .flow Unit} (inside : Composed deeper true body) :
      Composed deeper sees (Flow.countingAnew body)
  | initialise {sees : Bool} (init : Initialiser ν) :
      Composed deeper sees (deeper.initialise init)
  | onLet {sees : Bool} (here : Surroundings ν) (body : Registration ν) (b : Building ν) :
      Composed deeper sees ((deeper.onLet here body).run b)
  | spec {sees : Bool} (config : Config) (body : Registration ν) :
      Composed deeper sees (deeper.spec config body)

namespace Composed

variable {deeper : Deeper ν} {sees : Bool}

theorem adjustDirectories (update : List Bool → List Bool) : Composed deeper sees
    (Flow.changeWorld fun w => { w with directories := update w.directories } : Flow ν t Unit) :=
  .adjust (fun _ => rfl) fun _ _ known => ⟨known.named, known.nextVariable, known.entered⟩

theorem log (message : String) : Composed deeper sees (Flow.log message : Flow ν t Unit) :=
  .call (.log message)

theorem fail : Composed deeper sees (Flow.changeRecorder Recorder.fail : Flow ν t Unit) :=
  .call .fail

theorem error (message : String) : Composed deeper sees (Flow.error message : Flow ν t Unit) :=
  (Composed.log message).bind fun _ => .fail

theorem failNow : Composed deeper sees (Flow.failNow : Flow ν t α) :=
  Composed.fail.bind fun _ => .raise _

theorem fatal (message : String) : Composed deeper sees (Flow.fatal message : Flow ν t α) :=
  (Composed.log message).bind fun _ => failNow

theorem skipNow : Composed deeper sees (Flow.skipNow : Flow ν t α) :=
  (Composed.call .skip).bind fun _ => .raise _

theorem skip (message : String) : Composed deeper sees (Flow.skip message : Flow ν t α) :=
  (Composed.log message).bind fun _ => skipNow

theorem forM (items : List β) {part : β → Flow ν t Unit}
    (each : ∀ item ∈ items, Composed deeper sees (part item)) :
    Composed deeper sees (items.forM part) :=
  Flow.forM_holds (.pure ()) (fun first later => first.bind fun _ => later) each

/-! ## Scripts -/

theorem lookupVariable (name : String) :
    Composed deeper sees (Flow.lookupVariable name : Flow ν t (Variable ν)) := by
  refine (Composed.ask fun _ _ same => same.world.named name trivial).bind fun found => ?_
  cases found with
  | none => exact .raise _
  | some v => exact .pure v

theorem tempDir : Composed deeper sees (Flow.tempDir : Flow ν t Nat) :=
  (Composed.look fun w => w.directories.length).bind fun number =>
    (adjustDirectories (· ++ [true])).bind fun _ =>
      (Composed.pushCleanup fun _ => adjustDirectories (·.set number false)).bind fun _ =>
        .pure number

theorem countVariables (next : Nat) : Composed deeper sees
    (Flow.changeWorld fun w => { w with nextVariable := next } : Flow ν t Unit) :=
  .adjust (fun _ => rfl) fun _ _ known => ⟨known.named, fun _ => rfl, known.entered⟩

theorem setEnvironment (key : String) (value : Option String) :
    Composed deeper sees (Flow.setEnvironment key value : Flow ν t Unit) :=
  .adjust (fun _ => rfl) fun _ _ known => ⟨known.named, known.nextVariable, known.entered⟩

theorem store (id : Nat) (value : Value) :
    Composed deeper sees (Flow.store id value : Flow ν .leaf Unit) :=
  .changeLeaf fun _ => rfl

theorem setRandom (source : Random) : Composed deeper sees
    (Flow.changeLeaf fun leaf => { leaf with random := source } : Flow ν .leaf Unit) :=
  .changeLeaf fun _ => rfl

theorem readVariable (v : Variable ν) {missing : Flow ν .leaf Value}
    (otherwise : Composed deeper sees missing) :
    Composed deeper sees (Flow.readVariable deeper v missing) := by
  refine (Composed.ask fun _ _ same => by rw [same.own]).bind fun cached => ?_
  cases cached with
  | some value => exact .pure value
  | none =>
    refine Composed.bind (.ask fun _ _ same => by rw [same.own]) fun init => ?_
    cases init with
    | none => exact otherwise
    | some init =>
      exact (Composed.initialise init).bind fun value => (store ..).bind fun _ => .pure value

theorem get (v : Variable ν) : Composed deeper sees (Flow.get deeper v) :=
  readVariable v (fatal _)

theorem getOrDefault (v : Variable ν) : Composed deeper sees (Flow.getOrDefault deeper v) :=
  readVariable v ((error _).bind fun _ => .pure _)

theorem evaluate (expression : Expression) :
    Composed deeper sees (expression.evaluate deeper : Flow ν .leaf Value) := by
  induction expression with
  | constant value => exact .pure value
  | read name next ih => exact (lookupVariable name).bind fun v => (get v).bind ih

/-- Whoever makes a directory and goes on in the same way for every number is not told which. -/
theorem tempDir_bind {next : Nat → Flow ν t α} {rest : Flow ν t α}
    (same : ∀ number, next number = rest) :
    Flow.tempDir >>= next = Flow.makeDirectory >>= fun _ => rest := by
  obtain rfl : next = fun _ => rest := funext same
  simp [Flow.makeDirectory]

theorem exec : {t : Target} → {sees : Bool} → (script : Script ν t) →
    Composed deeper sees (script.exec deeper)
  | _, _, .done => .pure ()
  | _, _, .stop reason => .raise reason
  | _, _, .note entry next => (Composed.call (.note entry)).bind fun _ => exec next
  | _, _, .log message next => (log message).bind fun _ => exec next
  | _, _, .fail next => fail.bind fun _ => exec next
  | _, _, .failNow => failNow
  | _, _, .skipNow => skipNow
  | _, _, .name next => (Composed.ask fun _ _ same => same.name).bind fun title => exec (next title)
  | _, _, .failed next =>
    (Composed.ask fun _ _ same => same.failed).bind fun mark => exec (next mark)
  | _, _, .skipped next =>
    (Composed.ask fun _ _ same => same.skipped).bind fun mark => exec (next mark)
  | _, _, .cleanup body next =>
    (Composed.pushCleanup fun _ => exec body).bind fun _ => exec next
  -- A script that goes on alike for all directories does not look at which one it was given.
  | _, _, .tempDir next => by
    by_cases same : ∀ number, next (some number) = next (some 0)
    · unfold Script.exec
      rw [tempDir_bind fun number => congrArg (Script.exec deeper) (same number)]
      exact Composed.makeDirectory.bind fun _ => exec (next (some 0))
    · exact tempDir.bind fun number => exec (next (some number))
  | _, _, .directories next =>
    (Composed.look fun w => w.directories).bind fun existing => exec (next existing)
  | _, _, .run title body next =>
    (Composed.runChild title (exec body)).bind fun passed => exec (next passed)
  | _, _, .guard body next =>
    (Composed.guard (exec body)).bind fun outcome => exec (next outcome)
  | _, _, .environment key next =>
    (Composed.look fun w => w.environment.lookup key).bind fun value => exec (next value)
  | _, _, .setEnvironment key value next => (setEnvironment key value).bind fun _ => exec next
  | _, _, .spec config body next =>
    (Composed.onFlow (.spec config body)).bind fun _ => exec next
  | _, _, .defer body next =>
    (Composed.pushFinaliser fun _ => exec body).bind fun _ => exec next
  | _, _, .tags next =>
    (Composed.ask fun _ _ same => by rw [same.own]).bind fun names => exec (next names)
  | _, _, .counts next =>
    (Composed.ask fun _ _ same => by rw [same.own]).bind fun counted =>
      exec (next counted.1 counted.2)
  | _, _, .random next =>
    (Composed.ask fun _ _ same => by rw [same.own]).bind fun source => exec (next source)
  | _, _, .setRandom source next => (setRandom source).bind fun _ => exec next
  | _, _, .get key next =>
    (lookupVariable key).bind fun v => (get v).bind fun value => exec (next value)
  | _, _, .getOrDefault key next =>
    (lookupVariable key).bind fun v => (getOrDefault v).bind fun value => exec (next value)
  | _, _, .set key value next =>
    (lookupVariable key).bind fun v => (store v.id value).bind fun _ => exec next

theorem initialiser : (init : Initialiser ν) → Composed deeper sees (init.evaluate deeper)
  | .mk steps value => (exec steps).bind fun _ => evaluate value

/-! ## Runs -/

theorem replayMarks (failed skipped : Bool) :
    Composed deeper sees (RunReport.replayMarks failed skipped : Flow ν .flow Unit) := by
  have mark : Composed deeper sees
      (Flow.changeRecorder fun r => if failed then r.fail else r : Flow ν .flow Unit) := by
    cases failed with
    | true => exact fail
    | false => exact .pure ()
  refine mark.bind fun _ => ?_
  cases skipped with
  | true => exact skipNow
  | false => exact .pure ()

theorem replayScope (report : RunReport) (levels : Nat) (scope : List String) :
    Composed deeper sees (report.replayScope levels scope : Flow ν .flow Unit) := by
  induction levels generalizing scope with
  | zero => exact (forM _ fun line _ => log line.message).bind fun _ => .pure ()
  | succ levels ih =>
    refine (forM _ fun line _ => log line.message).bind fun _ => ?_
    refine forM _ fun c _ => ?_
    split
    · exact .pure ()
    · have body := (ih c.path).bind fun _ => replayMarks c.failed c.skipped
      exact (body.runChild _).bind fun _ => .pure ()

theorem replay (report : RunReport) :
    Composed deeper sees (report.replay : Flow ν .flow Unit) :=
  (replayScope report _ _).bind fun _ => replayMarks _ _

end Composed

namespace Composed

variable {runner : Runner ν} {sees : Bool}

/-- A group without hooks that run once is entered without a look at the groups entered. -/
theorem enter_eq {group : Group ν} (none : group.beforeAll = []) :
    runner.enter group = Flow.changeWorld (World.enter group.index) := by
  ext1
  funext s
  have asked : (Flow.ask fun s => s.world.entered : Flow ν .leaf _).run s =
      ⟨.ok s.world.entered, s, [], []⟩ := rfl
  unfold Runner.enter
  rw [Flow.run_bind_ok _ asked, none]
  by_cases before : s.world.entered.contains group.index
  · simp only [before, if_true, Flow.changeWorld, Flow.change, World.enter]
    rfl
  · simp only [before, Flow.changeWorld, Flow.change, World.enter]
    rfl

theorem enter (group : Group ν) : Composed runner.deeper true (runner.enter group) := by
  refine (Composed.ask fun _ _ same => same.world.entered rfl).bind fun entered => ?_
  split
  · exact .pure ()
  · refine Composed.bind (.adjust (fun _ => rfl) fun _ _ known => ?_) fun _ =>
      forM _ fun hook _ => .onFlow (exec hook)
    exact ⟨known.named, known.nextVariable, fun view => by rw [known.entered view]⟩

theorem runHook : (hook : Hook ν) → Composed runner.deeper sees (runner.runHook hook)
  | .before body => exec body
  | .after body => .pushFinaliser fun _ => exec body
  | .around enter exit => (exec enter).bind fun _ => .pushFinaliser fun _ => exec exit
  | .eager v => (get v).bind fun _ => .pure ()

theorem runHooks (chain : Chain ν) : Composed runner.deeper sees
    (chain.forM fun group => group.hooks.forM runner.runHook) :=
  forM _ fun _ _ => forM _ fun hook _ => runHook hook

theorem runOnce (chain : Chain ν) (leaf : Leaf ν) :
    Composed runner.deeper true (runner.runOnce chain leaf) :=
  .invoke _ <| (forM _ fun group _ => enter group).bind fun _ => (runHooks chain).bind fun _ =>
    exec leaf.body

theorem repeatOnce (chain : Chain ν) (leaf : Leaf ν) (count : Nat) :
    Composed runner.deeper true (runner.repeatOnce chain leaf count) := by
  induction count with
  | zero => exact .pure ()
  | succ count ih => exact (runOnce chain leaf).bind fun _ => ih

theorem runLeaf (chain : Chain ν) (leaf : Leaf ν) :
    Composed runner.deeper true (runner.runLeaf chain leaf) := by
  unfold Runner.runLeaf Runner.runInvocations
  cases runner.skipReason chain with
  | some reason => exact skip reason
  | none =>
    cases runner.mode with
    | test => exact runOnce chain leaf
    | benchmark iterations => exact (repeatOnce chain leaf _).bind fun _ => log _

theorem runApart (chain : Chain ν) (host : String) (leaves : List (Leaf ν)) :
    Composed runner.deeper true (runner.runApart chain host leaves) := by
  induction leaves with
  | nil => exact .pure _
  | cons leaf rest ih =>
    exact (Composed.isolate _ (runLeaf chain leaf)).bind fun _ => ih.bind fun _ => .pure _

theorem runBatch (chain : Chain ν) (items : List (Item ν)) :
    Composed runner.deeper true (runner.runBatch chain items) := by
  unfold Runner.runBatch
  split
  · refine (Composed.ask fun _ _ same => same.name).bind fun host => ?_
    refine (runApart chain host _).bind fun reports => ?_
    exact forM _ fun entry _ => ((replay entry.2).runChild entry.1).bind fun _ => .pure ()
  · exact .pure ()

mutual
theorem runItem (chain : Chain ν) : (item : Item ν) →
    Composed runner.deeper true (runner.runItem chain item)
  | .leaf leaf => by
    unfold Runner.runItem
    split
    · exact .pure ()
    · exact ((runLeaf chain leaf).runChild _).bind fun _ => .pure ()
  | .group group items => by
    have members := (runEach (chain ++ [group]) items).bind fun _ =>
      runBatch (chain ++ [group]) items
    unfold Runner.runItem
    exact (members.runChild _).bind fun _ => .pure ()

theorem runEach (chain : Chain ν) : (items : List (Item ν)) →
    Composed runner.deeper true (runner.runEach chain items)
  | [] => .pure ()
  | first :: rest => by
    unfold Runner.runEach
    exact (runItem chain first).bind fun _ => runEach chain rest
end

theorem runMembers (chain : Chain ν) (items : List (Item ν)) :
    Composed runner.deeper true (runner.runMembers chain items) :=
  (runEach chain items).bind fun _ => runBatch chain items

theorem runAfterAll (groups : List (Group ν)) :
    Composed runner.deeper true (runner.runAfterAll groups) := by
  refine (Composed.ask fun _ _ same => same.world.entered rfl).bind fun entered => ?_
  refine forM _ fun group _ => forM _ fun hook _ => ?_
  refine (Composed.guard (exec hook)).bind fun outcome => ?_
  cases outcome.panicMessage? with
  | none => exact .pure ()
  | some message => exact error _

theorem runPlan : (plan : Item ν) → Composed runner.deeper true (runner.runPlan plan)
  | .leaf _ => .pure ()
  | .group group items => runMembers [group] items

theorem reportOrder : Composed runner.deeper sees runner.reportOrder := by
  refine (Composed.ask fun _ _ same => same.failed).bind fun failed => ?_
  split
  · exact log _
  · exact .pure ()

theorem run (root : Item ν) : Composed runner.deeper sees (runner.run root) := by
  have inside : Composed runner.deeper true (do
      runner.runPlan (runner.plan root)
      runner.runAfterAll root.groups
      runner.reportOrder) :=
    (runPlan _).bind fun _ => (runAfterAll _).bind fun _ => reportOrder
  have anew : Composed runner.deeper sees (Flow.countingAnew _) := .countingAnew inside
  unfold Runner.run
  simpa only [Flow.countingAnew, bind_assoc] using anew

end Composed

end NestedSpec
