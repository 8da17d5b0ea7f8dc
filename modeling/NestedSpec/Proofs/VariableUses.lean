import NestedSpec.Proofs.Bracketing
import NestedSpec.Proofs.Scoping

/-!
# What a leaf does with its variables

An invocation of a leaf is watched: whatever a script does with a variable is written down with the
value that the leaf keeps for the variable at that moment. The watch looks at the same flows that
run, and it follows the scripts where they go: into the initialisers, and later into the finalisers
that they have put on the stack.
-/

namespace NestedSpec

variable {ν α β : Type} {t : Target}

inductive VariableAct where
  | starts
  | completes (value : Value)
  | breaksOff
  | reads (value : Value)
  | misses
  | sets (value : Value)

def Target.cache : (t : Target) → t.Own ν → List (Nat × Value)
  | .flow, _ => []
  | .leaf, own => (own : LeafState ν).cache

def State.kept (s : State ν t) (id : Nat) : Option Value := (t.cache s.own).lookup id

structure VariableUse where
  id : Nat
  act : VariableAct
  kept : Option Value

def State.use (s : State ν t) (id : Nat) (act : VariableAct) : VariableUse := ⟨id, act, s.kept id⟩

structure Deferred (ν : Type) where
  level : Nat
  script : Script ν .leaf

def Deferred.flow (deferred : Deferred ν) : Flow ν .leaf Unit :=
  deferred.script.exec (Deeper.within deferred.level)

structure Watched (ν : Type) where
  uses : List VariableUse
  deferred : List (Deferred ν)

abbrev Watch (ν : Type) (t : Target) := State ν t → Watched ν

namespace Watch

def idle : Watch ν t := fun _ => ⟨[], []⟩

def bind (first : Flow ν t α) (during : Watch ν t) (next : α → Watch ν t) : Watch ν t := fun s =>
  match (first.run s).result with
  | .error _ => during s
  | .ok value =>
    let later := next value (first.run s).state
    ⟨(during s).uses ++ later.uses, later.deferred ++ (during s).deferred⟩

def inTurn : List (Flow ν t Unit × Watch ν t) → Watch ν t
  | [] => idle
  | part :: rest => bind part.1 part.2 fun _ => inTurn rest

def store (id : Nat) (value : Value) : Watch ν .leaf := fun s =>
  ⟨[((Flow.store id value).run s).state.use id (.sets value)], []⟩

def defer (level : Nat) (script : Script ν .leaf) : Watch ν .leaf := fun _ =>
  ⟨[], [⟨level, script⟩]⟩

def initialised (id : Nat) (ended : Step ν .leaf Value) : List VariableUse :=
  match ended.result with
  | .error _ => [ended.state.use id .breaksOff]
  | .ok value =>
    let later := ((Flow.store id value).run ended.state).state
    [later.use id (.completes value), later.use id (.reads value)]

def read (level : Nat) (inside : Initialiser ν → Watch ν .leaf) (v : Variable ν) :
    Watch ν .leaf := fun s =>
  match s.kept v.id with
  | some value => ⟨[s.use v.id (.reads value)], []⟩
  | none =>
    match ((bindingIn (s.own : LeafState ν).scope v.id).map Binding.init).or v.init with
    | none => ⟨[s.use v.id .misses], []⟩
    | some init =>
      let during := inside init s
      ⟨s.use v.id .starts :: during.uses ++
          initialised v.id (((Deeper.within level).initialise init).run s),
        during.deferred⟩

end Watch

def Expression.watch (level : Nat) (inside : Initialiser ν → Watch ν .leaf) :
    Expression → Watch ν .leaf
  | constant _ => .idle
  | read name next =>
    .bind (Flow.lookupVariable name) .idle fun v =>
      .bind (Flow.get (Deeper.within level) v) (.read level inside v) fun value =>
        (next value).watch level inside

/-- Watches a script whose calls may go so many levels deeper. Sub-runs, cleanups and specs inside
it have no leaf, or one of their own. -/
def Script.watch (level : Nat) (inside : Initialiser ν → Watch ν .leaf) :
    {t : Target} → Script ν t → Watch ν t
  | _, .done => .idle
  | _, .stop _ => .idle
  | _, .failNow => .idle
  | _, .skipNow => .idle
  | _, .note entry next => .bind (Flow.note entry) .idle fun _ => next.watch level inside
  | _, .log message next => .bind (Flow.log message) .idle fun _ => next.watch level inside
  | _, .fail next =>
    .bind (Flow.changeRecorder Recorder.fail) .idle fun _ => next.watch level inside
  | _, .name next =>
    .bind (Flow.ask fun s => s.recorder.name) .idle fun title => (next title).watch level inside
  | _, .failed next =>
    .bind (Flow.ask fun s => s.recorder.failed) .idle fun mark => (next mark).watch level inside
  | _, .skipped next =>
    .bind (Flow.ask fun s => s.recorder.skipped) .idle fun mark => (next mark).watch level inside
  | _, .cleanup body next =>
    .bind (Flow.pushCleanup (body.exec (Deeper.within level))) .idle fun _ =>
      next.watch level inside
  | _, .tempDir next =>
    .bind Flow.tempDir .idle fun number => (next (some number)).watch level inside
  | _, .directories next =>
    .bind (Flow.ask fun s => s.world.directories) .idle fun existing =>
      (next existing).watch level inside
  | _, .run title body next =>
    .bind (Flow.runChild title (body.exec (Deeper.within level))) .idle fun passed =>
      (next passed).watch level inside
  | _, .guard body next =>
    .bind (Flow.guard (body.exec (Deeper.within level))) (body.watch level inside) fun outcome =>
      (next outcome).watch level inside
  | _, .environment key next =>
    .bind (Flow.ask fun s => s.world.environment.lookup key) .idle fun value =>
      (next value).watch level inside
  | _, .setEnvironment key value next =>
    .bind (Flow.setEnvironment key value) .idle fun _ => next.watch level inside
  | _, .spec config body next =>
    .bind (Flow.onFlow ((Deeper.within level).spec config body)) .idle fun _ =>
      next.watch level inside
  | _, .defer body next =>
    .bind (Flow.pushFinaliser (body.exec (Deeper.within level))) (.defer level body) fun _ =>
      next.watch level inside
  | _, .tags next =>
    .bind (Flow.ask fun s => (s.own : LeafState ν).tags) .idle fun names =>
      (next names).watch level inside
  | _, .counts next =>
    .bind (Flow.ask fun s =>
        ((s.own : LeafState ν).cache.length, (s.own : LeafState ν).deferred)) .idle fun counted =>
      (next counted.1 counted.2).watch level inside
  | _, .random next =>
    .bind (Flow.ask fun s => (s.own : LeafState ν).random) .idle fun source =>
      (next source).watch level inside
  | _, .setRandom source next =>
    .bind (Flow.changeLeaf fun leaf => { leaf with random := source }) .idle fun _ =>
      next.watch level inside
  | _, .get key next =>
    .bind (Flow.lookupVariable key) .idle fun v =>
      .bind (Flow.get (Deeper.within level) v) (.read level inside v) fun value =>
        (next value).watch level inside
  | _, .getOrDefault key next =>
    .bind (Flow.lookupVariable key) .idle fun v =>
      .bind (Flow.getOrDefault (Deeper.within level) v) (.read level inside v) fun value =>
        (next value).watch level inside
  | _, .set key value next =>
    .bind (Flow.lookupVariable key) .idle fun v =>
      .bind (Flow.store v.id value) (.store v.id value) fun _ => next.watch level inside

def Initialiser.watch : Nat → Initialiser ν → Watch ν .leaf
  | 0, _ => .idle
  | level + 1, .mk steps value =>
    .bind (steps.exec (Deeper.within level)) (steps.watch level (Initialiser.watch level)) fun _ =>
      value.watch level (Initialiser.watch level)

def Deferred.watch (deferred : Deferred ν) : Watch ν .leaf :=
  deferred.script.watch deferred.level (Initialiser.watch deferred.level)

def Hook.watch (level : Nat) : Hook ν → Watch ν .leaf
  | .before body => body.watch level (Initialiser.watch level)
  | .after body => .defer level body
  | .around enter exit =>
    .bind (enter.exec (Deeper.within level)) (enter.watch level (Initialiser.watch level)) fun _ =>
      .defer level exit
  | .eager v =>
    .bind (Flow.get (Deeper.within level) v) (.read level (Initialiser.watch level) v) fun _ => .idle

namespace Runner

/-- The parts of an invocation with what is watched of them. The hooks that run once do not run on
the leaf. -/
def watchedParts (runner : Runner ν) (level : Nat) (chain : Chain ν) (leaf : Leaf ν) :
    List (Flow ν .leaf Unit × Watch ν .leaf) :=
  chain.map (fun group => (runner.enter group, .idle)) ++
    ((chain.flatMap (·.hooks)).map (fun hook => (runner.runHook hook, hook.watch level)) ++
      [(leaf.body.exec runner.deeper, leaf.body.watch level (Initialiser.watch level))])

theorem watchedParts_flows (runner : Runner ν) (level : Nat) (chain : Chain ν) (leaf : Leaf ν) :
    (runner.watchedParts level chain leaf).map (·.1) = runner.parts chain leaf := by
  simp [watchedParts, parts, Function.comp_def]

end Runner

inductive FinalisersUse : List (Deferred ν) → State ν .leaf → List VariableUse → State ν .leaf → Prop
  | nil (s : State ν .leaf) : FinalisersUse [] s [] s
  | run {newest : Deferred ν} {older : List (Deferred ν)} {s final : State ν .leaf}
      {later : List VariableUse}
      (rest : FinalisersUse ((newest.watch s.popped).deferred ++ older)
        (newest.flow.reported s.popped) later final) :
      FinalisersUse (newest :: older) s ((newest.watch s.popped).uses ++ later) final

namespace Runner

def Uses (runner : Runner ν) (level : Nat) (chain : Chain ν) (leaf : Leaf ν) (s : State ν .flow)
    (uses : List VariableUse) (final : State ν .leaf) : Prop :=
  let start : State ν .leaf := ⟨s.world, s.recorder, runner.leafStart chain leaf⟩
  let watched := Watch.inTurn (runner.watchedParts level chain leaf) start
  ∃ later, uses = watched.uses ++ later ∧
    FinalisersUse watched.deferred (runner.ranParts chain leaf s).state later final

end Runner
end NestedSpec
