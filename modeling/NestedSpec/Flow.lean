import NestedSpec.SpecTree
import NestedSpec.Waiting

/-!
# Flows

A flow computes on the state of the world, on the recorder it reports to and, on a leaf, on the
state of the leaf. It hands back a result or stops, and it hands back what it put on the two stacks:
the finalisers of the leaf and the cleanups of the recorder, the newest first. Neither stack is part
of the state. A flow that is run to its end absorbs how it ended and then runs its cleanups.
-/

namespace NestedSpec

variable {ν α β : Type} {t : Target}

/-- What all flows of a run share. -/
structure World (ν : Type) where
  journal : Array ν := #[]
  environment : List (String × String) := []
  /-- The directories made so far; true means that the directory still exists. -/
  directories : List Bool := []
  named : List (String × Variable ν) := []
  nextVariable : Nat := 0
  /-- The groups of the running spec whose hooks that run once have been started. -/
  entered : List Nat := []

/-- What one invocation of a leaf has of its own. -/
structure LeafState (ν : Type) where
  tags : List String
  scope : List (Binding ν)
  cache : List (Nat × Value)
  random : Random
  /-- The number of finalisers that wait. -/
  deferred : Nat

def LeafState.pushed (leaf : LeafState ν) : LeafState ν := { leaf with deferred := leaf.deferred + 1 }

def LeafState.popped (leaf : LeafState ν) : LeafState ν := { leaf with deferred := leaf.deferred - 1 }

/-- What a target has beside the world and the recorder. -/
def Target.Own (ν : Type) : Target → Type
  | .flow => Unit
  | .leaf => LeafState ν

structure State (ν : Type) (t : Target) where
  world : World ν
  recorder : Recorder
  own : t.Own ν

/-- What waits on the stack of cleanups. -/
abbrev Cleanup (ν : Type) := Waiting (State ν .flow)

/-- What waits on the stack of finalisers. A finaliser may register cleanups, which go on top of
those that wait already. -/
abbrev Finaliser (ν : Type) := Waiting (State ν .leaf × List (Cleanup ν))

/-- What a flow hands back. -/
structure Step (ν : Type) (t : Target) (α : Type) where
  result : Except Stop α
  state : State ν t
  finalisers : List (Finaliser ν)
  /-- The cleanups put on the stack, newest first. -/
  cleanups : List (Cleanup ν)

@[ext]
structure Flow (ν : Type) (t : Target) (α : Type) where
  run : State ν t → Step ν t α

namespace Flow

def ret (value : α) : Flow ν t α := ⟨fun s => ⟨.ok value, s, [], []⟩⟩

/-- Goes on with the value of the first computation, unless it stopped. -/
def andThen (first : Flow ν t α) (next : α → Flow ν t β) : Flow ν t β := ⟨fun s =>
  let step := first.run s
  match step.result with
  | .error stop => ⟨.error stop, step.state, step.finalisers, step.cleanups⟩
  | .ok value =>
    let later := (next value).run step.state
    ⟨later.result, later.state, later.finalisers ++ step.finalisers,
      later.cleanups ++ step.cleanups⟩⟩

instance : Monad (Flow ν t) where
  pure := ret
  bind := andThen

@[simp] theorem run_pure (value : α) (s : State ν t) :
    (pure value : Flow ν t α).run s = ⟨.ok value, s, [], []⟩ := rfl

/-- A computation that completed hands its value on, and what it put on the stacks lies below. -/
theorem run_bind_ok {first : Flow ν t α} {value : α} {s s' : State ν t}
    {finalisers : List (Finaliser ν)} {cleanups : List (Cleanup ν)} (next : α → Flow ν t β)
    (completed : first.run s = ⟨.ok value, s', finalisers, cleanups⟩) :
    (first >>= next).run s =
      ⟨((next value).run s').result, ((next value).run s').state,
        ((next value).run s').finalisers ++ finalisers,
        ((next value).run s').cleanups ++ cleanups⟩ := by
  simp only [bind, andThen, completed]

theorem run_bind_error {first : Flow ν t α} {stop : Stop} {s s' : State ν t}
    {finalisers : List (Finaliser ν)} {cleanups : List (Cleanup ν)} (next : α → Flow ν t β)
    (stopped : first.run s = ⟨.error stop, s', finalisers, cleanups⟩) :
    (first >>= next).run s = ⟨.error stop, s', finalisers, cleanups⟩ := by
  simp only [bind, andThen, stopped]

theorem run_bind_of_ok {first : Flow ν t α} {value : α} {s : State ν t} (next : α → Flow ν t β)
    (completed : (first.run s).result = .ok value) :
    (first >>= next).run s =
      ⟨((next value).run (first.run s).state).result, ((next value).run (first.run s).state).state,
        ((next value).run (first.run s).state).finalisers ++ (first.run s).finalisers,
        ((next value).run (first.run s).state).cleanups ++ (first.run s).cleanups⟩ :=
  run_bind_ok next (by rw [← completed])

theorem run_bind_of_error {first : Flow ν t α} {stop : Stop} {s : State ν t}
    (next : α → Flow ν t β) (stopped : (first.run s).result = .error stop) :
    (first >>= next).run s =
      ⟨.error stop, (first.run s).state, (first.run s).finalisers, (first.run s).cleanups⟩ :=
  run_bind_error next (by rw [← stopped])

theorem bind_ret (first : Flow ν t α) : first >>= pure = first := by
  ext1
  funext s
  rcases ended : first.run s with ⟨stop | value, s', finalisers, cleanups⟩
  · exact run_bind_error _ ended
  · simpa using run_bind_ok pure ended

theorem ret_bind (value : α) (next : α → Flow ν t β) : pure value >>= next = next value := by
  ext1
  funext s
  simpa using run_bind_ok next (run_pure value s)

theorem bind_andThen {γ : Type} (first : Flow ν t α) (second : α → Flow ν t β)
    (third : β → Flow ν t γ) :
    first >>= second >>= third = first >>= fun value => second value >>= third := by
  ext1
  funext s
  rcases ended : first.run s with ⟨stop | value, s', finalisers, cleanups⟩
  · rw [run_bind_error _ (run_bind_error _ ended), run_bind_error _ ended]
  · have both := run_bind_ok second ended
    rw [run_bind_ok _ ended]
    rcases later : (second value).run s' with ⟨stop | other, s'', newer, newest⟩
    · simp only [later] at both
      rw [run_bind_error _ both, run_bind_error _ later]
    · simp only [later] at both
      rw [run_bind_ok _ both, run_bind_ok _ later]
      simp only [List.append_assoc]

instance : LawfulMonad (Flow ν t) :=
  LawfulMonad.mk' (Flow ν t) bind_ret ret_bind bind_andThen

def raise (stop : Stop) : Flow ν t α := ⟨fun s => ⟨.error stop, s, [], []⟩⟩

def ask (read : State ν t → α) : Flow ν t α := ⟨fun s => ⟨.ok (read s), s, [], []⟩⟩

def change (update : State ν t → State ν t) : Flow ν t Unit :=
  ⟨fun s => ⟨.ok (), update s, [], []⟩⟩

def changeWorld (update : World ν → World ν) : Flow ν t Unit :=
  change fun s => { s with world := update s.world }

def changeRecorder (update : Recorder → Recorder) : Flow ν t Unit :=
  change fun s => { s with recorder := update s.recorder }

def log (message : String) : Flow ν t Unit := changeRecorder (Recorder.log message)

/-- Logs a line and marks the flow as failed. -/
def error (message : String) : Flow ν t Unit :=
  changeRecorder fun r => (r.log message).fail

def failNow : Flow ν t α := do
  changeRecorder Recorder.fail
  raise (.exit .fail)

/-- Logs a line, marks the flow as failed and leaves it. -/
def fatal (message : String) : Flow ν t α := do
  log message
  failNow

def skipNow : Flow ν t α := do
  changeRecorder Recorder.skip
  raise (.exit .skip)

def skip (message : String) : Flow ν t α := do
  log message
  skipNow

def note (entry : ν) : Flow ν t Unit :=
  changeWorld fun w => { w with journal := w.journal.push entry }

/-- Raises an outcome again, if it was not completed. -/
def resume (outcome : Outcome) : Flow ν t Unit :=
  match outcome.stop? with
  | none => pure ()
  | some stop => raise stop

/-- Runs a computation and hands back how it ended; what it put on the stacks stays there. -/
def guard (body : Flow ν t Unit) : Flow ν t Outcome := ⟨fun s =>
  let step := body.run s
  ⟨.ok (.ofExcept step.result), step.state, step.finalisers, step.cleanups⟩⟩

/-- Takes the end of a flow, or of one of its cleanups, into account. -/
def absorb (outcome : Outcome) (s : State ν .flow) : State ν .flow :=
  { s with recorder := s.recorder.absorb outcome }

/-- Runs cleanups, newest first. -/
def runCleanups (cleanups : List (Cleanup ν)) (s : State ν .flow) : State ν .flow :=
  Ended.unwindAll absorb cleanups s

/-- The state after a flow that has ended: how it ended is absorbed, then its cleanups run. -/
def settle (step : Step ν .flow Unit) : State ν .flow :=
  runCleanups step.cleanups (absorb (.ofExcept step.result) step.state)

def toCleanup (body : Flow ν .flow Unit) : Cleanup ν := fun s =>
  let step := body.run s
  .mk step.result step.state step.cleanups

def pushCleanup (body : Flow ν .flow Unit) : Flow ν t Unit :=
  ⟨fun s => ⟨.ok (), s, [], [toCleanup body]⟩⟩

/-- Runs a computation as a flow of its own that reports to a given recorder, and hands back what it
has reported. -/
def isolate (recorder : Recorder) (body : Flow ν .flow Unit) : Flow ν t Recorder := ⟨fun s =>
  let ended := settle (body.run ⟨s.world, recorder, ()⟩)
  ⟨.ok ended.recorder, { s with world := ended.world }, [], []⟩⟩

/-- Runs a computation as a sub-run and hands back whether it passed. -/
def runChild (name : String) (body : Flow ν .flow Unit) : Flow ν t Bool := do
  let recorder ← ask (·.recorder)
  let ended ← isolate (recorder.child name) body
  changeRecorder fun r => r.merge ended name
  pure !ended.failed

def onFlow (body : Flow ν .flow α) : Flow ν t α := ⟨fun s =>
  let step := body.run ⟨s.world, s.recorder, ()⟩
  ⟨step.result, ⟨step.state.world, step.state.recorder, s.own⟩, step.finalisers, step.cleanups⟩⟩

/-- Takes the end of a finaliser into account: a panic in it is reported, an exit is not. -/
def reportFinaliser (outcome : Outcome) :
    State ν .leaf × List (Cleanup ν) → State ν .leaf × List (Cleanup ν)
  | (s, cleanups) =>
    match outcome.panicMessage? with
    | none => (s, cleanups)
    | some message =>
      ({ s with recorder := (s.recorder.log ("deferred call panicked: " ++ message)).fail },
        cleanups)

/-- Runs finalisers, newest first, with the cleanups that wait. -/
def unwind (finalisers : List (Finaliser ν)) :
    State ν .leaf × List (Cleanup ν) → State ν .leaf × List (Cleanup ν) :=
  Ended.unwindAll reportFinaliser finalisers

/-- A computation as a finaliser; it no longer waits when it starts. -/
def toFinaliser (body : Flow ν .leaf Unit) : Finaliser ν := fun (s, cleanups) =>
  let step := body.run { s with own := LeafState.popped s.own }
  .mk step.result (step.state, step.cleanups ++ cleanups) step.finalisers

def changeLeaf (update : LeafState ν → LeafState ν) : Flow ν .leaf Unit :=
  change fun s => { s with own := update s.own }

def pushFinaliser (body : Flow ν .leaf Unit) : Flow ν .leaf Unit :=
  ⟨fun s => ⟨.ok (), { s with own := LeafState.pushed s.own }, [toFinaliser body], []⟩⟩

/-- Runs a computation as the invocation of a leaf: it starts with a state of its own, its
finalisers run when it has ended, and then its end is the end of the flow. -/
def invoke (start : LeafState ν) (body : Flow ν .leaf Unit) : Flow ν .flow Unit := ⟨fun s =>
  let step := body.run ⟨s.world, s.recorder, start⟩
  let (ended, cleanups) := unwind step.finalisers (step.state, step.cleanups)
  ⟨step.result, ⟨ended.world, ended.recorder, ()⟩, [], cleanups⟩⟩

end Flow
end NestedSpec
