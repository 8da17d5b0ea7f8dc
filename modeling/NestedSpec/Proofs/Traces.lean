import NestedSpec.Proofs.Composition

/-!
# Traces

What a flow does is told by its trace: the calls it makes, what it changes of its own, the sub-runs
it starts with all that they do, and how its body and its cleanups ended. The trace says all there
is to say about the recorder and the journal.
-/

namespace NestedSpec

variable {ν α β : Type} {t : Target}

inductive Deed (ν : Type) where
  | called (call : Call ν)
  | owns (own : LeafState ν)
  | outside
  | madeDirectory
  | ended (outcome : Outcome)
  | ran (name : String) (deeds : List (Deed ν))
  | apart (deeds : List (Deed ν))

inductive Duty (ν : Type) where
  | run (body : Flow ν .flow Unit)
  | remove (number : Nat)

namespace Duty

def flow : Duty ν → Flow ν .flow Unit
  | run body => body
  | remove number =>
    Flow.changeWorld fun w => { w with directories := w.directories.set number false }

def cleanup (duty : Duty ν) : Cleanup ν := Flow.toCleanup duty.flow

end Duty

def Call.record (r : Recorder) : Call ν → Recorder
  | note _ => r
  | log message => r.log message
  | fail => r.fail
  | skip => r.skip

namespace Deed

mutual
def record (r : Recorder) : Deed ν → Recorder
  | called call => call.record r
  | ended outcome => r.absorb outcome
  | ran name deeds => r.merge (recordAll (r.child name) deeds) name
  | owns _ | outside | madeDirectory | apart _ => r

def recordAll (r : Recorder) : List (Deed ν) → Recorder
  | [] => r
  | first :: rest => recordAll (record r first) rest
end

mutual
def notes : Deed ν → List ν
  | called (.note entry) => [entry]
  | ran _ deeds | apart deeds => notesOf deeds
  | called _ | owns _ | outside | madeDirectory | ended _ => []

def notesOf : List (Deed ν) → List ν
  | [] => []
  | first :: rest => notes first ++ notesOf rest
end

mutual
def looksOutside : Deed ν → Bool
  | outside => true
  | ran _ deeds | apart deeds => anyOutside deeds
  | called _ | owns _ | madeDirectory | ended _ => false

def anyOutside : List (Deed ν) → Bool
  | [] => false
  | first :: rest => looksOutside first || anyOutside rest
end

@[simp] theorem recordAll_append (r : Recorder) (first second : List (Deed ν)) :
    recordAll r (first ++ second) = recordAll (recordAll r first) second := by
  induction first generalizing r with
  | nil => rfl
  | cons deed rest ih => exact ih (record r deed)

@[simp] theorem notesOf_append (first second : List (Deed ν)) :
    notesOf (first ++ second) = notesOf first ++ notesOf second := by
  induction first with
  | nil => rfl
  | cons deed rest ih => simp only [List.cons_append, notesOf, ih, List.append_assoc]

theorem notesOf_singleton (deed : Deed ν) : notesOf [deed] = deed.notes :=
  List.append_nil _

@[simp] theorem anyOutside_append (first second : List (Deed ν)) :
    anyOutside (first ++ second) = (anyOutside first || anyOutside second) := by
  induction first with
  | nil => rfl
  | cons deed rest ih => simp only [List.cons_append, anyOutside, ih, Bool.or_assoc]

def ofFinaliser (outcome : Outcome) : List (Deed ν) :=
  match outcome.panicMessage? with
  | none => []
  | some message => [called (.log ("deferred call panicked: " ++ message)), called .fail]

end Deed

def Target.scope : (t : Target) → t.Own ν → List (Binding ν)
  | .flow, _ => []
  | .leaf, own => (own : LeafState ν).scope

def State.popped (s : State ν .leaf) : State ν .leaf := { s with own := LeafState.popped s.own }

namespace Flow

/-- The flow changes nothing but the world, where it writes nothing into the journal, and how it
ends depends only on what flows are told. -/
structure Calm (view : View) (flow : Flow ν t α) : Prop where
  still : ∀ s, ∃ result world, flow.run s = ⟨result, { s with world := world }, [], []⟩ ∧
    world.journal = s.world.journal
  steady : ∀ s s', s.Beside view s' → (flow.run s).result = (flow.run s').result ∧
    (flow.run s).state.world.Known view (flow.run s').state.world

def outcome (body : Flow ν t Unit) (s : State ν t) : Outcome := .ofExcept (body.run s).result

def absorbed (body : Flow ν .flow Unit) (s : State ν .flow) : State ν .flow :=
  absorb (body.outcome s) (body.run s).state

def reported (body : Flow ν .leaf Unit) (s : State ν .leaf) : State ν .leaf :=
  (reportFinaliser (body.outcome s) ((body.run s).state, [])).1

end Flow

mutual

/-- A flow, run in a state, does these deeds, and puts these finalisers and these cleanups on the
stacks, the newest first. -/
inductive Does : View → {t : Target} → {α : Type} → Flow ν t α → State ν t → List (Deed ν) →
    List (Flow ν .leaf Unit) → List (Duty ν) → Prop
  | calm {view : View} {t : Target} {α : Type} {flow : Flow ν t α} (calm : flow.Calm view)
      (s : State ν t) : Does view flow s [] [] []
  | look {view : View} {t : Target} {α : Type} (read : World ν → α) (s : State ν t) :
      Does view (Flow.ask fun s => read s.world) s [.outside] [] []
  | call {view : View} {t : Target} (call : Call ν) (s : State ν t) :
      Does view call.flow s [.called call] [] []
  | changeLeaf {view : View} {update : LeafState ν → LeafState ν}
      (keeps : ∀ own, (update own).scope = own.scope) (s : State ν .leaf) :
      Does view (Flow.changeLeaf update) s [.owns (update s.own)] [] []
  | bindOk {view : View} {t : Target} {α β : Type} {first : Flow ν t α} {next : α → Flow ν t β}
      {s : State ν t} {value : α} {deeds later : List (Deed ν)}
      {bodies newer : List (Flow ν .leaf Unit)} {duties newest : List (Duty ν)}
      (does : Does view first s deeds bodies duties)
      (completed : (first.run s).result = .ok value)
      (goesOn : Does view (next value) (first.run s).state later newer newest) :
      Does view (first >>= next) s (deeds ++ later) (newer ++ bodies) (newest ++ duties)
  | bindError {view : View} {t : Target} {α β : Type} {first : Flow ν t α}
      {next : α → Flow ν t β} {s : State ν t} {stop : Stop} {deeds : List (Deed ν)}
      {bodies : List (Flow ν .leaf Unit)} {duties : List (Duty ν)}
      (does : Does view first s deeds bodies duties)
      (stopped : (first.run s).result = .error stop) :
      Does view (first >>= next) s deeds bodies duties
  | guard {view : View} {t : Target} {body : Flow ν t Unit} {s : State ν t}
      {deeds : List (Deed ν)} {bodies : List (Flow ν .leaf Unit)} {duties : List (Duty ν)}
      (does : Does view body s deeds bodies duties) :
      Does view (Flow.guard body) s deeds bodies duties
  | pushCleanup {view : View} {t : Target} (body : Flow ν .flow Unit) (s : State ν t) :
      Does view (Flow.pushCleanup body) s [] [] [.run body]
  | pushFinaliser {view : View} (body : Flow ν .leaf Unit) (s : State ν .leaf) :
      Does view (Flow.pushFinaliser body) s [.owns (LeafState.pushed s.own)] [body] []
  | makeDirectory {view : View} {t : Target} (s : State ν t) :
      Does view Flow.makeDirectory s [.madeDirectory] [] [.remove s.world.directories.length]
  | isolate {view : View} {t : Target} {body : Flow ν .flow Unit} {recorder : Recorder}
      {s : State ν t} {deeds : List (Deed ν)}
      (settles : Settles view body ⟨s.world, recorder, ()⟩ deeds) :
      Does view (Flow.isolate recorder body) s [.apart deeds] [] []
  | runChild {view : View} {t : Target} {body : Flow ν .flow Unit} {name : String}
      {s : State ν t} {deeds : List (Deed ν)}
      (settles : Settles view body ⟨s.world, s.recorder.child name, ()⟩ deeds) :
      Does view (Flow.runChild name body) s [.ran name deeds] [] []
  | onFlow {view : View} {t : Target} {α : Type} {body : Flow ν .flow α} {s : State ν t}
      {deeds : List (Deed ν)} {bodies : List (Flow ν .leaf Unit)} {duties : List (Duty ν)}
      (does : Does view body ⟨s.world, s.recorder, ()⟩ deeds bodies duties) :
      Does view (Flow.onFlow body) s deeds bodies duties
  | invoke {view : View} {body : Flow ν .leaf Unit} {start : LeafState ν} {s : State ν .flow}
      {deeds later : List (Deed ν)} {bodies : List (Flow ν .leaf Unit)}
      {duties newer : List (Duty ν)}
      (does : Does view body ⟨s.world, s.recorder, start⟩ deeds bodies duties)
      (finalises :
        Finalises view bodies (body.run ⟨s.world, s.recorder, start⟩).state later newer) :
      Does view (Flow.invoke start body) s (.owns start :: deeds ++ later) [] (newer ++ duties)
  | countingAnew {view : View} {body : Flow ν .flow Unit} {s : State ν .flow}
      {deeds : List (Deed ν)} {bodies : List (Flow ν .leaf Unit)} {duties : List (Duty ν)}
      (does : Does { view with entered := true } body
        { s with world := { s.world with entered := [] } } deeds bodies duties) :
      Does view (Flow.countingAnew body) s deeds bodies duties

inductive Settles : View → Flow ν .flow Unit → State ν .flow → List (Deed ν) → Prop
  | mk {view : View} {body : Flow ν .flow Unit} {s : State ν .flow} {deeds later : List (Deed ν)}
      {bodies : List (Flow ν .leaf Unit)} {duties : List (Duty ν)}
      (does : Does view body s deeds bodies duties)
      (cleans : CleansUp view duties (body.absorbed s) later) :
      Settles view body s (deeds ++ .ended (body.outcome s) :: later)

inductive CleansUp : View → List (Duty ν) → State ν .flow → List (Deed ν) → Prop
  | nil {view : View} (s : State ν .flow) : CleansUp view [] s []
  | run {view : View} {body : Flow ν .flow Unit} {s : State ν .flow}
      {deeds later : List (Deed ν)} {bodies : List (Flow ν .leaf Unit)}
      {pushed older : List (Duty ν)}
      (does : Does view body s deeds bodies pushed)
      (cleans : CleansUp view (pushed ++ older) (body.absorbed s) later) :
      CleansUp view (.run body :: older) s (deeds ++ .ended (body.outcome s) :: later)
  | remove {view : View} {number : Nat} {s : State ν .flow} {later : List (Deed ν)}
      {older : List (Duty ν)}
      (cleans : CleansUp view older ((Duty.remove number).flow.absorbed s) later) :
      CleansUp view (.remove number :: older) s (.ended .completed :: later)

inductive Finalises : View → List (Flow ν .leaf Unit) → State ν .leaf → List (Deed ν) →
    List (Duty ν) → Prop
  | nil {view : View} (s : State ν .leaf) : Finalises view [] s [] []
  | run {view : View} {body : Flow ν .leaf Unit} {s : State ν .leaf}
      {deeds later : List (Deed ν)} {pushed older : List (Flow ν .leaf Unit)}
      {duties newer : List (Duty ν)}
      (does : Does view body s.popped deeds pushed duties)
      (finalises : Finalises view (pushed ++ older) (body.reported s.popped) later newer) :
      Finalises view (body :: older) s
        (.owns s.popped.own :: deeds ++ Deed.ofFinaliser (body.outcome s.popped) ++ later)
        (newer ++ duties)

end

/-! ## What traces tell -/

theorem Ended.unwindAll_append {σ : Type} (account : Outcome → σ → σ)
    (newer older : List (Waiting σ)) (s : σ) :
    unwindAll account (newer ++ older) s = unwindAll account older (unwindAll account newer s) := by
  induction newer generalizing s with
  | nil => rfl
  | cons entry newer ih => exact ih _

namespace Flow

theorem runCleanups_cons (body : Flow ν .flow Unit) (older : List (Cleanup ν)) (s : State ν .flow) :
    runCleanups (toCleanup body :: older) s =
      runCleanups ((body.run s).cleanups ++ older) (body.absorbed s) :=
  (Ended.unwindAll_append absorb (body.run s).cleanups older (body.absorbed s)).symm

theorem reportFinaliser_eq (outcome : Outcome) (s : State ν .leaf) (waiting : List (Cleanup ν)) :
    reportFinaliser outcome (s, waiting) = ((reportFinaliser outcome (s, [])).1, waiting) := by
  unfold reportFinaliser
  cases outcome.panicMessage? <;> rfl

theorem unwind_cons (body : Flow ν .leaf Unit) (older : List (Finaliser ν)) (s : State ν .leaf)
    (waiting : List (Cleanup ν)) :
    unwind (toFinaliser body :: older) (s, waiting) =
      unwind ((body.run s.popped).finalisers ++ older)
        (body.reported s.popped, (body.run s.popped).cleanups ++ waiting) := by
  have ended : reportFinaliser (body.outcome s.popped) ((body.run s.popped).state,
      (body.run s.popped).cleanups ++ waiting) =
        (body.reported s.popped, (body.run s.popped).cleanups ++ waiting) :=
    reportFinaliser_eq _ _ _
  rw [← ended]
  exact (Ended.unwindAll_append reportFinaliser (body.run s.popped).finalisers older _).symm

end Flow

structure Shows (s later : State ν t) (deeds : List (Deed ν)) : Prop where
  recorder : later.recorder = Deed.recordAll s.recorder deeds
  journal : later.world.journal.toList = s.world.journal.toList ++ Deed.notesOf deeds
  scope : t.scope later.own = t.scope s.own

structure Tells (s : State ν t) (step : Step ν t α) (deeds : List (Deed ν))
    (bodies : List (Flow ν .leaf Unit)) (duties : List (Duty ν)) : Prop where
  shows : Shows s step.state deeds
  finalisers : step.finalisers = bodies.map Flow.toFinaliser
  cleanups : step.cleanups = duties.map Duty.cleanup

namespace Shows

variable {s middle later : State ν t} {first second : List (Deed ν)}

theorem refl (s : State ν t) : Shows s s [] :=
  ⟨rfl, by simp [Deed.notesOf], rfl⟩

theorem trans (before : Shows s middle first) (after : Shows middle later second) :
    Shows s later (first ++ second) where
  recorder := by rw [after.recorder, before.recorder, Deed.recordAll_append]
  journal := by rw [after.journal, before.journal, Deed.notesOf_append, List.append_assoc]
  scope := after.scope.trans before.scope

theorem absorb (outcome : Outcome) (s : State ν .flow) :
    Shows s (Flow.absorb outcome s) [.ended outcome] :=
  ⟨rfl, by simp [Flow.absorb, Deed.notesOf, Deed.notes], rfl⟩

theorem report (outcome : Outcome) (s : State ν .leaf) :
    Shows s (Flow.reportFinaliser outcome (s, [])).1 (Deed.ofFinaliser outcome) := by
  unfold Flow.reportFinaliser Deed.ofFinaliser
  cases outcome.panicMessage? with
  | none => exact refl s
  | some message => exact ⟨rfl, by simp [Deed.notesOf, Deed.notes], rfl⟩

end Shows

theorem tells_call (s : State ν t) (call : Call ν) :
    Tells s (call.flow.run s) [.called call] [] [] := by
  cases call with
  | note entry =>
    exact ⟨⟨rfl, Array.toList_push, rfl⟩, rfl, rfl⟩
  | log message => exact ⟨⟨rfl, (List.append_nil _).symm, rfl⟩, rfl, rfl⟩
  | fail => exact ⟨⟨rfl, (List.append_nil _).symm, rfl⟩, rfl, rfl⟩
  | skip => exact ⟨⟨rfl, (List.append_nil _).symm, rfl⟩, rfl, rfl⟩

namespace Tells

variable {s : State ν t} {deeds later : List (Deed ν)} {bodies newer : List (Flow ν .leaf Unit)}
  {duties newest : List (Duty ν)}

theorem bindOk {first : Flow ν t α} {next : α → Flow ν t β} {value : α}
    (tells : Tells s (first.run s) deeds bodies duties)
    (completed : (first.run s).result = .ok value)
    (goesOn : Tells (first.run s).state ((next value).run (first.run s).state) later newer newest) :
    Tells s ((first >>= next).run s) (deeds ++ later) (newer ++ bodies) (newest ++ duties) := by
  rw [Flow.run_bind_of_ok next completed]
  exact ⟨tells.shows.trans goesOn.shows, by simp [goesOn.finalisers, tells.finalisers],
    by simp [goesOn.cleanups, tells.cleanups]⟩

theorem bindError {first : Flow ν t α} {next : α → Flow ν t β} {stop : Stop}
    (tells : Tells s (first.run s) deeds bodies duties)
    (stopped : (first.run s).result = .error stop) :
    Tells s ((first >>= next).run s) deeds bodies duties := by
  rw [Flow.run_bind_of_error next stopped]
  exact ⟨tells.shows, tells.finalisers, tells.cleanups⟩

end Tells

theorem run_countingAnew (body : Flow ν .flow Unit) (s : State ν .flow) :
    (Flow.countingAnew body).run s =
      let step := body.run { s with world := { s.world with entered := [] } }
      let entered := match step.result with
        | .ok _ => s.world.entered
        | .error _ => step.state.world.entered
      ⟨step.result, { step.state with world := { step.state.world with entered := entered } },
        step.finalisers, step.cleanups⟩ := by
  have asked : (Flow.ask fun s => s.world.entered : Flow ν .flow _).run s =
      ⟨.ok s.world.entered, s, [], []⟩ := rfl
  let started : State ν .flow := { s with world := { s.world with entered := [] } }
  have reset : (Flow.changeWorld fun w => { w with entered := [] } : Flow ν .flow Unit).run s =
      ⟨.ok (), started, [], []⟩ := rfl
  unfold Flow.countingAnew
  rw [Flow.run_bind_ok _ asked, Flow.run_bind_ok _ reset]
  change _ = (let step := body.run started; _)
  rcases ended : body.run started with ⟨stop | value, later, finalisers, cleanups⟩
  · rw [Flow.run_bind_error _ ended]
    simp
  · rw [Flow.run_bind_ok _ ended]
    simp [Flow.changeWorld, Flow.change]

mutual

theorem Does.tells {view : View} {t : Target} {α : Type} {flow : Flow ν t α} {s : State ν t}
    {deeds : List (Deed ν)} {bodies : List (Flow ν .leaf Unit)} {duties : List (Duty ν)} :
    Does view flow s deeds bodies duties → Tells s (flow.run s) deeds bodies duties
  | .calm calm s => by
    obtain ⟨result, world, ended, journal⟩ := calm.still s
    rw [ended]
    exact ⟨⟨rfl, by simp [Deed.notesOf, journal], rfl⟩, rfl, rfl⟩
  | .look read s => ⟨⟨rfl, (List.append_nil _).symm, rfl⟩, rfl, rfl⟩
  | .call call s => tells_call s call
  | .changeLeaf keeps s => ⟨⟨rfl, (List.append_nil _).symm, keeps s.own⟩, rfl, rfl⟩
  | .bindOk does completed goesOn => does.tells.bindOk completed goesOn.tells
  | .bindError does stopped => does.tells.bindError stopped
  | .guard does => ⟨does.tells.shows, does.tells.finalisers, does.tells.cleanups⟩
  | .pushCleanup body s => ⟨.refl s, rfl, rfl⟩
  | .pushFinaliser body s => ⟨⟨rfl, (List.append_nil _).symm, rfl⟩, rfl, rfl⟩
  | .makeDirectory s => ⟨⟨rfl, (List.append_nil _).symm, rfl⟩, rfl, rfl⟩
  | .isolate settles => by
    have shown := settles.shows
    refine ⟨⟨rfl, ?_, rfl⟩, rfl, rfl⟩
    rw [Deed.notesOf_singleton]
    exact shown.journal
  | @Does.runChild _ _ _ body name s deeds settles => by
    have shown := settles.shows
    refine ⟨⟨congrArg (s.recorder.merge · name) shown.recorder, ?_, rfl⟩, rfl, rfl⟩
    rw [Deed.notesOf_singleton]
    exact shown.journal
  | .onFlow does => by
    have inside := does.tells
    exact ⟨⟨inside.shows.recorder, inside.shows.journal, rfl⟩, inside.finalisers, inside.cleanups⟩
  | @Does.invoke _ _ body start s _ _ _ duties newer does finalises => by
    have inside := does.tells
    obtain ⟨later, unwound, shown⟩ := finalises.shows (duties.map Duty.cleanup)
    have ended : (Flow.invoke start body).run s = ⟨(body.run ⟨s.world, s.recorder, start⟩).result,
        ⟨later.world, later.recorder, ()⟩, [], (newer ++ duties).map Duty.cleanup⟩ := by
      rw [← inside.finalisers, ← inside.cleanups] at unwound
      simp only [Flow.invoke, unwound]
      rw [List.map_append, inside.cleanups]
    have whole := inside.shows.trans shown
    rw [ended]
    exact ⟨⟨whole.recorder, whole.journal, rfl⟩, rfl, rfl⟩
  | @Does.countingAnew _ _ body s deeds bodies duties does => by
    have inside := does.tells
    rw [run_countingAnew]
    exact ⟨⟨inside.shows.recorder, inside.shows.journal, rfl⟩, inside.finalisers, inside.cleanups⟩

theorem Settles.shows {view : View} {body : Flow ν .flow Unit} {s : State ν .flow}
    {deeds : List (Deed ν)} : Settles view body s deeds → Shows s (Flow.settle (body.run s)) deeds
  | .mk does cleans => by
    have inside := does.tells
    have after := cleans.shows
    have absorbed := inside.shows.trans (.absorb (body.outcome s) _)
    have settled := absorbed.trans after
    rw [← inside.cleanups, List.append_assoc] at settled
    exact settled

theorem CleansUp.shows {view : View} {duties : List (Duty ν)} {s : State ν .flow}
    {deeds : List (Deed ν)} : CleansUp view duties s deeds →
    Shows s (Flow.runCleanups (duties.map Duty.cleanup) s) deeds
  | .nil s => .refl s
  | @CleansUp.run _ _ body s _ _ _ pushed older does cleans => by
    have inside := does.tells
    have after := cleans.shows
    have absorbed := inside.shows.trans (.absorb (body.outcome s) _)
    have cleaned := absorbed.trans after
    rw [List.append_assoc, List.map_append, ← inside.cleanups] at cleaned
    exact (Flow.runCleanups_cons body _ s) ▸ cleaned
  | @CleansUp.remove _ _ number s _ older cleans => by
    have removed : Shows s ((Duty.remove number).flow.absorbed s) [.ended .completed] :=
      ⟨rfl, (List.append_nil _).symm, rfl⟩
    exact removed.trans cleans.shows

theorem Finalises.shows {view : View} {bodies : List (Flow ν .leaf Unit)} {s : State ν .leaf}
    {deeds : List (Deed ν)} {duties : List (Duty ν)} : Finalises view bodies s deeds duties →
    ∀ waiting, ∃ later, Flow.unwind (bodies.map Flow.toFinaliser) (s, waiting) =
      (later, duties.map Duty.cleanup ++ waiting) ∧ Shows s later deeds
  | .nil s => fun waiting => ⟨s, rfl, .refl s⟩
  | @Finalises.run _ _ body s deeds rest pushed older duties newer does finalises => by
    intro waiting
    have inside := does.tells
    obtain ⟨later, unwound, shown⟩ := finalises.shows (duties.map Duty.cleanup ++ waiting)
    have popped : Shows s s.popped [.owns s.popped.own] :=
      ⟨rfl, (List.append_nil _).symm, rfl⟩
    have reported := inside.shows.trans (.report (body.outcome s.popped) _)
    refine ⟨later, ?_, ?_⟩
    · rw [List.map_append, ← inside.finalisers] at unwound
      rw [List.map_cons, Flow.unwind_cons, inside.cleanups, unwound, List.map_append,
        List.append_assoc]
    · have whole := (popped.trans reported).trans shown
      simpa only [List.append_assoc, List.cons_append, List.nil_append] using whole

end

end NestedSpec
