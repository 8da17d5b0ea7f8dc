import Mathlib.Data.List.Forall2
import NestedSpec.Proofs.Tracing

/-!
# Flows that keep to themselves

A flow that does not look outside cannot tell what is there: from any state that agrees in what
flows are told about, it has the same trace and ends in the same way.
-/

namespace NestedSpec

variable {ν α β : Type} {t : Target}

/-- States that differ at most in what flows are not told about: the journal, the environment, the
directories, and what is not in view. -/
structure Near (view : View) (s s' : State ν t) : Prop where
  world : s.world.Known view s'.world
  own : s.own = s'.own
  recorder : s.recorder = s'.recorder

theorem Near.beside {view : View} {s s' : State ν t} (near : Near view s s') :
    s.Beside view s' where
  world := near.world
  own := near.own
  name := congrArg Recorder.name near.recorder
  failed := congrArg Recorder.failed near.recorder
  skipped := congrArg Recorder.skipped near.recorder

inductive Duty.Alike : Duty ν → Duty ν → Prop
  | run (body : Flow ν .flow Unit) : Alike (.run body) (.run body)
  | remove (number number' : Nat) : Alike (.remove number) (.remove number')

structure Matches (view : View) (step step' : Step ν t α) : Prop where
  result : step.result = step'.result
  state : Near view step.state step'.state

namespace Matches

variable {view : View} {s s' : State ν t}

theorem call (call : Call ν) (near : Near view s s') :
    Matches view ((call.flow : Flow ν t Unit).run s) (call.flow.run s') := by
  obtain ⟨world, own, recorder⟩ := near
  cases call with
  | note entry => exact ⟨rfl, ⟨world.named, world.nextVariable, world.entered⟩, own, recorder⟩
  | log message => exact ⟨rfl, world, own, congrArg (Recorder.log message) recorder⟩
  | fail => exact ⟨rfl, world, own, congrArg Recorder.fail recorder⟩
  | skip => exact ⟨rfl, world, own, congrArg Recorder.skip recorder⟩

theorem calm {flow : Flow ν t α} (calm : flow.Calm view) (near : Near view s s') :
    Matches view (flow.run s) (flow.run s') := by
  obtain ⟨result, known⟩ := calm.steady s s' near.beside
  obtain ⟨value, world, ended, -⟩ := calm.still s
  obtain ⟨value', world', ended', -⟩ := calm.still s'
  refine ⟨result, known, ?_, ?_⟩
  · rw [ended, ended']
    exact near.own
  · rw [ended, ended']
    exact near.recorder

/-- A sequence of two parts that match. -/
theorem bind {first : Flow ν t α} {next : α → Flow ν t β}
    (before : Matches view (first.run s) (first.run s'))
    (after : ∀ value, (first.run s).result = .ok value →
      Matches view ((next value).run (first.run s).state) ((next value).run (first.run s').state)) :
    Matches view ((first >>= next).run s) ((first >>= next).run s') := by
  obtain ⟨result, state⟩ := before
  rcases ended : first.run s with ⟨stop | value, later, finalisers, cleanups⟩ <;>
    rcases ended' : first.run s' with ⟨stop' | value', later', finalisers', cleanups'⟩ <;>
    simp only [ended, ended', reduceCtorEq, Except.error.injEq,
      Except.ok.injEq] at result state after
  · rw [Flow.run_bind_error _ ended, Flow.run_bind_error _ ended']
    exact ⟨congrArg Except.error result, state⟩
  · subst result
    rw [Flow.run_bind_ok _ ended, Flow.run_bind_ok _ ended']
    exact ⟨(after value rfl).result, (after value rfl).state⟩

theorem outcome {body : Flow ν t Unit} (matched : Matches view (body.run s) (body.run s')) :
    body.outcome s = body.outcome s' :=
  congrArg Outcome.ofExcept matched.result

theorem absorbed {s s' : State ν .flow} {body : Flow ν .flow Unit}
    (matched : Matches view (body.run s) (body.run s')) :
    Near view (body.absorbed s) (body.absorbed s') := by
  obtain ⟨world, own, recorder⟩ := matched.state
  refine ⟨world, own, ?_⟩
  simp only [Flow.absorbed, Flow.absorb, matched.outcome, recorder]

theorem reported {s s' : State ν .leaf} {body : Flow ν .leaf Unit}
    (matched : Matches view (body.run s) (body.run s')) :
    Near view (body.reported s) (body.reported s') := by
  obtain ⟨world, own, recorder⟩ := matched.state
  unfold Flow.reported Flow.reportFinaliser
  rw [matched.outcome]
  cases (body.outcome s').panicMessage? with
  | none => exact ⟨world, own, recorder⟩
  | some message => exact ⟨world, own, by simp only [recorder]⟩

theorem countingAnew {s s' : State ν .flow} {body : Flow ν .flow Unit}
    (matched : Matches { view with entered := true }
      (body.run { s with world := { s.world with entered := [] } })
      (body.run { s' with world := { s'.world with entered := [] } }))
    (near : Near view s s') :
    Matches view ((Flow.countingAnew body).run s) ((Flow.countingAnew body).run s') := by
  obtain ⟨world, own, recorder⟩ := matched.state
  rw [run_countingAnew, run_countingAnew]
  refine ⟨matched.result, ⟨world.named, world.nextVariable, fun seen => ?_⟩, own, recorder⟩
  simp only [matched.result]
  split
  · exact near.world.entered seen
  · exact world.entered rfl

end Matches

theorem Near.popped {view : View} {s s' : State ν .leaf} (near : Near view s s') :
    Near view s.popped s'.popped :=
  ⟨near.world, congrArg LeafState.popped near.own, near.recorder⟩

/-! ## Traces from another state -/

def DoesAlso (view : View) (flow : Flow ν t α) (s s' : State ν t) (deeds : List (Deed ν))
    (bodies : List (Flow ν .leaf Unit)) (duties : List (Duty ν)) : Prop :=
  ∃ duties', Does view flow s' deeds bodies duties' ∧ List.Forall₂ Duty.Alike duties duties' ∧
    Matches view (flow.run s) (flow.run s')

def SettlesAlso (view : View) (body : Flow ν .flow Unit) (s s' : State ν .flow)
    (deeds : List (Deed ν)) : Prop :=
  Settles view body s' deeds ∧ Near view (Flow.settle (body.run s)) (Flow.settle (body.run s'))

def CleansUpAlso (view : View) (duties duties' : List (Duty ν)) (s s' : State ν .flow)
    (deeds : List (Deed ν)) : Prop :=
  CleansUp view duties' s' deeds ∧
    Near view (Flow.runCleanups (duties.map Duty.cleanup) s)
      (Flow.runCleanups (duties'.map Duty.cleanup) s')

def FinalisesAlso (view : View) (bodies : List (Flow ν .leaf Unit)) (s s' : State ν .leaf)
    (deeds : List (Deed ν)) (duties : List (Duty ν)) : Prop :=
  ∃ duties', Finalises view bodies s' deeds duties' ∧ List.Forall₂ Duty.Alike duties duties' ∧
    ∀ waiting waiting', Near view (Flow.unwind (bodies.map Flow.toFinaliser) (s, waiting)).1
      (Flow.unwind (bodies.map Flow.toFinaliser) (s', waiting')).1

section

variable {view : View} {s s' : State ν t} {deeds later : List (Deed ν)}
  {bodies newer : List (Flow ν .leaf Unit)} {duties newest : List (Duty ν)}

namespace DoesAlso

theorem changeLeaf {s s' : State ν .leaf} {update : LeafState ν → LeafState ν}
    (keeps : ∀ own, (update own).scope = own.scope) (near : Near view s s') :
    DoesAlso view (Flow.changeLeaf update) s s' [.owns (update s.own)] [] [] := by
  have own : update s.own = update s'.own := congrArg update near.own
  exact ⟨[], own ▸ .changeLeaf keeps s', .nil, rfl, near.world, own, near.recorder⟩

theorem pushFinaliser {s s' : State ν .leaf} (body : Flow ν .leaf Unit) (near : Near view s s') :
    DoesAlso view (Flow.pushFinaliser body) s s' [.owns (LeafState.pushed s.own)] [body] [] := by
  have own : LeafState.pushed s.own = LeafState.pushed s'.own := congrArg LeafState.pushed near.own
  exact ⟨[], own ▸ .pushFinaliser body s', .nil, rfl, near.world, own, near.recorder⟩

theorem bindOk {first : Flow ν t α} {next : α → Flow ν t β} {value : α}
    (also : DoesAlso view first s s' deeds bodies duties)
    (completed : (first.run s).result = .ok value)
    (goesOn : Near view (first.run s).state (first.run s').state →
      DoesAlso view (next value) (first.run s).state (first.run s').state later newer newest) :
    DoesAlso view (first >>= next) s s' (deeds ++ later) (newer ++ bodies) (newest ++ duties) := by
  obtain ⟨duties', does', alike, matched⟩ := also
  obtain ⟨newest', goesOn', alikeLater, matchedLater⟩ := goesOn matched.state
  refine ⟨newest' ++ duties', .bindOk does' (matched.result ▸ completed) goesOn',
    List.rel_append alikeLater alike, matched.bind fun other same => ?_⟩
  obtain rfl : value = other := Except.ok.inj (completed.symm.trans same)
  exact matchedLater

theorem bindError {first : Flow ν t α} {next : α → Flow ν t β} {stop : Stop}
    (also : DoesAlso view first s s' deeds bodies duties)
    (stopped : (first.run s).result = .error stop) :
    DoesAlso view (first >>= next) s s' deeds bodies duties := by
  obtain ⟨duties', does', alike, matched⟩ := also
  refine ⟨duties', .bindError does' (matched.result ▸ stopped), alike,
    matched.bind fun other same => ?_⟩
  exact absurd (stopped.symm.trans same) nofun

theorem guard {body : Flow ν t Unit} (also : DoesAlso view body s s' deeds bodies duties) :
    DoesAlso view (Flow.guard body) s s' deeds bodies duties := by
  obtain ⟨duties', does', alike, matched⟩ := also
  exact ⟨duties', .guard does', alike, congrArg (Except.ok ∘ Outcome.ofExcept) matched.result,
    matched.state⟩

theorem isolate {body : Flow ν .flow Unit} {recorder : Recorder} (near : Near view s s')
    (also : SettlesAlso view body ⟨s.world, recorder, ()⟩ ⟨s'.world, recorder, ()⟩ deeds) :
    DoesAlso view (Flow.isolate recorder body) s s' [.apart deeds] [] [] := by
  obtain ⟨settles', settled⟩ := also
  exact ⟨[], .isolate settles', .nil, congrArg Except.ok settled.recorder, settled.world,
    near.own, near.recorder⟩

theorem runChild {body : Flow ν .flow Unit} {name : String} (near : Near view s s')
    (also : SettlesAlso view body ⟨s.world, s.recorder.child name, ()⟩
      ⟨s'.world, s'.recorder.child name, ()⟩ deeds) :
    DoesAlso view (Flow.runChild name body) s s' [.ran name deeds] [] [] := by
  obtain ⟨settles', settled⟩ := also
  refine ⟨[], .runChild settles', .nil, ?_, settled.world, near.own, ?_⟩
  · exact congrArg (fun r : Recorder => Except.ok !r.failed) settled.recorder
  · exact congrArg₂ (Recorder.merge · · name) near.recorder settled.recorder

theorem onFlow {body : Flow ν .flow α} (near : Near view s s')
    (also : DoesAlso view body ⟨s.world, s.recorder, ()⟩ ⟨s'.world, s'.recorder, ()⟩ deeds bodies
      duties) : DoesAlso view (Flow.onFlow body) s s' deeds bodies duties := by
  obtain ⟨duties', does', alike, matched⟩ := also
  exact ⟨duties', .onFlow does', alike, matched.result, matched.state.world, near.own,
    matched.state.recorder⟩

theorem invoke {s s' : State ν .flow} {body : Flow ν .leaf Unit} {start : LeafState ν}
    (does : Does view body ⟨s.world, s.recorder, start⟩ deeds bodies duties)
    (also : DoesAlso view body ⟨s.world, s.recorder, start⟩ ⟨s'.world, s'.recorder, start⟩ deeds
      bodies duties)
    (finalises : Near view (body.run ⟨s.world, s.recorder, start⟩).state
        (body.run ⟨s'.world, s'.recorder, start⟩).state →
      FinalisesAlso view bodies (body.run ⟨s.world, s.recorder, start⟩).state
        (body.run ⟨s'.world, s'.recorder, start⟩).state later newest) :
    DoesAlso view (Flow.invoke start body) s s' (.owns start :: deeds ++ later) []
      (newest ++ duties) := by
  obtain ⟨duties', does', alike, matched⟩ := also
  obtain ⟨newest', finalises', alikeLater, unwound⟩ := finalises matched.state
  refine ⟨newest' ++ duties', .invoke does' finalises', List.rel_append alikeLater alike,
    matched.result, ?_⟩
  have ended := unwound (body.run ⟨s.world, s.recorder, start⟩).cleanups
    (body.run ⟨s'.world, s'.recorder, start⟩).cleanups
  simp only [Flow.invoke, does.tells.finalisers, does'.tells.finalisers]
  exact ⟨ended.world, rfl, ended.recorder⟩

theorem countingAnew {s s' : State ν .flow} {body : Flow ν .flow Unit} (near : Near view s s')
    (also : DoesAlso { view with entered := true } body
      { s with world := { s.world with entered := [] } }
      { s' with world := { s'.world with entered := [] } } deeds bodies duties) :
    DoesAlso view (Flow.countingAnew body) s s' deeds bodies duties := by
  obtain ⟨duties', does', alike, matched⟩ := also
  exact ⟨duties', .countingAnew does', alike, matched.countingAnew near⟩

end DoesAlso

theorem SettlesAlso.mk {body : Flow ν .flow Unit} {s s' : State ν .flow}
    (does : Does view body s deeds bodies duties) (also : DoesAlso view body s s' deeds bodies duties)
    (cleans : ∀ duties', List.Forall₂ Duty.Alike duties duties' →
      Near view (body.absorbed s) (body.absorbed s') →
      CleansUpAlso view duties duties' (body.absorbed s) (body.absorbed s') later) :
    SettlesAlso view body s s' (deeds ++ .ended (body.outcome s) :: later) := by
  obtain ⟨duties', does', alike, matched⟩ := also
  obtain ⟨cleans', cleaned⟩ := cleans duties' alike matched.absorbed
  refine ⟨?_, ?_⟩
  · rw [matched.outcome]
    exact .mk does' cleans'
  · rw [← does.tells.cleanups, ← does'.tells.cleanups] at cleaned
    exact cleaned

theorem CleansUpAlso.run {body : Flow ν .flow Unit} {s s' : State ν .flow}
    {older older' : List (Duty ν)} (below : List.Forall₂ Duty.Alike older older')
    (does : Does view body s deeds bodies duties) (also : DoesAlso view body s s' deeds bodies duties)
    (cleans : ∀ waiting, List.Forall₂ Duty.Alike (duties ++ older) waiting →
      Near view (body.absorbed s) (body.absorbed s') →
      CleansUpAlso view (duties ++ older) waiting (body.absorbed s) (body.absorbed s') later) :
    CleansUpAlso view (.run body :: older) (.run body :: older') s s'
      (deeds ++ .ended (body.outcome s) :: later) := by
  obtain ⟨pushed', does', alike, matched⟩ := also
  obtain ⟨cleans', cleaned⟩ := cleans _ (List.rel_append alike below) matched.absorbed
  refine ⟨?_, ?_⟩
  · rw [matched.outcome]
    exact .run does' cleans'
  · rw [List.map_append, List.map_append, ← does.tells.cleanups, ← does'.tells.cleanups,
      ← Flow.runCleanups_cons, ← Flow.runCleanups_cons] at cleaned
    exact cleaned

theorem FinalisesAlso.run {body : Flow ν .leaf Unit} {s s' : State ν .leaf}
    {older : List (Flow ν .leaf Unit)} (near : Near view s s')
    (does : Does view body s.popped deeds bodies duties)
    (also : DoesAlso view body s.popped s'.popped deeds bodies duties)
    (finalises : Near view (body.reported s.popped) (body.reported s'.popped) →
      FinalisesAlso view (bodies ++ older) (body.reported s.popped) (body.reported s'.popped) later
        newest) :
    FinalisesAlso view (body :: older) s s'
      (.owns s.popped.own :: deeds ++ Deed.ofFinaliser (body.outcome s.popped) ++ later)
      (newest ++ duties) := by
  obtain ⟨duties', does', alike, matched⟩ := also
  obtain ⟨newest', finalises', alikeLater, unwound⟩ := finalises matched.reported
  refine ⟨newest' ++ duties', ?_, List.rel_append alikeLater alike, fun waiting waiting' => ?_⟩
  · rw [matched.outcome, near.popped.own]
    exact .run does' finalises'
  · have ended := unwound ((body.run s.popped).cleanups ++ waiting)
      ((body.run s'.popped).cleanups ++ waiting')
    rw [List.map_cons, Flow.unwind_cons, Flow.unwind_cons, does.tells.finalisers,
      does'.tells.finalisers, ← List.map_append]
    exact ended

end

open Deed in
mutual

theorem Does.also {view : View} {t : Target} {α : Type} {flow : Flow ν t α} {s s' : State ν t}
    {deeds : List (Deed ν)} {bodies : List (Flow ν .leaf Unit)} {duties : List (Duty ν)} :
    Does view flow s deeds bodies duties → anyOutside deeds = false → Near view s s' →
    DoesAlso view flow s s' deeds bodies duties
  | .calm calm s, _, near => ⟨[], .calm calm s', .nil, .calm calm near⟩
  | .look read s, inside, _ => by simp [anyOutside, looksOutside] at inside
  | .call call s, _, near => ⟨[], .call call s', .nil, .call call near⟩
  | .changeLeaf keeps s, _, near => .changeLeaf keeps near
  | .bindOk does completed goesOn, inside, near => by
    rw [anyOutside_append, Bool.or_eq_false_iff] at inside
    exact (does.also inside.1 near).bindOk completed (goesOn.also inside.2)
  | .bindError does stopped, inside, near => (does.also inside near).bindError stopped
  | .guard does, inside, near => (does.also inside near).guard
  | .pushCleanup body s, _, near =>
    ⟨_, .pushCleanup body s', .cons (.run body) .nil, rfl, near⟩
  | .pushFinaliser body s, _, near => .pushFinaliser body near
  | .makeDirectory s, _, near =>
    ⟨_, .makeDirectory s', .cons (.remove _ _) .nil, rfl,
      ⟨near.world.named, near.world.nextVariable, near.world.entered⟩, near.own, near.recorder⟩
  | .isolate settles, inside, near =>
    .isolate near (settles.also (by simpa [anyOutside, looksOutside] using inside)
      ⟨near.world, rfl, rfl⟩)
  | .runChild settles, inside, near =>
    .runChild near (settles.also (by simpa [anyOutside, looksOutside] using inside)
      ⟨near.world, rfl, congrArg (Recorder.child · _) near.recorder⟩)
  | .onFlow does, inside, near => .onFlow near (does.also inside ⟨near.world, rfl, near.recorder⟩)
  | .invoke does finalises, inside, near => by
    rw [List.cons_append, anyOutside, looksOutside, Bool.false_or, anyOutside_append,
      Bool.or_eq_false_iff] at inside
    exact .invoke does (does.also inside.1 ⟨near.world, rfl, near.recorder⟩)
      (finalises.also inside.2)
  | .countingAnew does, inside, near =>
    .countingAnew near (does.also inside
      ⟨⟨near.world.named, near.world.nextVariable, fun _ => rfl⟩, near.own, near.recorder⟩)

theorem Settles.also {view : View} {body : Flow ν .flow Unit} {s s' : State ν .flow}
    {deeds : List (Deed ν)} : Settles view body s deeds → anyOutside deeds = false →
    Near view s s' → SettlesAlso view body s s' deeds
  | .mk does cleans, inside, near => by
    rw [anyOutside_append, Bool.or_eq_false_iff] at inside
    exact .mk does (does.also inside.1 near) fun _ => cleans.also inside.2

theorem CleansUp.also {view : View} {duties duties' : List (Duty ν)} {s s' : State ν .flow}
    {deeds : List (Deed ν)} : CleansUp view duties s deeds → anyOutside deeds = false →
    List.Forall₂ Duty.Alike duties duties' → Near view s s' →
    CleansUpAlso view duties duties' s s' deeds
  | .nil s, _, alike, near => by
    cases alike
    exact ⟨.nil s', near⟩
  | .run does cleans, inside, alike, near => by
    cases alike with
    | cons same below =>
      cases same
      rw [anyOutside_append, Bool.or_eq_false_iff] at inside
      exact .run below does (does.also inside.1 near) fun _ => cleans.also inside.2
  | @CleansUp.remove _ _ number s _ older cleans, inside, alike, near => by
    cases alike with
    | cons same below =>
      cases same with
      | remove _ number' =>
        have removed : Near view ((Duty.remove number).flow.absorbed s)
            ((Duty.remove number').flow.absorbed s') :=
          ⟨⟨near.world.named, near.world.nextVariable, near.world.entered⟩, rfl, near.recorder⟩
        obtain ⟨cleans', cleaned⟩ := cleans.also inside below removed
        exact ⟨.remove cleans', cleaned⟩

theorem Finalises.also {view : View} {bodies : List (Flow ν .leaf Unit)} {s s' : State ν .leaf}
    {deeds : List (Deed ν)} {duties : List (Duty ν)} : Finalises view bodies s deeds duties →
    anyOutside deeds = false → Near view s s' → FinalisesAlso view bodies s s' deeds duties
  | .nil s, _, near => ⟨[], .nil s', .nil, fun _ _ => near⟩
  | .run does finalises, inside, near => by
    simp only [List.cons_append, anyOutside, looksOutside, Bool.false_or, anyOutside_append,
      Bool.or_eq_false_iff] at inside
    exact .run near does (does.also inside.1.1 near.popped) (finalises.also inside.2)

end

end NestedSpec
