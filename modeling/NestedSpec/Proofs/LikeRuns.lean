import NestedSpec.Proofs.Declarations
import NestedSpec.Proofs.Likeness

/-!
# Scripts, runs and registrations on like recorders

Whatever user code asks for, and whatever running a spec does, respects every likeness, since that
is so for all that flows are composed of. The main statement is `respects_deeper`: the entries to
the interpreter respect it at every depth of calls.
-/

namespace NestedSpec

variable {ν α ι : Type} {t : Target} {L : Likeness ι}

namespace Likeness

structure RespectsDeeper (L : Likeness ι) (deeper : Deeper ν) : Prop where
  initialise : ∀ init, L.Respects (deeper.initialise init)
  onLet : ∀ here body b, L.Respects ((deeper.onLet here body).run b)
  spec : ∀ config body, L.Respects (deeper.spec config body)

theorem Same.beside {i : ι} {s s' : State ν t} (same : L.Same i s s') (view : View) :
    s.Beside view s' where
  world := by rw [same.world]; exact ⟨fun _ _ => rfl, fun _ => rfl, fun _ => rfl⟩
  own := same.own
  name := L.name same.recorder
  failed := L.failed same.recorder
  skipped := L.skipped same.recorder

theorem respects_call : (call : Call ν) → L.Respects (call.flow : Flow ν t Unit)
  | .note entry => respects_changeWorld fun w => { w with journal := w.journal.push entry }
  | .log message => respects_log message
  | .fail => respects_fail
  | .skip => respects_changeRecorder fun _ _ _ => L.skip

theorem respects_makeDirectory : L.Respects (Flow.makeDirectory : Flow ν t Unit) := by
  have made : L.Respects (Flow.tempDir : Flow ν t Nat) :=
    (respects_ask fun _ _ _ same => by rw [same.world]).bind fun _ =>
      (respects_changeWorld _).bind fun _ =>
        (respects_changeWorld _).pushCleanup.bind fun number => respects_pure _
  exact made.bind fun _ => respects_pure ()

theorem Respects.countingAnew {body : Flow ν .flow Unit} (respects : L.Respects body) :
    L.Respects (Flow.countingAnew body) :=
  (respects_ask fun _ _ _ same => by rw [same.world]).bind fun _ =>
    (respects_changeWorld _).bind fun _ => respects.bind fun _ => respects_changeWorld _

end Likeness

open Likeness in
/-- A flow respects a likeness if all that it is composed of does. -/
theorem Composed.respects {deeper : Deeper ν} (below : L.RespectsDeeper deeper) {sees : Bool}
    {flow : Flow ν t α} (composed : Composed deeper sees flow) : L.Respects flow := by
  induction composed with
  | pure value => exact respects_pure value
  | raise stop => exact respects_raise stop
  | ask reads => exact respects_ask fun _ s s' same => reads s s' (same.beside _)
  | look read => exact respects_ask fun _ _ _ same => by rw [same.world]
  | adjust => exact respects_changeWorld _
  | call call => exact respects_call call
  | changeLeaf => exact respects_changeLeaf _
  | bind _ _ ih ihLater => exact ih.bind ihLater
  | guard _ ih => exact ih.guard
  | pushCleanup _ ih => exact (ih true).pushCleanup
  | pushFinaliser _ ih => exact (ih true).pushFinaliser
  | makeDirectory => exact respects_makeDirectory
  | isolate recorder => exact respects_isolate recorder _
  | runChild name _ ih => exact ih.runChild name
  | onFlow _ ih => exact ih.onFlow
  | invoke start _ ih => exact ih.invoke start
  | countingAnew _ ih => exact ih.countingAnew
  | initialise init => exact below.initialise init
  | onLet here body b => exact below.onLet here body b
  | spec config body => exact below.spec config body

namespace Likeness

theorem respects_exec {deeper : Deeper ν} (below : L.RespectsDeeper deeper)
    (script : Script ν t) : L.Respects (script.exec deeper) :=
  (Composed.exec script : Composed deeper true _).respects below

section
variable {runner : Runner ν} (below : L.RespectsDeeper runner.deeper)
include below

theorem respects_enter (group : Group ν) : L.Respects (runner.enter group) :=
  (Composed.enter group).respects below

theorem respects_runHook (hook : Hook ν) : L.Respects (runner.runHook hook) :=
  (Composed.runHook hook : Composed _ true _).respects below

theorem respects_repeatOnce (chain : Chain ν) (leaf : Leaf ν) (count : Nat) :
    L.Respects (runner.repeatOnce chain leaf count) :=
  (Composed.repeatOnce chain leaf count).respects below

theorem respects_runLeaf (chain : Chain ν) (leaf : Leaf ν) :
    L.Respects (runner.runLeaf chain leaf) :=
  (Composed.runLeaf chain leaf).respects below

theorem respects_runAfterAll (groups : List (Group ν)) :
    L.Respects (runner.runAfterAll groups) :=
  (Composed.runAfterAll groups).respects below

end

/-- The entries to the interpreter respect every likeness, however deep calls go. -/
theorem respects_deeper (levels : Nat) : L.RespectsDeeper (Deeper.within levels : Deeper ν) := by
  induction levels with
  | zero =>
    exact ⟨fun _ => respects_raise _, fun _ _ _ => (respects_raise _).bind fun _ => respects_pure _,
      fun _ _ => respects_raise _⟩
  | succ levels ih =>
    exact ⟨fun init => (Composed.initialiser init : Composed _ true _).respects ih,
      fun here body b => (Composed.apply here body b : Composed _ true _).respects ih,
      fun config body => (Composed.declareAndRun .test config body : Composed _ true _).respects ih⟩

theorem respects_replay (report : RunReport) : L.Respects (report.replay : Flow ν .flow Unit) :=
  (Composed.replay report : Composed _ true _).respects (respects_deeper 0)

end Likeness
end NestedSpec
