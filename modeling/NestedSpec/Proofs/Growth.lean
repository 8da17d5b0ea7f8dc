import NestedSpec.Proofs.LikeRuns
import NestedSpec.Proofs.Unwinding

/-!
# Recorders only grow

Whatever a flow does, its recorder keeps its place, its marks, its lines and its cases, and the cases
that are added belong to sub-runs below it. This holds at every moment of a run: when a flow has
ended, and after each cleanup and each finaliser.
-/

namespace NestedSpec

variable {ν α σ ι : Type} {t : Target}

def StrictlyBelow (path other : List String) : Prop :=
  ∃ name rest, other = path ++ name :: rest

theorem StrictlyBelow.of_child {path other : List String} {name : String}
    (below : StrictlyBelow (path ++ [name]) other) : StrictlyBelow path other := by
  obtain ⟨next, rest, rfl⟩ := below
  exact ⟨name, next :: rest, by simp⟩

namespace Recorder

structure Extends (r later : Recorder) : Prop where
  path : later.path = r.path
  failed : r.failed = true → later.failed = true
  skipped : r.skipped = true → later.skipped = true
  logs : r.logs <+: later.logs
  cases : ∃ newer, later.cases = r.cases ++ newer ∧ ∀ c ∈ newer, StrictlyBelow r.path c.path

namespace Extends

theorem refl (r : Recorder) : r.Extends r :=
  ⟨rfl, id, id, List.prefix_refl _, [], by simp⟩

theorem trans {first second third : Recorder} (before : first.Extends second)
    (after : second.Extends third) : first.Extends third := by
  obtain ⟨newer, cases, below⟩ := before.cases
  obtain ⟨newest, casesLater, belowLater⟩ := after.cases
  refine ⟨after.path.trans before.path, after.failed ∘ before.failed,
    after.skipped ∘ before.skipped, before.logs.trans after.logs, newer ++ newest, ?_, ?_⟩
  · rw [casesLater, cases, List.append_assoc]
  · intro c member
    rcases List.mem_append.mp member with old | new
    · exact below c old
    · exact before.path ▸ belowLater c new

theorem log (r : Recorder) (message : String) : r.Extends (r.log message) :=
  ⟨rfl, id, id, List.prefix_append _ _, [], by simp [Recorder.log]⟩

theorem fail (r : Recorder) : r.Extends r.fail :=
  ⟨rfl, fun _ => rfl, id, List.prefix_refl _, [], by simp [Recorder.fail]⟩

theorem skip (r : Recorder) : r.Extends r.skip :=
  ⟨rfl, id, fun _ => rfl, List.prefix_refl _, [], by simp [Recorder.skip]⟩

theorem merge (r : Recorder) {ended : Recorder} {name : String}
    (grown : (r.child name).Extends ended) : r.Extends (r.merge ended name) := by
  obtain ⟨newer, cases, below⟩ := grown.cases
  have own : ended.path = r.path ++ [name] := grown.path
  refine ⟨rfl, fun failed => by simp [Recorder.merge, failed], id, List.prefix_append _ _,
    newer ++ [⟨ended.path, ended.failed, ended.skipped⟩], ?_, ?_⟩
  · rw [Recorder.merge, cases]
    simp [Recorder.child, Recorder.ofPath]
  · intro c member
    rcases List.mem_append.mp member with inner | last
    · exact (below c inner).of_child
    · rw [List.mem_singleton.mp last, own]
      exact ⟨name, [], rfl⟩

end Extends
end Recorder

def growth : Likeness Recorder where
  like base r r' := r = r' ∧ base.Extends r
  below base name := base.child name
  name like := by rw [like.1]
  failed like := by rw [like.1]
  skipped like := by rw [like.1]
  log message like := ⟨by rw [like.1], like.2.trans (.log _ message)⟩
  fail like := ⟨by rw [like.1], like.2.trans (.fail _)⟩
  skip like := ⟨by rw [like.1], like.2.trans (.skip _)⟩
  child {i r r'} name like := by
    refine ⟨by rw [like.1], ?_⟩
    have same : r.child name = i.child name := by rw [Recorder.child, like.2.path, Recorder.child]
    rw [same]
    exact .refl _
  merge {i r r' c c'} name like likeChild := by
    refine ⟨by rw [like.1, likeChild.1], like.2.trans (.merge r ?_)⟩
    have same : r.child name = i.child name := by rw [Recorder.child, like.2.path, Recorder.child]
    rw [same]
    exact likeChild.2

theorem growth_same {base : Recorder} {s : State ν t} (grown : base.Extends s.recorder) :
    growth.Same base s s :=
  ⟨rfl, rfl, rfl, grown⟩

namespace Flow

/-- A recorder only grows while the flow runs, and while what it put on the stacks runs. -/
theorem grows {flow : Flow ν t α} (respects : growth.Respects flow) (s : State ν t) :
    s.recorder.Extends (flow.run s).state.recorder :=
  (respects s.recorder s s (growth_same (.refl _))).state.recorder.2

theorem settle_grows {flow : Flow ν .flow Unit} (respects : growth.Respects flow)
    (s : State ν .flow) : s.recorder.Extends (settle (flow.run s)).recorder :=
  (respects s.recorder s s (growth_same (.refl _))).settle.recorder.2

end Flow

namespace Unwinds

variable {account : Outcome → σ → σ} {u : Unwinding σ} {trace : List (Nat × Ended σ)} {final : σ}
  {same : ι → σ → σ → Prop}
  (accounts : ∀ outcome i s s', same i s s' → same i (account outcome s) (account outcome s'))
include accounts

theorem holds_popped {next number : Nat} {entry : Waiting σ} {older : List (Nat × Waiting σ)}
    {s : σ} (waiting : Ended.AllAlike same (((number, entry) :: older).map (·.2))
      (((number, entry) :: older).map (·.2)))
    {i : ι} (start : same i s s) :
    same i ((entry s).accounted account) ((entry s).accounted account) ∧
      Ended.AllAlike same
        ((Unwinding.popped account next (entry s) older).stack.map (·.2))
        ((Unwinding.popped account next (entry s) older).stack.map (·.2)) := by
  obtain ⟨-, state, pushed⟩ := (waiting.1 i s s start).split
  refine ⟨accounts _ _ _ _ state, ?_⟩
  simp only [Unwinding.popped, List.map_append, numberFrom_entries]
  exact pushed.append waiting.2

theorem keeps (run : Unwinds account u trace final)
    (waiting : Ended.AllAlike same (u.stack.map (·.2)) (u.stack.map (·.2)))
    {i : ι} (start : same i u.state u.state) : same i final final := by
  induction run with
  | done => exact start
  | pop later ih =>
    obtain ⟨state, stack⟩ := holds_popped accounts waiting start
    exact ih stack state

/-- What can be said of the state after one of the entries, seeing that it keeps what held at the
start, holds of the state at the end. -/
theorem keeps_after (run : Unwinds account u trace final)
    (waiting : Ended.AllAlike same (u.stack.map (·.2)) (u.stack.map (·.2)))
    {i : ι} (start : same i u.state u.state) {ran : Nat × Ended σ} (member : ran ∈ trace) {j : ι}
    (reached : same i (ran.2.accounted account) (ran.2.accounted account) →
      same j (ran.2.accounted account) (ran.2.accounted account)) : same j final final := by
  induction run with
  | done => simp at member
  | pop later ih =>
    obtain ⟨state, stack⟩ := holds_popped accounts waiting start
    rcases List.mem_cons.mp member with rfl | rest
    · exact later.keeps accounts stack (reached state)
    · exact ih stack state rest

end Unwinds

theorem grows_after_cleanup {cleanups : List (Cleanup ν)}
    (waiting : growth.Cleanups cleanups cleanups) {s final : State ν .flow}
    {trace : List (Nat × Ended (State ν .flow))}
    (run : Unwinds Flow.absorb (.start cleanups s) trace final)
    {ran : Nat × Ended (State ν .flow)} (member : ran ∈ trace) :
    (ran.2.accounted Flow.absorb).recorder.Extends final.recorder := by
  have stack : growth.Cleanups ((numberFrom 0 cleanups).map (·.2))
      ((numberFrom 0 cleanups).map (·.2)) := by rwa [numberFrom_entries]
  exact (run.keeps_after (fun outcome _ _ _ => Likeness.same_absorb outcome) stack
    (growth_same (.refl s.recorder)) member fun _ => growth_same (.refl _)).recorder.2

theorem grows_cleaning {cleanups : List (Cleanup ν)} (waiting : growth.Cleanups cleanups cleanups)
    (s : State ν .flow) : s.recorder.Extends (Flow.runCleanups cleanups s).recorder :=
  (Ended.AllAlike.unwindAll (fun outcome _ _ _ => Likeness.same_absorb outcome) _ _ _ _ waiting
    (growth_same (.refl s.recorder))).recorder.2

theorem grows_after_finaliser {finalisers : List (Finaliser ν)}
    (waiting : growth.Finalisers finalisers finalisers)
    {s final : State ν .leaf × List (Cleanup ν)} (cleanups : growth.Cleanups s.2 s.2)
    {trace : List (Nat × Ended (State ν .leaf × List (Cleanup ν)))}
    (run : Unwinds Flow.reportFinaliser (.start finalisers s) trace final)
    {ran : Nat × Ended (State ν .leaf × List (Cleanup ν))} (member : ran ∈ trace) :
    (ran.2.accounted Flow.reportFinaliser).1.recorder.Extends final.1.recorder := by
  have stack : growth.Finalisers ((numberFrom 0 finalisers).map (·.2))
      ((numberFrom 0 finalisers).map (·.2)) := by rwa [numberFrom_entries]
  exact (run.keeps_after Likeness.same_reportFinaliser stack
    ⟨growth_same (.refl s.1.recorder), cleanups⟩ member
    fun held => ⟨growth_same (.refl _), held.2⟩).1.recorder.2

theorem grows_unwinding {finalisers : List (Finaliser ν)}
    (waiting : growth.Finalisers finalisers finalisers)
    {s final : State ν .leaf × List (Cleanup ν)} (cleanups : growth.Cleanups s.2 s.2)
    {trace : List (Nat × Ended (State ν .leaf × List (Cleanup ν)))}
    (run : Unwinds Flow.reportFinaliser (.start finalisers s) trace final) :
    s.1.recorder.Extends final.1.recorder := by
  have stack : growth.Finalisers ((numberFrom 0 finalisers).map (·.2))
      ((numberFrom 0 finalisers).map (·.2)) := by rwa [numberFrom_entries]
  exact (run.keeps Likeness.same_reportFinaliser stack
    ⟨growth_same (.refl s.1.recorder), cleanups⟩).1.recorder.2

end NestedSpec
