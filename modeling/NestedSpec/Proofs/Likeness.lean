import NestedSpec.Flow

/-!
# Flows on like recorders

Two recorders may be alike for a flow without being equal: it asks them for little, and what it adds
to one of them it adds to the other. A likeness says what has to be alike, at a place in the tree of
sub-runs that is given by an index. A flow respects a likeness if, from states with like recorders,
it ends in the same way in states with like recorders, and what it puts on the stacks does so, too.
-/

namespace NestedSpec

variable {ν α β σ ι : Type} {t : Target}

namespace Ended

mutual
def Alike (same : ι → σ → σ → Prop) (i : ι) : Ended σ → Ended σ → Prop
  | mk result state pushed, mk result' state' pushed' =>
    result = result' ∧ same i state state' ∧ AllAlike same pushed pushed'

def AllAlike (same : ι → σ → σ → Prop) : List (Waiting σ) → List (Waiting σ) → Prop
  | [], [] => True
  | entry :: older, entry' :: older' =>
    (∀ i s s', same i s s' → Alike same i (entry s) (entry' s')) ∧ AllAlike same older older'
  | _, _ => False
end

theorem Alike.split {same : ι → σ → σ → Prop} {i : ι} : {ended ended' : Ended σ} →
    Alike same i ended ended' →
    ended.result = ended'.result ∧ same i ended.state ended'.state ∧
      AllAlike same ended.pushed ended'.pushed
  | mk _ _ _, mk _ _ _, alike => alike

theorem AllAlike.append {same : ι → σ → σ → Prop} {newer newer' older older' : List (Waiting σ)}
    (above : AllAlike same newer newer') (below : AllAlike same older older') :
    AllAlike same (newer ++ older) (newer' ++ older') := by
  induction newer generalizing newer' with
  | nil =>
    cases newer' with
    | nil => exact below
    | cons => exact above.elim
  | cons entry newer ih =>
    cases newer' with
    | nil => exact above.elim
    | cons entry' newer' => exact ⟨above.1, ih above.2⟩

mutual
theorem Alike.unwind {same : ι → σ → σ → Prop} {account : Outcome → σ → σ}
    (accounts : ∀ outcome i s s', same i s s' → same i (account outcome s) (account outcome s'))
    {i : ι} : (ended ended' : Ended σ) → Alike same i ended ended' →
    same i (Ended.unwind account ended) (Ended.unwind account ended')
  | mk _ _ pushed, mk _ _ pushed', ⟨rfl, states, alike⟩ =>
    AllAlike.unwindAll accounts pushed pushed' _ _ alike (accounts _ _ _ _ states)

theorem AllAlike.unwindAll {same : ι → σ → σ → Prop} {account : Outcome → σ → σ}
    (accounts : ∀ outcome i s s', same i s s' → same i (account outcome s) (account outcome s'))
    {i : ι} : (entries entries' : List (Waiting σ)) → (s s' : σ) →
    AllAlike same entries entries' → same i s s' →
    same i (Ended.unwindAll account entries s) (Ended.unwindAll account entries' s')
  | [], [], _, _, _, states => states
  | entry :: older, entry' :: older', s, s', ⟨head, tail⟩, states =>
    AllAlike.unwindAll accounts older older' _ _ tail
      (Alike.unwind accounts (entry s) (entry' s') (head i s s' states))
end

end Ended

/-- A way to compare recorders that a flow cannot tell from one another. -/
structure Likeness (ι : Type) where
  like : ι → Recorder → Recorder → Prop
  below : ι → String → ι
  name : ∀ {i r r'}, like i r r' → r.name = r'.name
  failed : ∀ {i r r'}, like i r r' → r.failed = r'.failed
  skipped : ∀ {i r r'}, like i r r' → r.skipped = r'.skipped
  log : ∀ {i r r'} message, like i r r' → like i (r.log message) (r'.log message)
  fail : ∀ {i r r'}, like i r r' → like i r.fail r'.fail
  skip : ∀ {i r r'}, like i r r' → like i r.skip r'.skip
  child : ∀ {i r r'} name, like i r r' → like (below i name) (r.child name) (r'.child name)
  merge : ∀ {i r r' c c'} name, like i r r' → like (below i name) c c' →
    like i (r.merge c name) (r'.merge c' name)

namespace Likeness

variable (L : Likeness ι)

theorem absorb {i : ι} {r r' : Recorder} (outcome : Outcome) (like : L.like i r r') :
    L.like i (r.absorb outcome) (r'.absorb outcome) := by
  cases outcome with
  | completed => exact like
  | exited exit =>
    cases exit with
    | fail => exact L.fail like
    | skip => exact L.skip like
  | panicked payload => exact L.fail (L.log _ like)

structure Same (i : ι) (s s' : State ν t) : Prop where
  world : s.world = s'.world
  own : s.own = s'.own
  recorder : L.like i s.recorder s'.recorder

def Cleanups : List (Cleanup ν) → List (Cleanup ν) → Prop :=
  Ended.AllAlike fun i => L.Same i

def Finalisers : List (Finaliser ν) → List (Finaliser ν) → Prop :=
  Ended.AllAlike fun i s s' => L.Same i s.1 s'.1 ∧ L.Cleanups s.2 s'.2

structure Agree (i : ι) (step step' : Step ν t α) : Prop where
  result : step.result = step'.result
  state : L.Same i step.state step'.state
  finalisers : L.Finalisers step.finalisers step'.finalisers
  cleanups : L.Cleanups step.cleanups step'.cleanups

def Respects (flow : Flow ν t α) : Prop :=
  ∀ i s s', L.Same i s s' → L.Agree i (flow.run s) (flow.run s')

variable {L}

theorem respects_pure (value : α) : L.Respects (pure value : Flow ν t α) := by
  intro i s s' same
  exact ⟨rfl, same, trivial, trivial⟩

theorem Respects.bind {first : Flow ν t α} {next : α → Flow ν t β} (respects : L.Respects first)
    (later : ∀ value, L.Respects (next value)) : L.Respects (first >>= next) := by
  intro i s s' same
  have agree := respects i s s' same
  rcases ended : first.run s with ⟨result, state, finalisers, cleanups⟩
  rcases ended' : first.run s' with ⟨result', state', finalisers', cleanups'⟩
  rw [ended, ended'] at agree
  obtain ⟨rfl, states, finalisersAlike, cleanupsAlike⟩ := agree
  cases result with
  | error stop =>
    rw [Flow.run_bind_error _ ended, Flow.run_bind_error _ ended']
    exact ⟨rfl, states, finalisersAlike, cleanupsAlike⟩
  | ok value =>
    rw [Flow.run_bind_ok _ ended, Flow.run_bind_ok _ ended']
    have agreeLater := later value i state state' states
    exact ⟨agreeLater.result, agreeLater.state, agreeLater.finalisers.append finalisersAlike,
      agreeLater.cleanups.append cleanupsAlike⟩

theorem respects_raise (stop : Stop) : L.Respects (Flow.raise stop : Flow ν t α) := by
  intro i s s' same
  exact ⟨rfl, same, trivial, trivial⟩

theorem respects_ask {read : State ν t → α}
    (reads : ∀ i s s', L.Same i s s' → read s = read s') : L.Respects (Flow.ask read) := by
  intro i s s' same
  exact ⟨congrArg Except.ok (reads i s s' same), same, trivial, trivial⟩

theorem respects_changeWorld (update : World ν → World ν) :
    L.Respects (Flow.changeWorld update : Flow ν t Unit) := by
  intro i s s' same
  exact ⟨rfl, ⟨congrArg update same.world, same.own, same.recorder⟩, trivial, trivial⟩

theorem respects_changeLeaf (update : LeafState ν → LeafState ν) :
    L.Respects (Flow.changeLeaf update) := by
  intro i s s' same
  exact ⟨rfl, ⟨same.world, congrArg update same.own, same.recorder⟩, trivial, trivial⟩

theorem respects_changeRecorder {update : Recorder → Recorder}
    (updates : ∀ i r r', L.like i r r' → L.like i (update r) (update r')) :
    L.Respects (Flow.changeRecorder update : Flow ν t Unit) := by
  intro i s s' same
  exact ⟨rfl, ⟨same.world, same.own, updates i _ _ same.recorder⟩, trivial, trivial⟩

theorem respects_log (message : String) : L.Respects (Flow.log message : Flow ν t Unit) :=
  respects_changeRecorder fun _ _ _ => L.log message

theorem respects_fail : L.Respects (Flow.changeRecorder Recorder.fail : Flow ν t Unit) :=
  respects_changeRecorder fun _ _ _ => L.fail

theorem Respects.guard {body : Flow ν t Unit} (respects : L.Respects body) :
    L.Respects (Flow.guard body) := by
  intro i s s' same
  have agree := respects i s s' same
  exact ⟨congrArg (Except.ok ∘ Outcome.ofExcept) agree.result, agree.state, agree.finalisers,
    agree.cleanups⟩

theorem same_absorb {i : ι} {s s' : State ν .flow} (outcome : Outcome) (same : L.Same i s s') :
    L.Same i (Flow.absorb outcome s) (Flow.absorb outcome s') :=
  ⟨same.world, same.own, L.absorb outcome same.recorder⟩

theorem Agree.settle {i : ι} {step step' : Step ν .flow Unit} (agree : L.Agree i step step') :
    L.Same i (Flow.settle step) (Flow.settle step') := by
  unfold Flow.settle Flow.runCleanups
  rw [agree.result]
  exact Ended.AllAlike.unwindAll (fun outcome _ _ _ => same_absorb outcome) _ _ _ _ agree.cleanups
    (same_absorb _ agree.state)

theorem Respects.pushCleanup {body : Flow ν .flow Unit} (respects : L.Respects body) :
    L.Respects (Flow.pushCleanup body : Flow ν t Unit) := by
  intro i s s' same
  refine ⟨rfl, same, trivial, ?_, trivial⟩
  intro j r r' sameLater
  have agree := respects j r r' sameLater
  exact ⟨agree.result, agree.state, agree.cleanups⟩

theorem respects_isolate (recorder : Recorder) (body : Flow ν .flow Unit) :
    L.Respects (Flow.isolate recorder body : Flow ν t Recorder) := by
  intro i s s' same
  simp only [Flow.isolate, same.world]
  exact ⟨rfl, ⟨rfl, same.own, same.recorder⟩, trivial, trivial⟩

theorem run_runChild (name : String) (body : Flow ν .flow Unit) (s : State ν t) :
    (Flow.runChild name body).run s =
      let ended := Flow.settle (body.run ⟨s.world, s.recorder.child name, ()⟩)
      ⟨.ok !ended.recorder.failed, ⟨ended.world, s.recorder.merge ended.recorder name, s.own⟩,
        [], []⟩ := rfl

theorem Respects.runChild {body : Flow ν .flow Unit} (name : String) (respects : L.Respects body) :
    L.Respects (Flow.runChild name body : Flow ν t Bool) := by
  intro i s s' same
  have start : L.Same (L.below i name) (⟨s.world, s.recorder.child name, ()⟩ : State ν .flow)
      ⟨s'.world, s'.recorder.child name, ()⟩ :=
    ⟨same.world, rfl, L.child name same.recorder⟩
  have settled := (respects _ _ _ start).settle
  rw [run_runChild, run_runChild]
  exact ⟨congrArg (fun failed => Except.ok !failed) (L.failed settled.recorder),
    ⟨settled.world, same.own, L.merge name same.recorder settled.recorder⟩, trivial, trivial⟩

theorem Respects.onFlow {body : Flow ν .flow α} (respects : L.Respects body) :
    L.Respects (Flow.onFlow body : Flow ν t α) := by
  intro i s s' same
  have agree := respects i ⟨s.world, s.recorder, ()⟩ ⟨s'.world, s'.recorder, ()⟩
    ⟨same.world, rfl, same.recorder⟩
  exact ⟨agree.result, ⟨agree.state.world, same.own, agree.state.recorder⟩, agree.finalisers,
    agree.cleanups⟩

theorem Respects.pushFinaliser {body : Flow ν .leaf Unit} (respects : L.Respects body) :
    L.Respects (Flow.pushFinaliser body) := by
  intro i s s' same
  refine ⟨rfl, ⟨same.world, congrArg LeafState.pushed same.own, same.recorder⟩, ⟨?_, trivial⟩,
    trivial⟩
  rintro j ⟨r, cleanups⟩ ⟨r', cleanups'⟩ ⟨later, waiting⟩
  have agree := respects j { r with own := LeafState.popped r.own }
    { r' with own := LeafState.popped r'.own }
    ⟨later.world, congrArg LeafState.popped later.own, later.recorder⟩
  exact ⟨agree.result, ⟨agree.state, agree.cleanups.append waiting⟩, agree.finalisers⟩

theorem same_reportFinaliser (outcome : Outcome) (i : ι) (s s' : State ν .leaf × List (Cleanup ν))
    (same : L.Same i s.1 s'.1 ∧ L.Cleanups s.2 s'.2) :
    L.Same i (Flow.reportFinaliser outcome s).1 (Flow.reportFinaliser outcome s').1 ∧
      L.Cleanups (Flow.reportFinaliser outcome s).2 (Flow.reportFinaliser outcome s').2 := by
  obtain ⟨states, waiting⟩ := same
  unfold Flow.reportFinaliser
  cases outcome.panicMessage? with
  | none => exact ⟨states, waiting⟩
  | some message =>
    exact ⟨⟨states.world, states.own, L.fail (L.log _ states.recorder)⟩, waiting⟩

theorem Respects.invoke {body : Flow ν .leaf Unit} (start : LeafState ν)
    (respects : L.Respects body) : L.Respects (Flow.invoke start body) := by
  intro i s s' same
  have agree := respects i ⟨s.world, s.recorder, start⟩ ⟨s'.world, s'.recorder, start⟩
    ⟨same.world, rfl, same.recorder⟩
  have unwound := Ended.AllAlike.unwindAll same_reportFinaliser _ _ _ _ agree.finalisers
    (⟨agree.state, agree.cleanups⟩ : L.Same i (_, _).1 (_, _).1 ∧ L.Cleanups (_, _).2 (_, _).2)
  exact ⟨agree.result, ⟨unwound.1.world, rfl, unwound.1.recorder⟩, trivial, unwound.2⟩

end Likeness
end NestedSpec
