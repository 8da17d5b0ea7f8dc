import NestedSpec.Runner
import NestedSpec.Proofs.Unwinding

/-!
# One invocation of a leaf

An invocation visits its parts in turn: the hooks that run once, the hooks around every leaf from
the outermost group inwards, and the body, up to and including the first part that stops. Then the
stack of finalisers unwinds, and the invocation ends the way its parts ended. What its parts and
finalisers registered as cleanups is handed back, and has not run.
-/

namespace NestedSpec

variable {ν α : Type} {t : Target}

def inTurn : List (Flow ν t Unit) → Flow ν t Unit
  | [] => pure ()
  | part :: rest => do
    part
    inTurn rest

/-- What came of the parts that are visited: all of them, or those up to the first one that stops,
each starting from the state that the one before it left. -/
def visits : List (Flow ν t Unit) → State ν t → List (Step ν t Unit)
  | [], _ => []
  | part :: rest, s =>
    match (part.run s).result with
    | .ok _ => part.run s :: visits rest (part.run s).state
    | .error _ => [part.run s]

namespace Step

def after (later earlier : Step ν t Unit) : Step ν t Unit :=
  ⟨later.result, later.state, later.finalisers ++ earlier.finalisers,
    later.cleanups ++ earlier.cleanups⟩

def together (s : State ν t) (steps : List (Step ν t Unit)) : Step ν t Unit :=
  steps.foldl (fun earlier later => later.after earlier) ⟨.ok (), s, [], []⟩

end Step

theorem inTurn_append (first second : List (Flow ν t Unit)) :
    inTurn (first ++ second) = inTurn first >>= fun _ => inTurn second := by
  induction first with
  | nil => simp [inTurn]
  | cons part rest ih => simp [inTurn, ih, bind_assoc]

theorem forM_eq_inTurn (items : List α) (part : α → Flow ν t Unit) :
    items.forM part = inTurn (items.map part) := by
  induction items with
  | nil => rfl
  | cons item rest ih =>
    simp only [List.map_cons, inTurn, ← ih]
    rfl

theorem forM_forM_eq_inTurn {β : Type} (items : List α) (members : α → List β)
    (part : β → Flow ν t Unit) :
    (items.forM fun item => (members item).forM part) =
      inTurn ((items.flatMap members).map part) := by
  rw [forM_eq_inTurn]
  induction items with
  | nil => rfl
  | cons item rest ih =>
    simp only [List.map_cons, List.flatMap_cons, List.map_append, inTurn, inTurn_append,
      forM_eq_inTurn, ← ih]

theorem run_inTurn_after (parts : List (Flow ν t Unit)) (s : State ν t)
    (earlier : Step ν t Unit) (completed : earlier.result = .ok ()) (here : earlier.state = s) :
    ((inTurn parts).run s).after earlier =
      (visits parts s).foldl (fun earlier later => later.after earlier) earlier := by
  induction parts generalizing s earlier with
  | nil =>
    subst here
    simp [inTurn, visits, Step.after, ← completed]
  | cons part rest ih =>
    rcases ended : part.run s with ⟨stop | value, s', finalisers, cleanups⟩
    · simp [inTurn, visits, ended, Flow.run_bind_error _ ended]
    · have later := ih s' ((part.run s).after earlier) (by simp [Step.after, ended])
        (by simp [Step.after, ended])
      simp only [ended] at later
      simp only [inTurn, visits, ended, List.foldl_cons, ← later, Flow.run_bind_ok _ ended]
      simp [Step.after]

/-- What parts come to in turn is put together from what the visited ones come to. -/
theorem run_inTurn (parts : List (Flow ν t Unit)) (s : State ν t) :
    (inTurn parts).run s = Step.together s (visits parts s) := by
  have run := run_inTurn_after parts s ⟨.ok (), s, [], []⟩ rfl rfl
  simpa [Step.after, Step.together] using run

theorem visits_completed (parts : List (Flow ν t Unit)) (s : State ν t) :
    ∀ step ∈ (visits parts s).dropLast, step.result = .ok () := by
  induction parts generalizing s with
  | nil => simp [visits]
  | cons part rest ih =>
    intro step member
    cases ended : (part.run s).result with
    | error stop => simp [visits, ended] at member
    | ok value =>
      simp only [visits, ended] at member
      cases tail : visits rest (part.run s).state with
      | nil => simp [tail] at member
      | cons second others =>
        rw [tail, List.dropLast_cons_cons, ← tail] at member
        rcases List.mem_cons.mp member with rfl | later
        · exact ended
        · exact ih _ step later

theorem length_visits (parts : List (Flow ν t Unit)) (s : State ν t)
    (completed : ((inTurn parts).run s).result = .ok ()) :
    (visits parts s).length = parts.length := by
  induction parts generalizing s with
  | nil => rfl
  | cons part rest ih =>
    rcases ended : part.run s with ⟨stop | value, s', finalisers, cleanups⟩
    · simp [inTurn, Flow.run_bind_error _ ended] at completed
    · simp only [inTurn, Flow.run_bind_ok _ ended] at completed
      simp [visits, ended, ih s' completed]

namespace Runner

def parts (runner : Runner ν) (chain : Chain ν) (leaf : Leaf ν) : List (Flow ν .leaf Unit) :=
  chain.map runner.enter ++
    ((chain.flatMap (·.hooks)).map runner.runHook ++ [leaf.body.exec runner.deeper])

def visited (runner : Runner ν) (chain : Chain ν) (leaf : Leaf ν) (s : State ν .flow) :
    List (Step ν .leaf Unit) :=
  visits (runner.parts chain leaf) ⟨s.world, s.recorder, runner.leafStart chain leaf⟩

def ranParts (runner : Runner ν) (chain : Chain ν) (leaf : Leaf ν) (s : State ν .flow) :
    Step ν .leaf Unit :=
  .together ⟨s.world, s.recorder, runner.leafStart chain leaf⟩ (runner.visited chain leaf s)

theorem run_parts (runner : Runner ν) (chain : Chain ν) (leaf : Leaf ν) (s : State ν .flow) :
    (inTurn (runner.parts chain leaf)).run ⟨s.world, s.recorder, runner.leafStart chain leaf⟩ =
      runner.ranParts chain leaf s :=
  run_inTurn _ _

theorem run_runOnce (runner : Runner ν) (chain : Chain ν) (leaf : Leaf ν) (s : State ν .flow) :
    (runner.runOnce chain leaf).run s =
      let ran := runner.ranParts chain leaf s
      let (ended, cleanups) := Flow.unwind ran.finalisers (ran.state, ran.cleanups)
      ⟨ran.result, ⟨ended.world, ended.recorder, ()⟩, [], cleanups⟩ := by
  have body : (do
      chain.forM runner.enter
      chain.forM fun group => group.hooks.forM runner.runHook
      leaf.body.exec runner.deeper) = inTurn (runner.parts chain leaf) := by
    rw [forM_eq_inTurn, forM_forM_eq_inTurn chain (·.hooks) runner.runHook]
    simp only [parts, inTurn_append, inTurn, bind_pure_unit]
  simp only [runOnce, Flow.invoke, body, run_parts]

theorem runOnce_unwinds (runner : Runner ν) (chain : Chain ν) (leaf : Leaf ν) (s : State ν .flow) :
    ∃ trace ended cleanups,
      Unwinds Flow.reportFinaliser
        (.start (runner.ranParts chain leaf s).finalisers
          ((runner.ranParts chain leaf s).state, (runner.ranParts chain leaf s).cleanups))
        trace (ended, cleanups) ∧
      (runner.runOnce chain leaf).run s = ⟨(runner.ranParts chain leaf s).result,
        ⟨ended.world, ended.recorder, ()⟩, [], cleanups⟩ := by
  let ran := runner.ranParts chain leaf s
  obtain ⟨trace, unwinds⟩ :=
    Ended.unwindAll_unwinds Flow.reportFinaliser ran.finalisers (ran.state, ran.cleanups)
  rcases final : Ended.unwindAll Flow.reportFinaliser ran.finalisers (ran.state, ran.cleanups)
    with ⟨ended, cleanups⟩
  rw [final] at unwinds
  refine ⟨trace, ended, cleanups, unwinds, ?_⟩
  rw [run_runOnce]
  simp only [Flow.unwind, ran, final]

/-- What lies on the stack of finalisers when the parts have run: an `after` hook pushes its script
when it is visited, an `around` hook pushes its second script if the first one came to its end, and
a script pushes what it defers. -/
structure PushesFinalisers (runner : Runner ν) : Prop where
  after : ∀ body s, ((runner.runHook (.after body)).run s).finalisers =
    [Flow.toFinaliser (body.exec runner.deeper)]
  around : ∀ enter exit s, ((runner.runHook (.around enter exit)).run s).finalisers =
    match ((enter.exec runner.deeper).run s).result with
    | .ok _ => Flow.toFinaliser (exit.exec runner.deeper) ::
        ((enter.exec runner.deeper).run s).finalisers
    | .error _ => ((enter.exec runner.deeper).run s).finalisers
  deferred : ∀ body next s, (((Script.defer body next).exec runner.deeper).run s).finalisers =
    ((next.exec runner.deeper).run { s with own := LeafState.pushed s.own }).finalisers ++
      [Flow.toFinaliser (body.exec runner.deeper)]

theorem pushesFinalisers (runner : Runner ν) : runner.PushesFinalisers where
  after body s := rfl
  around enter exit s := by
    simp only [runHook]
    rcases ended : (enter.exec runner.deeper).run s with ⟨stop | value, s', finalisers, cleanups⟩
    · rw [Flow.run_bind_error _ ended]
    · rw [Flow.run_bind_ok _ ended]
      rfl
  deferred body next s := congrArg Step.finalisers (Flow.run_bind_ok _ rfl)

/-- An invocation of a leaf from its start until the stack of finalisers is empty: the trace tells
which finalisers ran, by the order in which they were pushed, and what they came to. -/
structure Bracketed (runner : Runner ν) (chain : Chain ν) (leaf : Leaf ν) (s : State ν .flow)
    (trace : List (Nat × Ended (State ν .leaf × List (Cleanup ν))))
    (ended : State ν .leaf) (cleanups : List (Cleanup ν)) : Prop where
  completed : ∀ step ∈ (runner.visited chain leaf s).dropLast, step.result = .ok ()
  reached : (runner.ranParts chain leaf s).result = .ok () →
    (runner.visited chain leaf s).length = (runner.parts chain leaf).length
  pushes : runner.PushesFinalisers
  unwinds : Unwinds Flow.reportFinaliser
    (.start (runner.ranParts chain leaf s).finalisers
      ((runner.ranParts chain leaf s).state, (runner.ranParts chain leaf s).cleanups))
    trace (ended, cleanups)
  once : (trace.map (·.1)).Perm
    (List.range ((runner.ranParts chain leaf s).finalisers.length + pushedBy trace))
  newestFirst : ∀ before ran after number, trace = before ++ ran :: after →
    number < (runner.ranParts chain leaf s).finalisers.length + pushedBy before →
    number ∉ before.map (·.1) → number ≤ ran.1
  outcome : (runner.runOnce chain leaf).run s =
    ⟨(runner.ranParts chain leaf s).result, ⟨ended.world, ended.recorder, ()⟩, [], cleanups⟩
  cleanupsLast : Flow.settle ((runner.runOnce chain leaf).run s) =
    Flow.runCleanups cleanups
      (Flow.absorb (.ofExcept (runner.ranParts chain leaf s).result)
        ⟨ended.world, ended.recorder, ()⟩)

theorem runOnce_bracketed (runner : Runner ν) (chain : Chain ν) (leaf : Leaf ν)
    (s : State ν .flow) : ∃ trace ended cleanups,
      runner.Bracketed chain leaf s trace ended cleanups := by
  obtain ⟨trace, ended, cleanups, unwinds, outcome⟩ := runner.runOnce_unwinds chain leaf s
  refine ⟨trace, ended, cleanups, ?_⟩
  exact {
    completed := visits_completed _ _
    reached := fun completed => length_visits _ _ (by rwa [run_parts])
    pushes := runner.pushesFinalisers
    unwinds := unwinds
    once := unwinds.numbers_range
    newestFirst := fun _ _ _ _ split known waits => unwinds.newest_first_of_start split known waits
    outcome := outcome
    cleanupsLast := by rw [outcome]; rfl }

end Runner
end NestedSpec
