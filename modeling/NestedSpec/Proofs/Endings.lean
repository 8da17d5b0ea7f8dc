import NestedSpec.Proofs.Bracketing
import NestedSpec.Proofs.Visits

/-!
# How the pieces of a leaf end

A leaf comes to its end in pieces: the parts of its invocations, the finalisers that they pushed,
and the cleanups of the sub-run. Each piece ends in some way and leaves the recorder in some state.
Whether the leaf fails is decided by the pieces one by one: it fails exactly if one of them marks it.
-/

namespace NestedSpec

variable {ν : Type} {t : Target}

inductive Phase where
  | part
  | finaliser
  | cleanup
  | lastHook
deriving Repr, DecidableEq

/-- Whether leaving a piece as failed is a failure of the flow. For finalisers and for hooks that
run after all leaves, only a panic is. -/
def Phase.minds : Phase → Exit → Bool
  | _, .skip => false
  | .part, .fail => true
  | .cleanup, .fail => true
  | .finaliser, .fail => false
  | .lastHook, .fail => false

structure Ending where
  phase : Phase
  result : Except Stop Unit
  recorder : Recorder

namespace Ending

def fails (ending : Ending) : Bool :=
  match ending.result with
  | .ok _ => false
  | .error (.exit .skip) => false
  | .error (.exit .fail) => true
  | .error (.panic _) => true

def minded (ending : Ending) : Bool :=
  match ending.result with
  | .ok _ => false
  | .error (.exit exit) => ending.phase.minds exit
  | .error (.panic _) => true

def marks (ending : Ending) : Bool :=
  ending.recorder.failed || ending.minded

/-- The piece left as failed, but its phase does not mind and the flow was not marked. -/
def lost (ending : Ending) : Bool :=
  !ending.recorder.failed && !ending.phase.minds .fail && ending.result = .error (.exit .fail)

/-- Of the pieces that fail, all mark the flow but those that are lost. -/
theorem marks_iff_not_lost {ending : Ending} (fails : ending.fails = true) :
    ending.marks = true ↔ ending.lost = false := by
  obtain ⟨phase, result, recorder⟩ := ending
  rcases result with stop | value
  · rcases stop with exit | payload
    · cases exit with
      | fail => cases marked : recorder.failed <;> simp [marks, minded, lost, marked]
      | skip => simp [Ending.fails] at fails
    · simp [marks, minded, lost]
  · simp [Ending.fails] at fails

end Ending

theorem failed_absorb {phase : Phase} (minds : phase.minds .fail = true) (r : Recorder)
    (result : Except Stop Unit) :
    (r.absorb (.ofExcept result)).failed = (Ending.mk phase result r).marks := by
  rcases result with (exit | payload) | value
  · cases exit with
    | fail => simp [Recorder.absorb, Outcome.ofExcept, Outcome.ofStop, Ending.marks,
        Ending.minded, minds, Recorder.fail]
    | skip => simp [Recorder.absorb, Outcome.ofExcept, Outcome.ofStop, Ending.marks,
        Ending.minded, Phase.minds, Recorder.skip]
  · simp [Recorder.absorb, Outcome.ofExcept, Outcome.ofStop, Ending.marks, Ending.minded,
      Recorder.fail]
  · simp [Recorder.absorb, Outcome.ofExcept, Ending.marks, Ending.minded]

theorem failed_reportFinaliser (s : State ν .leaf × List (Cleanup ν)) (result : Except Stop Unit) :
    (Flow.reportFinaliser (.ofExcept result) s).1.recorder.failed =
      (Ending.mk .finaliser result s.1.recorder).marks := by
  rcases result with (exit | payload) | value
  · cases exit <;> simp [Flow.reportFinaliser, Outcome.ofExcept, Outcome.ofStop,
      Outcome.panicMessage?, Ending.marks, Ending.minded, Phase.minds]
  · simp [Flow.reportFinaliser, Outcome.ofExcept, Outcome.ofStop, Outcome.panicMessage?,
      Ending.marks, Ending.minded, Recorder.fail]
  · simp [Flow.reportFinaliser, Outcome.ofExcept, Outcome.panicMessage?, Ending.marks,
      Ending.minded]

/-! ## Parts -/

theorem Likeness.respects_inTurn {ι : Type} {L : Likeness ι} {parts : List (Flow ν t Unit)}
    (respects : ∀ part ∈ parts, L.Respects part) : L.Respects (inTurn parts) := by
  rw [← List.map_id parts, ← forM_eq_inTurn]
  exact Flow.forM_holds (respects_pure ()) (fun first later => first.bind fun _ => later) respects

theorem visits_grow {parts : List (Flow ν t Unit)} (respects : ∀ part ∈ parts, growth.Respects part)
    (s : State ν t) {step : Step ν t Unit} (member : step ∈ visits parts s) :
    step.state.recorder.Extends ((inTurn parts).run s).state.recorder := by
  induction parts generalizing s with
  | nil => simp [visits] at member
  | cons part rest ih =>
    have restRespects : ∀ other ∈ rest, growth.Respects other :=
      fun other among => respects other (List.mem_cons_of_mem _ among)
    rcases ended : part.run s with ⟨stop | value, s', finalisers, cleanups⟩
    · simp only [visits, ended, List.mem_singleton] at member
      rw [inTurn, Flow.run_bind_error _ ended, member]
      exact .refl _
    · simp only [visits, ended, List.mem_cons] at member
      rw [inTurn, Flow.run_bind_ok _ ended]
      rcases member with rfl | later
      · exact Flow.grows (Likeness.respects_inTurn restRespects) s'
      · exact ih restRespects s' later

theorem result_of_visited {parts : List (Flow ν t Unit)} (s : State ν t) {step : Step ν t Unit}
    (member : step ∈ visits parts s) {stop : Stop} (stopped : step.result = .error stop) :
    ((inTurn parts).run s).result = .error stop := by
  induction parts generalizing s with
  | nil => simp [visits] at member
  | cons part rest ih =>
    rcases ended : part.run s with ⟨reason | value, s', finalisers, cleanups⟩
    · simp only [visits, ended, List.mem_singleton] at member
      rw [inTurn, Flow.run_bind_error _ ended, ← stopped, member]
    · simp only [visits, ended, List.mem_cons] at member
      rw [inTurn, Flow.run_bind_ok _ ended]
      rcases member with rfl | later
      · simp at stopped
      · exact ih s' later

/-- Parts come to what the last visited one comes to. -/
theorem last_visited {parts : List (Flow ν t Unit)} (some : parts ≠ []) (s : State ν t) :
    ∃ step ∈ visits parts s, step.result = ((inTurn parts).run s).result ∧
      step.state = ((inTurn parts).run s).state := by
  induction parts generalizing s with
  | nil => exact absurd rfl some
  | cons part rest ih =>
    rcases ended : part.run s with ⟨reason | value, s', finalisers, cleanups⟩
    · refine ⟨part.run s, by simp [visits, ended], ?_⟩
      rw [inTurn, Flow.run_bind_error _ ended, ended]
      exact ⟨rfl, rfl⟩
    · rw [inTurn, Flow.run_bind_ok _ ended]
      cases rest with
      | nil =>
        refine ⟨part.run s, by simp [visits, ended], ?_⟩
        rw [ended]
        exact ⟨rfl, rfl⟩
      | cons next others =>
        obtain ⟨step, member, same⟩ := ih (by simp) s'
        have among : step ∈ visits (part :: next :: others) s := by
          rw [visits, ended]
          exact List.mem_cons_of_mem _ member
        exact ⟨step, among, same⟩

def Step.ending (phase : Phase) (step : Step ν t Unit) : Ending :=
  ⟨phase, step.result, step.state.recorder⟩

namespace Runner

theorem respects_parts {ι : Type} {L : Likeness ι} {runner : Runner ν}
    (below : L.RespectsDeeper runner.deeper) (chain : Chain ν) (leaf : Leaf ν) :
    ∀ part ∈ runner.parts chain leaf, L.Respects part := by
  intro part member
  simp only [parts, List.mem_append, List.mem_map, List.mem_singleton] at member
  rcases member with ⟨group, -, rfl⟩ | ⟨hook, -, rfl⟩ | rfl
  · exact Likeness.respects_enter below group
  · exact Likeness.respects_runHook below hook
  · exact Likeness.respects_exec below leaf.body

theorem parts_ne_nil (runner : Runner ν) (chain : Chain ν) (leaf : Leaf ν) :
    runner.parts chain leaf ≠ [] := by
  simp [parts]

/-! ## One invocation -/

inductive EndsOnce (runner : Runner ν) (chain : Chain ν) (leaf : Leaf ν) (s : State ν .flow) :
    Ending → Prop
  | part {step : Step ν .leaf Unit} (visited : step ∈ runner.visited chain leaf s) :
      EndsOnce runner chain leaf s (step.ending .part)
  | finaliser {trace : List (Nat × Ended (State ν .leaf × List (Cleanup ν)))}
      {final : State ν .leaf × List (Cleanup ν)}
      (unwinds : Unwinds Flow.reportFinaliser
        (.start (runner.ranParts chain leaf s).finalisers
          ((runner.ranParts chain leaf s).state, (runner.ranParts chain leaf s).cleanups))
        trace final)
      {ran : Nat × Ended (State ν .leaf × List (Cleanup ν))} (member : ran ∈ trace) :
      EndsOnce runner chain leaf s ⟨.finaliser, ran.2.result, ran.2.state.1.recorder⟩

theorem ranParts_agrees {runner : Runner ν} (below : growth.RespectsDeeper runner.deeper)
    (chain : Chain ν) (leaf : Leaf ν) (s : State ν .flow) :
    growth.Agree s.recorder (runner.ranParts chain leaf s) (runner.ranParts chain leaf s) := by
  rw [← run_parts]
  exact Likeness.respects_inTurn (respects_parts below chain leaf) _ _ _
    (growth_same (.refl s.recorder))

theorem endsOnce_of_marks {runner : Runner ν} {chain : Chain ν} {leaf : Leaf ν}
    {s : State ν .flow}
    (marked : (((runner.runOnce chain leaf).run s).ending .part).marks = true) :
    ∃ ending, runner.EndsOnce chain leaf s ending ∧ ending.marks = true := by
  obtain ⟨trace, ended, cleanups, unwinds, outcome⟩ := runner.runOnce_unwinds chain leaf s
  obtain ⟨step, visited, result, state⟩ := last_visited (runner.parts_ne_nil chain leaf)
    (⟨s.world, s.recorder, runner.leafStart chain leaf⟩ : State ν .leaf)
  rw [runner.run_parts chain leaf s] at result state
  rw [outcome] at marked
  -- The mark is the end of the last part, was there before any finaliser ran, or stands after the
  -- finaliser that ran last.
  cases failed : ended.recorder.failed with
  | false =>
    refine ⟨_, .part visited, ?_⟩
    simp only [Step.ending, Ending.marks, failed, Bool.false_or] at marked
    simp only [Step.ending, Ending.marks, result]
    exact Bool.or_eq_true_iff.mpr (.inr marked)
  | true =>
    rcases unwinds.final_eq with start | ⟨ran, member, last⟩
    · refine ⟨_, .part visited, ?_⟩
      have same : ended = (runner.ranParts chain leaf s).state := congrArg Prod.fst start
      simp [Step.ending, Ending.marks, state, ← same, failed]
    · refine ⟨_, .finaliser unwinds member, ?_⟩
      have same : ended = (ran.2.accounted Flow.reportFinaliser).1 := congrArg Prod.fst last
      rw [← failed_reportFinaliser, ← failed, same]
      rfl

theorem marks_of_endsOnce {runner : Runner ν} (below : growth.RespectsDeeper runner.deeper)
    {chain : Chain ν} {leaf : Leaf ν} {s : State ν .flow} {ending : Ending}
    (piece : runner.EndsOnce chain leaf s ending) (marks : ending.marks = true) :
    (((runner.runOnce chain leaf).run s).ending .part).marks = true := by
  obtain ⟨trace, ended, cleanups, unwinds, outcome⟩ := runner.runOnce_unwinds chain leaf s
  have agrees := ranParts_agrees below chain leaf s
  have parts := runner.run_parts chain leaf s
  rw [outcome]
  cases piece with
  | @part step visited =>
    have grown := visits_grow (respects_parts below chain leaf) _ visited
    rw [parts] at grown
    have unwound : (runner.ranParts chain leaf s).state.recorder.Extends ended.recorder :=
      grows_unwinding agrees.finalisers agrees.cleanups unwinds
    simp only [Step.ending, Ending.marks, Bool.or_eq_true] at marks ⊢
    rcases marks with failed | minded
    · exact .inl (unwound.failed (grown.failed failed))
    · rcases result : step.result with stop | value
      · have stopped := result_of_visited _ visited result
        rw [parts] at stopped
        rw [result] at minded
        rw [stopped]
        exact .inr minded
      · simp [result, Ending.minded] at minded
  | @finaliser trace' final unwinds' ran member =>
    have same : (ended, cleanups) = final := by
      rw [Ended.eq_unwindAll unwinds, Ended.eq_unwindAll unwinds']
    have grown := grows_after_finaliser agrees.finalisers agrees.cleanups unwinds' member
    rw [← failed_reportFinaliser] at marks
    have failed : ended.recorder.failed = true := by
      have last := grown.failed marks
      rwa [← same] at last
    simp [Step.ending, Ending.marks, failed]

/-- An invocation leaves its flow marked exactly if one of its pieces marks it. -/
theorem marks_runOnce {runner : Runner ν} (below : growth.RespectsDeeper runner.deeper)
    (chain : Chain ν) (leaf : Leaf ν) (s : State ν .flow) :
    (((runner.runOnce chain leaf).run s).ending .part).marks = true ↔
      ∃ ending, runner.EndsOnce chain leaf s ending ∧ ending.marks = true :=
  ⟨endsOnce_of_marks, fun ⟨_, piece, marks⟩ => marks_of_endsOnce below piece marks⟩

/-! ## All invocations of a leaf -/

def repeatStarts (runner : Runner ν) (chain : Chain ν) (leaf : Leaf ν) :
    Nat → State ν .flow → List (State ν .flow)
  | 0, _ => []
  | count + 1, s =>
    s :: match ((runner.runOnce chain leaf).run s).result with
      | .ok _ => repeatStarts runner chain leaf count ((runner.runOnce chain leaf).run s).state
      | .error _ => []

def invocations (runner : Runner ν) (chain : Chain ν) (leaf : Leaf ν) (start : State ν .flow) :
    List (State ν .flow) :=
  match runner.skipReason chain with
  | some _ => []
  | none =>
    match runner.mode with
    | .test => [start]
    | .benchmark iterations => runner.repeatStarts chain leaf (max 1 iterations) start

theorem marks_repeatOnce {runner : Runner ν} (below : growth.RespectsDeeper runner.deeper)
    (chain : Chain ν) (leaf : Leaf ν) (count : Nat) (s : State ν .flow)
    (unmarked : s.recorder.failed = false) :
    (((runner.repeatOnce chain leaf count).run s).ending .part).marks = true ↔
      ∃ start ∈ runner.repeatStarts chain leaf count s,
        (((runner.runOnce chain leaf).run start).ending .part).marks = true := by
  induction count generalizing s with
  | zero => simp [repeatOnce, repeatStarts, Step.ending, Ending.marks, Ending.minded, unmarked]
  | succ count ih =>
    rcases ended : (runner.runOnce chain leaf).run s with ⟨stop | value, s', finalisers, cleanups⟩
    · rw [repeatOnce, Flow.run_bind_error _ ended, repeatStarts, ended]
      simp [ended]
    · rw [repeatOnce, Flow.run_bind_ok _ ended, repeatStarts, ended]
      have first : (((runner.runOnce chain leaf).run s).ending .part).marks =
          s'.recorder.failed := by
        simp [ended, Step.ending, Ending.marks, Ending.minded]
      -- Once the flow is marked it stays so, whatever the other invocations do.
      simp only [List.exists_mem_cons_iff, first]
      cases failed : s'.recorder.failed with
      | true =>
        have grown := Flow.grows (Likeness.respects_repeatOnce below chain leaf count) s'
        simp [Step.ending, Ending.marks, grown.failed failed]
      | false =>
        rw [← ih s' failed]
        simp [Step.ending]

theorem marks_runLeaf {runner : Runner ν} (below : growth.RespectsDeeper runner.deeper)
    (chain : Chain ν) (leaf : Leaf ν) (start : State ν .flow)
    (unmarked : start.recorder.failed = false) :
    (((runner.runLeaf chain leaf).run start).ending .part).marks = true ↔
      ∃ s ∈ runner.invocations chain leaf start,
        (((runner.runOnce chain leaf).run s).ending .part).marks = true := by
  unfold runLeaf invocations
  cases runner.skipReason chain with
  | some reason =>
    have skipped : (Flow.skip reason : Flow ν .flow Unit).run start =
        ⟨.error (.exit .skip), { start with recorder := (start.recorder.log reason).skip }, [], []⟩
      := rfl
    simp [skipped, Step.ending, Ending.marks, Ending.minded, Phase.minds, Recorder.skip,
      Recorder.log, unmarked]
  | none =>
    unfold runInvocations
    cases runner.mode with
    | test => simp
    | benchmark iterations =>
      rw [← marks_repeatOnce below chain leaf _ start unmarked]
      rcases ended : (runner.repeatOnce chain leaf (max 1 iterations)).run start
        with ⟨stop | value, s', finalisers, cleanups⟩
      · rw [Flow.run_bind_error _ ended]
      · rw [Flow.run_bind_ok _ ended]
        rfl

inductive EndsIn (runner : Runner ν) (chain : Chain ν) (leaf : Leaf ν) (start : State ν .flow) :
    Ending → Prop
  | invocation {s : State ν .flow} (member : s ∈ runner.invocations chain leaf start)
      {ending : Ending} (piece : runner.EndsOnce chain leaf s ending) :
      EndsIn runner chain leaf start ending
  | cleanup {trace : List (Nat × Ended (State ν .flow))} {final : State ν .flow}
      (unwinds : Unwinds Flow.absorb
        (.start ((runner.runLeaf chain leaf).run start).cleanups
          (Flow.absorb (.ofExcept ((runner.runLeaf chain leaf).run start).result)
            ((runner.runLeaf chain leaf).run start).state))
        trace final)
      {ran : Nat × Ended (State ν .flow)} (member : ran ∈ trace) :
      EndsIn runner chain leaf start ⟨.cleanup, ran.2.result, ran.2.state.recorder⟩

/-- A leaf fails exactly if one of its pieces marks it. -/
theorem failed_endedLeaf {runner : Runner ν} (below : growth.RespectsDeeper runner.deeper)
    (chain : Chain ν) (leaf : Leaf ν) (start : State ν .flow)
    (unmarked : start.recorder.failed = false) :
    (runner.endedLeaf chain leaf start).recorder.failed = true ↔
      ∃ ending, runner.EndsIn chain leaf start ending ∧ ending.marks = true := by
  let ran := (runner.runLeaf chain leaf).run start
  let absorbed := Flow.absorb (.ofExcept ran.result) ran.state
  have agrees := Likeness.respects_runLeaf below chain leaf _ _ _
    (growth_same (.refl start.recorder))
  have absorbs : absorbed.recorder.failed = (ran.ending .part).marks :=
    failed_absorb rfl ran.state.recorder ran.result
  obtain ⟨trace, unwinds⟩ := Ended.unwindAll_unwinds Flow.absorb ran.cleanups absorbed
  constructor
  · intro failed
    -- Without a cleanup the mark comes from the invocations; else it stands after the last cleanup.
    rcases unwinds.final_eq with first | ⟨entry, member, last⟩
    · have marked : (ran.ending .part).marks = true := by
        rw [← absorbs, ← failed]
        exact congrArg (fun s => s.recorder.failed) first.symm
      obtain ⟨s, among, marks⟩ := (marks_runLeaf below chain leaf start unmarked).mp marked
      obtain ⟨ending, piece, marks⟩ := (marks_runOnce below chain leaf s).mp marks
      exact ⟨ending, .invocation among piece, marks⟩
    · refine ⟨_, .cleanup unwinds member, ?_⟩
      rw [← failed_absorb rfl, ← failed]
      exact congrArg (fun s => s.recorder.failed) last.symm
  · rintro ⟨ending, piece, marks⟩
    cases piece with
    | @invocation s among _ piece =>
      have marked := (marks_runLeaf below chain leaf start unmarked).mpr
        ⟨s, among, (marks_runOnce below chain leaf s).mpr ⟨ending, piece, marks⟩⟩
      exact (grows_cleaning agrees.cleanups absorbed).failed (absorbs.trans marked)
    | @cleanup trace' final unwinds' entry member =>
      have grown := grows_after_cleanup agrees.cleanups unwinds' member
      rw [← failed_absorb rfl] at marks
      have failed := grown.failed marks
      rwa [Ended.eq_unwindAll unwinds'] at failed

end Runner
end NestedSpec
