import NestedSpec.Proofs.Declarations
import NestedSpec.Proofs.Traces
import NestedSpec.Proofs.Unwinding

/-!
# Every flow has a trace

Whatever a flow is composed of, it has a trace from every state. What it puts on the stacks runs
later, in a state that is not known yet, so that this is to be shown of the entries of the stacks
as well, of those that they push, and so on.
-/

namespace NestedSpec

variable {ν α β : Type} {t : Target}

inductive Traceable : Bool → {t : Target} → {α : Type} → Flow ν t α → Prop
  | mk {sees : Bool} {t : Target} {α : Type} {flow : Flow ν t α}
      (bodies : State ν t → List (Flow ν .leaf Unit)) (duties : State ν t → List (Duty ν))
      (does : ∀ s, ∃ deeds, Does (.all sees) flow s deeds (bodies s) (duties s))
      (finalisers : ∀ s, ∀ body ∈ bodies s, ∀ sees, Traceable sees body)
      (cleanups : ∀ s body, Duty.run body ∈ duties s → ∀ sees, Traceable sees body) :
      Traceable sees flow

def FinalisersReady (bodies : List (Flow ν .leaf Unit)) : Prop :=
  ∀ body ∈ bodies, ∀ sees, Traceable sees body

def CleanupsReady (duties : List (Duty ν)) : Prop :=
  ∀ body, Duty.run body ∈ duties → ∀ sees, Traceable sees body

def TraceableFrom (sees : Bool) (flow : Flow ν t α) (s : State ν t) : Prop :=
  ∃ deeds bodies duties, Does (.all sees) flow s deeds bodies duties ∧ FinalisersReady bodies ∧
    CleanupsReady duties

theorem traceable_iff {sees : Bool} {flow : Flow ν t α} :
    Traceable sees flow ↔ ∀ s, TraceableFrom sees flow s := by
  constructor
  · rintro ⟨bodies, duties, does, finalisers, cleanups⟩ s
    obtain ⟨deeds, traced⟩ := does s
    exact ⟨deeds, bodies s, duties s, traced, finalisers s, cleanups s⟩
  · intro each
    choose deeds bodies duties does finalisers cleanups using each
    exact ⟨bodies, duties, fun s => ⟨deeds s, does s⟩, finalisers, cleanups⟩

theorem finalisersReady_nil : FinalisersReady ([] : List (Flow ν .leaf Unit)) :=
  fun _ member => absurd member List.not_mem_nil

theorem cleanupsReady_nil : CleanupsReady ([] : List (Duty ν)) :=
  fun _ member => absurd member List.not_mem_nil

theorem FinalisersReady.append {bodies newer : List (Flow ν .leaf Unit)}
    (below : FinalisersReady bodies) (above : FinalisersReady newer) :
    FinalisersReady (newer ++ bodies) :=
  List.forall_mem_append.mpr ⟨above, below⟩

theorem CleanupsReady.append {duties newer : List (Duty ν)} (below : CleanupsReady duties)
    (above : CleanupsReady newer) : CleanupsReady (newer ++ duties) := by
  intro body member
  rcases List.mem_append.mp member with new | old
  · exact above body new
  · exact below body old

/-! ## Stacks -/

theorem Unwinding.popped_entries {σ : Type} (account : Outcome → σ → σ) (next : Nat)
    (ended : Ended σ) (older : List (Nat × Waiting σ)) :
    (popped account next ended older).stack.map (·.2) = ended.pushed ++ older.map (·.2) := by
  simp [popped]

theorem cleansUp_of_unwinds {sees : Bool} {u : Unwinding (State ν .flow)}
    {trace : List (Nat × Ended (State ν .flow))} {final : State ν .flow}
    (run : Unwinds Flow.absorb u trace final) {duties : List (Duty ν)}
    (stack : u.stack.map (·.2) = duties.map Duty.cleanup) (ready : CleanupsReady duties) :
    ∃ deeds, CleansUp (.all sees) duties u.state deeds := by
  induction run generalizing duties with
  | done next s =>
    obtain rfl : duties = [] := by simpa using stack.symm
    exact ⟨[], .nil s⟩
  | @pop next number entry older s final trace later ih =>
    cases duties with
    | nil => simp at stack
    | cons duty rest =>
      obtain ⟨rfl, below⟩ : entry = duty.cleanup ∧ older.map (·.2) = rest.map Duty.cleanup := by
        simpa using stack
      have remaining : CleanupsReady rest :=
        fun body member => ready body (List.mem_cons_of_mem _ member)
      cases duty with
      | remove number =>
        obtain ⟨deeds, cleans⟩ := ih (below ▸ Unwinding.popped_entries ..) remaining
        exact ⟨_, .remove cleans⟩
      | run body =>
        obtain ⟨deeds, bodies, pushed, does, -, readyPushed⟩ :=
          traceable_iff.mp (ready body (List.mem_cons_self ..) sees) s
        have entries := Unwinding.popped_entries Flow.absorb next ((Duty.run body).cleanup s) older
        have cleanups : ((Duty.run body).cleanup s).pushed = pushed.map Duty.cleanup :=
          does.tells.cleanups
        rw [cleanups, below, ← List.map_append] at entries
        obtain ⟨later, cleans⟩ := ih entries (remaining.append readyPushed)
        exact ⟨_, .run does cleans⟩

theorem exists_cleansUp (sees : Bool) {duties : List (Duty ν)} (ready : CleanupsReady duties)
    (s : State ν .flow) : ∃ deeds, CleansUp (.all sees) duties s deeds := by
  obtain ⟨trace, run⟩ := Ended.unwindAll_unwinds Flow.absorb (duties.map Duty.cleanup) s
  exact cleansUp_of_unwinds run (by simp [Unwinding.start]) ready

theorem Flow.accounted_toFinaliser (body : Flow ν .leaf Unit) (s : State ν .leaf × List (Cleanup ν)) :
    ((toFinaliser body s).accounted reportFinaliser).1 = body.reported s.1.popped := by
  have ended : (toFinaliser body s).accounted reportFinaliser =
      reportFinaliser (body.outcome s.1.popped) ((body.run s.1.popped).state,
        (body.run s.1.popped).cleanups ++ s.2) := rfl
  rw [ended, reportFinaliser_eq]
  rfl

theorem finalises_of_unwinds {sees : Bool} {u : Unwinding (State ν .leaf × List (Cleanup ν))}
    {trace : List (Nat × Ended (State ν .leaf × List (Cleanup ν)))}
    {final : State ν .leaf × List (Cleanup ν)} (run : Unwinds Flow.reportFinaliser u trace final)
    {bodies : List (Flow ν .leaf Unit)} (stack : u.stack.map (·.2) = bodies.map Flow.toFinaliser)
    (ready : FinalisersReady bodies) :
    ∃ deeds duties, Finalises (.all sees) bodies u.state.1 deeds duties ∧ CleanupsReady duties := by
  induction run generalizing bodies with
  | done next s =>
    obtain rfl : bodies = [] := by simpa using stack.symm
    exact ⟨[], [], .nil s.1, cleanupsReady_nil⟩
  | @pop next number entry older s final trace later ih =>
    cases bodies with
    | nil => simp at stack
    | cons body rest =>
      obtain ⟨rfl, below⟩ : entry = Flow.toFinaliser body ∧
          older.map (·.2) = rest.map Flow.toFinaliser := by
        simpa using stack
      have remaining : FinalisersReady rest :=
        fun other member => ready other (List.mem_cons_of_mem _ member)
      obtain ⟨deeds, pushed, duties, does, readyPushed, readyDuties⟩ :=
        traceable_iff.mp (ready body (List.mem_cons_self ..) sees) s.1.popped
      have entries :=
        Unwinding.popped_entries Flow.reportFinaliser next (Flow.toFinaliser body s) older
      have finalisers : (Flow.toFinaliser body s).pushed = pushed.map Flow.toFinaliser :=
        does.tells.finalisers
      have reported := Flow.accounted_toFinaliser body s
      rw [finalisers, below, ← List.map_append] at entries
      obtain ⟨later, newer, finalises, readyNewer⟩ := ih entries (remaining.append readyPushed)
      rw [Unwinding.popped, reported] at finalises
      exact ⟨_, _, .run does finalises, readyDuties.append readyNewer⟩

theorem exists_finalises (sees : Bool) {bodies : List (Flow ν .leaf Unit)}
    (ready : FinalisersReady bodies) (s : State ν .leaf) :
    ∃ deeds duties, Finalises (.all sees) bodies s deeds duties ∧ CleanupsReady duties := by
  obtain ⟨trace, run⟩ :=
    Ended.unwindAll_unwinds Flow.reportFinaliser (bodies.map Flow.toFinaliser) (s, [])
  exact finalises_of_unwinds run (by simp [Unwinding.start]) ready

theorem Traceable.settles {sees : Bool} {body : Flow ν .flow Unit} (traceable : Traceable sees body)
    (s : State ν .flow) : ∃ deeds, Settles (.all sees) body s deeds := by
  obtain ⟨deeds, bodies, duties, does, -, ready⟩ := traceable_iff.mp traceable s
  obtain ⟨later, cleans⟩ := exists_cleansUp sees ready (body.absorbed s)
  exact ⟨_, .mk does cleans⟩

/-! ## Flows -/

namespace Flow

variable {view : View}

theorem calm_pure (value : α) : (pure value : Flow ν t α).Calm view :=
  ⟨fun s => ⟨_, s.world, rfl, rfl⟩, fun _ _ beside => ⟨rfl, beside.world⟩⟩

theorem calm_raise (stop : Stop) : (raise stop : Flow ν t α).Calm view :=
  ⟨fun s => ⟨_, s.world, rfl, rfl⟩, fun _ _ beside => ⟨rfl, beside.world⟩⟩

theorem calm_ask {read : State ν t → α} (reads : ∀ s s', s.Beside view s' → read s = read s') :
    (ask read).Calm view :=
  ⟨fun s => ⟨_, s.world, rfl, rfl⟩,
    fun s s' beside => ⟨congrArg Except.ok (reads s s' beside), beside.world⟩⟩

theorem calm_changeWorld {update : World ν → World ν}
    (silent : ∀ w, (update w).journal = w.journal)
    (steady : ∀ w w', World.Known view w w' → World.Known view (update w) (update w')) :
    (changeWorld update : Flow ν t Unit).Calm view :=
  ⟨fun s => ⟨_, update s.world, rfl, silent _⟩, fun _ _ beside => ⟨rfl, steady _ _ beside.world⟩⟩

end Flow

namespace Traceable

variable {sees : Bool}

/-- A flow that puts nothing on the stacks. -/
theorem of_does {flow : Flow ν t α} (does : ∀ s, ∃ deeds, Does (.all sees) flow s deeds [] []) :
    Traceable sees flow :=
  traceable_iff.mpr fun s =>
    (does s).elim fun deeds traced =>
      ⟨deeds, [], [], traced, finalisersReady_nil, cleanupsReady_nil⟩

theorem calm {flow : Flow ν t α} (calm : flow.Calm (.all sees)) : Traceable sees flow :=
  of_does fun s => ⟨_, .calm calm s⟩

theorem bind {first : Flow ν t α} {next : α → Flow ν t β} (traceable : Traceable sees first)
    (later : ∀ value, Traceable sees (next value)) : Traceable sees (first >>= next) := by
  refine traceable_iff.mpr fun s => ?_
  obtain ⟨deeds, bodies, duties, does, finalisers, cleanups⟩ := traceable_iff.mp traceable s
  cases ended : (first.run s).result with
  | error stop => exact ⟨_, _, _, .bindError does ended, finalisers, cleanups⟩
  | ok value =>
    obtain ⟨deeds', bodies', duties', goesOn, finalisers', cleanups'⟩ :=
      traceable_iff.mp (later value) (first.run s).state
    exact ⟨_, _, _, .bindOk does ended goesOn, finalisers.append finalisers',
      cleanups.append cleanups'⟩

theorem invoke {body : Flow ν .leaf Unit} (start : LeafState ν) (traceable : Traceable sees body) :
    Traceable sees (Flow.invoke start body) := by
  refine traceable_iff.mpr fun s => ?_
  obtain ⟨deeds, bodies, duties, does, finalisers, cleanups⟩ :=
    traceable_iff.mp traceable ⟨s.world, s.recorder, start⟩
  obtain ⟨later, newer, finalises, ready⟩ := exists_finalises sees finalisers
    (body.run ⟨s.world, s.recorder, start⟩).state
  exact ⟨_, _, _, .invoke does finalises, finalisersReady_nil, cleanups.append ready⟩

end Traceable

structure TraceableDeeper (deeper : Deeper ν) : Prop where
  initialise : ∀ sees init, Traceable sees (deeper.initialise init)
  onLet : ∀ sees here body b, Traceable sees ((deeper.onLet here body).run b)
  spec : ∀ sees config body, Traceable sees (deeper.spec config body)

/-- Whatever a flow is composed of, it has a trace from every state. -/
theorem Composed.traceable {deeper : Deeper ν} (below : TraceableDeeper deeper) {sees : Bool}
    {flow : Flow ν t α} (composed : Composed deeper sees flow) : Traceable sees flow := by
  induction composed with
  | pure value => exact .calm (Flow.calm_pure value)
  | raise stop => exact .calm (Flow.calm_raise stop)
  | ask reads => exact .calm (Flow.calm_ask reads)
  | look read => exact .of_does fun s => ⟨_, .look read s⟩
  | adjust silent steady => exact .calm (Flow.calm_changeWorld silent steady)
  | call call => exact .of_does fun s => ⟨_, .call call s⟩
  | changeLeaf keeps => exact .of_does fun s => ⟨_, .changeLeaf keeps s⟩
  | bind _ _ ih ihLater => exact ih.bind ihLater
  | guard _ ih =>
    refine traceable_iff.mpr fun s => ?_
    obtain ⟨deeds, bodies, duties, does, finalisers, cleanups⟩ := traceable_iff.mp ih s
    exact ⟨deeds, bodies, duties, .guard does, finalisers, cleanups⟩
  -- What is put on a stack runs later and from some other state, so its own traces are needed.
  | @pushCleanup _ _ body _ ih =>
    refine traceable_iff.mpr fun s => ⟨_, _, _, .pushCleanup body s, finalisersReady_nil, ?_⟩
    intro other member
    obtain rfl : other = body := by simpa using member
    exact ih
  | @pushFinaliser _ body _ ih =>
    refine traceable_iff.mpr fun s => ⟨_, _, _, .pushFinaliser body s, ?_, cleanupsReady_nil⟩
    intro other member
    obtain rfl : other = body := by simpa using member
    exact ih
  | makeDirectory =>
    refine traceable_iff.mpr fun s => ⟨_, _, _, .makeDirectory s, finalisersReady_nil, ?_⟩
    intro other member
    simp at member
  | isolate recorder _ ih =>
    exact .of_does fun s => (ih.settles _).elim fun _ settles => ⟨_, .isolate settles⟩
  | runChild name _ ih =>
    exact .of_does fun s => (ih.settles _).elim fun _ settles => ⟨_, .runChild settles⟩
  | onFlow _ ih =>
    refine traceable_iff.mpr fun s => ?_
    obtain ⟨deeds, bodies, duties, does, finalisers, cleanups⟩ :=
      traceable_iff.mp ih ⟨s.world, s.recorder, ()⟩
    exact ⟨deeds, bodies, duties, .onFlow does, finalisers, cleanups⟩
  | invoke start _ ih => exact ih.invoke start
  | countingAnew _ ih =>
    refine traceable_iff.mpr fun s => ?_
    obtain ⟨deeds, bodies, duties, does, finalisers, cleanups⟩ :=
      traceable_iff.mp ih { s with world := { s.world with entered := [] } }
    exact ⟨deeds, bodies, duties, .countingAnew does, finalisers, cleanups⟩
  | initialise init => exact below.initialise _ init
  | onLet here body b => exact below.onLet _ here body b
  | spec config body => exact below.spec _ config body

theorem traceable_deeper (levels : Nat) : TraceableDeeper (Deeper.within levels : Deeper ν) := by
  induction levels with
  | zero =>
    exact ⟨fun _ _ => .calm (Flow.calm_raise _),
      fun _ _ _ _ => .bind (.calm (Flow.calm_raise _)) fun _ => .calm (Flow.calm_pure _),
      fun _ _ _ => .calm (Flow.calm_raise _)⟩
  | succ levels ih =>
    exact ⟨fun _ init => (Composed.initialiser init).traceable ih,
      fun _ here body b => (Composed.apply here body b).traceable ih,
      fun _ config body => (Composed.declareAndRun .test config body).traceable ih⟩

end NestedSpec
