import NestedSpec.Proofs.VariableUses

/-!
# The watch follows the leaf

What is watched of a flow is what the flow does: the uses of a variable lead from the value that is
kept for it before to the value that is kept for it afterwards, and the finalisers that are watched
are those on the stack. This is shown once for everything a script consists of.
-/

namespace NestedSpec

variable {ν α β : Type} {t : Target}

/-! ## Plain flows -/

structure Deeper.Plain (deeper : Deeper ν) : Prop where
  onLet : ∀ here body b s, (((deeper.onLet here body).run b).run s).finalisers = []
  spec : ∀ config body s, ((deeper.spec config body).run s).finalisers = []

/-- Only leaves have finalisers. -/
theorem Composed.finalisers_flow {deeper : Deeper ν} (below : deeper.Plain) {sees : Bool}
    {flow : Flow ν t α} (composed : Composed deeper sees flow) :
    t = .flow → ∀ s, (flow.run s).finalisers = [] := by
  induction composed with
  | @bind _ _ _ _ first next _ _ ih ihLater =>
    intro plain s
    cases ended : (first.run s).result with
    | error stop =>
      rw [Flow.run_bind_of_error next ended]
      exact ih plain s
    | ok value =>
      rw [Flow.run_bind_of_ok next ended, ih plain s, ihLater value plain]
      rfl
  | guard _ ih => exact ih
  | onFlow _ ih => exact fun _ s => ih rfl _
  | countingAnew _ ih =>
    intro _ s
    rw [run_countingAnew]
    exact ih rfl _
  | call call => cases call <;> exact fun _ _ => rfl
  | changeLeaf | pushFinaliser | initialise => exact nofun
  | onLet here body b => exact fun _ s => below.onLet here body b s
  | spec config body => exact fun _ s => below.spec config body s
  | pure | raise | ask | look | adjust | pushCleanup | makeDirectory | isolate | runChild | invoke =>
    exact fun _ _ => rfl

theorem plain_deeper (levels : Nat) : (Deeper.within levels : Deeper ν).Plain := by
  induction levels with
  | zero => exact ⟨fun _ _ _ _ => rfl, fun _ _ _ => rfl⟩
  | succ levels ih =>
    refine ⟨fun here body b s => ?_, fun config body s => ?_⟩
    · have composed : Composed (Deeper.within levels) true
          ((body.apply (Deeper.within levels) here).run b) := .apply here body b
      exact composed.finalisers_flow ih rfl s
    · have composed : Composed (Deeper.within levels) true
          (body.declareAndRun (Deeper.within levels) .test config) := .declareAndRun .test config body
      exact composed.finalisers_flow ih rfl s

structure Flow.Idle (flow : Flow ν t α) : Prop where
  kept : ∀ s id, (flow.run s).state.kept id = s.kept id
  finalisers : ∀ s, (flow.run s).finalisers = []

namespace Flow.Idle

theorem pure (value : α) : (Pure.pure value : Flow ν t α).Idle := ⟨fun _ _ => rfl, fun _ => rfl⟩

theorem raise (stop : Stop) : (Flow.raise stop : Flow ν t α).Idle := ⟨fun _ _ => rfl, fun _ => rfl⟩

theorem ask (read : State ν t → α) : (Flow.ask read).Idle := ⟨fun _ _ => rfl, fun _ => rfl⟩

theorem changeWorld (update : World ν → World ν) : (Flow.changeWorld update : Flow ν t Unit).Idle :=
  ⟨fun _ _ => rfl, fun _ => rfl⟩

theorem changeRecorder (update : Recorder → Recorder) :
    (Flow.changeRecorder update : Flow ν t Unit).Idle :=
  ⟨fun _ _ => rfl, fun _ => rfl⟩

theorem pushCleanup (body : Flow ν .flow Unit) : (Flow.pushCleanup body : Flow ν t Unit).Idle :=
  ⟨fun _ _ => rfl, fun _ => rfl⟩

theorem runChild (name : String) (body : Flow ν .flow Unit) :
    (Flow.runChild name body : Flow ν t Bool).Idle :=
  ⟨fun _ _ => rfl, fun _ => rfl⟩

theorem setRandom (source : Random) :
    (Flow.changeLeaf fun leaf => { leaf with random := source } : Flow ν .leaf Unit).Idle :=
  ⟨fun _ _ => rfl, fun _ => rfl⟩

theorem onFlow {body : Flow ν .flow α} (plain : ∀ s, (body.run s).finalisers = []) :
    (Flow.onFlow body : Flow ν t α).Idle :=
  ⟨fun _ _ => rfl, fun _ => plain _⟩

theorem bind {first : Flow ν t α} {next : α → Flow ν t β} (idle : first.Idle)
    (later : ∀ value, (next value).Idle) : (first >>= next).Idle := by
  refine ⟨fun s id => ?_, fun s => ?_⟩
  · cases ended : (first.run s).result with
    | error stop =>
      rw [Flow.run_bind_of_error next ended]
      exact idle.kept s id
    | ok value =>
      rw [Flow.run_bind_of_ok next ended]
      exact ((later value).kept _ id).trans (idle.kept s id)
  · cases ended : (first.run s).result with
    | error stop =>
      rw [Flow.run_bind_of_error next ended]
      exact idle.finalisers s
    | ok value =>
      rw [Flow.run_bind_of_ok next ended, idle.finalisers, (later value).finalisers]
      rfl

theorem forM (items : List β) {part : β → Flow ν t Unit} (each : ∀ item, (part item).Idle) :
    (items.forM part).Idle :=
  forM_holds (pure ()) (fun first later => first.bind fun _ => later) fun item _ => each item

theorem error (message : String) : (Flow.error message : Flow ν t Unit).Idle :=
  changeRecorder _

theorem failNow : (Flow.failNow : Flow ν t α).Idle :=
  (changeRecorder _).bind fun _ => raise _

theorem fatal (message : String) : (Flow.fatal message : Flow ν t α).Idle :=
  (changeRecorder _).bind fun _ => failNow

theorem skipNow : (Flow.skipNow : Flow ν t α).Idle :=
  (changeRecorder _).bind fun _ => raise _

theorem tempDir : (Flow.tempDir : Flow ν t Nat).Idle :=
  (ask _).bind fun _ => (changeWorld _).bind fun _ => (pushCleanup _).bind fun _ => pure _

theorem lookupVariable (name : String) : (Flow.lookupVariable name : Flow ν t (Variable ν)).Idle := by
  refine (ask _).bind fun found => ?_
  cases found with
  | none => exact raise _
  | some v => exact pure v

end Flow.Idle

/-! ## Uses of a variable -/

/-- The uses, as far as they concern one variable, lead from what is kept for it to what is kept for
it afterwards. Whatever an initialiser does lies between its start and its end. -/
inductive Leads (id : Nat) : Option Value → List VariableUse → Option Value → Prop
  | nil (kept : Option Value) : Leads id kept [] kept
  | elsewhere {use : VariableUse} (other : use.id ≠ id) (kept : Option Value) :
      Leads id kept [use] kept
  | reads (value : Value) : Leads id (some value) [⟨id, .reads value, some value⟩] (some value)
  | misses : Leads id none [⟨id, .misses, none⟩] none
  | sets (kept : Option Value) (value : Value) :
      Leads id kept [⟨id, .sets value, some value⟩] (some value)
  | completes {inside : List VariableUse} {kept : Option Value} (leads : Leads id none inside kept)
      (value : Value) : Leads id none
        (⟨id, .starts, none⟩ :: inside ++ [⟨id, .completes value, some value⟩]) (some value)
  | breaksOff {inside : List VariableUse} {kept : Option Value} (leads : Leads id none inside kept) :
      Leads id none (⟨id, .starts, none⟩ :: inside ++ [⟨id, .breaksOff, kept⟩]) kept
  | append {before between after : Option Value} {first second : List VariableUse}
      (leads : Leads id before first between) (later : Leads id between second after) :
      Leads id before (first ++ second) after

theorem Leads.elsewhere_all {id : Nat} {uses : List VariableUse} (others : ∀ use ∈ uses, use.id ≠ id)
    (kept : Option Value) : Leads id kept uses kept := by
  induction uses with
  | nil => exact .nil kept
  | cons use rest ih =>
    obtain ⟨other, later⟩ := List.forall_mem_cons.mp others
    exact (Leads.elsewhere other kept).append (ih later)

structure Tallies (s : State ν t) (step : Step ν t α) (watched : Watched ν) : Prop where
  leads : ∀ id, Leads id (s.kept id) watched.uses (step.state.kept id)
  finalisers : step.finalisers =
    watched.deferred.map fun deferred => Flow.toFinaliser deferred.flow

def Tracks (flow : Flow ν t α) (watch : Watch ν t) : Prop :=
  ∀ s, Tallies s (flow.run s) (watch s)

theorem kept_store (id other : Nat) (value : Value) (s : State ν .leaf) :
    ((Flow.store id value).run s).state.kept other =
      if other = id then some value else s.kept other :=
  lookup_kept id other value s.own.cache

theorem kept_store_self (id : Nat) (value : Value) (s : State ν .leaf) :
    ((Flow.store id value).run s).state.kept id = some value :=
  (kept_store id id value s).trans (if_pos rfl)

theorem Flow.run_readVariable_kept (deeper : Deeper ν) (v : Variable ν)
    (otherwise : Flow ν .leaf Value) {s : State ν .leaf} {value : Value}
    (kept : s.kept v.id = some value) :
    (readVariable deeper v otherwise).run s = ⟨.ok value, s, [], []⟩ := by
  have asked : (ask fun s => (s.own : LeafState ν).cache.lookup v.id :
      Flow ν .leaf (Option Value)).run s = ⟨.ok (some value), s, [], []⟩ :=
    congrArg (fun found => (⟨.ok found, s, [], []⟩ : Step ν .leaf (Option Value))) kept
  exact run_bind_ok _ asked

namespace Tracks

theorem idle {flow : Flow ν t α} (idle : flow.Idle) : Tracks flow .idle := by
  refine fun s => ⟨fun id => ?_, idle.finalisers s⟩
  rw [idle.kept]
  exact .nil _

theorem bind {first : Flow ν t α} {during : Watch ν t} {next : α → Flow ν t β}
    {watch : α → Watch ν t} (tracks : Tracks first during)
    (later : ∀ value, Tracks (next value) (watch value)) :
    Tracks (first >>= next) (.bind first during watch) := by
  intro s
  have here := tracks s
  cases ended : (first.run s).result with
  | error stop =>
    rw [Flow.run_bind_of_error next ended, Watch.bind, ended]
    exact ⟨here.leads, here.finalisers⟩
  | ok value =>
    have after := later value (first.run s).state
    rw [Flow.run_bind_of_ok next ended, Watch.bind, ended]
    refine ⟨fun id => (here.leads id).append (after.leads id), ?_⟩
    rw [after.finalisers, here.finalisers, ← List.map_append]

theorem guard {body : Flow ν t Unit} {watch : Watch ν t} (tracks : Tracks body watch) :
    Tracks (Flow.guard body) watch :=
  fun s => ⟨(tracks s).leads, (tracks s).finalisers⟩

theorem defer (level : Nat) (script : Script ν .leaf) :
    Tracks (Flow.pushFinaliser (script.exec (Deeper.within level))) (.defer level script) :=
  fun _ => ⟨fun _ => .nil _, rfl⟩

theorem store (id : Nat) (value : Value) : Tracks (Flow.store id value : Flow ν .leaf Unit)
    (.store id value) := by
  refine fun s => ⟨fun other => ?_, rfl⟩
  by_cases same : other = id
  · subst same
    rw [Watch.store, State.use, kept_store_self]
    exact .sets _ value
  · rw [kept_store, if_neg same]
    exact .elsewhere (Ne.symm same) _

/-- An initialiser that is run for a variable, and whose value is kept if there is one. -/
theorem compute {level : Nat} {init : Initialiser ν} {during : Watch ν .leaf}
    (tracks : Tracks ((Deeper.within level).initialise init) during) (id : Nat) {s : State ν .leaf}
    (missing : s.kept id = none) :
    Tallies s ((Flow.compute (Deeper.within level) id init).run s)
      ⟨s.use id .starts :: (during s).uses ++
          Watch.initialised id (((Deeper.within level).initialise init).run s),
        (during s).deferred⟩ := by
  have inside := tracks s
  have start (other : Nat) (away : id ≠ other) :
      Leads other (s.kept other) (s.use id .starts :: (during s).uses)
        ((((Deeper.within level).initialise init).run s).state.kept other) := by
    have first : Leads other (s.kept other) [s.use id .starts] (s.kept other) := .elsewhere away _
    exact first.append (inside.leads other)
  have here := inside.leads id
  rw [missing] at here
  unfold Flow.compute Watch.initialised
  cases ended : (((Deeper.within level).initialise init).run s).result with
  | error stop =>
    rw [Flow.run_bind_of_error _ ended]
    refine ⟨fun other => ?_, inside.finalisers⟩
    by_cases away : id = other
    · subst away
      simp only [State.use, missing]
      exact .breaksOff here
    · exact (start other away).append (.elsewhere away _)
  | ok value =>
    rw [Flow.run_bind_of_ok _ ended]
    refine ⟨fun other => ?_, inside.finalisers⟩
    let ended := ((Deeper.within level).initialise init).run s
    by_cases away : id = other
    · subst away
      -- The value is kept before it is returned.
      have kept := kept_store_self id value ended.state
      have computed := (Leads.completes here value).append (.reads value)
      rw [List.append_assoc] at computed
      simp only [State.use, missing]
      exact kept.symm ▸ computed
    · have kept := kept_store id other value ended.state
      rw [if_neg (Ne.symm away)] at kept
      refine (start other away).append ?_
      exact kept.symm ▸ .elsewhere_all (by simpa [State.use] using away) _

/-- Reading a variable, if reading one without a value and without an initialiser is idle. -/
theorem read {level : Nat} {inside : Initialiser ν → Watch ν .leaf}
    (below : ∀ init, Tracks ((Deeper.within level).initialise init) (inside init)) (v : Variable ν)
    {otherwise : Flow ν .leaf Value} (idle : otherwise.Idle) :
    Tracks (Flow.readVariable (Deeper.within level) v otherwise) (.read level inside v) := by
  intro s
  unfold Watch.read
  cases found : s.kept v.id with
  | some value =>
    rw [Flow.run_readVariable_kept _ v otherwise found]
    refine ⟨fun other => ?_, rfl⟩
    by_cases away : v.id = other
    · subst away
      simp only [State.use, found]
      exact .reads value
    · exact .elsewhere away _
  | none =>
    rw [Flow.run_readVariable _ v otherwise found]
    cases ((bindingIn (s.own : LeafState ν).scope v.id).map Binding.init).or v.init with
    | none =>
      refine ⟨fun other => ?_, idle.finalisers s⟩
      rw [idle.kept]
      by_cases away : v.id = other
      · subst away
        simp only [State.use, found]
        exact .misses
      · exact .elsewhere away _
    | some init => exact compute (below init) v.id found

variable {level : Nat} {inside : Initialiser ν → Watch ν .leaf}
  (below : ∀ init, Tracks ((Deeper.within level).initialise init) (inside init))

include below

theorem get (v : Variable ν) : Tracks (Flow.get (Deeper.within level) v) (.read level inside v) :=
  read below v (.fatal _)

theorem getOrDefault (v : Variable ν) :
    Tracks (Flow.getOrDefault (Deeper.within level) v) (.read level inside v) :=
  read below v ((Flow.Idle.error _).bind fun _ => .pure _)

theorem evaluate (expression : Expression) :
    Tracks (expression.evaluate (Deeper.within level)) (expression.watch level inside) := by
  induction expression with
  | constant value => exact idle (.pure value)
  | read name next ih =>
    exact (idle (.lookupVariable name)).bind fun v => (get below v).bind fun value => ih value

theorem exec : {t : Target} → (script : Script ν t) →
    Tracks (script.exec (Deeper.within level)) (script.watch level inside)
  | _, .done => idle (.pure ())
  | _, .stop reason => idle (.raise reason)
  | _, .failNow => idle .failNow
  | _, .skipNow => idle .skipNow
  | _, .note _ next => (idle (.changeWorld _)).bind fun _ => exec next
  | _, .log _ next => (idle (.changeRecorder _)).bind fun _ => exec next
  | _, .fail next => (idle (.changeRecorder _)).bind fun _ => exec next
  | _, .name next => (idle (.ask _)).bind fun title => exec (next title)
  | _, .failed next => (idle (.ask _)).bind fun mark => exec (next mark)
  | _, .skipped next => (idle (.ask _)).bind fun mark => exec (next mark)
  | _, .cleanup _ next => (idle (.pushCleanup _)).bind fun _ => exec next
  | _, .tempDir next => (idle .tempDir).bind fun number => exec (next (some number))
  | _, .directories next => (idle (.ask _)).bind fun existing => exec (next existing)
  | _, .run _ _ next => (idle (.runChild _ _)).bind fun passed => exec (next passed)
  | _, .guard body next => (exec body).guard.bind fun outcome => exec (next outcome)
  | _, .environment _ next => (idle (.ask _)).bind fun value => exec (next value)
  | _, .setEnvironment _ _ next => (idle (.changeWorld _)).bind fun _ => exec next
  | _, .spec config body next =>
    (idle (.onFlow ((plain_deeper level).spec config body))).bind fun _ => exec next
  | _, .defer body next => (defer level body).bind fun _ => exec next
  | _, .tags next => (idle (.ask _)).bind fun names => exec (next names)
  | _, .counts next => (idle (.ask _)).bind fun counted => exec (next counted.1 counted.2)
  | _, .random next => (idle (.ask _)).bind fun source => exec (next source)
  | _, .setRandom source next => (idle (.setRandom source)).bind fun _ => exec next
  | _, .get key next =>
    (idle (.lookupVariable key)).bind fun v => (get below v).bind fun value => exec (next value)
  | _, .getOrDefault key next =>
    (idle (.lookupVariable key)).bind fun v =>
      (getOrDefault below v).bind fun value => exec (next value)
  | _, .set key value next =>
    (idle (.lookupVariable key)).bind fun v => (store v.id value).bind fun _ => exec next

omit below

theorem initialise (level : Nat) (init : Initialiser ν) :
    Tracks ((Deeper.within level).initialise init) (Initialiser.watch level init) := by
  induction level generalizing init with
  | zero => exact idle (.raise _)
  | succ level ih =>
    cases init with
    | mk steps value => exact (exec ih steps).bind fun _ => evaluate ih value

end Tracks

end NestedSpec
