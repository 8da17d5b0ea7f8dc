import NestedSpec.Proofs.Borrowing

/-!
# What a flow hands back

What a flow has changed in a part of the world is undone by the cleanups that it leaves behind: they
give the part the values that they were registered with, the newest first. So a flow that has ended
leaves the part as it was, and a flow inside another one does not disturb what waits there.
-/

namespace NestedSpec

variable {ν α β : Type} {t : Target}

def World.setEnvironment (key : String) (value : Option String) (w : World ν) : World ν :=
  { w with environment := (value.map fun v => (key, v)).toList ++
      w.environment.filter (·.1 ≠ key) }

/-- A part of the world that flows change by setting variables of the environment, and by entering
groups, but not otherwise. Where scripts are `free` to set variables for good, these are no part of
it; what is borrowed and given back leaves it as it was. -/
structure Holding (ν : Type) where
  Part : Type
  part : World ν → Part
  assign : String → Option String → Part → Part
  free : Prop
  part_eq : ∀ {w w' : World ν}, w.environment = w'.environment → w.entered = w'.entered →
    part w = part w'
  part_set : ∀ key value (w : World ν), part (w.setEnvironment key value) = assign key value (part w)
  gives_back : ∀ key value (w : World ν),
    assign key (w.environment.lookup key) (assign key value (part w)) = part w
  unseen : free → ∀ key value held, assign key value held = held

namespace Holding

variable {H : Holding ν}

def restore (H : Holding ν) (owed : List (String × Option String)) (held : H.Part) : H.Part :=
  owed.foldl (fun held entry => H.assign entry.1 entry.2 held) held

theorem restore_append (first second : List (String × Option String)) (held : H.Part) :
    H.restore (first ++ second) held = H.restore second (H.restore first held) :=
  List.foldl_append

structure Undoes (H : Holding ν) (cleanups : List (Cleanup ν))
    (owed : List (String × Option String)) : Prop where
  borrows : ∀ s, s.Borrows H.free → (Flow.runCleanups cleanups s).Borrows H.free
  restores : ∀ s, s.Borrows H.free →
    H.part (Flow.runCleanups cleanups s).world = H.restore owed (H.part s.world)

def Pending (H : Holding ν) (cleanups : List (Cleanup ν)) (now before : World ν) : Prop :=
  ∃ owed, H.Undoes cleanups owed ∧ H.restore owed (H.part now) = H.part before

def Waits (H : Holding ν) (before : World ν) (ended : State ν .leaf × List (Cleanup ν)) : Prop :=
  ended.1.Borrows H.free ∧ H.Pending ended.2 ended.1.world before

def Winds (H : Holding ν) (finaliser : Finaliser ν) : Prop :=
  ∀ before ended, H.Waits before ended →
    H.Waits before (Ended.unwind Flow.reportFinaliser (finaliser ended))

/-- What came of a flow that started in this world: what it handed back is as it should be, and its
cleanups make the part what it was. -/
structure Returns (H : Holding ν) (good : α → Prop) (before : World ν) (step : Step ν t α) :
    Prop where
  borrows : step.state.Borrows H.free
  good : ∀ value, step.result = .ok value → good value
  pending : H.Pending step.cleanups step.state.world before
  winds : ∀ finaliser ∈ step.finalisers, H.Winds finaliser

def HandsBack (H : Holding ν) (good : α → Prop) (flow : Flow ν t α) : Prop :=
  ∀ s, s.Borrows H.free → H.Returns good s.world (flow.run s)

abbrev Keeps (H : Holding ν) (flow : Flow ν t α) : Prop := H.HandsBack (fun _ => True) flow

/-! ## Cleanups -/

theorem Undoes.nil : H.Undoes [] [] := ⟨fun _ borrows => borrows, fun _ _ => rfl⟩

theorem Undoes.append {newer older : List (Cleanup ν)} {owed owedOlder : List (String × Option String)}
    (first : H.Undoes newer owed) (second : H.Undoes older owedOlder) :
    H.Undoes (newer ++ older) (owed ++ owedOlder) where
  borrows s borrows := by
    rw [Flow.runCleanups, Ended.unwindAll_append]
    exact second.borrows _ (first.borrows s borrows)
  restores s borrows := by
    rw [Flow.runCleanups, Ended.unwindAll_append, restore_append, ← first.restores s borrows]
    exact second.restores _ (first.borrows s borrows)

theorem Pending.of_part_eq {now before : World ν} (same : H.part now = H.part before) :
    H.Pending [] now before := ⟨[], .nil, same⟩

theorem Pending.trans {newer older : List (Cleanup ν)} {now between before : World ν}
    (second : H.Pending newer now between) (first : H.Pending older between before) :
    H.Pending (newer ++ older) now before := by
  obtain ⟨owed, undoes, back⟩ := second
  obtain ⟨owedOlder, undoesOlder, backOlder⟩ := first
  exact ⟨owed ++ owedOlder, undoes.append undoesOlder, by rw [restore_append, back, backOlder]⟩

/-- A flow that has ended leaves the part as it was. -/
theorem Returns.settle {before : World ν} {step : Step ν .flow Unit} {good : Unit → Prop}
    (returns : H.Returns good before step) : (Flow.settle step).Borrows H.free ∧
      H.part (Flow.settle step).world = H.part before := by
  obtain ⟨owed, undoes, back⟩ := returns.pending
  have absorbed : (Flow.absorb (.ofExcept step.result) step.state).Borrows H.free :=
    ⟨returns.borrows.world, returns.borrows.scope⟩
  exact ⟨undoes.borrows _ absorbed, (undoes.restores _ absorbed).trans back⟩

theorem undoes_toCleanup {body : Flow ν .flow Unit} (keeps : H.Keeps body) :
    H.Undoes [Flow.toCleanup body] [] where
  borrows s borrows := (keeps s borrows).settle.1
  restores s borrows := (keeps s borrows).settle.2

/-! ## Finalisers -/

theorem waits_unwind {finalisers : List (Finaliser ν)}
    (winds : ∀ finaliser ∈ finalisers, H.Winds finaliser) {before : World ν}
    {ended : State ν .leaf × List (Cleanup ν)} (waits : H.Waits before ended) :
    H.Waits before (Flow.unwind finalisers ended) := by
  induction finalisers generalizing ended with
  | nil => exact waits
  | cons finaliser older ih =>
    have later := winds finaliser (List.mem_cons_self ..) before ended waits
    exact ih (fun other member => winds other (List.mem_cons_of_mem _ member)) later

theorem waits_reportFinaliser (outcome : Outcome) {before : World ν}
    {ended : State ν .leaf × List (Cleanup ν)} (waits : H.Waits before ended) :
    H.Waits before (Flow.reportFinaliser outcome ended) := by
  unfold Flow.reportFinaliser
  cases outcome.panicMessage? with
  | none => exact waits
  | some message => exact ⟨⟨waits.1.world, waits.1.scope⟩, waits.2⟩

theorem winds_toFinaliser {body : Flow ν .leaf Unit} (keeps : H.Keeps body) :
    H.Winds (Flow.toFinaliser body) := by
  intro before ended waits
  have popped : ended.1.popped.Borrows H.free := ⟨waits.1.world, waits.1.scope⟩
  have returns := keeps ended.1.popped popped
  exact waits_unwind returns.winds
    (waits_reportFinaliser _ ⟨returns.borrows, returns.pending.trans waits.2⟩)

/-! ## Flows -/

namespace HandsBack

variable {good : α → Prop}

/-- A flow that puts nothing on the stacks and does not touch the part. -/
theorem still {flow : Flow ν t α}
    (ran : ∀ s : State ν t, s.Borrows H.free → ∃ result s', flow.run s = ⟨result, s', [], []⟩ ∧
      s'.Borrows H.free ∧ H.part s'.world = H.part s.world ∧
      ∀ value, result = .ok value → good value) : H.HandsBack good flow := by
  intro s borrows
  obtain ⟨result, s', ended, borrows', same, fine⟩ := ran s borrows
  rw [ended]
  exact ⟨borrows', fine, .of_part_eq same, List.forall_mem_nil _⟩

theorem pure {value : α} (fine : good value) : H.HandsBack good (pure value : Flow ν t α) :=
  still fun s borrows => ⟨_, s, rfl, borrows, rfl, fun _ same => Except.ok.inj same ▸ fine⟩

theorem raise (stop : Stop) : H.HandsBack good (Flow.raise stop : Flow ν t α) :=
  still fun s borrows => ⟨_, s, rfl, borrows, rfl, nofun⟩

theorem ask {read : State ν t → α} (fine : ∀ s, s.Borrows H.free → good (read s)) :
    H.HandsBack good (Flow.ask read) :=
  still fun s borrows =>
    ⟨_, s, rfl, borrows, rfl, fun _ same => Except.ok.inj same ▸ fine s borrows⟩

theorem look (read : State ν t → α) : H.Keeps (Flow.ask read) :=
  ask fun _ _ => trivial

theorem changeRecorder (update : Recorder → Recorder) :
    H.Keeps (Flow.changeRecorder update : Flow ν t Unit) :=
  still fun _ borrows => ⟨_, _, rfl, ⟨borrows.world, borrows.scope⟩, rfl, fun _ _ => trivial⟩

theorem changeLeaf {update : LeafState ν → LeafState ν}
    (keeps : ∀ own, (update own).scope = own.scope) : H.Keeps (Flow.changeLeaf update) := by
  refine still fun s borrows => ⟨_, _, rfl, ⟨borrows.world, ?_⟩, rfl, fun _ _ => trivial⟩
  intro binding member
  have before : binding ∈ (s.own : LeafState ν).scope := keeps s.own ▸ member
  exact borrows.scope binding before

/-- A change of the world that leaves the environment and the groups entered alone. -/
theorem changeWorld {update : World ν → World ν}
    (environment : ∀ w, (update w).environment = w.environment)
    (entered : ∀ w, (update w).entered = w.entered)
    (keeps : ∀ w, w.Borrows H.free → (update w).Borrows H.free) :
    H.Keeps (Flow.changeWorld update : Flow ν t Unit) :=
  still fun s borrows => ⟨_, _, rfl, ⟨keeps _ borrows.world, borrows.scope⟩,
    H.part_eq (environment s.world) (entered s.world), fun _ _ => trivial⟩

theorem bind {better : β → Prop} {first : Flow ν t α} {next : α → Flow ν t β}
    (handsBack : H.HandsBack good first)
    (later : ∀ value, good value → H.HandsBack better (next value)) :
    H.HandsBack better (first >>= next) := by
  intro s borrows
  have returns := handsBack s borrows
  rcases ended : first.run s with ⟨stop | value, s', finalisers, cleanups⟩
  · rw [Flow.run_bind_error _ ended]
    rw [ended] at returns
    exact ⟨returns.borrows, nofun, returns.pending, returns.winds⟩
  · rw [Flow.run_bind_ok _ ended]
    rw [ended] at returns
    have returnsLater := later value (returns.good value rfl) s' returns.borrows
    refine ⟨returnsLater.borrows, returnsLater.good,
      returnsLater.pending.trans returns.pending, fun finaliser member => ?_⟩
    rcases List.mem_append.mp member with newer | older
    · exact returnsLater.winds finaliser newer
    · exact returns.winds finaliser older

theorem forM (items : List β) {part : β → Flow ν t Unit} (each : ∀ item ∈ items, H.Keeps (part item)) :
    H.Keeps (items.forM part) :=
  Flow.forM_holds (pure trivial) (fun first later => first.bind fun _ _ => later) each

theorem guard {body : Flow ν t Unit} (keeps : H.Keeps body) : H.Keeps (Flow.guard body) :=
  fun s borrows =>
    let returns := keeps s borrows
    ⟨returns.borrows, fun _ _ => trivial, returns.pending, returns.winds⟩

theorem pushCleanup {body : Flow ν .flow Unit} (keeps : H.Keeps body) :
    H.Keeps (Flow.pushCleanup body : Flow ν t Unit) :=
  fun _ borrows => ⟨borrows, fun _ _ => trivial, ⟨[], undoes_toCleanup keeps, rfl⟩,
    List.forall_mem_nil _⟩

theorem pushFinaliser {body : Flow ν .leaf Unit} (keeps : H.Keeps body) :
    H.Keeps (Flow.pushFinaliser body) := by
  intro s borrows
  refine ⟨⟨borrows.world, borrows.scope⟩, fun _ _ => trivial, .of_part_eq rfl, ?_⟩
  intro finaliser member
  obtain rfl := List.mem_singleton.mp member
  exact winds_toFinaliser keeps

/-- What runs as a flow of its own has ended when it comes back. -/
theorem isolate (recorder : Recorder) {body : Flow ν .flow Unit} (keeps : H.Keeps body) :
    H.Keeps (Flow.isolate recorder body : Flow ν t Recorder) := by
  apply still
  intro s borrows
  have ended := (keeps _ (borrows.world.flow recorder)).settle
  exact ⟨_, _, rfl, ⟨ended.1.world, borrows.scope⟩, ended.2, fun _ _ => trivial⟩

theorem runChild (name : String) {body : Flow ν .flow Unit} (keeps : H.Keeps body) :
    H.Keeps (Flow.runChild name body : Flow ν t Bool) :=
  (look _).bind fun _ _ => (isolate _ keeps).bind fun _ _ => (changeRecorder _).bind fun _ _ =>
    pure trivial

theorem onFlow {body : Flow ν .flow α} (handsBack : H.HandsBack good body) :
    H.HandsBack good (Flow.onFlow body : Flow ν t α) := by
  intro s borrows
  have returns := handsBack _ (borrows.world.flow s.recorder)
  exact ⟨⟨returns.borrows.world, borrows.scope⟩, returns.good, returns.pending, returns.winds⟩

theorem invoke {start : LeafState ν} (scope : ∀ binding ∈ start.scope, binding.init.Borrows H.free)
    {body : Flow ν .leaf Unit} (keeps : H.Keeps body) : H.Keeps (Flow.invoke start body) := by
  intro s borrows
  let step := body.run ⟨s.world, s.recorder, start⟩
  have returns : H.Returns (fun _ => True) s.world step :=
    keeps ⟨s.world, s.recorder, start⟩ ⟨borrows.world, scope⟩
  have ended : H.Waits s.world (step.state, step.cleanups) := ⟨returns.borrows, returns.pending⟩
  have waits := waits_unwind returns.winds ended
  exact ⟨waits.1.world.flow _, fun _ _ => trivial, waits.2, List.forall_mem_nil _⟩

theorem log (message : String) : H.Keeps (Flow.log message : Flow ν t Unit) :=
  changeRecorder _

theorem error (message : String) : H.Keeps (Flow.error message : Flow ν t Unit) :=
  changeRecorder _

theorem failNow : H.HandsBack good (Flow.failNow : Flow ν t α) :=
  (changeRecorder _).bind fun _ _ => raise _

theorem fatal (message : String) : H.HandsBack good (Flow.fatal message : Flow ν t α) :=
  (log message).bind fun _ _ => failNow

theorem skipNow : H.HandsBack good (Flow.skipNow : Flow ν t α) :=
  (changeRecorder _).bind fun _ _ => raise _

theorem skip (message : String) : H.HandsBack good (Flow.skip message : Flow ν t α) :=
  (log message).bind fun _ _ => skipNow

theorem note (entry : ν) : H.Keeps (Flow.note entry : Flow ν t Unit) :=
  changeWorld (fun _ => rfl) (fun _ => rfl) fun _ borrows => borrows

theorem tempDir : H.Keeps (Flow.tempDir : Flow ν t Nat) := by
  have set : ∀ update : List Bool → List Bool, ∀ {t : Target}, H.Keeps
      (Flow.changeWorld fun w => { w with directories := update w.directories } : Flow ν t Unit) :=
    fun _ _ => changeWorld (fun _ => rfl) (fun _ => rfl) fun _ borrows => borrows
  exact (look _).bind fun number _ => (set (· ++ [true])).bind fun _ _ =>
    (pushCleanup (set (·.set number false))).bind fun _ _ => pure trivial

def borrow (key : String) (value : Option String) : Flow ν t Unit := do
  let previous ← Flow.ask fun s => s.world.environment.lookup key
  Flow.setEnvironment key value
  Flow.pushCleanup (Flow.setEnvironment key previous)

theorem keeps_borrow (key : String) (value : Option String) :
    H.Keeps (borrow key value : Flow ν t Unit) := by
  intro s borrows
  have undoes : ∀ previous, H.Undoes
      [Flow.toCleanup (Flow.setEnvironment key previous : Flow ν .flow Unit)] [(key, previous)] :=
    fun previous => ⟨fun s borrows => ⟨borrows.world, borrows.scope⟩,
      fun s _ => H.part_set key previous s.world⟩
  refine ⟨⟨borrows.world, borrows.scope⟩, fun _ _ => trivial, ⟨_, undoes _, ?_⟩,
    List.forall_mem_nil _⟩
  change H.assign key (s.world.environment.lookup key)
    (H.part (s.world.setEnvironment key value)) = H.part s.world
  rw [H.part_set, H.gives_back]

theorem setEnvironment (permitted : H.free) (key : String) (value : Option String) :
    H.Keeps (Flow.setEnvironment key value : Flow ν t Unit) := by
  refine still fun s borrows => ⟨_, _, rfl, ⟨borrows.world, borrows.scope⟩, ?_, fun _ _ => trivial⟩
  change H.part (s.world.setEnvironment key value) = _
  rw [H.part_set, H.unseen permitted]

end HandsBack

/-! ## Scripts -/

structure Below (H : Holding ν) (deeper : Deeper ν) : Prop where
  initialise : ∀ init, init.Borrows H.free → H.Keeps (deeper.initialise init)
  onLet : ∀ here body b, body.Borrows H.free → b.Borrows H.free →
    H.HandsBack (fun ended => ended.2.Borrows H.free) ((deeper.onLet here body).run b)
  spec : ∀ config body, body.Borrows H.free → H.Keeps (deeper.spec config body)

namespace HandsBack

variable {deeper : Deeper ν}

theorem exec_putEnvironment (key : String) (value : Option String) (next : Script ν t) :
    (Script.putEnvironment key value next).exec deeper =
      borrow key value >>= fun _ => next.exec deeper := by
  simp only [Script.putEnvironment, Script.exec, borrow, bind_assoc, bind_pure_unit]

theorem lookupVariable (name : String) : H.HandsBack (fun v : Variable ν => v.Borrows H.free)
    (Flow.lookupVariable name : Flow ν t (Variable ν)) := by
  have found : H.HandsBack (fun v : Option (Variable ν) => ∀ v' ∈ v, v'.Borrows H.free)
      (Flow.ask fun s => s.world.named.lookup name : Flow ν t _) := by
    apply ask
    intro s borrows v' same
    obtain ⟨before, after, table, -⟩ := List.lookup_eq_some_iff.mp same
    have member : (name, v') ∈ s.world.named := by
      rw [table]
      exact List.mem_append_right _ (List.mem_cons_self ..)
    exact borrows.world _ member
  apply found.bind
  intro v borrows
  cases v with
  | none => exact raise _
  | some v => exact pure (borrows v rfl)

theorem initialiser {v : Variable ν} (borrows : v.Borrows H.free) :
    H.HandsBack (fun init : Option (Initialiser ν) => ∀ init' ∈ init, init'.Borrows H.free)
      (Flow.initialiser v) := by
  apply ask
  intro s here init same
  cases bound : bindingIn (s.own : LeafState ν).scope v.id with
  | none =>
    rw [bound] at same
    exact borrows.init init same
  | some binding =>
    rw [bound] at same
    obtain rfl : binding.init = init := Option.some.inj same
    exact here.scope binding (List.mem_of_find?_eq_some bound)

theorem store (id : Nat) (value : Value) : H.Keeps (Flow.store id value : Flow ν .leaf Unit) :=
  changeLeaf fun _ => rfl

theorem setRandom (source : Random) :
    H.Keeps (Flow.changeLeaf fun leaf => { leaf with random := source } : Flow ν .leaf Unit) :=
  changeLeaf fun _ => rfl

theorem readVariable (below : H.Below deeper) {v : Variable ν} (borrows : v.Borrows H.free)
    {missing : Flow ν .leaf Value} (otherwise : H.Keeps missing) :
    H.Keeps (Flow.readVariable deeper v missing) := by
  apply (look _).bind
  intro cached _
  cases cached with
  | some value => exact pure trivial
  | none =>
    apply (initialiser borrows).bind
    intro init inside
    cases init with
    | none => exact otherwise
    | some init =>
      exact (below.initialise init (inside init rfl)).bind fun _ _ =>
        (store v.id _).bind fun _ _ => pure trivial

theorem get (below : H.Below deeper) {v : Variable ν} (borrows : v.Borrows H.free) :
    H.Keeps (Flow.get deeper v) :=
  readVariable below borrows (fatal _)

theorem getOrDefault (below : H.Below deeper) {v : Variable ν} (borrows : v.Borrows H.free) :
    H.Keeps (Flow.getOrDefault deeper v) :=
  readVariable below borrows ((error _).bind fun _ _ => pure trivial)

theorem evaluate (below : H.Below deeper) (expression : Expression) :
    H.Keeps (expression.evaluate deeper : Flow ν .leaf Value) := by
  induction expression with
  | constant value => exact pure trivial
  | read name next ih =>
    exact (lookupVariable name).bind fun _ borrows => (get below borrows).bind fun value _ =>
      ih value

theorem exec (below : H.Below deeper) : {t : Target} → {script : Script ν t} →
    script.Borrows H.free → H.Keeps (script.exec deeper)
  | _, _, .done => pure trivial
  | _, _, .stop reason => raise reason
  | _, _, .note entry later => (note entry).bind fun _ _ => exec below later
  | _, _, .log message later => (log message).bind fun _ _ => exec below later
  | _, _, .fail later => (changeRecorder _).bind fun _ _ => exec below later
  | _, _, .failNow => failNow
  | _, _, .skipNow => skipNow
  | _, _, .name later => (look _).bind fun title _ => exec below (later title)
  | _, _, .failed later => (look _).bind fun mark _ => exec below (later mark)
  | _, _, .skipped later => (look _).bind fun mark _ => exec below (later mark)
  | _, _, .cleanup inside later =>
    (pushCleanup (exec below inside)).bind fun _ _ => exec below later
  | _, _, .tempDir later => tempDir.bind fun number _ => exec below (later (some number))
  | _, _, .directories later => (look _).bind fun existing _ => exec below (later existing)
  | _, _, .run title inside later =>
    (runChild title (exec below inside)).bind fun passed _ => exec below (later passed)
  | _, _, .guard inside later =>
    (exec below inside).guard.bind fun outcome _ => exec below (later outcome)
  | _, _, .environment _ later => (look _).bind fun value _ => exec below (later value)
  | _, _, .putEnvironment key value later => by
    rw [exec_putEnvironment]
    exact (keeps_borrow key value).bind fun _ _ => exec below later
  | _, _, .setEnvironment permitted key value later =>
    (setEnvironment permitted key value).bind fun _ _ => exec below later
  | _, _, .spec config inside later =>
    (onFlow (below.spec config _ inside)).bind fun _ _ => exec below later
  | _, _, .defer inside later =>
    (pushFinaliser (exec below inside)).bind fun _ _ => exec below later
  | _, _, .tags later => (look _).bind fun names _ => exec below (later names)
  | _, _, .counts later =>
    (look _).bind fun counted _ => exec below (later counted.1 counted.2)
  | _, _, .random later => (look _).bind fun source _ => exec below (later source)
  | _, _, .setRandom source later => (setRandom source).bind fun _ _ => exec below later
  | _, _, .get key later =>
    (lookupVariable key).bind fun _ borrows => (get below borrows).bind fun value _ =>
      exec below (later value)
  | _, _, .getOrDefault key later =>
    (lookupVariable key).bind fun _ borrows => (getOrDefault below borrows).bind fun value _ =>
      exec below (later value)
  | _, _, .set key value later =>
    (lookupVariable key).bind fun v _ => (store v.id value).bind fun _ _ => exec below later

theorem evaluateInitialiser (below : H.Below deeper) {init : Initialiser ν}
    (borrows : init.Borrows H.free) : H.Keeps (init.evaluate deeper) := by
  cases borrows with
  | mk value inside => exact (exec below inside).bind fun _ _ => evaluate below value

end HandsBack
end Holding
end NestedSpec
