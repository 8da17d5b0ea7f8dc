import NestedSpec.Proofs.Histories
import NestedSpec.Proofs.Turns

/-!
# A spec runs once

The leaves of a spec run once: when the outermost spec is finished for the first time, or else when
the declaration has come to its end. The run takes every leaf once that was registered. After that
the spec is empty and closed: whatever is called on it, there comes nothing of it but errors, and
the host has failed if there is one.
-/

namespace NestedSpec

variable {ν α β : Type}

/-! ## Every leaf has one turn -/

def turnOf (run : Chain ν × Leaf ν × State ν .flow) : Chain ν × Leaf ν := (run.1, run.2.1)

theorem Visit.turns_eq_ownMembers : (visits : List (Visit ν)) →
    (startsAll visits).map turnOf = (ownMembers visits).filterMap Member.leaf?
  | [] => rfl
  | .leaf chain l start recorded :: rest => by
    rw [ownMembers_cons, ownMembers_leaf, List.filterMap_append, ← turns_eq_ownMembers rest]
    rfl
  | .group chain g members recorded :: rest => by
    rw [ownMembers_cons, ownMembers_group, List.filterMap_append, List.filterMap_append,
      ← turns_eq_ownMembers members, ← turns_eq_ownMembers rest, startsAll, starts, List.map_append]
    simp [Member.leaf?]

/-- In a run every leaf of the tree has one turn. -/
theorem Runner.turns_perm (runner : Runner ν) (below : growth.RespectsDeeper runner.deeper)
    (group : Group ν) (items : List (Item ν)) (s : State ν .flow) :
    ((Visit.startsAll (runner.planVisits group items s)).map turnOf).Perm
      (Item.leaves [] (.group group items)) := by
  have covers : runner.Covers group items s (runner.ranAfterAll group items s).state :=
    runner.covers below group items rfl
  have leaves : Item.leaves [] (.group group items) =
      (Item.postOrderAll [group] items).filterMap Member.leaf? :=
    Item.leavesAll_eq_postOrderAll [group] items
  rw [Visit.turns_eq_ownMembers, covers.order, leaves]
  exact covers.registered.filterMap _

/-! ## Mistakes make the host fail -/

theorem state_bind_ok {first : Declaring ν α} {next : α → Declaring ν β} {b b' : Building ν}
    {s : State ν .flow} {value : α}
    (completed : ((first.run b).run s).result = .ok (value, b')) :
    (((first >>= next).run b).run s).state =
      (((next value).run b').run ((first.run b).run s).state).state := by
  rw [StateT.run_bind, Flow.run_bind_of_ok _ completed]

theorem state_bind_error {first : Declaring ν α} {next : α → Declaring ν β} {b : Building ν}
    {s : State ν .flow} {stop : Stop} (stopped : ((first.run b).run s).result = .error stop) :
    (((first >>= next).run b).run s).state = ((first.run b).run s).state := by
  rw [StateT.run_bind, Flow.run_bind_of_error _ stopped]

theorem state_bind_pure (first : Flow ν .flow α) (last : α → β) (s : State ν .flow) :
    ((first >>= fun handed => pure (last handed)).run s).state = (first.run s).state := by
  cases ended : (first.run s).result with
  | error stop => rw [Flow.run_bind_of_error _ ended]
  | ok handed => rw [Flow.run_bind_of_ok _ ended, Flow.run_pure]

theorem state_describe {b : Building ν} (isOpen : b.finished = false) {here : Surroundings ν}
    {description : String} {place : Location} {body : Surroundings ν → Declaring ν Unit}
    {s : State ν .flow} : (((Declaring.describe here description place body).run b).run s).state =
      (((body { here with enclosing := (b.group, b.items) :: here.enclosing }).run
        (b.inner description place)).run s).state := by
  rw [run_describe isOpen, state_bind_pure]

theorem reported_grows (value : α) (message : String) (b : Building ν) (s : State ν .flow) :
    s.recorder.Extends (reported value message b s).state.recorder :=
  (Recorder.Extends.log _ _).trans (.fail _)

namespace Operates

variable {here : Surroundings ν} {action : Declaring ν α} {b : Building ν} {s : State ν .flow}
  {ops : List (Operation ν)}

theorem grows (operates : Operates here action b s ops) :
    s.recorder.Extends ((action.run b).run s).state.recorder := by
  induction operates with
  | ret | read => exact .refl _
  | @lift _ _ flow silent b s =>
    rw [StateT.run_lift, state_bind_pure, silent]
    exact .refl _
  | bindOk _ completed _ ih ihLater =>
    rw [state_bind_ok completed]
    exact ih.trans ihLater
  | bindError _ stopped ih =>
    rw [state_bind_error stopped]
    exact ih
  | addLeaf what leaf isOpen s | change what _ isOpen s =>
    rw [Declaring.run_whileOpen isOpen]
    exact .refl _
  | modify isOpen allowed s =>
    rw [Declaring.run_applyModifier isOpen allowed]
    exact .refl _
  | blocked isOpen blocked s =>
    rw [Declaring.run_applyModifier_blocked isOpen blocked]
    exact reported_grows ..
  | @bindHere here v init b isOpen s =>
    have composed : Composed (Deeper.within 0) true ((Declaring.bindHere v init).run b) :=
      Declares.bindHere v init b
    exact Flow.grows (composed.respects (Likeness.respects_deeper 0)) s
  | describe isOpen inside ih =>
    rw [state_describe isOpen]
    exact ih
  | refused what body closed s =>
    rw [Declaring.run_whileOpen_closed closed]
    exact reported_grows ..
  | refusedBinding v init closed s =>
    rw [Declaring.run_bindHere_closed closed]
    exact reported_grows ..
  | @finish deeper respects config mode b isOpen s =>
    have composed : Composed deeper true
        ((Declaring.finish deeper ⟨config, mode, []⟩).run b) := Declares.finish _ b
    exact Flow.grows (composed.respects respects) s
  | finishNested nested b s =>
    rw [Declaring.run_finish_nested nested]
    exact reported_grows ..
  | finishAgain closed s =>
    rw [Declaring.run_finish_closed closed]
    exact .refl _

/-- A mistake marks the host, and it stays marked. -/
theorem marks (operates : Operates here action b s ops) {op : Operation ν} (member : op ∈ ops)
    (mistaken : op.mistaken = true) : ((action.run b).run s).state.recorder.failed = true := by
  induction operates with
  | ret | lift | read | change | bindHere => exact absurd member List.not_mem_nil
  | bindOk _ completed goesOn ih ihLater =>
    rw [state_bind_ok completed]
    rcases List.mem_append.mp member with first | later
    · exact goesOn.grows.failed (ih first)
    · exact ihLater later
  | bindError _ stopped ih =>
    rw [state_bind_error stopped]
    exact ih member
  | addLeaf | modify | finish | finishAgain =>
    rw [List.mem_singleton.mp member] at mistaken
    cases mistaken
  | blocked isOpen blocked s =>
    rw [Declaring.run_applyModifier_blocked isOpen blocked]
    rfl
  | describe isOpen inside ih =>
    rw [state_describe isOpen]
    exact ih member
  | refused what body closed s =>
    rw [Declaring.run_whileOpen_closed closed]
    rfl
  | refusedBinding v init closed s =>
    rw [Declaring.run_bindHere_closed closed]
    rfl
  | finishNested nested b s =>
    rw [Declaring.run_finish_nested nested]
    rfl

end Operates

/-! ## A spec that is closed -/

def Declaring.refuse (what : String) : Declaring ν Unit :=
  Declaring.misuse (what ++ " registered after the spec started running")

open Declaring in
/-- What is left of a registration when the leaves have run: where something would be registered
there is an error, and the plan is empty. -/
def Registration.tooLate (config : Config) : Registration ν → Declaring ν Unit
  | .done => pure ()
  | .panic payload => StateT.lift (Flow.raise (.panic payload))
  | .note entry next => do StateT.lift (Flow.note entry); next.tooLate config
  | .describe _ _ _ next => do refuse "describe"; next.tooLate config
  | .leaf _ _ _ next => do refuse "test"; next.tooLate config
  | .before _ next => do refuse "before"; next.tooLate config
  | .after _ next => do refuse "after"; next.tooLate config
  | .around _ _ next => do refuse "around"; next.tooLate config
  | .beforeAll _ next => do refuse "before_all"; next.tooLate config
  | .afterAll _ next => do refuse "after_all"; next.tooLate config
  | .modify modifier next => do refuse (modifierName modifier); next.tooLate config
  | .finish next => next.tooLate config
  | .plan next => (next []).tooLate config
  | .config next => (next config).tooLate config
  | .declare key label kind next => do Declaring.declare key label kind; next.tooLate config
  | .withInit key init next => do
    keepVariable key { (← lookupVariable key) with init := some init }
    next.tooLate config
  | .withOnLet key body next => do
    keepVariable key { (← lookupVariable key) with onLet := some body }
    next.tooLate config
  | .letInit key _ next => do
    let _ ← lookupVariable key
    refuse "variable binding"
    next.tooLate config
  | .bind key next => do
    if (← lookupVariable key).init.isSome then refuse "variable binding"
    next.tooLate config
  | .eager key next => do
    let _ ← lookupVariable key
    refuse "before"
    next.tooLate config
  | .inspect key next => do
    let v ← lookupVariable key
    (next v.label v.init.isSome v.onLet.isSome).tooLate config

def Leaves (b : Building ν) (action : Declaring ν α) : Prop :=
  ∀ s value b', ((action.run b).run s).result = .ok (value, b') → b' = b

theorem run_bind_congr {b : Building ν} {first first' : Declaring ν α}
    {next next' : α → Declaring ν β} (leaves : Leaves b first') (same : first.run b = first'.run b)
    (later : ∀ value, (next value).run b = (next' value).run b) :
    (first >>= next).run b = (first' >>= next').run b := by
  rw [StateT.run_bind, StateT.run_bind, same]
  ext1
  funext s
  rcases ended : (first'.run b).run s with ⟨stop | ⟨value, b'⟩, s', finalisers, cleanups⟩
  · rw [Flow.run_bind_error _ ended, Flow.run_bind_error _ ended]
  · obtain rfl := leaves s value b' (by rw [ended])
    rw [Flow.run_bind_ok _ ended, Flow.run_bind_ok _ ended, later]

theorem leaves_lift (b : Building ν) (flow : Flow ν .flow α) :
    Leaves b (StateT.lift flow : Declaring ν α) :=
  fun _ _ _ completed => result_lift completed

theorem Leaves.bind {b : Building ν} {first : Declaring ν α} {next : α → Declaring ν β}
    (leaves : Leaves b first) (later : ∀ value, Leaves b (next value)) :
    Leaves b (first >>= next) := by
  intro s value b' completed
  cases ended : ((first.run b).run s).result with
  | error stop =>
    exact absurd completed (result_bind_ne_ok ended _)
  | ok handed =>
    rw [result_bind_ok ended] at completed
    obtain same := leaves s handed.1 handed.2 ended
    rw [same] at completed
    exact later _ _ _ _ completed

theorem leaves_declare (b : Building ν) (name label : String) (kind : ValueKind) :
    Leaves b (Declaring.declare name label kind : Declaring ν Unit) :=
  (leaves_lift b _).bind fun _ => (leaves_lift b _).bind fun _ => leaves_lift b _

/-- The plan of a spec without members names no leaf. -/
theorem leafPaths_plan_empty (runner : Runner ν) (group : Group ν) :
    (runner.plan (.group group [])).leafPaths [] = [] := by
  have none : ∀ orderer : Orderer, ∀ scope,
      orderer.order scope Item.firstPlace ([] : List (Item ν)) = [] :=
    fun orderer scope => List.perm_nil.mp (orderer.order_perm scope Item.firstPlace [])
  simp [Runner.plan, Item.arrange, Item.arrangeAll, none, Item.leafPaths, Item.leafPathsAll]

section
variable {deeper : Deeper ν} {config : Config} {mode : RunMode} {b : Building ν} {nextIndex : Nat}

theorem run_whileOpen_bind (closed : b.finished = true) {what : String} {body : Declaring ν Unit}
    {next next' : Declaring ν Unit} (later : next.run b = next'.run b) :
    (Declaring.whileOpen what body >>= fun _ => next).run b =
      (Declaring.refuse what >>= fun _ => next').run b := by
  refine run_bind_congr (leaves_lift b _) ?_ fun _ => later
  ext1
  funext s
  exact Declaring.run_whileOpen_closed closed what body s

theorem run_letInit_bind (closed : b.finished = true) {here : Surroundings ν} {v : Variable ν}
    {init : Initialiser ν} {next next' : Declaring ν Unit} (later : next.run b = next'.run b) :
    (Declaring.letInit deeper here v init >>= fun _ => next).run b =
      (Declaring.refuse "variable binding" >>= fun _ => next').run b := by
  refine run_bind_congr (leaves_lift b _) ?_ fun _ => later
  ext1
  funext s
  exact Declaring.run_letInit_closed closed deeper v init s

theorem run_lift_bind {flow : Flow ν .flow α} {next next' : α → Declaring ν Unit}
    (later : ∀ value, (next value).run b = (next' value).run b) :
    (StateT.lift flow >>= next : Declaring ν Unit).run b =
      (StateT.lift flow >>= next' : Declaring ν Unit).run b :=
  run_bind_congr (leaves_lift b flow) rfl later

/-- After the leaves have run nothing comes of a registration but errors: none of the scripts and
registrations in it has any part in what happens. -/
theorem Registration.apply_closed : (registration : Registration ν) → (group : Group ν) →
    (registration.apply deeper ⟨config, mode, []⟩).run (Declaring.emptied group nextIndex) =
      (registration.tooLate config).run (Declaring.emptied group nextIndex)
  | .done, _ => rfl
  | .panic _, _ => rfl
  | .note _ next, group => run_lift_bind fun _ => apply_closed next group
  | .describe _ _ _ next, group => run_whileOpen_bind rfl (apply_closed next group)
  | .leaf _ _ _ next, group => run_whileOpen_bind rfl (apply_closed next group)
  | .before _ next, group => run_whileOpen_bind rfl (apply_closed next group)
  | .after _ next, group => run_whileOpen_bind rfl (apply_closed next group)
  | .around _ _ next, group => run_whileOpen_bind rfl (apply_closed next group)
  | .beforeAll _ next, group => run_whileOpen_bind rfl (apply_closed next group)
  | .afterAll _ next, group => run_whileOpen_bind rfl (apply_closed next group)
  | .modify _ next, group => run_whileOpen_bind rfl (apply_closed next group)
  | .finish next, group => by
    have again : (Declaring.finish deeper ⟨config, mode, []⟩).run
        (Declaring.emptied group nextIndex) = pure ((), Declaring.emptied group nextIndex) := by
      ext1
      funext s
      exact Declaring.run_finish_closed rfl deeper config mode s
    rw [apply, StateT.run_bind, again, pure_bind]
    exact apply_closed next group
  -- The tree that is left has no leaves, so the plan that is handed on is empty.
  | .plan next, group => by
    have none : (Runner.plan ⟨config, mode, deeper⟩ (Declaring.wholeTree ⟨config, mode, []⟩
        (Declaring.emptied group nextIndex))).leafPaths [] = [] := leafPaths_plan_empty _ _
    rw [apply, StateT.run_bind, StateT.run_get, pure_bind]
    dsimp only
    rw [none]
    exact apply_closed (next []) group
  | .config next, group => apply_closed (next config) group
  | .declare name label kind next, group =>
    run_bind_congr (leaves_declare _ name label kind) rfl fun _ => apply_closed next group
  | .withInit _ _ next, group => run_lift_bind fun _ => run_lift_bind fun _ =>
    apply_closed next group
  | .withOnLet _ _ next, group => run_lift_bind fun _ => run_lift_bind fun _ =>
    apply_closed next group
  | .letInit _ _ next, group => run_lift_bind fun _ =>
    run_letInit_bind rfl (apply_closed next group)
  | .bind _ next, group => run_lift_bind fun v => by
    cases v.init with
    | none => exact apply_closed next group
    | some init => exact run_letInit_bind rfl (apply_closed next group)
  | .eager _ next, group => run_lift_bind fun _ =>
    run_whileOpen_bind rfl (apply_closed next group)
  | .inspect _ next, group => run_lift_bind fun _ => apply_closed (next _ _ _) group

end

/-! ## A spec and its run -/

structure Declaring.Closes (deeper : Deeper ν) (config : Config) (mode : RunMode) : Prop where
  runs : ∀ group items nextIndex,
    (Declaring.finish deeper ⟨config, mode, []⟩).run ⟨group, items, false, nextIndex⟩ = (do
      Runner.run ⟨config, mode, deeper⟩ (.group group items)
      pure ((), emptied group nextIndex))
  nested : ∀ here : Surroundings ν, here.nested = true → ∀ b s,
    ((Declaring.finish deeper here).run b).run s =
      reported () "finish called on a nested spec; only the outermost spec runs" b s
  again : ∀ group nextIndex s,
    ((Declaring.finish deeper ⟨config, mode, []⟩).run (emptied group nextIndex)).run s =
      ⟨.ok ((), emptied group nextIndex), s, [], []⟩
  refuses : ∀ group nextIndex (registration : Registration ν),
    (registration.apply deeper ⟨config, mode, []⟩).run (emptied group nextIndex) =
      (registration.tooLate config).run (emptied group nextIndex)
  empty : ∀ group nextIndex (registration : Registration ν),
    Leaves (emptied group nextIndex) (registration.apply deeper ⟨config, mode, []⟩)

theorem Declaring.closes (levels : Nat) (config : Config) (mode : RunMode) :
    Closes (Deeper.within levels : Deeper ν) config mode where
  runs := run_finish _ config mode
  nested _ nested := run_finish_nested nested _
  again _ _ s := run_finish_closed rfl _ config mode s
  refuses group _ registration := registration.apply_closed group
  empty group nextIndex registration s value b' completed := by
    have declared : Declared (Deeper.within levels) True ⟨config, mode, []⟩ _ :=
      .apply registration.borrows_free _
    obtain ⟨ops, operates⟩ := declared.operating (operating_deeper levels)
      (Likeness.respects_deeper levels) (emptied group nextIndex) s
    exact (operates.of_finished rfl rfl).2 value b' completed

structure Runner.RunsOnce (runner : Runner ν) (before : List (Operation ν)) (tree : Item ν)
    (after : List (Operation ν)) : Prop where
  earlier : ∀ op ∈ before, op.late = false ∧ ∀ other, op ≠ .ran other
  later : ∀ op ∈ after, op.late = true
  holds : tree.Holds (registered before)
  once : ∀ group items, tree = .group group items → ∀ s,
    ((Visit.startsAll (runner.planVisits group items s)).map turnOf).Perm (Item.leaves [] tree)
  turns : ∀ group items, tree = .group group items → ∀ s, runner.TakeTurns tree (started s).world
    (Visit.startsAll (runner.planVisits group items s)) (runner.ranMembers group items s).world

theorem FitAfter.runsOnce {runner : Runner ν} (below : growth.RespectsDeeper runner.deeper)
    {before after : List (Operation ν)} {tree : Item ν}
    (fit : FitAfter [] (before ++ .ran tree :: after)) : runner.RunsOnce before tree after where
  earlier op member := by
    -- The call that runs the leaves is not late itself, so none before it has run them.
    have none : ∀ other, .ran other ∉ before := fun other ran =>
      absurd (fit.at.late.mpr ⟨other, ran⟩) Bool.false_ne_true
    refine ⟨?_, fun other same => none other (same ▸ member)⟩
    obtain ⟨first, rest, rfl⟩ := List.append_of_mem member
    rw [List.append_assoc] at fit
    by_contra late
    obtain ⟨other, ran⟩ := fit.at.late.mp (by simpa using late)
    exact none other (List.mem_append_left _ ran)
  later op member := by
    obtain ⟨first, rest, rfl⟩ := List.append_of_mem member
    have behind : before ++ .ran tree :: (first ++ op :: rest) =
        (before ++ .ran tree :: first) ++ op :: rest := by simp
    rw [behind] at fit
    exact fit.at.late.mpr ⟨tree, by simp⟩
  holds := (fit.at.ran tree rfl).holds
  once := by
    rintro group items rfl s
    exact runner.turns_perm below group items s
  turns := by
    rintro group items rfl s
    exact runner.turns_planVisits group items s

/-- Whatever is called on a spec and on the specs nested in it: the leaves that were registered run
once, each of them once, when the spec is finished for the first time or else in the end. Afterwards
the spec is empty, what would be registered is refused, and a mistake has made the host fail. -/
theorem Registration.runs_once (levels : Nat) (config : Config) (mode : RunMode)
    (body : Registration ν) (name : String) (s : State ν .flow) :
    let deeper : Deeper ν := Deeper.within levels
    let declaration := body.declaration deeper ⟨config, mode, []⟩
    Declaring.Closes deeper config mode ∧
      (∃ ops, Operates ⟨config, mode, []⟩ declaration (.start name) s ops) ∧
      ∀ ops, Operates ⟨config, mode, []⟩ declaration (.start name) s ops →
        (∀ ended, ((declaration.run (.start name)).run s).result = .ok ended →
          (∃ before tree after, ops = before ++ .ran tree :: after) ∧
            ∃ group nextIndex, ended.2 = Declaring.emptied group nextIndex) ∧
        (∀ before tree after, ops = before ++ .ran tree :: after →
          Runner.RunsOnce ⟨config, mode, deeper⟩ before tree after) ∧
        ∀ op ∈ ops, op.mistaken = true →
          ((declaration.run (.start name)).run s).state.recorder.failed = true := by
  intro deeper declaration
  refine ⟨Declaring.closes levels config mode, body.operating levels config mode _ s, ?_⟩
  intro ops operates
  obtain ⟨fit, -⟩ := operates.tracked (Records.start config mode name)
  refine ⟨fun _ => operates_run operates, ?_, fun op member => operates.marks member⟩
  rintro before tree after rfl
  exact fit.runsOnce (Likeness.respects_deeper levels)

/-- A leaf that is registered after the run is refused, and the host fails. -/
example : (((Registration.leaf "x" default .done (.finish (.leaf "y" default .done .done)) :
      Registration Unit).declareAndRun (Deeper.within 1) .test
        { Config.default 0 with ordering := .defined }).run (freshHost "spec")).state.recorder =
    ⟨["spec"], true, false, [⟨[], "testcase: test registered after the spec started running"⟩],
      [⟨["spec", "x"], false, false⟩]⟩ := rfl

end NestedSpec
