import NestedSpec.Host
import NestedSpec.Proofs.Failures
import NestedSpec.Proofs.HandbackSpecs
import NestedSpec.Proofs.Turns

/-!
# The environment is handed back

Whatever a flow does to the environment by borrowing, every variable is as it was when the flow has
ended: its cleanups have given it back, however the flow and its cleanups ended.
-/

namespace NestedSpec

variable {ν α β : Type} {t : Target}

/-! ## What trees hold -/

namespace Item

variable {free : Prop}

mutual
theorem Borrows.groups : (item : Item ν) → item.Borrows free →
    ∀ g ∈ item.groups, g.Borrows free
  | .leaf _, _, _, member => absurd member List.not_mem_nil
  | .group _ items, .group here inside, g, member => by
    rcases List.mem_cons.mp member with rfl | below
    · exact here
    · exact Borrows.groupsAll items inside g below

theorem Borrows.groupsAll : (items : List (Item ν)) →
    (∀ item ∈ items, item.Borrows free) → ∀ g ∈ Item.groupsAll items, g.Borrows free
  | first :: rest, borrow, g, member => by
    rcases List.mem_append.mp member with own | later
    · exact Borrows.groups first (borrow first (List.mem_cons_self ..)) g own
    · exact Borrows.groupsAll rest
        (fun other among => borrow other (List.mem_cons_of_mem _ among)) g later
end

mutual
/-- What runs for a leaf of a tree that borrows. -/
theorem Borrows.leaf_postOrder {above : Chain ν} (around : above.Borrows free) :
    (item : Item ν) → item.Borrows free → ∀ {chain : Chain ν} {l : Leaf ν},
      Member.leaf chain l ∈ postOrder above item → chain.Borrows free ∧ l.body.Borrows free
  | .leaf l, .leaf inside, chain, l', among => by
    cases List.mem_singleton.mp among
    exact ⟨around, inside⟩
  | .group g items, .group here inside, chain, l, among => by
    have within : Chain.Borrows free (above ++ [g]) := by
      intro other member
      rcases List.mem_append.mp member with outer | inner
      · exact around other outer
      · obtain rfl := List.mem_singleton.mp inner
        exact here
    have below : Member.leaf chain l ∈ postOrderAll (above ++ [g]) items := by
      simpa [postOrder] using among
    exact Borrows.leaf_postOrderAll within items inside below

theorem Borrows.leaf_postOrderAll {above : Chain ν} (around : above.Borrows free) :
    (items : List (Item ν)) → (∀ item ∈ items, item.Borrows free) → ∀ {chain : Chain ν} {l : Leaf ν},
      Member.leaf chain l ∈ postOrderAll above items → chain.Borrows free ∧ l.body.Borrows free
  | first :: rest, borrow, chain, l, among => by
    rcases List.mem_append.mp among with inFirst | inRest
    · exact Borrows.leaf_postOrder around first (borrow first (List.mem_cons_self ..)) inFirst
    · exact Borrows.leaf_postOrderAll around rest
        (fun other member => borrow other (List.mem_cons_of_mem _ member)) inRest
end

end Item

/-! ## Runs -/

namespace Holding

variable {H : Holding ν} {runner : Runner ν}

/-- The groups entered are no part of it. -/
def Blind (H : Holding ν) : Prop :=
  ∀ (w : World ν) (entered : List Nat), H.part { w with entered } = H.part w

namespace HandsBack

theorem setEntered (blind : H.Blind) (update : World ν → List Nat) :
    H.Keeps (Flow.changeWorld fun w => { w with entered := update w } : Flow ν t Unit) :=
  still fun s borrows => ⟨_, _, rfl, ⟨borrows.world, borrows.scope⟩, blind s.world _,
    fun _ _ => trivial⟩

theorem enter (blind : H.Blind) (below : H.Below runner.deeper) {group : Group ν}
    (borrows : group.Borrows H.free) : H.Keeps (runner.enter group) := by
  apply (look _).bind
  intro entered _
  split
  · exact pure trivial
  · exact (setEntered blind fun w => group.index :: w.entered).bind fun _ _ =>
      forM _ fun hook member => onFlow (exec below (borrows.beforeAll hook member))

theorem runOnce (blind : H.Blind) (below : H.Below runner.deeper) {chain : Chain ν}
    (around : chain.Borrows H.free) {leaf : Leaf ν} (inside : leaf.body.Borrows H.free) :
    H.Keeps (runner.runOnce chain leaf) := by
  refine invoke around.scope ((forM _ fun group member => enter blind below (around group member)).bind
    fun _ _ => (forM _ fun group member => forM _ fun hook among => ?_).bind fun _ _ =>
      exec below inside)
  exact runHook below ((around group member).hooks hook among)

theorem runLeaf (blind : H.Blind) (below : H.Below runner.deeper) {chain : Chain ν}
    (around : chain.Borrows H.free) {leaf : Leaf ν} (inside : leaf.body.Borrows H.free) :
    H.Keeps (runner.runLeaf chain leaf) := by
  have repeated : ∀ count, H.Keeps (runner.repeatOnce chain leaf count) := by
    intro count
    induction count with
    | zero => exact pure trivial
    | succ count ih => exact (runOnce blind below around inside).bind fun _ _ => ih
  unfold Runner.runLeaf Runner.runInvocations
  cases runner.skipReason chain with
  | some reason => exact skip reason
  | none =>
    cases runner.mode with
    | test => exact runOnce blind below around inside
    | benchmark iterations => exact (repeated _).bind fun _ _ => log _

end HandsBack

structure StartsWith (H : Holding ν) (w : World ν)
    (entry : Chain ν × Leaf ν × State ν .flow) : Prop where
  chain : entry.1.Borrows H.free
  leaf : entry.2.1.body.Borrows H.free
  borrows : entry.2.2.Borrows H.free
  same : H.part entry.2.2.world = H.part w

theorem StartsWith.ended (blind : H.Blind) (below : H.Below runner.deeper) {w : World ν}
    {chain : Chain ν} {leaf : Leaf ν} {start : State ν .flow}
    (starts : H.StartsWith w (chain, leaf, start)) :
    (runner.endedLeaf chain leaf start).Borrows H.free ∧
      H.part (runner.endedLeaf chain leaf start).world = H.part w := by
  have ended := (HandsBack.runLeaf blind below starts.chain starts.leaf _ starts.borrows).settle
  exact ⟨ended.1, ended.2.trans starts.same⟩

/-- Every leaf that has its turn starts with the part as it was, and so it is when all have had
theirs. -/
theorem starts_turns (blind : H.Blind) (below : H.Below runner.deeper) {tree : Item ν}
    (borrows : tree.Borrows H.free) {w last : World ν}
    {runs : List (Chain ν × Leaf ν × State ν .flow)} (turns : runner.TakeTurns tree w runs last)
    (here : w.Borrows H.free) : (∀ entry ∈ runs, H.StartsWith w entry) ∧
      last.Borrows H.free ∧ H.part last = H.part w := by
  induction turns with
  | done => exact ⟨List.forall_mem_nil _, here, rfl⟩
  | @leaf chain leaf start rest last among later ih =>
    have outermost : Chain.Borrows H.free ([] : Chain ν) := List.forall_mem_nil _
    obtain ⟨around, inside⟩ := Item.Borrows.leaf_postOrder outermost tree borrows among
    have first : H.StartsWith start.world (chain, leaf, start) :=
      ⟨around, inside, ⟨here, List.forall_mem_nil _⟩, rfl⟩
    obtain ⟨ended, same⟩ := first.ended blind below
    obtain ⟨others, lastBorrows, lastSame⟩ := ih ended.world
    refine ⟨fun entry member => ?_, lastBorrows, lastSame.trans same⟩
    rcases List.mem_cons.mp member with rfl | after
    · exact first
    · obtain ⟨chain, leaf, borrows, unchanged⟩ := others entry after
      exact ⟨chain, leaf, borrows, unchanged.trans same⟩

theorem running_of_blind (blind : H.Blind) : H.Running := by
  intro runner tree below borrows
  have plan : H.Keeps (runner.runPlan (runner.plan tree)) := by
    cases tree with
    | leaf l => exact .pure trivial
    | group g items =>
      apply HandsBack.still
      intro s here
      obtain ⟨-, borrowsLast, same⟩ :=
        starts_turns blind below borrows (runner.turns_planned g items s) here.world
      have ended := (runner.quiet_runMembers [g] (runner.planned g items)).run_eq s
      exact ⟨_, _, ended, ⟨borrowsLast, List.forall_mem_nil _⟩, same, fun _ _ => trivial⟩
  apply (HandsBack.look _).bind
  intro outer _
  exact (HandsBack.setEntered blind fun _ => []).bind fun _ _ => plan.bind fun _ _ =>
    (HandsBack.runAfterAll below (borrows.groups tree)).bind fun _ _ =>
      HandsBack.reportOrder.bind fun _ _ => HandsBack.setEntered blind fun _ => outer

end Holding

/-! ## The environment -/

theorem lookup_filter_self (name : String) (table : List (String × α)) :
    (table.filter (·.1 ≠ name)).lookup name = none := by
  rw [List.lookup_eq_none_iff]
  intro entry member
  have away : entry.1 ≠ name := by simpa using (List.mem_filter.mp member).2
  simpa using away.symm

theorem World.lookup_setEnvironment (key other : String) (value : Option String) (w : World ν) :
    (w.setEnvironment key value).environment.lookup other =
      if other = key then value else w.environment.lookup other := by
  cases value with
  | some v => exact lookup_kept key other v w.environment
  | none =>
    change (w.environment.filter (·.1 ≠ key)).lookup other = _
    by_cases same : other = key
    · rw [if_pos same, same, lookup_filter_self]
    · rw [if_neg same, lookup_filter_ne same]

def borrowedEnvironment (ν : Type) : Holding ν where
  Part := String → Option String
  part w key := w.environment.lookup key
  assign key value held other := if other = key then value else held other
  free := False
  part_eq same _ := funext fun key => by rw [same]
  part_set key value w := funext fun other => w.lookup_setEnvironment key other value
  gives_back key value w := by
    funext other
    by_cases same : other = key
    · simp [same]
    · simp [same]
  unseen := False.elim

theorem blind_environment : (borrowedEnvironment ν).Blind := fun _ _ => rfl

theorem below_environment (levels : Nat) :
    (borrowedEnvironment ν).Below (Deeper.within levels) :=
  Holding.below_within (Holding.running_of_blind blind_environment) levels

def World.SameEnvironment (w w' : World ν) : Prop :=
  ∀ key, w.environment.lookup key = w'.environment.lookup key

/-! ## Hosts -/

namespace Host

inductive Use (ν : Type) where
  | perform (script : Script ν .flow)
  | execute (script : Script ν .flow)
  | finish

def Use.Borrows (free : Prop) : Use ν → Prop
  | perform script | execute script => script.Borrows free
  | finish => True

def use (host : Host ν) : Use ν → Host ν
  | .perform script => (host.perform script.perform).2
  | .execute script => host.execute script.perform
  | .finish => host.finish

structure Owes (before : World ν) (host : Host ν) : Prop where
  borrows : host.state.Borrows False
  pending : (borrowedEnvironment ν).Pending host.pending host.state.world before

variable {before : World ν} {host : Host ν}

theorem Owes.perform (owes : Owes before host) {script : Script ν .flow}
    (borrows : script.Borrows False) : Owes before (host.perform script.perform).2 := by
  have returns := Holding.HandsBack.exec (below_environment callDepth) borrows host.state owes.borrows
  exact ⟨returns.borrows, returns.pending.trans owes.pending⟩

theorem Owes.finish (owes : Owes before host) : Owes before host.finish := by
  obtain ⟨owed, undoes, back⟩ := owes.pending
  exact ⟨undoes.borrows _ owes.borrows, .of_part_eq ((undoes.restores _ owes.borrows).trans back)⟩

theorem Owes.use (owes : Owes before host) {use : Use ν} (borrows : use.Borrows False) :
    Owes before (host.use use) := by
  cases use with
  | perform script => exact owes.perform borrows
  | execute script =>
    have performed := owes.perform borrows
    exact ⟨⟨performed.borrows.world, performed.borrows.scope⟩, performed.pending⟩
  | finish => exact owes.finish

theorem Owes.uses (owes : Owes before host) {uses : List (Use ν)}
    (borrow : ∀ use ∈ uses, use.Borrows False) : Owes before (uses.foldl Host.use host) := by
  induction uses generalizing host with
  | nil => exact owes
  | cons first rest ih =>
    have here := owes.use (borrow first (List.mem_cons_self ..))
    exact ih here fun other member => borrow other (List.mem_cons_of_mem _ member)

theorem Owes.same_finish (owes : Owes before host) :
    host.finish.state.world.SameEnvironment before := by
  obtain ⟨owed, undoes, back⟩ := owes.pending
  exact fun key => congrFun ((undoes.restores _ owes.borrows).trans back) key

end Host

/-- The environment is handed back: by a sub-run when it has returned, by a host when it has been
finished, whatever was done with it before, and by every leaf of a spec, so that each one starts with
what the host had when the spec was finished. -/
theorem environment_is_restored (before : World ν) (registered : before.Borrows False) :
    (∀ {t : Target} (recorder : Recorder) (own : t.Own ν) (name : String) (body : Script ν .flow),
      (∀ binding ∈ t.scope own, binding.init.Borrows False) → body.Borrows False →
        ∃ passed after, (Flow.runChild name body.perform : Flow ν t Bool).run ⟨before, recorder, own⟩ =
            ⟨.ok passed, after, [], []⟩ ∧ after.world.SameEnvironment before) ∧
    (∀ (recorder : Recorder) (uses : List (Host.Use ν)), (∀ use ∈ uses, use.Borrows False) →
      (uses.foldl Host.use (.ofRecorder before recorder)).finish.state.world.SameEnvironment
        before) ∧
    ∀ (config : Config) (mode : RunMode) (levels : Nat) (group : Group ν) (items : List (Item ν))
      (recorder : Recorder), (Item.group group items).Borrows False →
        let runner : Runner ν := ⟨config, mode, Deeper.within levels⟩
        ∀ entry ∈ Visit.startsAll (runner.planVisits group items ⟨before, recorder, ()⟩),
          entry.2.2.world.SameEnvironment before ∧
          (runner.endedLeaf entry.1 entry.2.1 entry.2.2).world.SameEnvironment before := by
  refine ⟨?_, ?_, ?_⟩
  · intro t recorder own name body scope borrows
    have start := registered.flow (recorder.child name)
    have ended := (Holding.HandsBack.exec (below_environment callDepth) borrows _ start).settle
    exact ⟨_, _, Likeness.run_runChild name body.perform _, fun key => congrFun ended.2 key⟩
  · intro recorder uses borrow
    have start : Host.Owes before (.ofRecorder before recorder) :=
      ⟨registered.flow recorder, .of_part_eq rfl⟩
    exact (start.uses borrow).same_finish
  · intro config mode levels group items recorder borrows runner entry member
    have below := below_environment (ν := ν) levels
    have turns := runner.turns_planVisits group items ⟨before, recorder, ()⟩
    have starts := (Holding.starts_turns blind_environment below borrows turns registered).1 entry member
    exact ⟨fun key => congrFun starts.same key,
      fun key => congrFun (starts.ended blind_environment below).2 key⟩

def meddling {t : Target} : Script Unit t :=
  .putEnvironment "KEY" (some "outer") (.cleanup (.putEnvironment "KEY" none .done)
    (.run "inner" (.putEnvironment "KEY" (some "inner") .failNow) fun _ => .failNow))

theorem borrows_meddling : (meddling : Script Unit t).Borrows False :=
  .putEnvironment _ _ (.cleanup (.putEnvironment _ _ .done)
    (.run _ (.putEnvironment _ _ .failNow) fun _ => .failNow))

def meddlingLeaf (description : String) : Item Unit := .leaf ⟨description, default, meddling⟩

theorem environment_is_restored_meddling :
    let before : World Unit := { environment := [("KEY", "old")] }
    let group : Group Unit := { index := 0, description := "spec", place := default }
    let runner : Runner Unit := ⟨.default 1, .test, Deeper.within 1⟩
    before.Borrows False ∧ meddling.Borrows (t := .flow) False ∧
    (∃ passed after, (Flow.runChild "flow" meddling.perform : Flow Unit .flow Bool).run
        ⟨before, .new "host", ()⟩ = ⟨.ok passed, after, [], []⟩ ∧
      after.world.environment.lookup "KEY" = some "old") ∧
    ([.perform meddling, .execute meddling].foldl Host.use
        (.ofRecorder before (.new "host"))).finish.state.world.environment.lookup "KEY" =
      some "old" ∧
    ∀ entry ∈ Visit.startsAll (runner.planVisits group [meddlingLeaf "a", meddlingLeaf "b"]
        ⟨before, .new "host", ()⟩),
      entry.2.2.world.environment.lookup "KEY" = some "old" := by
  intro before group runner
  have registered : before.Borrows False := List.forall_mem_nil _
  obtain ⟨subRun, host, leaves⟩ := environment_is_restored before registered
  have tree : (Item.group group [meddlingLeaf "a", meddlingLeaf "b"]).Borrows False := by
    refine .group (Group.borrows_bare ..) fun item member => ?_
    rcases List.mem_pair.mp member with rfl | rfl <;> exact .leaf borrows_meddling
  refine ⟨registered, borrows_meddling, ?_, ?_, ?_⟩
  · obtain ⟨passed, after, ran, same⟩ := subRun (t := .flow) (.new "host") () "flow" meddling
      (List.forall_mem_nil _) borrows_meddling
    exact ⟨passed, after, ran, same "KEY"⟩
  · refine host (.new "host") [.perform meddling, .execute meddling] (fun use member => ?_) "KEY"
    rcases List.mem_pair.mp member with rfl | rfl <;> exact borrows_meddling
  · exact fun entry member => (leaves (.default 1) .test 1 group _ (.new "host") tree entry member).1 "KEY"

end NestedSpec
