import NestedSpec.Proofs.Arranging
import NestedSpec.Proofs.Registering
import NestedSpec.Proofs.Scoping

/-!
# Leaves that are registered

Registering a spec is told by what happens in turn: leaves are registered, each in a group, the tree
is looked at while it grows, and in the end it is run. Whenever the tree is looked at, and when it is
run, its leaves are those that were registered before, in that order.
-/

namespace NestedSpec

variable {ν α β : Type}

inductive Enrolment (ν : Type) where
  | leaf (group : Nat) (leaf : Leaf ν)
  | looked (tree : Item ν)
  | ran (tree : Item ν)

def Enrolment.leaf? : Enrolment ν → Option (Nat × Leaf ν)
  | leaf group l => some (group, l)
  | looked _ | ran _ => none

def Enrolment.tree? : Enrolment ν → Option (Item ν)
  | leaf _ _ => none
  | looked tree | ran tree => some tree

def enrolled (events : List (Enrolment ν)) : List (Nat × Leaf ν) :=
  events.filterMap Enrolment.leaf?

@[simp] theorem enrolled_append (first second : List (Enrolment ν)) :
    enrolled (first ++ second) = enrolled first ++ enrolled second :=
  List.filterMap_append

inductive Enrols :
    Surroundings ν → {α : Type} → Declaring ν α → Building ν → State ν .flow →
      List (Enrolment ν) → Prop
  | ret {here : Surroundings ν} {α : Type} (value : α) (b : Building ν) (s : State ν .flow) :
      Enrols here (pure value) b s []
  | lift {here : Surroundings ν} {α : Type} (flow : Flow ν .flow α) (b : Building ν)
      (s : State ν .flow) : Enrols here (StateT.lift flow) b s []
  | read {here : Surroundings ν} (b : Building ν) (s : State ν .flow) :
      Enrols here get b s
        (if b.finished then [] else [.looked (Declaring.wholeTree here b)])
  | change {here : Surroundings ν} {update : Group ν → Group ν} (unbinding : Unbinding update)
      (b : Building ν) (s : State ν .flow) :
      Enrols here (Declaring.changeGroup update) b s []
  | addLeaf {here : Surroundings ν} (leaf : Leaf ν) (b : Building ν) (s : State ν .flow) :
      Enrols here (Declaring.addItem (.leaf leaf)) b s
        (if b.finished then [] else [.leaf b.group.index leaf])
  | bindHere {here : Surroundings ν} (v : Variable ν) (init : Initialiser ν) (b : Building ν)
      (s : State ν .flow) : Enrols here (Declaring.bindHere v init) b s []
  | bindOk {here : Surroundings ν} {α β : Type} {first : Declaring ν α} {next : α → Declaring ν β}
      {b b' : Building ν} {s : State ν .flow} {value : α} {events later : List (Enrolment ν)}
      (enrols : Enrols here first b s events)
      (completed : ((first.run b).run s).result = .ok (value, b'))
      (goesOn : Enrols here (next value) b' ((first.run b).run s).state later) :
      Enrols here (first >>= next) b s (events ++ later)
  | bindError {here : Surroundings ν} {α β : Type} {first : Declaring ν α}
      {next : α → Declaring ν β} {b : Building ν} {s : State ν .flow} {stop : Stop}
      {events : List (Enrolment ν)} (enrols : Enrols here first b s events)
      (stopped : ((first.run b).run s).result = .error stop) :
      Enrols here (first >>= next) b s events
  | whileOpen {here : Surroundings ν} (what : String) {body : Declaring ν Unit} {b : Building ν}
      {s : State ν .flow} {events : List (Enrolment ν)} (isOpen : b.finished = false)
      (inside : Enrols here body b s events) :
      Enrols here (Declaring.whileOpen what body) b s events
  | refused {here : Surroundings ν} (what : String) (body : Declaring ν Unit) {b : Building ν}
      (s : State ν .flow) (closed : b.finished = true) :
      Enrols here (Declaring.whileOpen what body) b s []
  | describe {here : Surroundings ν} {description : String} {place : Location}
      {body : Surroundings ν → Declaring ν Unit} {b : Building ν} {s : State ν .flow}
      {events : List (Enrolment ν)} (isOpen : b.finished = false)
      (inside : Enrols { here with enclosing := (b.group, b.items) :: here.enclosing }
        (body { here with enclosing := (b.group, b.items) :: here.enclosing })
        (b.inner description place) s events) :
      Enrols here (Declaring.describe here description place body) b s events
  | finish {deeper : Deeper ν} {config : Config} {mode : RunMode} {b : Building ν}
      (isOpen : b.finished = false) (s : State ν .flow) :
      Enrols ⟨config, mode, []⟩ (Declaring.finish deeper ⟨config, mode, []⟩) b s
        [.ran (.group b.group b.items)]
  | finishRefused {deeper : Deeper ν} {here : Surroundings ν} {b : Building ν} (s : State ν .flow)
      (refused : here.nested = true ∨ b.finished = true) :
      Enrols here (Declaring.finish deeper here) b s []

/-! ## Every registration comes to events -/

def Enrolling (here : Surroundings ν) (action : Declaring ν α) : Prop :=
  ∀ b s, ∃ events, Enrols here action b s events

def EnrollingDeeper (deeper : Deeper ν) : Prop :=
  ∀ here body, Enrolling here (deeper.onLet here body)

namespace Enrolling

variable {here : Surroundings ν}

theorem ret (value : α) : Enrolling here (pure value : Declaring ν α) :=
  fun b s => ⟨_, .ret value b s⟩

theorem lift (flow : Flow ν .flow α) : Enrolling here (StateT.lift flow : Declaring ν α) :=
  fun b s => ⟨_, .lift flow b s⟩

theorem read : Enrolling here (get : Declaring ν (Building ν)) :=
  fun b s => ⟨_, .read b s⟩

theorem change {update : Group ν → Group ν} (unbinding : Unbinding update) :
    Enrolling here (Declaring.changeGroup update) :=
  fun b s => ⟨_, .change unbinding b s⟩

theorem bind {first : Declaring ν α} {next : α → Declaring ν β} (enrolling : Enrolling here first)
    (later : ∀ value, Enrolling here (next value)) : Enrolling here (first >>= next) := by
  intro b s
  obtain ⟨events, enrols⟩ := enrolling b s
  cases ended : ((first.run b).run s).result with
  | error stop => exact ⟨_, .bindError enrols ended⟩
  | ok completed =>
    obtain ⟨more, goesOn⟩ := later completed.1 completed.2 ((first.run b).run s).state
    exact ⟨_, .bindOk enrols ended goesOn⟩

theorem whileOpen (what : String) {body : Declaring ν Unit} (enrolling : Enrolling here body) :
    Enrolling here (Declaring.whileOpen what body) := by
  intro b s
  cases stage : b.finished with
  | true => exact ⟨_, .refused what body s stage⟩
  | false =>
    obtain ⟨events, inside⟩ := enrolling b s
    exact ⟨_, .whileOpen what stage inside⟩

theorem applyModifier (modifier : Modifier) :
    Enrolling here (Declaring.applyModifier here modifier) := by
  refine whileOpen _ (read.bind fun b => ?_)
  dsimp only
  split
  · exact lift _
  · exact change (unbinding_modify modifier)

theorem letInit {deeper : Deeper ν} (below : EnrollingDeeper deeper) (v : Variable ν)
    (init : Initialiser ν) : Enrolling here (Declaring.letInit deeper here v init) := by
  have bound : Enrolling here (Declaring.bindHere v init) := fun b s => ⟨_, .bindHere v init b s⟩
  exact bound.bind (Declaring.followUp_cases (ret ()) fun body _ => below here body)

theorem describe (description : String) (place : Location)
    {body : Surroundings ν → Declaring ν Unit} (each : ∀ inner, Enrolling inner (body inner)) :
    Enrolling here (Declaring.describe here description place body) := by
  intro b s
  cases stage : b.finished with
  | true => exact ⟨_, .refused _ _ s stage⟩
  | false =>
    obtain ⟨events, inside⟩ := each _ (b.inner description place) s
    exact ⟨_, .describe stage inside⟩

theorem finish {deeper : Deeper ν} (here : Surroundings ν) :
    Enrolling here (Declaring.finish deeper here) := by
  obtain ⟨config, mode, enclosing⟩ := here
  intro b s
  cases enclosing with
  | cons around rest => exact ⟨_, .finishRefused s (.inl rfl)⟩
  | nil =>
    cases stage : b.finished with
    | true => exact ⟨_, .finishRefused s (.inr stage)⟩
    | false => exact ⟨_, .finish stage s⟩

end Enrolling

theorem Declared.enrolling {deeper : Deeper ν} (below : EnrollingDeeper deeper)
    {here : Surroundings ν} {action : Declaring ν Unit}
    (declared : Declared deeper True here action) : Enrolling here action := by
  induction declared with
  | done => exact .ret ()
  | raise | note | keepVariable => exact .lift _
  | andThen _ _ ih ihLater => exact ih.bind fun _ => ihLater
  | look _ ih => exact Enrolling.read.bind ih
  | withVariable _ _ ih => exact (Enrolling.lift _).bind fun v => ih v v.borrows_free
  | declare => exact (Enrolling.lift _).bind fun _ => (Enrolling.lift _).bind fun _ => .lift _
  | addLeaf what => exact .whileOpen what fun b s => ⟨_, .addLeaf _ b s⟩
  | addHook what hooking => exact .whileOpen what (.change hooking.toUnbinding)
  | applyModifier modifier => exact .applyModifier modifier
  | letInit => exact .letInit below _ _
  | describe description place _ ih => exact .describe description place ih
  | finish here => exact .finish here

theorem enrolling_deeper (levels : Nat) :
    EnrollingDeeper (Deeper.within levels : Deeper ν) := by
  induction levels with
  | zero => exact fun _ _ => .lift _
  | succ levels ih => exact fun here body => (Declared.apply body.borrows_free here).enrolling ih

/-! ## The leaves of a tree that grows -/

namespace Item

mutual
def held (group : Nat) : Item ν → List (Nat × Leaf ν)
  | leaf l => [(group, l)]
  | Item.group g items => heldAll g.index items

def heldAll (group : Nat) : List (Item ν) → List (Nat × Leaf ν)
  | [] => []
  | first :: rest => held group first ++ heldAll group rest
end

theorem heldAll_append (group : Nat) (first second : List (Item ν)) :
    heldAll group (first ++ second) = heldAll group first ++ heldAll group second := by
  induction first with
  | nil => rfl
  | cons item rest ih => simp only [List.cons_append, heldAll, ih, List.append_assoc]

mutual
/-- The innermost group around a leaf is the one that it was registered in. -/
theorem innermost_leaves (chain : Chain ν) (outer : Group ν) : (item : Item ν) →
    (leaves (chain ++ [outer]) item).map
        (fun place => (place.1.getLast?.map (·.index), place.2)) =
      (held outer.index item).map fun place => (some place.1, place.2)
  | leaf l => by simp [leaves, held]
  | group g items => innermost_leavesAll (chain ++ [outer]) g items

theorem innermost_leavesAll (chain : Chain ν) (outer : Group ν) : (items : List (Item ν)) →
    (leavesAll (chain ++ [outer]) items).map
        (fun place => (place.1.getLast?.map (·.index), place.2)) =
      (heldAll outer.index items).map fun place => (some place.1, place.2)
  | [] => rfl
  | first :: rest => by
    simp only [leavesAll, heldAll, List.map_append, innermost_leaves chain outer first,
      innermost_leavesAll chain outer rest]
end

end Item

def Surroundings.held (here : Surroundings ν) : List (Nat × Leaf ν) :=
  here.enclosing.reverse.flatMap fun around => Item.heldAll around.1.index around.2

def Building.held (b : Building ν) : List (Nat × Leaf ν) :=
  Item.heldAll b.group.index b.items

/-- The tree as it stands is a group, with the leaves registered around the spec that is being
declared, and then those registered in it. -/
theorem wholeTree_eq (here : Surroundings ν) (b : Building ν) : ∃ g items,
    Declaring.wholeTree here b = .group g items ∧ Item.heldAll g.index items = here.held ++ b.held := by
  unfold Declaring.wholeTree Surroundings.held Building.held
  generalize b.group = g, b.items = items
  induction here.enclosing generalizing g items with
  | nil => exact ⟨g, items, rfl, rfl⟩
  | cons around rest ih =>
    obtain ⟨group, members⟩ := around
    obtain ⟨outermost, all, same, held⟩ := ih group (members ++ [.group g items])
    refine ⟨outermost, all, same, ?_⟩
    rw [held, Item.heldAll_append, List.reverse_cons, List.flatMap_append]
    simp [Item.heldAll, Item.held]

/-! ## What the events say -/

def Item.Holds (tree : Item ν) (places : List (Nat × Leaf ν)) : Prop :=
  (leaves [] tree).map (fun place => (place.1.getLast?.map (·.index), place.2)) =
    places.map fun place => (some place.1, place.2)

theorem holds_wholeTree (here : Surroundings ν) (b : Building ν) :
    (Declaring.wholeTree here b).Holds (here.held ++ b.held) := by
  obtain ⟨g, items, tree, held⟩ := wholeTree_eq here b
  rw [tree, ← held]
  exact Item.innermost_leavesAll [] g items

def KeepsUp (places : List (Nat × Leaf ν)) (events : List (Enrolment ν)) : Prop :=
  ∀ before event after tree, events = before ++ event :: after → event.tree? = some tree →
    tree.Holds (places ++ enrolled before)

namespace KeepsUp

variable {places : List (Nat × Leaf ν)} {events later : List (Enrolment ν)}

theorem nil : KeepsUp places [] := by
  intro before event after tree split
  simp at split

theorem single {event : Enrolment ν} (holds : ∀ tree, event.tree? = some tree → tree.Holds places) :
    KeepsUp places [event] := by
  intro before other after tree split seen
  obtain ⟨rfl, rfl, rfl⟩ : before = [] ∧ event = other ∧ after = [] := by
    cases before with
    | nil => simpa using split
    | cons _ _ => simp at split
  simpa [enrolled] using holds tree seen

theorem append (first : KeepsUp places events) (second : KeepsUp (places ++ enrolled events) later) :
    KeepsUp places (events ++ later) := by
  intro before event after tree split seen
  rcases List.append_eq_append_iff.mp split with ⟨between, rfl, rest⟩ | ⟨between, split, rest⟩
  · have holds := second between event after tree rest seen
    rwa [List.append_assoc, ← enrolled_append] at holds
  · cases between with
    | nil =>
      have holds := second [] event after tree rest.symm seen
      obtain rfl : events = before := by simpa using split
      simpa [enrolled] using holds
    | cons other between =>
      obtain ⟨rfl, -⟩ := List.cons_eq_cons.mp rest
      exact first before event between tree split seen

end KeepsUp

namespace Enrols

variable {here : Surroundings ν} {action : Declaring ν α} {b : Building ν} {s : State ν .flow}
  {events : List (Enrolment ν)}

theorem result_bindHere {v : Variable ν} {init : Initialiser ν} {b b' : Building ν}
    {s : State ν .flow} {first : Bool}
    (completed : (((Declaring.bindHere v init).run b).run s).result = .ok (first, b')) :
    b'.finished = b.finished ∧ b'.group.index = b.group.index ∧ b'.held = b.held := by
  cases stage : b.finished with
  | true =>
    rw [Declaring.run_bindHere_closed stage] at completed
    cases completed
    exact ⟨stage, rfl, rfl⟩
  | false =>
    obtain rfl := Declaring.bindHere_completes stage completed
    exact ⟨stage, rfl, rfl⟩

/-- Once the leaves have run nothing happens to the spec any more. -/
theorem of_finished (enrols : Enrols here action b s events) (closed : b.finished = true) :
    events = [] ∧ ∀ value b', ((action.run b).run s).result = .ok (value, b') →
      b'.finished = true := by
  induction enrols with
  | ret | change =>
    refine ⟨rfl, fun _ _ completed => ?_⟩
    cases completed
    exact closed
  | read | addLeaf =>
    refine ⟨if_pos closed, fun _ _ completed => ?_⟩
    cases completed
    exact closed
  | lift flow b s => exact ⟨rfl, fun _ _ completed => result_lift completed ▸ closed⟩
  | bindHere v init b s =>
    exact ⟨rfl, fun _ _ completed => (result_bindHere completed).1.trans closed⟩
  | bindOk _ completed _ ih ihLater =>
    obtain ⟨rfl, still⟩ := ih closed
    obtain ⟨rfl, later⟩ := ihLater (still _ _ completed)
    exact ⟨rfl, fun value b' ended => later value b' (result_bind_ok completed ▸ ended)⟩
  | bindError _ stopped ih =>
    exact ⟨(ih closed).1, fun value b' ended => absurd ended (result_bind_ne_ok stopped _)⟩
  | refused what body s closed =>
    refine ⟨rfl, fun value b' ended => ?_⟩
    rw [Declaring.run_whileOpen_closed closed] at ended
    cases ended
    exact closed
  | @finishRefused deeper here b s refused =>
    refine ⟨rfl, fun value b' ended => ?_⟩
    unfold Declaring.finish at ended
    rw [result_bind_ok rfl] at ended
    split at ended
    · exact result_lift ended ▸ closed
    · cases ended
      exact closed
  | whileOpen _ isOpen | describe isOpen | finish isOpen =>
    rw [isOpen] at closed
    exact absurd closed nofun

end Enrols

/-- How far a spec has come: it is still open and holds what was registered, or its leaves have run
and nothing happened since. -/
inductive Progress (here : Surroundings ν) (b : Building ν) (events : List (Enrolment ν)) :
    Building ν → Prop
  | stillOpen {b' : Building ν} (isOpen : b'.finished = false)
      (index : b'.group.index = b.group.index) (held : b'.held = b.held ++ enrolled events) :
      Progress here b events b'
  | ran {b' : Building ν} (outermost : here.nested = false) (closed : b'.finished = true)
      (last : ∃ before tree, events = before ++ [.ran tree]) : Progress here b events b'

structure Follows (here : Surroundings ν) (action : Declaring ν α) (b : Building ν)
    (s : State ν .flow) (events : List (Enrolment ν)) : Prop where
  keeps : KeepsUp (here.held ++ b.held) events
  progress : ∀ value b', ((action.run b).run s).result = .ok (value, b') →
    Progress here b events b'

namespace Follows

variable {here : Surroundings ν} {b : Building ν} {s : State ν .flow}
  {events later : List (Enrolment ν)}

theorem silent {action : Declaring ν α}
    (same : ∀ value b', ((action.run b).run s).result = .ok (value, b') →
      b'.finished = false ∧ b'.group.index = b.group.index ∧ b'.held = b.held) :
    Follows here action b s [] := by
  refine ⟨.nil, fun value b' completed => ?_⟩
  obtain ⟨isOpen, index, held⟩ := same value b' completed
  exact .stillOpen isOpen index (held.trans (List.append_nil _).symm)

theorem bind {first : Declaring ν α} {next : α → Declaring ν β} {value : α} {b₁ : Building ν}
    (follows : Follows here first b s events)
    (completed : ((first.run b).run s).result = .ok (value, b₁))
    (goesOn : Enrols here (next value) b₁ ((first.run b).run s).state later)
    (followsLater : b₁.finished = false →
      Follows here (next value) b₁ ((first.run b).run s).state later) :
    Follows here (first >>= next) b s (events ++ later) := by
  have rest : ∀ value' b', ((((first >>= next).run b).run s).result = .ok (value', b')) →
      (((next value).run b₁).run ((first.run b).run s).state).result = .ok (value', b') := by
    intro value' b' ended
    rwa [result_bind_ok completed] at ended
  cases follows.progress _ _ completed with
  | stillOpen isOpen index held =>
    obtain ⟨keepsLater, progressLater⟩ := followsLater isOpen
    rw [held, ← List.append_assoc] at keepsLater
    refine ⟨follows.keeps.append keepsLater, fun value' b' ended => ?_⟩
    cases progressLater value' b' (rest value' b' ended) with
    | stillOpen isOpen' index' held' =>
      refine .stillOpen isOpen' (index'.trans index) ?_
      rw [held', held, enrolled_append, List.append_assoc]
    | ran outermost closed last =>
      obtain ⟨before, tree, rfl⟩ := last
      exact .ran outermost closed ⟨events ++ before, tree, (List.append_assoc ..).symm⟩
  | ran outermost closed last =>
    obtain ⟨rfl, still⟩ := goesOn.of_finished closed
    rw [List.append_nil]
    refine ⟨follows.keeps, fun value' b' ended => ?_⟩
    exact .ran outermost (still value' b' (rest value' b' ended)) last

/-- The leaves of a nested spec join those that the spec around it holds. -/
theorem describe {description : String} {place : Location}
    {body : Surroundings ν → Declaring ν Unit} (isOpen : b.finished = false)
    (inside : Follows { here with enclosing := (b.group, b.items) :: here.enclosing }
      (body { here with enclosing := (b.group, b.items) :: here.enclosing })
      (b.inner description place) s events) :
    Follows here (Declaring.describe here description place body) b s events := by
  have around : Surroundings.held { here with enclosing := (b.group, b.items) :: here.enclosing } ++
      (b.inner description place).held = here.held ++ b.held := by
    simp [Surroundings.held, Building.held, Building.inner, Item.heldAll]
  refine ⟨around ▸ inside.keeps, fun value b' completed => ?_⟩
  obtain ⟨ended, came, rfl⟩ := describe_completes isOpen completed
  cases inside.progress () ended came with
  | stillOpen _ index held =>
    have members : Item.heldAll ended.group.index ended.items = enrolled events := held
    refine .stillOpen isOpen rfl ?_
    change Item.heldAll b.group.index (b.items ++ [.group ended.group ended.items]) = _
    simp [Item.heldAll_append, Item.heldAll, Item.held, members, Building.held]
  | ran outermost => exact absurd outermost (by simp [Surroundings.nested])

end Follows

/-- Whenever a plan is made, the tree holds what was registered before, and nothing else. -/
theorem Enrols.follows {here : Surroundings ν} {action : Declaring ν α} {b : Building ν}
    {s : State ν .flow} {events : List (Enrolment ν)} (enrols : Enrols here action b s events)
    (isOpen : b.finished = false) : Follows here action b s events := by
  induction enrols with
  | ret =>
    refine .silent fun _ _ completed => ?_
    cases completed
    exact ⟨isOpen, rfl, rfl⟩
  | lift flow b s =>
    refine .silent fun _ _ completed => ?_
    obtain rfl := result_lift completed
    exact ⟨isOpen, rfl, rfl⟩
  | read b s =>
    rw [if_neg (by simp [isOpen])]
    refine ⟨.single fun tree seen => ?_, fun _ _ completed => ?_⟩
    · obtain rfl := Option.some.inj seen
      exact holds_wholeTree _ b
    · cases completed
      exact .stillOpen isOpen rfl (List.append_nil _).symm
  | change unbinding b s =>
    refine .silent fun _ _ completed => ?_
    cases completed
    have index := unbinding.index b.group
    exact ⟨isOpen, index, by simp [Building.held, index]⟩
  | addLeaf leaf b s =>
    rw [if_neg (by simp [isOpen])]
    refine ⟨.single nofun, fun _ _ completed => ?_⟩
    cases completed
    exact .stillOpen isOpen rfl (Item.heldAll_append ..)
  | bindHere v init b s =>
    refine .silent fun _ _ completed => ?_
    obtain ⟨stage, index, held⟩ := result_bindHere completed
    exact ⟨stage.trans isOpen, index, held⟩
  | bindOk _ completed goesOn ih ihLater => exact (ih isOpen).bind completed goesOn ihLater
  | bindError _ stopped ih =>
    exact ⟨(ih isOpen).keeps, fun value b' ended => absurd ended (result_bind_ne_ok stopped _)⟩
  | whileOpen what isOpen inside ih =>
    refine ⟨(ih isOpen).keeps, fun value b' ended => ?_⟩
    rw [Declaring.run_whileOpen isOpen] at ended
    exact (ih isOpen).progress value b' ended
  | refused _ _ _ closed =>
    rw [isOpen] at closed
    exact absurd closed nofun
  | describe isOpen inside ih => exact .describe isOpen (ih isOpen)
  | @finish deeper config mode b _ s =>
    refine ⟨.single fun tree seen => ?_, fun _ _ completed => ?_⟩
    · obtain rfl := Option.some.inj seen
      exact holds_wholeTree ⟨config, mode, []⟩ b
    · exact .ran rfl (finished_finish completed) ⟨[], _, rfl⟩
  | @finishRefused deeper here b s refused =>
    have nested : (!here.enclosing.isEmpty) = true := refused.resolve_right (by simp [isOpen])
    refine .silent fun value b' ended => ?_
    rw [Declaring.run_finish_nested nested] at ended
    cases ended
    exact ⟨isOpen, rfl, rfl⟩

/-- Whatever is registered, whatever the mode and the seed are and whichever specs override the
mode: a plan lists every leaf that was registered once and nothing else, the leaves of a nested spec
next to each other, and in the order of registration where no other mode is in force. When the
declaration has come to its end, the last plan that was made has run. -/
theorem Registration.plans_arrange (levels : Nat) (config : Config) (mode : RunMode)
    (body : Registration ν) (name : String) (s : State ν .flow) :
    let declaration := body.declaration (Deeper.within levels) ⟨config, mode, []⟩
    (∃ events, Enrols ⟨config, mode, []⟩ declaration (.start name) s events) ∧
      ∀ events, Enrols ⟨config, mode, []⟩ declaration (.start name) s events →
        (∀ ended, ((declaration.run (.start name)).run s).result = .ok ended →
          ∃ before tree, events = before ++ [.ran tree]) ∧
        ∀ before event after tree, events = before ++ event :: after → event.tree? = some tree →
          tree.Holds (enrolled before) ∧
            ∃ numbers, Runner.Arranges ⟨config, mode, Deeper.within levels⟩ tree numbers := by
  intro declaration
  have enrolling : Enrolling ⟨config, mode, []⟩ declaration :=
    (Declared.declaration body.borrows_free _).enrolling (enrolling_deeper levels)
  refine ⟨enrolling _ s, fun events enrols => ?_⟩
  obtain ⟨keeps, progress⟩ := enrols.follows rfl
  refine ⟨fun ended completed => ?_, fun before event after tree split seen => ?_⟩
  · cases progress ended.1 ended.2 completed with
    | stillOpen isOpen =>
      exact absurd (isOpen.symm.trans (finished_declaration completed)) nofun
    | ran _ _ last => exact last
  · exact ⟨keeps before event after tree split seen, _, Runner.arranges _ tree⟩

end NestedSpec
