import NestedSpec.Proofs.Registering

/-!
# Registrations that belong to variables

A variable may carry a registration for the specs in which it is bound. It is applied at the first
binding in a spec and at no later one, although it is applied in the middle of the binding and may
bind the same variable again: which variables were bound in a group is noted before.
-/

namespace NestedSpec

variable {ν α β : Type}

inductive LetEvent (ν : Type) where
  | bound (group : Nat) (v : Variable ν) (init : Initialiser ν)
  | called (group : Nat) (v : Variable ν) (body : Registration ν)

namespace LetEvent

def made? : LetEvent ν → Option (Made ν)
  | bound group v init => some ⟨group, ⟨v.id, v.label, init⟩⟩
  | called _ _ _ => none

def call? (group id : Nat) : LetEvent ν → Option (Registration ν)
  | bound _ _ _ => none
  | called here v body => if here = group ∧ v.id = id then some body else none

def bound? (group id : Nat) : LetEvent ν → Option (Variable ν)
  | bound here v _ => if here = group ∧ v.id = id then some v else none
  | called _ _ _ => none

end LetEvent

def madeBy (events : List (LetEvent ν)) : List (Made ν) := events.filterMap LetEvent.made?

def callsOf (group id : Nat) (events : List (LetEvent ν)) : List (Registration ν) :=
  events.filterMap (LetEvent.call? group id)

def firstBound (group id : Nat) (events : List (LetEvent ν)) : Option (Variable ν) :=
  events.findSome? (LetEvent.bound? group id)

def BoundIn (events : List (LetEvent ν)) (group id : Nat) : Prop :=
  ∃ made ∈ madeBy events, made.group = group ∧ made.binding.id = id

/-! ## Calls behind first bindings -/

section Events

variable {events later : List (LetEvent ν)} {known other : Nat → Nat → Prop} {group id : Nat}

@[simp] theorem madeBy_append (first second : List (LetEvent ν)) :
    madeBy (first ++ second) = madeBy first ++ madeBy second :=
  List.filterMap_append

@[simp] theorem boundIn_append {first second : List (LetEvent ν)} :
    BoundIn (first ++ second) group id ↔ BoundIn first group id ∨ BoundIn second group id := by
  simp [BoundIn, or_and_right, exists_or]

@[simp] theorem boundIn_nil : BoundIn ([] : List (LetEvent ν)) group id ↔ False := by
  simp [BoundIn, madeBy]

@[simp] theorem boundIn_bound {here : Nat} {v : Variable ν} {init : Initialiser ν} :
    BoundIn (.bound here v init :: events) group id ↔
      (here = group ∧ v.id = id) ∨ BoundIn events group id := by
  simp [BoundIn, madeBy, LetEvent.made?]

@[simp] theorem boundIn_called {here : Nat} {v : Variable ν} {body : Registration ν} :
    BoundIn (.called here v body :: events) group id ↔ BoundIn events group id := by
  simp [BoundIn, madeBy, LetEvent.made?]

@[simp] theorem callsOf_bound {here : Nat} {v : Variable ν} {init : Initialiser ν} :
    callsOf group id (.bound here v init :: events) = callsOf group id events := rfl

@[simp] theorem callsOf_called {here : Nat} {v : Variable ν} {body : Registration ν} :
    callsOf group id (.called here v body :: events) =
      if here = group ∧ v.id = id then body :: callsOf group id events
      else callsOf group id events := by
  by_cases same : here = group ∧ v.id = id <;> simp [callsOf, LetEvent.call?, same]

@[simp] theorem firstBound_bound {here : Nat} {v : Variable ν} {init : Initialiser ν} :
    firstBound group id (.bound here v init :: events) =
      if here = group ∧ v.id = id then some v else firstBound group id events := by
  by_cases same : here = group ∧ v.id = id <;> simp [firstBound, LetEvent.bound?, same]

@[simp] theorem firstBound_called {here : Nat} {v : Variable ν} {body : Registration ν} :
    firstBound group id (.called here v body :: events) = firstBound group id events := rfl

def mark (known : Nat → Nat → Prop) (group id : Nat) : Nat → Nat → Prop :=
  fun other id' => (group = other ∧ id = id') ∨ known other id'

/-- Every first binding of a variable in a group is followed by the call that belongs to it, and
there are no other calls. Some variables may be bound before. -/
inductive CalledOnce : (Nat → Nat → Prop) → List (LetEvent ν) → Prop
  | nil {known : Nat → Nat → Prop} : CalledOnce known []
  | again {known : Nat → Nat → Prop} {group : Nat} {v : Variable ν} {init : Initialiser ν}
      {events : List (LetEvent ν)} (before : known group v.id)
      (rest : CalledOnce (mark known group v.id) events) :
      CalledOnce known (.bound group v init :: events)
  | silent {known : Nat → Nat → Prop} {group : Nat} {v : Variable ν} {init : Initialiser ν}
      {events : List (LetEvent ν)} (first : ¬ known group v.id) (none : v.onLet = none)
      (rest : CalledOnce (mark known group v.id) events) :
      CalledOnce known (.bound group v init :: events)
  | called {known : Nat → Nat → Prop} {group : Nat} {v : Variable ν} {init : Initialiser ν}
      {body : Registration ν} {events : List (LetEvent ν)} (first : ¬ known group v.id)
      (callback : v.onLet = some body) (rest : CalledOnce (mark known group v.id) events) :
      CalledOnce known (.bound group v init :: .called group v body :: events)

namespace CalledOnce

/-- What is known of groups in which nothing is bound makes no difference. -/
theorem congr (once : CalledOnce known events)
    (same : ∀ made ∈ madeBy events, ∀ id, known made.group id ↔ other made.group id) :
    CalledOnce other events := by
  induction once generalizing other with
  | nil => exact .nil
  | again before _ ih =>
    obtain ⟨here, there⟩ := List.forall_mem_cons.mp same
    exact .again ((here _).mp before) (ih fun made member id => or_congr_right (there made member id))
  | silent first none _ ih =>
    obtain ⟨here, there⟩ := List.forall_mem_cons.mp same
    exact .silent (fun before => first ((here _).mpr before)) none
      (ih fun made member id => or_congr_right (there made member id))
  | called first callback _ ih =>
    obtain ⟨here, there⟩ := List.forall_mem_cons.mp same
    exact .called (fun before => first ((here _).mpr before)) callback
      (ih fun made member id => or_congr_right (there made member id))

theorem append (once : CalledOnce known events)
    (onceLater : CalledOnce (fun group id => BoundIn events group id ∨ known group id) later) :
    CalledOnce known (events ++ later) := by
  induction once with
  | nil => exact onceLater.congr (by simp)
  | again before _ ih =>
    exact .again before (ih (onceLater.congr (by simp [mark, or_assoc, or_left_comm])))
  | silent first none _ ih =>
    exact .silent first none (ih (onceLater.congr (by simp [mark, or_assoc, or_left_comm])))
  | called first callback _ ih =>
    exact .called first callback (ih (onceLater.congr (by simp [mark, or_assoc, or_left_comm])))

/-- The calls for a variable in a group are the one that its first binding there asks for. -/
theorem callsOf_eq (once : CalledOnce known events) (group id : Nat) :
    (known group id → callsOf group id events = []) ∧
    (¬ known group id →
      callsOf group id events = ((firstBound group id events).bind Variable.onLet).toList) := by
  induction once with
  | nil => exact ⟨fun _ => rfl, fun _ => rfl⟩
  | @again known here v init events before _ ih =>
    by_cases same : here = group ∧ v.id = id
    · obtain ⟨rfl, rfl⟩ := same
      simpa [mark, before] using ih
    · simpa [mark, same] using ih
  | @silent known here v init events first none _ ih =>
    by_cases same : here = group ∧ v.id = id
    · obtain ⟨rfl, rfl⟩ := same
      simpa [mark, first, none] using ih
    · simpa [mark, same] using ih
  | @called known here v init body events first callback _ ih =>
    by_cases same : here = group ∧ v.id = id
    · obtain ⟨rfl, rfl⟩ := same
      simpa [mark, first, callback] using ih
    · simpa [mark, same] using ih

/-- A call is made right behind the first binding of the variable in the group. -/
theorem behind (once : CalledOnce known events) {before after : List (LetEvent ν)} {group : Nat}
    {v : Variable ν} {body : Registration ν}
    (split : events = before ++ .called group v body :: after) :
    v.onLet = some body ∧ ¬ known group v.id ∧ ∃ earlier init,
      before = earlier ++ [.bound group v init] ∧ ¬ BoundIn earlier group v.id := by
  induction once generalizing before with
  | nil => exact absurd split (by simp)
  | again _ _ ih | silent _ _ _ ih =>
    cases before with
    | nil => exact absurd (List.cons.inj split).1 nofun
    | cons event before =>
      obtain ⟨rfl, rest⟩ := List.cons.inj split
      obtain ⟨callback, unknown, earlier, init', rfl, fresh⟩ := ih rest
      rw [mark, not_or] at unknown
      refine ⟨callback, unknown.2, _ :: earlier, init', rfl, ?_⟩
      rw [boundIn_bound, not_or]
      exact ⟨unknown.1, fresh⟩
  | called first callback _ ih =>
    rcases before with - | ⟨event, - | ⟨other, before⟩⟩
    · exact absurd (List.cons.inj split).1 nofun
    · obtain ⟨rfl, behind⟩ := List.cons.inj split
      obtain ⟨⟨⟩, rfl⟩ := List.cons.inj behind
      exact ⟨callback, first, [], _, rfl, by simp⟩
    · obtain ⟨rfl, behind⟩ := List.cons.inj split
      obtain ⟨rfl, later⟩ := List.cons.inj behind
      obtain ⟨callback, unknown, earlier, init', rfl, fresh⟩ := ih later
      rw [mark, not_or] at unknown
      refine ⟨callback, unknown.2, _ :: _ :: earlier, init', rfl, ?_⟩
      rw [boundIn_bound, boundIn_called, not_or]
      exact ⟨unknown.1, fresh⟩

end CalledOnce

end Events

/-! ## Registrations and what they bind -/

inductive Lets :
    Bool → {α : Type} → Declaring ν α → Building ν → State ν .flow → List (LetEvent ν) →
      List (Item ν) → Prop
  | ret {nested : Bool} {α : Type} (value : α) (b : Building ν) (s : State ν .flow) :
      Lets nested (pure value) b s [] []
  | lift {nested : Bool} {α : Type} (flow : Flow ν .flow α) (b : Building ν) (s : State ν .flow) :
      Lets nested (StateT.lift flow) b s [] []
  | read {nested : Bool} (b : Building ν) (s : State ν .flow) : Lets nested get b s [] []
  | change {nested : Bool} {update : Group ν → Group ν} (unbinding : Unbinding update)
      (marks : ∀ group, (update group).boundOnce = group.boundOnce) (b : Building ν)
      (s : State ν .flow) : Lets nested (Declaring.changeGroup update) b s [] []
  | addLeaf {nested : Bool} (leaf : Leaf ν) (b : Building ν) (s : State ν .flow) :
      Lets nested (Declaring.addItem (.leaf leaf)) b s [] []
  | bindOk {nested : Bool} {α β : Type} {first : Declaring ν α} {next : α → Declaring ν β}
      {b b' : Building ν} {s : State ν .flow} {value : α} {events later : List (LetEvent ν)}
      {frozen more : List (Item ν)} (lets : Lets nested first b s events frozen)
      (completed : ((first.run b).run s).result = .ok (value, b'))
      (goesOn : Lets nested (next value) b' ((first.run b).run s).state later more) :
      Lets nested (first >>= next) b s (events ++ later) (frozen ++ more)
  | bindError {nested : Bool} {α β : Type} {first : Declaring ν α} {next : α → Declaring ν β}
      {b : Building ν} {s : State ν .flow} {stop : Stop} {events : List (LetEvent ν)}
      {frozen : List (Item ν)} (lets : Lets nested first b s events frozen)
      (stopped : ((first.run b).run s).result = .error stop) :
      Lets nested (first >>= next) b s events frozen
  | silent {nested : Bool} {deeper : Deeper ν} {here : Surroundings ν} {v : Variable ν}
      {init : Initialiser ν} {b b' : Building ν} {s : State ν .flow} {first : Bool}
      (isOpen : b.finished = false)
      (completed : (((Declaring.bindHere v init).run b).run s).result = .ok (first, b'))
      (silent : first = true → v.onLet = none) :
      Lets nested (Declaring.letInit deeper here v init) b s [.bound b.group.index v init] []
  | called {nested : Bool} {deeper : Deeper ν} {here : Surroundings ν} {v : Variable ν}
      {init : Initialiser ν} {body : Registration ν} {b b' : Building ν} {s : State ν .flow}
      {events : List (LetEvent ν)} {frozen : List (Item ν)} (isOpen : b.finished = false)
      (completed : (((Declaring.bindHere v init).run b).run s).result = .ok (true, b'))
      (callback : v.onLet = some body)
      (inside : Lets nested (deeper.onLet here body) b'
        (((Declaring.bindHere v init).run b).run s).state events frozen) :
      Lets nested (Declaring.letInit deeper here v init) b s
        (.bound b.group.index v init :: .called b'.group.index v body :: events) frozen
  | refused {nested : Bool} {deeper : Deeper ν} {here : Surroundings ν} (v : Variable ν)
      (init : Initialiser ν) {b : Building ν} (closed : b.finished = true) (s : State ν .flow) :
      Lets nested (Declaring.letInit deeper here v init) b s [] []
  | describe {nested : Bool} {here : Surroundings ν} {description : String} {place : Location}
      {body : Surroundings ν → Declaring ν Unit} {b : Building ν} {s : State ν .flow}
      {events : List (LetEvent ν)} (isOpen : b.finished = false)
      (inside : Lets true (body { here with enclosing := (b.group, b.items) :: here.enclosing })
        (b.inner description place) s events []) :
      Lets nested (Declaring.describe here description place body) b s events []
  | freeze {deeper : Deeper ν} {config : Config} {mode : RunMode} {b : Building ν}
      (isOpen : b.finished = false) (s : State ν .flow) :
      Lets false (Declaring.finish deeper ⟨config, mode, []⟩) b s [] [.group b.group b.items]

namespace Lets

variable {nested : Bool} {action : Declaring ν α} {b : Building ν} {s : State ν .flow}
  {events : List (LetEvent ν)} {frozen : List (Item ν)}

/-- The bindings and the frozen trees are those that are registered. -/
theorem registers (lets : Lets nested action b s events frozen) :
    Registers nested action b s (madeBy events) frozen := by
  induction lets with
  | ret value b s => exact .ret value b s
  | lift flow b s => exact .lift flow b s
  | read b s => exact .read b s
  | change unbinding _ b s => exact .change unbinding b s
  | addLeaf leaf b s => exact .addLeaf leaf b s
  | bindOk _ completed _ ih ihLater => exact madeBy_append _ _ ▸ .bindOk ih completed ihLater
  | bindError _ stopped ih => exact .bindError ih stopped
  | @silent _ deeper here v init b b' s first isOpen completed silent =>
    rw [Declaring.letInit_eq]
    refine .bindOk (.bindHere isOpen v init s) completed ?_
    rw [Declaring.followUp_silent silent]
    exact .ret () _ _
  | @called _ deeper here v init body b b' s events frozen isOpen completed callback _ ih =>
    rw [Declaring.letInit_eq]
    refine .bindOk (.bindHere isOpen v init s) completed ?_
    rw [Declaring.followUp_called callback]
    exact ih
  | refused v init closed s =>
    have completed := congrArg Step.result (Declaring.run_bindHere_closed closed v init s)
    exact .bindOk (.bindHere_closed closed v init s) completed (.ret () _ _)
  | describe isOpen _ ih => exact .describe isOpen ih
  | freeze isOpen s => exact .freeze isOpen s

/-- Nothing is bound after the leaves have run. -/
theorem of_finished (lets : Lets nested action b s events frozen) (closed : b.finished = true) :
    events = [] := by
  induction lets with
  | ret | lift | read | change | addLeaf | refused | freeze => rfl
  | bindOk lets completed _ ih ihLater =>
    have still := (lets.registers.of_finished closed).2.2 _ _ completed
    rw [ih closed, ihLater still, List.append_nil]
  | bindError _ _ ih => exact ih closed
  | silent isOpen | called isOpen | describe isOpen =>
    rw [isOpen] at closed
    exact absurd closed nofun

end Lets

/-! ## What is noted in the group -/

def Building.knows (b : Building ν) (group id : Nat) : Prop :=
  group = b.group.index ∧ id ∈ b.group.boundOnce

theorem Group.mem_boundOnce_bind (group : Group ν) (binding : Binding ν) (id : Nat) :
    id ∈ (group.bind binding).boundOnce ↔ binding.id = id ∨ id ∈ group.boundOnce := by
  unfold bind
  dsimp only
  split
  · next known =>
    have there : binding.id ∈ group.boundOnce := by simpa using known
    exact ⟨.inr, fun noted => noted.elim (fun same => same ▸ there) fun noted => noted⟩
  · rw [List.mem_cons, eq_comm]

theorem Building.knows_bind (b : Building ν) (v : Variable ν) (init : Initialiser ν)
    (group id : Nat) :
    ({ b with group := b.group.bind ⟨v.id, v.label, init⟩ } : Building ν).knows group id ↔
      mark b.knows b.group.index v.id group id := by
  rw [knows, mark, knows, Group.mem_boundOnce_bind]
  change group = b.group.index ∧ _ ↔ _
  rw [and_or_left, eq_comm (a := group)]

/-- Inside a nested spec nothing is bound in the group around it. -/
theorem Extends.not_boundIn {b b₁ : Building ν} {description : String} {place : Location}
    {events : List (LetEvent ν)} {items : List (Item ν)} (order : b.group.index < b.nextIndex)
    (grown : Extends (b.inner description place) (madeBy events) items b₁) (id : Nat) :
    ¬ BoundIn events b.group.index id := by
  rintro ⟨made, member, here, -⟩
  rcases grown.places made member with there | there
  · exact absurd (here.symm.trans there) (Nat.ne_of_lt order)
  · have newer : b.nextIndex + 1 ≤ made.group := there.1
    omega

namespace Lets

variable {nested : Bool} {action : Declaring ν α} {b : Building ν} {s : State ν .flow}
  {events : List (LetEvent ν)} {frozen : List (Item ν)}

/-- As long as the spec is open, its group has noted the variables that were bound in it. -/
theorem notes (lets : Lets nested action b s events frozen) (isOpen : b.finished = false)
    (order : b.group.index < b.nextIndex) {value : α} {b' : Building ν}
    (completed : ((action.run b).run s).result = .ok (value, b')) (still : b'.finished = false)
    (id : Nat) :
    id ∈ b'.group.boundOnce ↔ BoundIn events b.group.index id ∨ id ∈ b.group.boundOnce := by
  induction lets generalizing b' with
  | ret | read | addLeaf =>
    cases completed
    simp
  | lift flow b s =>
    obtain rfl := result_lift completed
    simp
  | change _ marks =>
    cases completed
    simp [marks]
  | @bindOk _ _ _ first next b b₁ s _ events later _ _ lets completedFirst goesOn ih ihLater =>
    rw [result_bind_ok completedFirst] at completed
    cases (lets.registers.grows isOpen order).arrives _ _ completedFirst with
    | stillOpen grown =>
      rw [ihLater grown.isOpen (grown.order order) completed still, grown.index,
        ih isOpen order completedFirst grown.isOpen, boundIn_append, or_assoc, or_left_comm]
    | frozen _ closed =>
      have ended := (goesOn.registers.of_finished closed).2.2 _ _ completed
      exact absurd (still.symm.trans ended) nofun
  | bindError _ stopped =>
    exact absurd completed (result_bind_ne_ok stopped _)
  | @silent _ deeper here v init b b₁ s first isOpen bound silent =>
    rw [Declaring.letInit_eq, result_bind_ok bound, Declaring.followUp_silent silent] at completed
    cases completed
    obtain rfl := Declaring.bindHere_completes isOpen bound
    simp [Group.mem_boundOnce_bind]
  | @called _ deeper here v init body b b₁ s events frozen isOpen bound callback lets ih =>
    rw [Declaring.letInit_eq, result_bind_ok bound, Declaring.followUp_called callback] at completed
    obtain rfl := Declaring.bindHere_completes isOpen bound
    rw [ih isOpen order completed still, Group.mem_boundOnce_bind, boundIn_bound, boundIn_called]
    change BoundIn events b.group.index id ∨ _ ↔ _
    simp [or_assoc, or_left_comm]
  | refused _ _ closed => exact absurd (isOpen.symm.trans closed) nofun
  | @describe _ here description place body b s events _ inside ih =>
    obtain ⟨ended, came, rfl⟩ := describe_completes isOpen completed
    cases (inside.registers.grows isOpen (Nat.lt_succ_self _)).arrives _ _ came with
    | stillOpen grown => simp [Extends.not_boundIn order grown]
  | freeze => exact absurd (still.symm.trans (finished_finish completed)) nofun

end Lets

/-- Every first binding from here on is followed by the call that belongs to it, and what is bound
is bound in the group that is being declared or in a new one. -/
structure Accompanied (b : Building ν) (events : List (LetEvent ν)) : Prop where
  once : CalledOnce b.knows events
  places : ∀ made ∈ madeBy events, made.group = b.group.index ∨ b.nextIndex ≤ made.group

namespace Accompanied

variable {b b₁ : Building ν} {v : Variable ν} {init : Initialiser ν}
  {events later : List (LetEvent ν)}

theorem nil : Accompanied b [] := ⟨.nil, nofun⟩

theorem append {items : List (Item ν)} (order : b.group.index < b.nextIndex)
    (grown : Extends b (madeBy events) items b₁)
    (noted : ∀ id, id ∈ b₁.group.boundOnce ↔
      BoundIn events b.group.index id ∨ id ∈ b.group.boundOnce)
    (before : Accompanied b events) (after : Accompanied b₁ later) :
    Accompanied b (events ++ later) := by
  have index := grown.index
  have range := grown.nextIndex
  refine ⟨before.once.append (after.once.congr fun made member id => ?_), fun made member => ?_⟩
  · rcases after.places made member with here | new
    · simp only [Building.knows, here, index, noted, true_and]
    -- A group that is declared later has nothing noted yet.
    · have fresh : ¬ BoundIn events made.group id := by
        rintro ⟨earlier, among, same, -⟩
        have placed := grown.places earlier among
        omega
      have elsewhere : made.group ≠ b.group.index := by omega
      simp only [Building.knows, index, elsewhere, fresh, false_and, or_false]
  · rw [madeBy_append, List.mem_append] at member
    rcases member with earlier | late
    · exact before.places made earlier
    · exact (after.places made late).imp (fun here => here.trans index) (by omega)

theorem silent (none : v.id ∉ b.group.boundOnce → v.onLet = none) :
    Accompanied b [.bound b.group.index v init] := by
  refine ⟨?_, fun made member => .inl (congrArg Made.group (List.mem_singleton.mp member))⟩
  by_cases known : b.knows b.group.index v.id
  · exact .again known .nil
  · exact .silent known (none fun noted => known ⟨rfl, noted⟩) .nil

theorem called {body : Registration ν} (first : v.id ∉ b.group.boundOnce)
    (callback : v.onLet = some body)
    (inside : Accompanied { b with group := b.group.bind ⟨v.id, v.label, init⟩ } events) :
    Accompanied b
      (.bound b.group.index v init :: .called b.group.index v body :: events) := by
  refine ⟨.called (fun known => first known.2) callback ?_, ?_⟩
  · exact inside.once.congr fun made _ id => b.knows_bind v init made.group id
  · exact List.forall_mem_cons.mpr ⟨.inl rfl, inside.places⟩

theorem describe {description : String} {place : Location} (order : b.group.index < b.nextIndex)
    (inside : Accompanied (b.inner description place) events) : Accompanied b events := by
  have newer : ∀ made ∈ madeBy events, b.nextIndex ≤ made.group := by
    intro made member
    rcases inside.places made member with here | new
    · exact Nat.le_of_eq here.symm
    · exact Nat.le_of_succ_le new
  refine ⟨inside.once.congr fun made member id => ?_, fun made member => .inr (newer made member)⟩
  have later : made.group ≠ b.group.index := by
    have := newer made member
    omega
  have none : (b.inner description place).group.boundOnce = [] := rfl
  simp only [Building.knows, none, List.not_mem_nil, and_false, later, false_and]

end Accompanied

theorem Lets.accompanied {nested : Bool} {action : Declaring ν α} {b : Building ν}
    {s : State ν .flow} {events : List (LetEvent ν)} {frozen : List (Item ν)}
    (lets : Lets nested action b s events frozen) (isOpen : b.finished = false)
    (order : b.group.index < b.nextIndex) : Accompanied b events := by
  induction lets with
  | ret | read | addLeaf | lift | change | refused | freeze => exact .nil
  | bindOk lets completed goesOn ih ihLater =>
    cases (lets.registers.grows isOpen order).arrives _ _ completed with
    | stillOpen grown =>
      exact .append order grown (lets.notes isOpen order completed grown.isOpen) (ih isOpen order)
        (ihLater grown.isOpen (grown.order order))
    | frozen _ closed =>
      obtain rfl := goesOn.of_finished closed
      rw [List.append_nil]
      exact ih isOpen order
  | bindError _ _ ih => exact ih isOpen order
  | silent _ bound none =>
    rw [Declaring.result_bindHere isOpen] at bound
    obtain ⟨rfl, -⟩ := Prod.mk.inj (Except.ok.inj bound)
    exact .silent fun unknown => none (by simpa using unknown)
  | called _ bound callback _ ih =>
    rw [Declaring.result_bindHere isOpen] at bound
    obtain ⟨first, rfl⟩ := Prod.mk.inj (Except.ok.inj bound)
    exact .called (by simpa using first) callback (ih isOpen order)
  | describe _ _ ih => exact .describe order (ih isOpen (Nat.lt_succ_self _))

/-! ## Every registration comes to events -/

def Letting (nested : Bool) (action : Declaring ν α) : Prop :=
  ∀ b s, ∃ events frozen, Lets nested action b s events frozen

def LettingDeeper (deeper : Deeper ν) : Prop :=
  ∀ here body, Letting here.nested (deeper.onLet here body)

namespace Letting

variable {nested : Bool} {deeper : Deeper ν} {here : Surroundings ν}

theorem ret (value : α) : Letting nested (pure value : Declaring ν α) :=
  fun b s => ⟨_, _, .ret value b s⟩

theorem lift (flow : Flow ν .flow α) : Letting nested (StateT.lift flow : Declaring ν α) :=
  fun b s => ⟨_, _, .lift flow b s⟩

theorem read : Letting nested (get : Declaring ν (Building ν)) :=
  fun b s => ⟨_, _, .read b s⟩

theorem bind {first : Declaring ν α} {next : α → Declaring ν β} (letting : Letting nested first)
    (later : ∀ value, Letting nested (next value)) : Letting nested (first >>= next) := by
  intro b s
  obtain ⟨events, frozen, lets⟩ := letting b s
  cases ended : ((first.run b).run s).result with
  | error stop => exact ⟨_, _, .bindError lets ended⟩
  | ok completed =>
    obtain ⟨more, trees, goesOn⟩ := later completed.1 completed.2 ((first.run b).run s).state
    exact ⟨_, _, .bindOk lets ended goesOn⟩

theorem misuse (message : String) :
    Letting nested (Declaring.misuse message : Declaring ν Unit) :=
  lift _

theorem whileOpen (what : String) {body : Declaring ν Unit} (letting : Letting nested body) :
    Letting nested (Declaring.whileOpen what body) := by
  refine read.bind fun b => ?_
  split
  · exact misuse _
  · exact letting

theorem change {update : Group ν → Group ν} (unbinding : Unbinding update)
    (marks : ∀ group, (update group).boundOnce = group.boundOnce) :
    Letting nested (Declaring.changeGroup update) :=
  fun b s => ⟨_, _, .change unbinding marks b s⟩

theorem applyModifier (modifier : Modifier) :
    Letting nested (Declaring.applyModifier here modifier) := by
  refine whileOpen _ (read.bind fun b => ?_)
  dsimp only
  split
  · exact misuse _
  · exact change (unbinding_modify modifier) fun group => by cases modifier <;> rfl

/-- A computation that looks at what has been declared, and goes on as it is there. -/
theorem afterRead {next : Building ν → Declaring ν α} {b : Building ν} {s : State ν .flow}
    (lets : ∃ events frozen, Lets nested (next b) b s events frozen) :
    ∃ events frozen, Lets nested (get >>= next) b s events frozen := by
  obtain ⟨events, frozen, goesOn⟩ := lets
  exact ⟨_, _, .bindOk (.read b s) rfl goesOn⟩

theorem describe (description : String) (place : Location)
    {body : Surroundings ν → Declaring ν Unit} (each : ∀ inner, Letting inner.nested (body inner)) :
    Letting nested (Declaring.describe here description place body) := by
  intro b s
  cases stage : b.finished with
  | true =>
    apply afterRead
    rw [if_pos stage]
    exact misuse _ b s
  | false =>
    obtain ⟨events, frozen, lets⟩ := each
      { here with enclosing := (b.group, b.items) :: here.enclosing } (b.inner description place) s
    obtain rfl := lets.registers.of_nested rfl
    exact ⟨_, _, .describe stage lets⟩

theorem finish (here : Surroundings ν) : Letting here.nested (Declaring.finish deeper here) := by
  obtain ⟨config, mode, enclosing⟩ := here
  intro b s
  cases enclosing with
  | cons around rest => exact afterRead (misuse _ b s)
  | nil =>
    cases stage : b.finished with
    | true =>
      apply afterRead
      rw [if_neg (by simp), if_pos stage]
      exact ret () b s
    | false => exact ⟨_, _, .freeze stage s⟩

theorem letInit (below : LettingDeeper deeper) (here : Surroundings ν) (v : Variable ν)
    (init : Initialiser ν) : Letting here.nested (Declaring.letInit deeper here v init) := by
  intro b s
  cases stage : b.finished with
  | true => exact ⟨_, _, .refused v init stage s⟩
  | false =>
    have bound := Declaring.result_bindHere stage v init s
    cases callback : v.onLet with
    | none => exact ⟨_, _, .silent stage bound fun _ => callback⟩
    | some body =>
      cases first : !b.group.boundOnce.contains v.id with
      | false =>
        rw [first] at bound
        exact ⟨_, _, .silent stage bound nofun⟩
      | true =>
        rw [first] at bound
        obtain ⟨events, frozen, inside⟩ := below here body _ _
        exact ⟨_, _, .called stage bound callback inside⟩

end Letting

theorem Declared.letting {deeper : Deeper ν} (below : LettingDeeper deeper)
    {here : Surroundings ν} {action : Declaring ν Unit}
    (declared : Declared deeper True here action) : Letting here.nested action := by
  induction declared with
  | done => exact .ret ()
  | raise | note | keepVariable => exact .lift _
  | andThen _ _ ih ihLater => exact ih.bind fun _ => ihLater
  | look _ ih => exact Letting.read.bind ih
  | withVariable _ _ ih => exact (Letting.lift _).bind fun v => ih v v.borrows_free
  | declare => exact (Letting.lift _).bind fun _ => (Letting.lift _).bind fun _ => .lift _
  | addLeaf what => exact .whileOpen what fun b s => ⟨_, _, .addLeaf _ b s⟩
  | addHook what hooking => exact .whileOpen what (.change hooking.toUnbinding hooking.boundOnce)
  | applyModifier modifier => exact .applyModifier modifier
  | letInit => exact .letInit below _ _ _
  | describe description place _ ih => exact .describe description place ih
  | finish here => exact .finish here

theorem letting_deeper (levels : Nat) : LettingDeeper (Deeper.within levels : Deeper ν) := by
  induction levels with
  | zero => exact fun _ _ => .lift _
  | succ levels ih => exact fun here body => (Declared.apply body.borrows_free here).letting ih

/-! ## Once in every spec -/

structure CallsOnce (events : List (LetEvent ν)) : Prop where
  calls : ∀ group id,
    callsOf group id events = ((firstBound group id events).bind Variable.onLet).toList
  behind : ∀ before group v body after, events = before ++ .called group v body :: after →
    v.onLet = some body ∧ ∃ earlier init, before = earlier ++ [.bound group v init] ∧
      ¬ BoundIn earlier group v.id
  everywhere : ∀ id callback,
    (∀ group v init, .bound group v init ∈ events → v.id = id → v.onLet = some callback) →
      ∀ group, (BoundIn events group id → callsOf group id events = [callback]) ∧
        (¬ BoundIn events group id → callsOf group id events = [])

theorem firstBound_mem {events : List (LetEvent ν)} {group id : Nat} {v : Variable ν}
    (first : firstBound group id events = some v) :
    ∃ init, .bound group v init ∈ events ∧ v.id = id := by
  obtain ⟨event, member, found⟩ := List.exists_of_findSome?_eq_some first
  cases event with
  | called => exact absurd found nofun
  | bound here w init =>
    obtain ⟨⟨rfl, rfl⟩, same⟩ := Option.ite_none_right_eq_some.mp found
    obtain rfl := Option.some.inj same
    exact ⟨init, member, rfl⟩

theorem firstBound_isSome {events : List (LetEvent ν)} {group id : Nat} :
    (firstBound group id events).isSome = true ↔ BoundIn events group id := by
  induction events with
  | nil => simp [firstBound]
  | cons event events ih =>
    cases event with
    | called => rw [firstBound_called, boundIn_called, ih]
    | bound here v init =>
      rw [firstBound_bound, boundIn_bound, ← ih]
      by_cases same : here = group ∧ v.id = id <;> simp [same]

theorem CalledOnce.callsOnce {events : List (LetEvent ν)}
    (once : CalledOnce (fun _ _ => False) events) : CallsOnce events := by
  have calls : ∀ group id,
      callsOf group id events = ((firstBound group id events).bind Variable.onLet).toList :=
    fun group id => (once.callsOf_eq group id).2 not_false
  refine ⟨calls, fun before group v body after split => ?_, fun id callback same group => ?_⟩
  · obtain ⟨callback, -, first⟩ := once.behind split
    exact ⟨callback, first⟩
  · rw [calls, ← firstBound_isSome]
    cases first : firstBound group id events with
    | none => exact ⟨nofun, fun _ => rfl⟩
    | some v =>
      obtain ⟨init, member, named⟩ := firstBound_mem first
      refine ⟨fun _ => ?_, fun unbound => absurd rfl unbound⟩
      rw [Option.bind_some, same group v init member named]
      rfl

/-- Whatever is registered, through whichever variables and whatever belongs to these: it comes to
events, and they say that what belongs to a variable is applied once in every spec in which the
variable is bound. In the tree that is frozen in the end, the last binding of a variable in a spec is
in force there. -/
theorem Registration.calls_once (levels : Nat) (config : Config) (mode : RunMode)
    (body : Registration ν) (name : String) (s : State ν .flow) :
    let declaration := body.declaration (Deeper.within levels) ⟨config, mode, []⟩
    (∃ events frozen, Lets false declaration (.start name) s events frozen) ∧
      ∀ events frozen, Lets false declaration (.start name) s events frozen →
        CallsOnce events ∧
        (∀ ended, ((declaration.run (.start name)).run s).result = .ok ended →
          ∃ tree, frozen = [tree]) ∧
        ∀ tree ∈ frozen, Keeps (madeBy events) tree := by
  intro declaration
  have declared : Declared (Deeper.within levels) True ⟨config, mode, []⟩ declaration :=
    .declaration body.borrows_free _
  refine ⟨declared.letting (letting_deeper levels) _ s, fun events frozen lets => ?_⟩
  have once := (lets.accompanied rfl Nat.zero_lt_one).once
  have unknown : CalledOnce (fun _ _ => False) events :=
    once.congr fun made _ id => by simp [Building.knows, Building.start]
  exact ⟨unknown.callsOnce, lets.registers.freezes⟩

end NestedSpec
