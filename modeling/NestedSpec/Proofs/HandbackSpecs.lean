import Mathlib.Data.List.Induction
import NestedSpec.Proofs.Declarations
import NestedSpec.Proofs.Freezing
import NestedSpec.Proofs.Handback

/-!
# What specs hand back

Declaring a spec and running it hands back what it changes, if running trees does. That is asked for
where a part of the world is chosen, since a run counts the groups that it enters.
-/

namespace NestedSpec

variable {ν α β : Type} {t : Target}

namespace Holding

variable {H : Holding ν} {deeper : Deeper ν}

/-! ## Declarations -/

def Declares (H : Holding ν) (good : α → Prop) (declaring : Declaring ν α) : Prop :=
  ∀ b, b.Borrows H.free →
    H.HandsBack (fun ended => good ended.1 ∧ ended.2.Borrows H.free) (declaring.run b)

namespace Declares

variable {good : α → Prop}

theorem ret {value : α} (fine : good value) : H.Declares good (pure value : Declaring ν α) :=
  fun _ borrows => .pure ⟨fine, borrows⟩

theorem bind {better : β → Prop} {first : Declaring ν α} {next : α → Declaring ν β}
    (declares : H.Declares good first) (later : ∀ value, good value → H.Declares better (next value)) :
    H.Declares better (first >>= next) :=
  fun b borrows => (declares b borrows).bind fun ended fine => later ended.1 fine.1 ended.2 fine.2

theorem read : H.Declares (fun b => b.Borrows H.free) (get : Declaring ν (Building ν)) :=
  fun _ borrows => .pure ⟨borrows, borrows⟩

theorem put {b : Building ν} (borrows : b.Borrows H.free) :
    H.Declares (fun _ => True) (set b : Declaring ν Unit) :=
  fun _ _ => .pure ⟨trivial, borrows⟩

theorem lift {flow : Flow ν .flow α} (handsBack : H.HandsBack good flow) :
    H.Declares good (StateT.lift flow) :=
  fun _ borrows => handsBack.bind fun _ fine => .pure ⟨fine, borrows⟩

theorem changeGroup {update : Group ν → Group ν}
    (keeps : ∀ group, group.Borrows H.free → (update group).Borrows H.free) :
    H.Declares (fun _ => True) (Declaring.changeGroup update) :=
  fun b borrows => .pure ⟨trivial, keeps b.group borrows.group, borrows.items⟩

theorem addLeaf {leaf : Leaf ν} (inside : leaf.body.Borrows H.free) :
    H.Declares (fun _ => True) (Declaring.addItem (.leaf leaf)) := by
  intro b borrows
  have items := List.forall_mem_append.mpr
    ⟨borrows.items, List.forall_mem_singleton.mpr (.leaf inside)⟩
  exact .pure ⟨trivial, borrows.group, items⟩

theorem misuse (message : String) :
    H.Declares (fun _ => True) (Declaring.misuse message : Declaring ν Unit) :=
  lift (.error _)

theorem whileOpen (what : String) {body : Declaring ν Unit}
    (declares : H.Declares (fun _ => True) body) :
    H.Declares (fun _ => True) (Declaring.whileOpen what body) := by
  apply read.bind
  intro b _
  split
  · exact misuse _
  · exact declares

theorem describe (here : Surroundings ν) (description : String) (place : Location)
    {body : Surroundings ν → Declaring ν Unit}
    (each : ∀ inner, H.Declares (fun _ => True) (body inner)) :
    H.Declares (fun _ => True) (Declaring.describe here description place body) := by
  refine whileOpen _ (read.bind fun outer borrows => ?_)
  refine (put (Building.borrows_bare ..)).bind fun _ _ => (each _).bind fun _ _ =>
    read.bind fun inner inside => ?_
  have items := List.forall_mem_append.mpr
    ⟨borrows.items, List.forall_mem_singleton.mpr (.group inside.group inside.items)⟩
  exact put ⟨borrows.group, items⟩

theorem reportClash (v : Variable ν) : H.Declares (fun _ => True) (Declaring.reportClash v) := by
  apply read.bind
  intro b _
  split
  · exact misuse _
  · exact ret trivial

theorem bindHere (v : Variable ν) {init : Initialiser ν} (inside : init.Borrows H.free) :
    H.Declares (fun _ => True) (Declaring.bindHere v init) := by
  apply read.bind
  intro b _
  split
  · exact (whileOpen _ (ret trivial)).bind fun _ _ => ret trivial
  · refine (reportClash v).bind fun _ _ => (changeGroup fun group borrows => ?_).bind fun _ _ =>
      ret trivial
    refine ⟨borrows.hooks, borrows.beforeAll, borrows.afterAll, fun binding member => ?_⟩
    rcases List.mem_cons.mp member with rfl | other
    · exact inside
    · exact borrows.bindings binding (List.mem_filter.mp other).1

theorem letInit (below : H.Below deeper) (here : Surroundings ν) {v : Variable ν}
    (borrows : v.Borrows H.free) {init : Initialiser ν} (inside : init.Borrows H.free) :
    H.Declares (fun _ => True) (Declaring.letInit deeper here v init) := by
  refine (bindHere v inside).bind fun first _ =>
    Declaring.followUp_cases (ret trivial) (fun body applied b building s state => ?_) first
  have returns := below.onLet here body b (borrows.onLet body applied) building s state
  exact ⟨returns.borrows, fun value same => ⟨trivial, returns.good value same⟩,
    returns.pending, returns.winds⟩

theorem lookupVariable (name : String) : H.Declares (fun v : Variable ν => v.Borrows H.free)
    (Declaring.lookupVariable name) :=
  lift (HandsBack.lookupVariable name)

theorem keepVariable (name : String) {v : Variable ν} (inside : v.Borrows H.free) :
    H.Declares (fun _ => True) (Declaring.keepVariable name v) := by
  refine lift (.changeWorld (fun _ => rfl) (fun _ => rfl) fun w borrows entry member => ?_)
  rcases List.mem_cons.mp member with rfl | other
  · exact inside
  · exact borrows entry (List.mem_filter.mp other).1

theorem countVariables (next : Nat) : H.Declares (fun _ => True)
    (StateT.lift (Flow.changeWorld fun w => { w with nextVariable := next }) : Declaring ν Unit) :=
  lift (.changeWorld (fun _ => rfl) (fun _ => rfl) fun _ borrows => borrows)

theorem declare (name label : String) (kind : ValueKind) :
    H.Declares (fun _ => True) (Declaring.declare name label kind : Declaring ν Unit) :=
  (lift (.look _)).bind fun id _ => (countVariables (id + 1)).bind fun _ _ =>
    keepVariable name (.unbound H.free id label kind)

theorem applyModifier (here : Surroundings ν) (modifier : Modifier) :
    H.Declares (fun _ => True) (Declaring.applyModifier here modifier) := by
  refine whileOpen _ (read.bind fun b _ => ?_)
  dsimp only
  split
  · exact misuse _
  · apply changeGroup
    intro group borrows
    cases modifier <;>
      exact ⟨borrows.hooks, borrows.beforeAll, borrows.afterAll, borrows.bindings⟩

end Declares

def Running (H : Holding ν) : Prop :=
  ∀ (runner : Runner ν) (tree : Item ν), H.Below runner.deeper → tree.Borrows H.free →
    H.Keeps (runner.run tree)

namespace Declares

theorem finish (running : H.Running) (below : H.Below deeper) (here : Surroundings ν) :
    H.Declares (fun _ => True) (Declaring.finish deeper here) := by
  apply read.bind
  intro b borrows
  split
  · exact misuse _
  · split
    · exact ret trivial
    · exact (put (Building.borrows_bare ..)).bind fun _ _ =>
        lift (running ⟨here.config, here.mode, deeper⟩ _ below (.group borrows.group borrows.items))

end Declares

theorem Declares.of_declared (running : H.Running) (below : H.Below deeper) {here : Surroundings ν}
    {action : Declaring ν Unit} (declared : Declared deeper H.free here action) :
    H.Declares (fun _ => True) action := by
  induction declared with
  | done => exact .ret trivial
  | raise => exact .lift (.raise _)
  | note entry => exact .lift (.note entry)
  | andThen _ _ ih ihLater => exact ih.bind fun _ _ => ihLater
  | look _ ih => exact Declares.read.bind fun b _ => ih b
  | withVariable name _ ih => exact (Declares.lookupVariable name).bind ih
  | keepVariable name borrows => exact .keepVariable name borrows
  | declare name label kind => exact .declare name label kind
  | addLeaf what inside => exact .whileOpen what (.addLeaf inside)
  | addHook what hooking => exact .whileOpen what (.changeGroup hooking.borrows)
  | applyModifier modifier => exact .applyModifier _ modifier
  | letInit borrows inside => exact .letInit below _ borrows inside
  | describe description place _ ih => exact .describe _ description place ih
  | finish here => exact .finish running below here

theorem HandsBack.declareAndRun (running : H.Running) (below : H.Below deeper) (mode : RunMode)
    (config : Config) {body : Registration ν} (borrows : body.Borrows H.free) :
    H.Keeps (body.declareAndRun deeper mode config) := by
  apply (look _).bind
  intro name _
  have declared : H.Declares (fun _ => True) (body.declaration deeper ⟨config, mode, []⟩) :=
    .of_declared running below (.declaration borrows _)
  exact (declared _ (Building.borrows_bare ..)).bind fun _ _ => pure trivial

theorem below_within (running : H.Running) (levels : Nat) :
    H.Below (Deeper.within levels : Deeper ν) := by
  induction levels with
  | zero =>
    refine ⟨fun _ _ => .raise _, fun _ _ b _ _ => ?_, fun _ _ _ => .raise _⟩
    have raised : ∀ stop, H.HandsBack (fun ended : Unit × Building ν => ended.2.Borrows H.free)
        (Flow.raise stop : Flow ν .flow _) := fun stop => .raise stop
    exact (raised _).bind fun _ fine => .pure fine
  | succ levels ih =>
    refine ⟨fun init borrows => .evaluateInitialiser ih borrows, fun here body b borrows building => ?_,
      fun config body borrows => .declareAndRun running ih .test config borrows⟩
    intro s state
    have returns := Declares.of_declared running ih (.apply borrows here) b building s state
    exact ⟨returns.borrows, fun value same => (returns.good value same).2, returns.pending,
      returns.winds⟩

/-! ## What runs when the leaves have run -/

namespace HandsBack

variable {runner : Runner ν}

theorem runHook (below : H.Below runner.deeper) {hook : Hook ν} (borrows : hook.Borrows H.free) :
    H.Keeps (runner.runHook hook) := by
  cases borrows with
  | before inside => exact exec below inside
  | after inside => exact pushFinaliser (exec below inside)
  | around first last => exact (exec below first).bind fun _ _ => pushFinaliser (exec below last)
  | eager inside => exact (get below inside).bind fun _ _ => pure trivial

theorem runAfterAll (below : H.Below runner.deeper) {groups : List (Group ν)}
    (borrow : ∀ group ∈ groups, group.Borrows H.free) : H.Keeps (runner.runAfterAll groups) := by
  refine (look _).bind fun entered _ => forM _ fun group member => forM _ fun hook among => ?_
  have registered : group ∈ groups := List.mem_reverse.mp (List.mem_filter.mp member).1
  apply (exec below ((borrow group registered).afterAll hook among)).guard.bind
  intro outcome _
  cases outcome.panicMessage? with
  | none => exact pure trivial
  | some message => exact error _

theorem reportOrder : H.Keeps runner.reportOrder := by
  apply (look _).bind
  intro failed _
  split
  · exact log _
  · exact pure trivial

end HandsBack

end Holding

theorem Chain.Borrows.scope {free : Prop} {chain : Chain ν} (borrows : chain.Borrows free) :
    ∀ binding ∈ chain.scope, binding.init.Borrows free := by
  induction chain using List.reverseRecOn with
  | nil => exact List.forall_mem_nil _
  | append_singleton chain group ih =>
    intro binding member
    rw [Chain.scope_append] at member
    rcases List.mem_append.mp member with inner | outer
    · exact (borrows group (List.mem_append_right _ (List.mem_singleton.mpr rfl))).bindings _ inner
    · exact ih (fun other among => borrows other (List.mem_append_left _ among)) binding outer

end NestedSpec
