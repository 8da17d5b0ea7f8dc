import Mathlib.Data.List.Infix
import NestedSpec.Proofs.Locating
import NestedSpec.Sequence

/-!
# What a walk leaves out

A walker keeps the nodes around it on a stack and notes whether it was told to stop; it is the walk
by recursion, and its stack is empty at the end. What it shows is told by the answers alone: a node
is shown, in its turn and with the nodes around it, unless a node around it was left out with what
is inside or an earlier node ended the walk. The turn is that of the outline. It is that of the
source exactly if the outline is in the order of the source.
-/

namespace NestedSpec.Source

/-! ## Places in an outline -/

/-- The way to a node: its place among the outermost nodes, then its place among the nodes right
inside that one, and so on. Addresses are ordered like words, so a node comes before what is inside
it, and that before what comes after the node. -/
abbrev Address := List Nat

namespace Node

/-- The node at an address below a node. -/
def at? (n : Node) : Address → Option Node
  | [] => some n
  | i :: rest => n.children[i]?.bind fun child => child.at? rest

def atAll? (outline : List Node) : Address → Option Node
  | [] => none
  | i :: rest => outline[i]?.bind fun n => n.at? rest

end Node

namespace Visited

/-- What there is to visit at an address: the node there and the nodes at the shorter addresses on
the way to it, the longest first. -/
def at? (find : Address → Option Node) (around : List Node) (address : Address) :
    Option Visited :=
  (find address).map fun n => ⟨n, address.inits.dropLast.reverse.filterMap find ++ around⟩

theorem at?_nil (find : Address → Option Node) (around : List Node) :
    at? find around [] = (find []).map (⟨·, around⟩) := rfl

theorem at?_cons (find : Address → Option Node) (around : List Node) (i : Nat) (rest : Address) :
    at? find around (i :: rest) =
      at? (fun address => find (i :: address)) ((find []).toList ++ around) rest := by
  have shorter : (i :: rest).inits.dropLast.reverse =
      rest.inits.dropLast.reverse.map (i :: ·) ++ [[]] := by
    have filled : rest.inits.map (i :: ·) ≠ [] := by cases rest <;> simp
    rw [List.inits_cons, List.dropLast_cons_of_ne_nil filled, List.reverse_cons,
      ← List.map_dropLast, List.map_reverse]
  have outer : List.filterMap find [[]] = (find []).toList := by
    cases outermost : find [] <;> simp [outermost]
  rw [at?, at?, shorter, List.filterMap_append, List.filterMap_map, outer, List.append_assoc]
  rfl

end Visited

/-! ## Calls -/

structure Call where
  address : Address
  visited : Visited
  answer : Walk.Next

namespace Call

/-- After this call there is nothing to be shown at an address: it is inside what is left out, or it
comes after the end. -/
def Hides (call : Call) (address : Address) : Prop :=
  call.answer = .skip ∧ call.address <+: address ∧ call.address ≠ address ∨
    call.answer = .stop ∧ call.address < address

def entry (call : Call) : Visited × Walk.Next := (call.visited, call.answer)

def moved (way : Address → Address) (call : Call) : Call :=
  { call with address := way call.address }

def inFirst (address : Address) : Address := 0 :: address

def behindFirst : Address → Address
  | [] => []
  | i :: rest => (i + 1) :: rest

variable {call : Call} {address other : Address} {way : Address → Address} {i : Nat}

@[simp] theorem address_moved : (call.moved way).address = way call.address := rfl

@[simp] theorem answer_moved : (call.moved way).answer = call.answer := rfl

@[simp] theorem visited_comp_moved : visited ∘ moved way = visited := rfl

@[simp] theorem entry_comp_moved : entry ∘ moved way = entry := rfl

@[simp] theorem behindFirst_lt_behindFirst :
    behindFirst address < behindFirst other ↔ address < other := by
  cases address <;> cases other <;> simp [behindFirst, List.cons_lt_cons_iff]

@[simp] theorem behindFirst_eq_nil : behindFirst address = [] ↔ address = [] := by
  cases address <;> simp [behindFirst]

@[simp] theorem behindFirst_ne_zero : behindFirst address ≠ 0 :: other := by
  cases address <;> simp [behindFirst]

@[simp] theorem behindFirst_eq_succ :
    behindFirst address = (i + 1) :: other ↔ address = i :: other := by
  cases address <;> simp [behindFirst]

@[simp] theorem not_hides_nil : ¬ call.Hides [] := by
  rintro (⟨-, inside, apart⟩ | ⟨-, before⟩)
  · exact apart (List.prefix_nil.mp inside)
  · exact List.not_lt_nil _ before

theorem not_hides (on : call.answer = .enter) : ¬ call.Hides address := by
  simp [Hides, on]

@[simp] theorem inFirst_hides_zero :
    (call.moved inFirst).Hides (0 :: address) ↔ call.Hides address := by
  simp [Hides, inFirst]

@[simp] theorem inFirst_hides_succ :
    (call.moved inFirst).Hides ((i + 1) :: address) ↔ call.answer = .stop := by
  simp [Hides, inFirst, List.cons_lt_cons_iff]

theorem behindFirst_hides_zero (inside : call.address ≠ []) :
    ¬ (call.moved behindFirst).Hides (0 :: address) := by
  obtain ⟨i, rest, way⟩ := List.exists_cons_of_ne_nil inside
  simp [Hides, behindFirst, way, List.cons_lt_cons_iff]

@[simp] theorem behindFirst_hides_succ :
    (call.moved behindFirst).Hides ((i + 1) :: address) ↔ call.Hides (i :: address) := by
  cases way : call.address <;> simp [Hides, behindFirst, way, List.cons_lt_cons_iff]

end Call

/-! ## What is shown -/

/-- The calls of a walk: each node that is not hidden by an earlier call is shown once, in the order
of addresses and with the nodes around it, and no other. -/
structure Shows (find : Address → Option Node) (around : List Node) (calls : List Call) : Prop where
  ordered : calls.Pairwise fun earlier later => earlier.address < later.address
  placed : ∀ call ∈ calls, Visited.at? find around call.address = some call.visited
  shown_iff : ∀ address, address ∈ calls.map Call.address ↔
    (find address).isSome ∧ ∀ call ∈ calls, ¬ call.Hides address

namespace Shows

variable {n : Node} {rest around : List Node} {calls more : List Call} {answer : Walk.Next}
  {find : Address → Option Node}

/-- Nothing is shown after the first call that is answered by a stop. -/
theorem stopsLast (shows : Shows find around calls) :
    calls.Pairwise fun earlier _ => earlier.answer ≠ .stop := by
  refine shows.ordered.imp_of_mem fun {earlier later} member among before stop => ?_
  have listed := List.mem_map_of_mem (f := Call.address) among
  exact ((shows.shown_iff _).mp listed).2 earlier member (.inr ⟨stop, before⟩)

theorem address_ne_nil (shows : Shows (Node.atAll? rest) around calls) :
    ∀ call ∈ calls, call.address ≠ [] := by
  intro call member outermost
  have listed : [] ∈ calls.map Call.address := List.mem_map.mpr ⟨call, member, outermost⟩
  exact absurd ((shows.shown_iff []).mp listed).1 Bool.false_ne_true

theorem nil : Shows (Node.atAll? []) around [] where
  ordered := .nil
  placed := nofun
  shown_iff
    | [] => by simp [Node.atAll?]
    | i :: rest => by simp [Node.atAll?]

theorem enter (n : Node) (shows : Shows (Node.atAll? n.children) (n :: around) calls) :
    Shows n.at? around (⟨[], ⟨n, around⟩, .enter⟩ :: calls) where
  ordered := by
    refine List.pairwise_cons.mpr ⟨fun call member => ?_, shows.ordered⟩
    obtain ⟨i, rest, inside⟩ := List.exists_cons_of_ne_nil (shows.address_ne_nil call member)
    rw [inside]
    exact List.nil_lt_cons i rest
  placed := by
    refine List.forall_mem_cons.mpr ⟨rfl, fun call member => ?_⟩
    rw [← shows.placed call member]
    obtain ⟨i, rest, inside⟩ := List.exists_cons_of_ne_nil (shows.address_ne_nil call member)
    rw [inside, Visited.at?_cons, Visited.at?_cons]
    rfl
  shown_iff
    | [] => by simp [Node.at?]
    | i :: rest => by
      have open' : ¬ (⟨[], ⟨n, around⟩, .enter⟩ : Call).Hides (i :: rest) := Call.not_hides rfl
      have inside : n.at? (i :: rest) = Node.atAll? n.children (i :: rest) := rfl
      simpa [open', inside] using shows.shown_iff (i :: rest)

theorem alone (out : answer ≠ .enter) : Shows n.at? around [⟨[], ⟨n, around⟩, answer⟩] where
  ordered := List.pairwise_singleton _ _
  placed := by simp [Visited.at?_nil, Node.at?]
  shown_iff
    | [] => by simp [Node.at?]
    | i :: rest => by cases answer <;> simp [Call.Hides] at out ⊢

theorem ordered_inFirst (shows : Shows n.at? around calls) :
    (calls.map (Call.moved Call.inFirst)).Pairwise
      fun earlier later => earlier.address < later.address :=
  List.pairwise_map.mpr (shows.ordered.imp List.cons_lt_cons_self.mpr)

theorem placed_inFirst (shows : Shows n.at? around calls) (rest : List Node) :
    ∀ call ∈ calls.map (Call.moved Call.inFirst),
      Visited.at? (Node.atAll? (n :: rest)) around call.address = some call.visited :=
  List.forall_mem_map.mpr fun call member =>
    (Visited.at?_cons _ _ 0 call.address).trans (shows.placed call member)

theorem ended (shows : Shows n.at? around calls) (stopped : ∃ call ∈ calls, call.answer = .stop) :
    Shows (Node.atAll? (n :: rest)) around (calls.map (Call.moved Call.inFirst)) where
  ordered := shows.ordered_inFirst
  placed := shows.placed_inFirst rest
  shown_iff
    | [] => by simp [Node.atAll?, Call.inFirst]
    | 0 :: address => by simpa [Node.atAll?, Call.inFirst] using shows.shown_iff address
    | (i + 1) :: address => by simpa [Call.inFirst] using fun _ => stopped

theorem append (shows : Shows n.at? around calls) (on : ¬ ∃ call ∈ calls, call.answer = .stop)
    (later : Shows (Node.atAll? rest) around more) :
    Shows (Node.atAll? (n :: rest)) around
      (calls.map (Call.moved Call.inFirst) ++ more.map (Call.moved Call.behindFirst)) where
  ordered := by
    refine List.pairwise_append.mpr ⟨shows.ordered_inFirst, ?_, ?_⟩
    · exact List.pairwise_map.mpr (later.ordered.imp Call.behindFirst_lt_behindFirst.mpr)
    · refine List.forall_mem_map.mpr fun call _ => List.forall_mem_map.mpr fun other member => ?_
      obtain ⟨i, rest, way⟩ := List.exists_cons_of_ne_nil (later.address_ne_nil other member)
      simp [way, Call.inFirst, Call.behindFirst, List.cons_lt_cons_iff]
  placed := by
    refine List.forall_mem_append.mpr
      ⟨shows.placed_inFirst rest, List.forall_mem_map.mpr fun call member => ?_⟩
    obtain ⟨i, rest, way⟩ := List.exists_cons_of_ne_nil (later.address_ne_nil call member)
    have placed := later.placed call member
    rw [way, Visited.at?_cons] at placed
    rw [Call.address_moved, way, Call.behindFirst, Visited.at?_cons]
    exact placed
  shown_iff
    | [] => by simpa [Node.atAll?, Call.inFirst] using later.address_ne_nil
    | 0 :: address => by
      have behind : ∀ call ∈ more, ¬ (call.moved Call.behindFirst).Hides (0 :: address) :=
        fun call member => Call.behindFirst_hides_zero (later.address_ne_nil call member)
      simpa +contextual [or_imp, forall_and, behind, Node.atAll?, Call.inFirst]
        using shows.shown_iff address
    | (i + 1) :: address => by
      have open' : ∀ call ∈ calls, ¬ call.answer = .stop := fun call member stop =>
        on ⟨call, member, stop⟩
      simpa +contextual [or_imp, forall_and, open', Node.atAll?, Call.inFirst]
        using later.shown_iff (i :: address)

end Shows

namespace Walk

variable {σ : Type}

def recording (visit : Visitor σ) : Visitor (List (Visited × Next) × σ) :=
  fun node around (record, state) =>
    let (next, state) := visit node around state
    (next, record ++ [(⟨node, around⟩, next)], state)

mutual
theorem exists_shows_node (visit : Visitor σ) (around : List Node) : ∀ (n : Node) (state : σ),
    ∃ calls, Shows n.at? around calls ∧
      ((node visit around n state).1 = true ↔ ∃ call ∈ calls, call.answer = .stop) ∧
      (calls.map Call.visited).Sublist (n.visits around) ∧
      ∀ record, node (recording visit) around n (record, state) =
        ((node visit around n state).1, record ++ calls.map Call.entry,
          (node visit around n state).2)
  | .node kind first last children, state => by
    rw [node, Node.visits]
    simp only [node, recording]
    rcases visit (.node kind first last children) around state with ⟨_ | _ | _, after⟩
    case enter =>
      obtain ⟨calls, shows, stops, among, recorded⟩ :=
        exists_shows_nodes visit (.node kind first last children :: around) children after
      refine ⟨_, .enter _ shows, ?_, among.cons_cons _, fun record => ?_⟩
      · simpa using stops
      · simp [recorded, Call.entry]
    all_goals
      exact ⟨_, .alone (by decide), by simp, by simp, fun record => rfl⟩

/-- What a walk shows, and that a record of it is kept without any difference to the walk. -/
theorem exists_shows_nodes (visit : Visitor σ) (around : List Node) :
    ∀ (ns : List Node) (state : σ), ∃ calls, Shows (Node.atAll? ns) around calls ∧
      ((nodes visit around ns state).1 = true ↔ ∃ call ∈ calls, call.answer = .stop) ∧
      (calls.map Call.visited).Sublist (Node.visitsAll around ns) ∧
      ∀ record, nodes (recording visit) around ns (record, state) =
        ((nodes visit around ns state).1, record ++ calls.map Call.entry,
          (nodes visit around ns state).2)
  | [], state => ⟨[], .nil, by simp [nodes], .slnil, fun record => by simp [nodes]⟩
  | first :: rest, state => by
    obtain ⟨calls, shows, stops, among, recorded⟩ := exists_shows_node visit around first state
    rw [nodes, Node.visitsAll]
    simp only [nodes, recorded]
    -- After a stop inside the first node the rest is hidden; else it is shown behind that node.
    generalize node visit around first state = walked at stops
    rcases walked with ⟨_ | _, after⟩
    case true =>
      refine ⟨_, shows.ended (stops.mp rfl), ?_, ?_, fun record => ?_⟩
      · simpa using stops
      · simpa using among.trans (List.sublist_append_left _ _)
      · simp
    case false =>
      have on : ¬ ∃ call ∈ calls, call.answer = .stop := fun stop =>
        Bool.false_ne_true (stops.mpr stop)
      obtain ⟨more, later, ends, amongMore, continued⟩ := exists_shows_nodes visit around rest after
      refine ⟨_, shows.append on later, ?_, ?_, fun record => ?_⟩
      · simpa [or_and_right, exists_or, on] using ends
      · simpa using among.append amongMore
      · simp [continued]
end

end Walk

/-! ## A walker with a stack -/

structure Walker (σ : Type) where
  ancestors : Stack Node
  stopped : Bool
  state : σ

namespace Walker

variable {σ : Type}

def enter (visit : Walk.Visitor σ) (n : Node) (descend : Walker σ → Walker σ) (w : Walker σ) :
    Walker σ :=
  if w.stopped then w
  else
    match visit n w.ancestors.fromTop w.state with
    | (.stop, state) => { w with stopped := true, state }
    | (.skip, state) => { w with state }
    | (.enter, state) =>
      let inner := descend { w with ancestors := w.ancestors.push n, state }
      { inner with ancestors := inner.ancestors.pop.2 }

mutual
def node (visit : Walk.Visitor σ) : Node → Walker σ → Walker σ
  | .node kind first last children, w =>
    enter visit (.node kind first last children) (nodes visit children) w

def nodes (visit : Walk.Visitor σ) : List Node → Walker σ → Walker σ
  | [], w => w
  | first :: rest, w => nodes visit rest (node visit first w)
end

def walk (visit : Walk.Visitor σ) (outline : List Node) (state : σ) : Except String σ :=
  let w := nodes visit outline ⟨.empty, false, state⟩
  if w.ancestors.isEmpty then .ok w.state
  else .error ("walk finished with " ++ toString w.ancestors.size ++ " ancestors still open")

theorem node_of_stopped (visit : Walk.Visitor σ) (n : Node) {w : Walker σ}
    (stopped : w.stopped = true) : node visit n w = w := by
  cases n
  rw [node, enter, if_pos stopped]

theorem nodes_of_stopped (visit : Walk.Visitor σ) (ns : List Node) {w : Walker σ}
    (stopped : w.stopped = true) : nodes visit ns w = w := by
  induction ns with
  | nil => rw [nodes]
  | cons first rest ih => rw [nodes, node_of_stopped visit first stopped, ih]

mutual
theorem node_eq (visit : Walk.Visitor σ) : ∀ (n : Node) (ancestors : Stack Node) (state : σ),
    node visit n ⟨ancestors, false, state⟩ =
      ⟨ancestors, (Walk.node visit ancestors.fromTop n state).1,
        (Walk.node visit ancestors.fromTop n state).2⟩
  | .node kind first last children, ancestors, state => by
    rw [node, enter, if_neg Bool.false_ne_true, Walk.node]
    rcases visit (.node kind first last children) ancestors.fromTop state with ⟨_ | _ | _, after⟩
    case enter =>
      have inside := nodes_eq visit children (ancestors.push (.node kind first last children)) after
      simp only [inside, Stack.pop_push]
      rfl
    all_goals rfl

/-- Whatever is on the stack before a walk over some nodes is on it afterwards. -/
theorem nodes_eq (visit : Walk.Visitor σ) : ∀ (ns : List Node) (ancestors : Stack Node) (state : σ),
    nodes visit ns ⟨ancestors, false, state⟩ =
      ⟨ancestors, (Walk.nodes visit ancestors.fromTop ns state).1,
        (Walk.nodes visit ancestors.fromTop ns state).2⟩
  | [], ancestors, state => by rw [nodes, Walk.nodes]
  | first :: rest, ancestors, state => by
    rw [nodes, node_eq visit first ancestors state, Walk.nodes]
    rcases Walk.node visit ancestors.fromTop first state with ⟨_ | _, after⟩
    case true => exact nodes_of_stopped visit rest rfl
    case false => exact nodes_eq visit rest ancestors after
end

theorem walk_eq (visit : Walk.Visitor σ) (outline : List Node) (state : σ) :
    walk visit outline state = .ok (Walk.run visit outline state) := by
  rw [walk, nodes_eq]
  rfl

end Walker

/-! ## Whole walks -/

namespace Walk

variable {σ : Type}

def shown (visit : Visitor σ) (outline : List Node) (state : σ) : List (Visited × Next) :=
  (run (recording visit) outline ([], state)).1

theorem exists_shows (visit : Visitor σ) (outline : List Node) (state : σ) : ∃ calls,
    Shows (Node.atAll? outline) [] calls ∧
      ((calls.map Call.entry).map Prod.fst).Sublist (Node.visitsAll [] outline) ∧
      run (recording visit) outline ([], state) =
        (calls.map Call.entry, run visit outline state) := by
  obtain ⟨calls, shows, -, among, recorded⟩ := exists_shows_nodes visit [] outline state
  refine ⟨calls, shows, ?_, ?_⟩
  · rwa [List.map_map]
  · rw [run, recorded, List.nil_append]
    rfl

theorem foldl_recording (visits : List Visited) (record : List (Visited × Next)) :
    (visits.foldl (fun (seen, _) visit => (seen ++ [(visit, Next.enter)], ())) (record, ())).1 =
      record ++ visits.map (·, .enter) := by
  induction visits generalizing record with
  | nil => simp
  | cons visit rest ih => simp [ih]

/-- A visitor that enters everything is shown everything. -/
theorem shown_entering (outline : List Node) :
    (shown (entering fun (_ : Unit) _ => ()) outline ()).map Prod.fst =
      Node.visitsAll [] outline := by
  have visitor : recording (entering fun (_ : Unit) _ => ()) =
      entering fun (seen, _) visit => (seen ++ [(visit, .enter)], ()) := rfl
  rw [shown, visitor, run_entering, foldl_recording, List.nil_append, List.map_map]
  exact List.map_id _

/-- A walk shows each node once that is not hidden, in the order of addresses and with the nodes
around it, and its stack is empty at the end. The nodes ascend in the file for all visitors only if
they do so for the visitor that enters everything. -/
theorem walk_prunes (outline : List Node) :
    (∀ (σ : Type) (visit : Visitor σ) (state : σ), ∃ calls,
      Walker.walk (recording visit) outline ([], state) =
          .ok (calls.map Call.entry, run visit outline state) ∧
        Walker.walk visit outline state = .ok (run visit outline state) ∧
        Shows (Node.atAll? outline) [] calls ∧
        calls.Pairwise fun earlier _ => earlier.answer ≠ .stop) ∧
    ((∀ (σ : Type) (visit : Visitor σ) (state : σ),
        Ascends ((shown visit outline state).map Prod.fst)) ↔
      Ascends (Node.visitsAll [] outline)) := by
  refine ⟨fun σ visit state => ?_, fun ascend => ?_, fun ascends σ visit state => ?_⟩
  · obtain ⟨calls, shows, -, recorded⟩ := exists_shows visit outline state
    exact ⟨calls, (Walker.walk_eq _ _ _).trans (congrArg Except.ok recorded),
      Walker.walk_eq _ _ _, shows, shows.stopsLast⟩
  · rw [← shown_entering]
    exact ascend Unit _ ()
  · obtain ⟨calls, -, among, recorded⟩ := exists_shows visit outline state
    rw [shown, recorded]
    exact ascends.sublist among

def clauseLast : String :=
  "fn f(x: [u8; g()])\n" ++
  "where\n" ++
  "    [u8; h()]: Sized,\n" ++
  "\x7b\n" ++
  "\x7d\n"

theorem clause_is_shown_early : ∃ found, outline clauseLast = .ok found ∧
    ¬ Ascends ((shown (entering fun (_ : Unit) _ => ()) found ()).map Prod.fst) :=
  Search.exists_of_any (by decide +kernel)

end Walk
end NestedSpec.Source
