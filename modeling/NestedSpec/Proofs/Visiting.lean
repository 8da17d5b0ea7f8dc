import NestedSpec.Source.Walk

/-!
# The order of a walk

A walk that enters everything visits a node before what is in it, and that before what comes after
the node. Every node is visited with the nodes around it.
-/

namespace NestedSpec.Source

structure Visited where
  node : Node
  around : List Node

namespace Node

mutual
def visits (around : List Node) : Node → List Visited
  | .node kind first last children =>
    ⟨.node kind first last children, around⟩ ::
      visitsAll (.node kind first last children :: around) children

def visitsAll (around : List Node) : List Node → List Visited
  | [] => []
  | first :: rest => visits around first ++ visitsAll around rest
end

end Node

def Visited.inside (visit : Visited) : List Visited :=
  Node.visitsAll (visit.node :: visit.around) visit.node.children

namespace Node

theorem visits_eq (around : List Node) (n : Node) :
    visits around n = ⟨n, around⟩ :: Visited.inside ⟨n, around⟩ := by
  cases n
  rfl

mutual
theorem around_mem_visits {around : List Node} {outer : Node} (member : outer ∈ around) :
    ∀ (n : Node), ∀ visit ∈ visits around n, outer ∈ visit.around
  | .node kind first last children, visit, found => by
    rw [visits] at found
    rcases List.mem_cons.mp found with rfl | found
    · exact member
    · exact around_mem_visitsAll (List.mem_cons_of_mem _ member) children visit found

theorem around_mem_visitsAll {around : List Node} {outer : Node} (member : outer ∈ around) :
    ∀ (ns : List Node), ∀ visit ∈ visitsAll around ns, outer ∈ visit.around
  | [], _, found => nomatch found
  | first :: rest, visit, found => by
    rw [visitsAll] at found
    rcases List.mem_append.mp found with found | found
    · exact around_mem_visits member first visit found
    · exact around_mem_visitsAll member rest visit found
end

theorem mem_around_inside {around : List Node} {n : Node} {visit : Visited}
    (found : visit ∈ Visited.inside ⟨n, around⟩) : n ∈ visit.around :=
  around_mem_visitsAll List.mem_cons_self n.children visit found

mutual
/-- Behind a node comes first what is in it. -/
theorem inside_prefix_visits {around : List Node} : ∀ (n : Node) {before after : List Visited}
    {visit : Visited}, visits around n = before ++ visit :: after →
    visit.inside <+: after
  | .node kind first last children, before, after, visit, parts => by
    rw [visits_eq] at parts
    rcases before with _ | ⟨found, before⟩
    · obtain ⟨rfl, rfl⟩ := List.cons.inj parts
      exact List.prefix_rfl
    · exact inside_prefix_visitsAll children (List.cons.inj parts).2

theorem inside_prefix_visitsAll {around : List Node} : ∀ (ns : List Node)
    {before after : List Visited} {visit : Visited},
    visitsAll around ns = before ++ visit :: after → visit.inside <+: after
  | [], before, _, _, parts => by simp [visitsAll] at parts
  | first :: rest, before, after, visit, parts => by
    rw [visitsAll, List.append_eq_append_iff] at parts
    rcases parts with ⟨between, rfl, tail⟩ | ⟨between, head, tail⟩
    · exact inside_prefix_visitsAll rest tail
    · rcases between with _ | ⟨found, between⟩
      · have parts : visitsAll around rest = [] ++ visit :: after := tail.symm
        exact inside_prefix_visitsAll rest parts
      · obtain ⟨rfl, rfl⟩ := List.cons.inj tail
        exact (inside_prefix_visits first head).trans (List.prefix_append _ _)
end

end Node

namespace Walk

variable {σ : Type}

def entering (step : σ → Visited → σ) : Visitor σ := fun node around state =>
  (.enter, step state ⟨node, around⟩)

mutual
theorem node_entering (step : σ → Visited → σ) (around : List Node) : ∀ (n : Node) (state : σ),
    node (entering step) around n state = (false, (n.visits around).foldl step state)
  | .node kind first last children, state => by
    rw [node, Node.visits, List.foldl_cons]
    exact nodes_entering step _ children _

theorem nodes_entering (step : σ → Visited → σ) (around : List Node) :
    ∀ (ns : List Node) (state : σ),
    nodes (entering step) around ns state = (false, (Node.visitsAll around ns).foldl step state)
  | [], state => rfl
  | first :: rest, state => by
    rw [nodes, node_entering step around first state, Node.visitsAll, List.foldl_append]
    exact nodes_entering step around rest _
end

theorem run_entering (step : σ → Visited → σ) (outline : List Node) (state : σ) :
    run (entering step) outline state = (Node.visitsAll [] outline).foldl step state := by
  rw [run, nodes_entering]

mutual
theorem node_keeps (holds : σ → Prop) (visit : Visitor σ) (around : List Node) : ∀ (n : Node),
    (∀ visited ∈ n.visits around, ∀ state, holds state →
      holds (visit visited.node visited.around state).2) →
    ∀ state, holds state → holds (node visit around n state).2
  | .node kind first last children, kept, state, start => by
    rw [Node.visits] at kept
    obtain ⟨here, inside⟩ := List.forall_mem_cons.mp kept
    have after := here state start
    rw [node]
    split
    case h_1 state' entered =>
      rw [entered] at after
      exact nodes_keeps holds visit _ children inside state' after
    case h_2 state' skipped => rwa [skipped] at after
    case h_3 state' stopped => rwa [stopped] at after

/-- What every visit keeps, the walk keeps. -/
theorem nodes_keeps (holds : σ → Prop) (visit : Visitor σ) (around : List Node) :
    ∀ (ns : List Node), (∀ visited ∈ Node.visitsAll around ns, ∀ state, holds state →
      holds (visit visited.node visited.around state).2) →
    ∀ state, holds state → holds (nodes visit around ns state).2
  | [], _, _, start => start
  | first :: rest, kept, state, start => by
    rw [Node.visitsAll] at kept
    obtain ⟨keptFirst, keptRest⟩ := List.forall_mem_append.mp kept
    have after := node_keeps holds visit around first keptFirst state start
    rw [nodes]
    split
    case h_1 state' stopped => rwa [stopped] at after
    case h_2 state' done =>
      rw [done] at after
      exact nodes_keeps holds visit around rest keptRest state' after
end

end Walk
end NestedSpec.Source
