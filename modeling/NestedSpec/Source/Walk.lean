import NestedSpec.Source.Outline

/-!
# Walks over an outline

A walk shows the nodes of an outline in the order of the source, each with the nodes around it. After
every node it is told whether to go into the node, to leave out what is inside, or to stop.
-/

namespace NestedSpec.Source.Walk

inductive Next where
  | enter
  | skip
  | stop
deriving Repr, DecidableEq

variable {σ : Type}

/-- What is done at a node: `visit node around state` gives how to go on and the new state. The
nodes around come innermost first. -/
abbrev Visitor (σ : Type) := Node → List Node → σ → Next × σ

mutual
/-- Walks over a node. Says whether the walk was stopped. -/
def node (visit : Visitor σ) (around : List Node) : Node → σ → Bool × σ
  | .node kind first last children, state =>
    let this := Node.node kind first last children
    match visit this around state with
    | (.enter, state) => nodes visit (this :: around) children state
    | (.skip, state) => (false, state)
    | (.stop, state) => (true, state)

def nodes (visit : Visitor σ) (around : List Node) : List Node → σ → Bool × σ
  | [], state => (false, state)
  | first :: rest, state =>
    match node visit around first state with
    | (true, state) => (true, state)
    | (false, state) => nodes visit around rest state
end

def run (visit : Visitor σ) (outline : List Node) (state : σ) : σ :=
  (nodes visit [] outline state).2

end NestedSpec.Source.Walk
