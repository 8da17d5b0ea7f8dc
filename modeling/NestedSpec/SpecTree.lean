import NestedSpec.Script
import NestedSpec.Ordering
import NestedSpec.Sequence

/-!
# Registered specs

What a registration leaves behind: groups with hooks, bindings and settings, nested in one another,
with leaves in them. A chain is the list of groups around a place, outermost first; what holds at a
place is read off its chain. A plan is the same tree with the members of every group in the order
in which they run.
-/

namespace NestedSpec

variable {ν : Type}

/-- What runs around every leaf of a group. -/
inductive Hook (ν : Type) where
  | before (body : Script ν .leaf)
  | after (body : Script ν .leaf)
  | around (enter exit : Script ν .leaf)
  | eager (var : Variable ν)

/-- An initialiser bound to a variable. -/
structure Binding (ν : Type) where
  id : Nat
  label : String
  init : Initialiser ν

/-- A spec without its members. -/
structure Group (ν : Type) where
  /-- How many groups of the same tree were declared earlier. -/
  index : Nat
  description : String
  place : Location
  hooks : List (Hook ν) := []
  beforeAll : List (Script ν .flow) := []
  afterAll : List (Script ν .flow) := []
  bindings : List (Binding ν) := []
  /-- The variables that were bound here at least once. -/
  boundOnce : List Nat := []
  sideEffect : Bool := false
  parallel : Option Bool := none
  ordering : Option Mode := none
  tags : List String := []
  skip : Option String := none
  skipBenchmark : Bool := false

structure Leaf (ν : Type) where
  description : String
  place : Location
  body : Script ν .leaf

/-- A member of a group. -/
inductive Item (ν : Type) where
  | leaf (leaf : Leaf ν)
  | group (group : Group ν) (items : List (Item ν))

/-- The groups around a place, outermost first. -/
abbrev Chain (ν : Type) := List (Group ν)

namespace Group

/-- Binds an initialiser; an earlier binding of the variable is replaced. -/
def bind (group : Group ν) (binding : Binding ν) : Group ν :=
  { group with
    bindings := binding :: group.bindings.filter (·.id ≠ binding.id)
    boundOnce :=
      if group.boundOnce.contains binding.id then group.boundOnce
      else binding.id :: group.boundOnce }

def clashes (group : Group ν) (id : Nat) (label : String) : Bool :=
  group.bindings.any fun b => b.id ≠ id && b.label == label

def modify (group : Group ν) : Modifier → Group ν
  | .sideEffect => { group with sideEffect := true, parallel := some false }
  | .parallel => { group with parallel := some true }
  | .sequential => { group with parallel := some false }
  | .orderAs mode => { group with ordering := some mode }
  | .tag tags => { group with tags := group.tags ++ tags }
  | .skip reason => { group with skip := some reason }
  | .skipBenchmark => { group with skipBenchmark := true }

end Group

namespace Chain

def path (chain : Chain ν) : String :=
  joinNames ((chain.drop 1).map (·.description))

def leafPath (chain : Chain ν) (description : String) : String :=
  let scope := path chain
  if scope = "" then description else scope ++ "/" ++ description

def tags (chain : Chain ν) : List String :=
  merge (chain.map (·.tags))

def skipReason (chain : Chain ν) : Option String :=
  chain.findSome? (·.skip)

/-- Whether a benchmark leaves the place out. -/
def skipsBenchmark (chain : Chain ν) : Bool :=
  chain.any (·.skipBenchmark)

def hasSideEffect (chain : Chain ν) : Bool :=
  chain.any (·.sideEffect)

/-- Whether leaves here may run at the same time: no group has a side effect, and the innermost
group that says anything about it allows it. -/
def isParallel (chain : Chain ν) : Bool :=
  !hasSideEffect chain && (chain.reverse.findSome? (·.parallel)).getD false

/-- The bindings that hold here; those of inner groups come before those of outer ones. -/
def scope (chain : Chain ν) : List (Binding ν) :=
  chain.foldl (fun outer group => group.bindings ++ outer) []

end Chain

def bindingIn (scope : List (Binding ν)) (id : Nat) : Option (Binding ν) :=
  scope.find? (·.id == id)

namespace Item

mutual
/-- The earliest place of a leaf in a member; a group without members stands at its own place. -/
def firstPlace : Item ν → Location
  | leaf l => l.place
  | group g items => (firstPlaces items).getD g.place

def firstPlaces : List (Item ν) → Option Location
  | [] => none
  | first :: rest =>
    some (match firstPlaces rest with
      | none => firstPlace first
      | some later => (firstPlace first).first later)
end

mutual
/-- A member with all members below it in order. `orderer` holds the mode in force around the
member and `chain` the groups around it. -/
def arrange (orderer : Orderer) (chain : Chain ν) : Item ν → Item ν
  | leaf l => leaf l
  | group g items =>
    let inner := (g.ordering.map orderer.withMode).getD orderer
    let here := chain ++ [g]
    group g (inner.order here.path firstPlace (arrangeAll inner here items))

def arrangeAll (orderer : Orderer) (chain : Chain ν) : List (Item ν) → List (Item ν)
  | [] => []
  | first :: rest => arrange orderer chain first :: arrangeAll orderer chain rest
end

mutual
def leafPaths (chain : Chain ν) : Item ν → List String
  | leaf l => [chain.leafPath l.description]
  | group g items => leafPathsAll (chain ++ [g]) items

def leafPathsAll (chain : Chain ν) : List (Item ν) → List String
  | [] => []
  | first :: rest => leafPaths chain first ++ leafPathsAll chain rest
end

mutual
/-- The groups of a member, every group before those inside it. -/
def groups : Item ν → List (Group ν)
  | leaf _ => []
  | group g items => g :: groupsAll items

def groupsAll : List (Item ν) → List (Group ν)
  | [] => []
  | first :: rest => groups first ++ groupsAll rest
end

def directLeaves (items : List (Item ν)) : List (Leaf ν) :=
  items.filterMap fun
    | leaf l => some l
    | group _ _ => none

end Item
end NestedSpec
