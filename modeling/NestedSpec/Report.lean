import NestedSpec.Terminal

/-!
# The report of a run

Finished runs are cases with a path of names. A report shows the tree of their paths: every name
once under its parent, in the order of first appearance, and a mark on the names that nothing is
below. Without `verbose` it shows only the branches with a failure, and nothing if none failed.
-/

namespace NestedSpec

structure Case where
  path : List String
  failed : Bool
  skipped : Bool
deriving Repr, DecidableEq

structure ReportStyle where
  verbose : Bool
  colour : Bool
deriving Repr, DecidableEq

/-- A name in the tree of paths, with what was recorded at it and the names below it. -/
inductive ReportNode where
  | node (name : String) (failed skipped : Bool) (below : List ReportNode)

namespace Case

/-- The first names of the paths, each once, in the order of first appearance. -/
def firstNames (cases : List Case) : List String :=
  (cases.filterMap fun c => c.path.head?).foldl
    (fun seen name => if seen.contains name then seen else seen ++ [name]) []

/-- The case as seen from below its first name, if that is `name`. -/
def below? (name : String) (c : Case) : Option Case :=
  match c.path with
  | first :: rest => if first = name then some { c with path := rest } else none
  | [] => none

/-- The cases whose path begins with `name`, as seen from below it. -/
def below (name : String) (cases : List Case) : List Case :=
  cases.filterMap (below? name)

def depth (cases : List Case) : Nat :=
  cases.foldl (fun longest c => max longest c.path.length) 0

theorem le_foldl_max (cases : List Case) (longest : Nat) :
    longest ≤ cases.foldl (fun longest c => max longest c.path.length) longest ∧
      ∀ c ∈ cases, c.path.length ≤
        cases.foldl (fun longest c => max longest c.path.length) longest := by
  induction cases generalizing longest with
  | nil => simp
  | cons first rest ih =>
    obtain ⟨start, later⟩ := ih (max longest first.path.length)
    refine ⟨Nat.le_trans (Nat.le_max_left ..) start, fun c member => ?_⟩
    rcases List.mem_cons.mp member with rfl | among
    · exact Nat.le_trans (Nat.le_max_right ..) start
    · exact later c among

theorem length_le_depth {cases : List Case} {c : Case} (member : c ∈ cases) :
    c.path.length ≤ depth cases :=
  (le_foldl_max cases 0).2 c member

/-- The tree of the paths down to a depth; what is recorded at a name is the union over the cases
that end there. -/
def forest : Nat → List Case → List ReportNode
  | 0, _ => []
  | levels + 1, cases =>
    (firstNames cases).map fun name =>
      let inner := below name cases
      let ending := inner.filter (·.path.isEmpty)
      .node name (ending.any (·.failed)) (ending.any (·.skipped)) (forest levels inner)

end Case

namespace ReportNode

mutual
def hasFailure : ReportNode → Bool
  | node _ failed _ below => failed || anyFailure below

def anyFailure : List ReportNode → Bool
  | [] => false
  | first :: rest => hasFailure first || anyFailure rest
end

end ReportNode

namespace ReportStyle

/-- What follows the name of a leaf. -/
def marker (failed skipped : Bool) : String :=
  if failed then " [FAIL]" else if skipped then " [SKIP]" else ""

def leafColour (failed skipped : Bool) : Terminal.Colour :=
  if failed then .red else if skipped then .yellow else .green

def paint (style : ReportStyle) (colour : Terminal.Colour) (text : String) : String :=
  if style.colour then Terminal.reset ++ Terminal.begin colour ++ text ++ Terminal.reset
  else text

def indent (level : Nat) : String :=
  String.ofList (List.replicate (2 * level) ' ')

mutual
def renderNode (style : ReportStyle) (level : Nat) : ReportNode → String
  | .node name failed skipped below =>
    if !style.verbose && !ReportNode.hasFailure (.node name failed skipped below) then ""
    else
      match below with
      | [] =>
        indent level ++
          style.paint (leafColour failed skipped) (name ++ marker failed skipped) ++ "\n"
      | first :: rest =>
        indent level ++ name ++ "\n" ++
          (renderNode style (level + 1) first ++ renderNodes style (level + 1) rest)

def renderNodes (style : ReportStyle) (level : Nat) : List ReportNode → String
  | [] => ""
  | first :: rest => renderNode style level first ++ renderNodes style level rest
end

def format (style : ReportStyle) (cases : List Case) : String :=
  if !style.verbose && !cases.any (·.failed) then ""
  else style.renderNodes 0 (Case.forest (Case.depth cases) cases)

end ReportStyle
end NestedSpec
