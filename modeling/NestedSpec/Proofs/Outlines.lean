import Mathlib.Data.List.Infix
import Mathlib.Data.List.Sort
import NestedSpec.Report
import NestedSpec.Proofs.Apart
import NestedSpec.Proofs.Growth

/-!
# Reports outline the paths of their cases

A report has one line for every path that begins the path of a case, in the order of a depth-first
walk: a path comes before those that go on below it, and paths side by side come in the order in
which the first case at or below them is listed. Unless everything is shown, only the paths that
begin the path of a failed case have a line.
-/

namespace NestedSpec

theorem strictlyBelow_iff {path other : List String} :
    StrictlyBelow path other ↔ path <+: other ∧ path.length < other.length := by
  constructor
  · rintro ⟨name, rest, rfl⟩
    exact ⟨List.prefix_append .., by simp⟩
  · rintro ⟨⟨rest, rfl⟩, longer⟩
    cases rest with
    | nil => simp at longer
    | cons name rest => exact ⟨name, rest, rfl⟩

theorem prefix_iff_eq_or_strictlyBelow {path other : List String} :
    path <+: other ↔ other = path ∨ StrictlyBelow path other := by
  constructor
  · rintro ⟨rest, rfl⟩
    cases rest with
    | nil => exact .inl (List.append_nil path)
    | cons name rest => exact .inr ⟨name, rest, rfl⟩
  · rintro (rfl | below)
    · exact List.prefix_refl _
    · exact (strictlyBelow_iff.mp below).1

instance (path other : List String) : Decidable (StrictlyBelow path other) :=
  decidable_of_iff _ strictlyBelow_iff.symm

namespace Case

/-! ## The order of the lines -/

def firstAt (cases : List Case) (path : List String) : Nat :=
  cases.findIdx fun c => path.isPrefixOf c.path

/-- What orders paths as a depth-first walk does: the first cases at or below the names of a path,
outermost first. -/
def rank (cases : List Case) (path : List String) : List Nat :=
  path.inits.tail.map (firstAt cases)

theorem rank_append (cases : List Case) (path more : List String) :
    rank cases (path ++ more) =
      rank cases path ++ more.inits.tail.map fun rest => firstAt cases (path ++ rest) := by
  have whole : path.inits ≠ [] := by cases path <;> simp
  rw [rank, List.inits_append, List.tail_append_of_ne_nil whole, List.map_append, List.map_map]
  rfl

theorem rank_append_cons (cases : List Case) (path : List String) (name : String)
    (rest : List String) : ∃ later, rank cases (path ++ name :: rest) =
      rank cases path ++ firstAt cases (path ++ [name]) :: later := by
  rw [rank_append, List.inits]
  cases rest <;> exact ⟨_, rfl⟩

theorem rank_lt_below (cases : List Case) (path : List String) (name : String)
    (rest : List String) : rank cases path < rank cases (path ++ name :: rest) := by
  obtain ⟨later, ranked⟩ := rank_append_cons cases path name rest
  rw [ranked]
  conv_lhs => rw [← List.append_nil (rank cases path)]
  exact List.append_left_lt (List.nil_lt_cons ..)

theorem rank_lt_beside {cases : List Case} {path : List String} {name other : String}
    (earlier : firstAt cases (path ++ [name]) < firstAt cases (path ++ [other]))
    (rest rest' : List String) :
    rank cases (path ++ name :: rest) < rank cases (path ++ other :: rest') := by
  obtain ⟨later, ranked⟩ := rank_append_cons cases path name rest
  obtain ⟨later', ranked'⟩ := rank_append_cons cases path other rest'
  rw [ranked, ranked']
  exact List.append_left_lt (List.cons_lt_cons_iff.mpr (.inl earlier))

theorem firstAt_lt_length {cases : List Case} {path : List String} :
    firstAt cases path < cases.length ↔ ∃ c ∈ cases, path <+: c.path := by
  simp only [firstAt, List.findIdx_lt_length, List.isPrefixOf_iff_prefix]

theorem firstAt_append_of_found {cases : List Case} {path : List String}
    (found : ∃ c ∈ cases, path <+: c.path) (more : List Case) :
    firstAt (cases ++ more) path = firstAt cases path := by
  rw [firstAt, List.findIdx_append]
  exact if_pos (firstAt_lt_length.mpr found)

theorem firstAt_append_of_missing {cases : List Case} {path : List String}
    (missing : ¬ ∃ c ∈ cases, path <+: c.path) (more : List Case) :
    cases.length ≤ firstAt (cases ++ more) path := by
  have beyond : ¬ cases.findIdx (fun c => path.isPrefixOf c.path) < cases.length :=
    firstAt_lt_length.not.mpr missing
  rw [firstAt, List.findIdx_append, if_neg beyond]
  exact Nat.le_add_left ..

/-! ## The cases below a path -/

def within (path : List String) (cases : List Case) : List Case :=
  path.foldl (fun inner name => below name inner) cases

theorem within_append_singleton (path : List String) (name : String) (cases : List Case) :
    within (path ++ [name]) cases = below name (within path cases) := by
  simp only [within, List.foldl_append, List.foldl_cons, List.foldl_nil]

theorem within_append (path : List String) (cases more : List Case) :
    within path (cases ++ more) = within path cases ++ within path more := by
  induction path generalizing cases more with
  | nil => rfl
  | cons name rest ih =>
    simp only [within, List.foldl_cons, below, List.filterMap_append] at ih ⊢
    exact ih ..

@[simp] theorem within_nil (path : List String) : within path [] = [] := by
  induction path with
  | nil => rfl
  | cons name rest ih => exact ih

theorem below?_eq_some_iff {name : String} {c inner : Case} :
    below? name c = some inner ↔ c = inner.under [name] := by
  obtain ⟨path, failed, skipped⟩ := c
  obtain ⟨innerPath, innerFailed, innerSkipped⟩ := inner
  cases path with
  | nil => simp [below?, under]
  | cons first rest =>
    by_cases same : first = name
    · simp [below?, under, same]
    · simp [below?, under, same]

theorem mem_below {name : String} {cases : List Case} {inner : Case} :
    inner ∈ below name cases ↔ inner.under [name] ∈ cases := by
  simp only [below, List.mem_filterMap, below?_eq_some_iff, exists_eq_right]

theorem mem_within {path : List String} {cases : List Case} {inner : Case} :
    inner ∈ within path cases ↔ inner.under path ∈ cases := by
  induction path generalizing cases with
  | nil => rfl
  | cons name rest ih =>
    have step : within (name :: rest) cases = within rest (below name cases) := rfl
    rw [step, ih, mem_below]
    rfl

theorem within_singleton (path : List String) (c : Case) : within path [c] = [] ∨
    ∃ inner : Case, within path [c] = [inner] ∧ c = inner.under path := by
  induction path generalizing c with
  | nil => exact .inr ⟨c, rfl, rfl⟩
  | cons name rest ih =>
    have step : within (name :: rest) [c] = within rest (below name [c]) := rfl
    rw [step, below, List.filterMap_cons, List.filterMap_nil]
    cases seen : below? name c with
    | none => exact .inl (within_nil rest)
    | some inside =>
      rcases ih inside with elsewhere | ⟨inner, here, rfl⟩
      · exact .inl elsewhere
      · exact .inr ⟨inner, here, below?_eq_some_iff.mp seen⟩

/-- What holds of a case below a path is read off the cases with that path in front. -/
theorem exists_mem_within (path : List String) (cases : List Case)
    (holds : List String → Case → Prop) :
    (∃ inner ∈ within path cases, holds inner.path (inner.under path)) ↔
      ∃ c ∈ cases, ∃ rest, c.path = path ++ rest ∧ holds rest c := by
  constructor
  · rintro ⟨inner, member, here⟩
    exact ⟨_, mem_within.mp member, inner.path, rfl, here⟩
  · rintro ⟨⟨_, failed, skipped⟩, member, rest, rfl, here⟩
    exact ⟨⟨rest, failed, skipped⟩, mem_within.mpr member, here⟩

theorem any_within (path : List String) (cases : List Case) (mark : Case → Bool)
    (kept : ∀ c : Case, mark (c.under path) = mark c) :
    (within path cases).any mark = true ↔ ∃ c ∈ cases, path <+: c.path ∧ mark c = true := by
  rw [List.any_eq_true]
  have found := exists_mem_within path cases fun _ c => mark c = true
  simp only [kept] at found
  rw [found]
  constructor
  · rintro ⟨c, member, rest, split, marked⟩
    exact ⟨c, member, ⟨rest, split.symm⟩, marked⟩
  · rintro ⟨c, member, ⟨rest, split⟩, marked⟩
    exact ⟨c, member, rest, split.symm, marked⟩

/-! ## First names -/

theorem firstNames_append_nil (cases : List Case) (failed skipped : Bool) :
    firstNames (cases ++ [⟨[], failed, skipped⟩]) = firstNames cases := by
  unfold firstNames
  rw [List.filterMap_append, List.foldl_append]
  rfl

theorem firstNames_append_cons (cases : List Case) (name : String) (rest : List String)
    (failed skipped : Bool) : firstNames (cases ++ [⟨name :: rest, failed, skipped⟩]) =
      if name ∈ firstNames cases then firstNames cases else firstNames cases ++ [name] := by
  unfold firstNames
  rw [List.filterMap_append, List.foldl_append]
  simp

theorem mem_firstNames {cases : List Case} {name : String} :
    name ∈ firstNames cases ↔ ∃ c ∈ cases, [name] <+: c.path := by
  induction cases using List.reverseRecOn with
  | nil => simp [firstNames]
  | append_singleton earlier c ih =>
    obtain ⟨path, failed, skipped⟩ := c
    simp only [List.mem_append, List.mem_singleton, or_and_right, exists_or, exists_eq_left, ← ih]
    cases path with
    | nil => simp [firstNames_append_nil]
    | cons first rest =>
      rw [firstNames_append_cons]
      by_cases seen : first ∈ firstNames earlier
      · rw [if_pos seen, List.cons_prefix_cons]
        exact ⟨.inl, fun known => known.elim id fun new => new.1 ▸ seen⟩
      · simp [seen, List.cons_prefix_cons]

theorem mem_firstNames_within {cases : List Case} {path : List String} {name : String} :
    name ∈ firstNames (within path cases) ↔ ∃ c ∈ cases, path ++ [name] <+: c.path := by
  rw [mem_firstNames]
  have found := exists_mem_within path cases fun rest _ => [name] <+: rest
  rw [found]
  constructor
  · rintro ⟨c, member, rest, split, rest', rfl⟩
    exact ⟨c, member, rest', by simp [split]⟩
  · rintro ⟨c, member, rest, split⟩
    exact ⟨c, member, name :: rest, by simp [← split], rest, rfl⟩

/-- The names below a path come in the order in which the first case at or below them is listed. -/
theorem firstNames_ordered (cases : List Case) (path : List String) :
    (firstNames (within path cases)).Pairwise fun name other =>
      firstAt cases (path ++ [name]) < firstAt cases (path ++ [other]) := by
  induction cases using List.reverseRecOn with
  | nil => simp [within_nil, firstNames]
  | append_singleton earlier c ih =>
    -- The case that comes last moves no name that is there already.
    have kept : (firstNames (within path earlier)).Pairwise fun name other =>
        firstAt (earlier ++ [c]) (path ++ [name]) < firstAt (earlier ++ [c]) (path ++ [other]) := by
      refine ih.imp_of_mem fun {name other} member member' before => ?_
      rw [firstAt_append_of_found (mem_firstNames_within.mp member),
        firstAt_append_of_found (mem_firstNames_within.mp member')]
      exact before
    rw [within_append]
    rcases within_singleton path c with elsewhere | ⟨⟨_ | ⟨name, rest⟩, failed, skipped⟩, here, rfl⟩
    · rwa [elsewhere, List.append_nil]
    · rwa [here, firstNames_append_nil]
    · rw [here, firstNames_append_cons]
      split
      · exact kept
      · rename_i unseen
        refine List.pairwise_append.mpr ⟨kept, List.pairwise_singleton .., ?_⟩
        intro other member new last
        obtain rfl := List.mem_singleton.mp last
        have found := mem_firstNames_within.mp member
        rw [firstAt_append_of_found found]
        exact (firstAt_lt_length.mpr found).trans_le
          (firstAt_append_of_missing (mem_firstNames_within.not.mp unseen) _)

/-! ## The paths that have a line -/

def outline (verbose : Bool) (cases : List Case) : Nat → List String → List (List String)
  | 0, _ => []
  | levels + 1, above =>
    (firstNames (within above cases)).flatMap fun name =>
      if verbose || (within (above ++ [name]) cases).any (·.failed) then
        (above ++ [name]) :: outline verbose cases levels (above ++ [name])
      else []

def Reaches (cases : List Case) (above : List String) (levels : Nat) : Prop :=
  ∀ c ∈ cases, c.path.length ≤ above.length + levels

variable {verbose : Bool} {cases : List Case} {levels : Nat} {above : List String}

theorem Reaches.inside (deep : Reaches cases above (levels + 1)) (name : String) :
    Reaches cases (above ++ [name]) levels := by
  intro c member
  have bound := deep c member
  rw [List.length_append, List.length_singleton]
  omega

theorem Reaches.not_below (deep : Reaches cases above 0) {c : Case} (member : c ∈ cases) :
    ¬ StrictlyBelow above c.path := by
  intro below
  have longer := (strictlyBelow_iff.mp below).2
  have bound := deep c member
  omega

theorem reaches_depth (cases : List Case) : Reaches cases [] (depth cases) := by
  intro c member
  rw [List.length_nil, Nat.zero_add]
  exact length_le_depth member

theorem shown_iff {path : List String} (known : ∃ c ∈ cases, path <+: c.path) :
    (verbose || (within path cases).any (·.failed)) = true ↔
      ∃ c ∈ cases, path <+: c.path ∧ (verbose = true ∨ c.failed = true) := by
  have failed := any_within path cases (·.failed) fun _ => rfl
  rw [Bool.or_eq_true, failed]
  constructor
  · rintro (all | ⟨c, member, here, marked⟩)
    · obtain ⟨c, member, here⟩ := known
      exact ⟨c, member, here, .inl all⟩
    · exact ⟨c, member, here, .inr marked⟩
  · rintro ⟨c, member, here, all | marked⟩
    · exact .inl all
    · exact .inr ⟨c, member, here, marked⟩

theorem mem_outline (deep : Reaches cases above levels)
    {path : List String} : path ∈ outline verbose cases levels above ↔
      StrictlyBelow above path ∧
        ∃ c ∈ cases, path <+: c.path ∧ (verbose = true ∨ c.failed = true) := by
  induction levels generalizing above with
  | zero =>
    refine iff_of_false List.not_mem_nil ?_
    rintro ⟨⟨name, rest, rfl⟩, c, member, ⟨more, split⟩, -⟩
    exact deep.not_below member ⟨name, rest ++ more, by simp [← split]⟩
  | succ levels ih =>
    simp only [outline, List.mem_flatMap]
    constructor
    · rintro ⟨name, named, listed⟩
      have known := mem_firstNames_within.mp named
      split at listed
      · rename_i shown
        rcases List.mem_cons.mp listed with rfl | deeper
        · exact ⟨⟨name, [], rfl⟩, (shown_iff known).mp shown⟩
        · obtain ⟨below, reached⟩ := (ih (deep.inside name)).mp deeper
          exact ⟨below.of_child, reached⟩
      · exact absurd listed List.not_mem_nil
    · rintro ⟨⟨name, rest, rfl⟩, c, member, here, marked⟩
      have upTo : above ++ [name] <+: above ++ name :: rest := ⟨rest, by simp⟩
      have known : ∃ c ∈ cases, above ++ [name] <+: c.path := ⟨c, member, upTo.trans here⟩
      have shown := (shown_iff known).mpr ⟨c, member, upTo.trans here, marked⟩
      refine ⟨name, mem_firstNames_within.mpr known, ?_⟩
      rw [if_pos shown]
      cases rest with
      | nil => exact List.mem_cons_self ..
      | cons next rest =>
        refine List.mem_cons_of_mem _ ((ih (deep.inside name)).mpr ⟨⟨next, rest, by simp⟩, ?_⟩)
        exact ⟨c, member, here, marked⟩

theorem outline_eq_nil (deep : Reaches cases above levels)
    (quiet : (!verbose && !cases.any (·.failed)) = true) :
    outline verbose cases levels above = [] := by
  refine List.eq_nil_iff_forall_not_mem.mpr fun path listed => ?_
  obtain ⟨-, c, member, -, marked⟩ := (mem_outline deep).mp listed
  rw [Bool.and_eq_true, Bool.not_eq_true', Bool.not_eq_true', List.any_eq_false] at quiet
  exact marked.elim (quiet.1 ▸ Bool.false_ne_true) (quiet.2 c member)

theorem outline_ordered (deep : Reaches cases above levels) :
    (outline verbose cases levels above).Pairwise fun path later =>
      rank cases path < rank cases later := by
  induction levels generalizing above with
  | zero => exact .nil
  | succ levels ih =>
    have begins {name : String} {path : List String}
        (listed : path ∈ if verbose || (within (above ++ [name]) cases).any (·.failed) then
          (above ++ [name]) :: outline verbose cases levels (above ++ [name]) else []) :
        ∃ rest, path = above ++ name :: rest := by
      split at listed
      · rcases List.mem_cons.mp listed with rfl | deeper
        · exact ⟨[], rfl⟩
        · obtain ⟨⟨next, rest, rfl⟩, -⟩ := (mem_outline (deep.inside name)).mp deeper
          exact ⟨next :: rest, by simp⟩
      · exact absurd listed List.not_mem_nil
    rw [outline, List.pairwise_flatMap]
    constructor
    · intro name _
      split
      · refine List.pairwise_cons.mpr ⟨fun path deeper => ?_, ih (deep.inside name)⟩
        obtain ⟨⟨next, rest, rfl⟩, -⟩ := (mem_outline (deep.inside name)).mp deeper
        exact rank_lt_below ..
      · exact .nil
    · refine (firstNames_ordered cases above).imp fun earlier path listed later listed' => ?_
      obtain ⟨rest, rfl⟩ := begins listed
      obtain ⟨rest', rfl⟩ := begins listed'
      exact rank_lt_beside earlier rest rest'

/-! ## The tree of the paths -/

def branch (cases : List Case) (levels : Nat) (above : List String) (name : String) : ReportNode :=
  let inner := within (above ++ [name]) cases
  let ending := inner.filter (·.path.isEmpty)
  .node name (ending.any (·.failed)) (ending.any (·.skipped)) (forest levels inner)

theorem forest_within (cases : List Case) (levels : Nat) (above : List String) :
    forest (levels + 1) (within above cases) =
      (firstNames (within above cases)).map (branch cases levels above) := by
  rw [forest]
  refine List.map_congr_left fun name _ => ?_
  simp only [branch, within_append_singleton]

theorem forest_eq_nil_iff (deep : Reaches cases above levels) :
    forest levels (within above cases) = [] ↔ ¬ ∃ c ∈ cases, StrictlyBelow above c.path := by
  cases levels with
  | zero =>
    refine iff_of_true rfl ?_
    rintro ⟨c, member, below⟩
    exact deep.not_below member below
  | succ levels =>
    rw [forest_within, List.map_eq_nil_iff, List.eq_nil_iff_forall_not_mem]
    simp only [mem_firstNames_within]
    constructor
    · rintro none ⟨c, member, name, rest, split⟩
      exact none name ⟨c, member, rest, by simp [split]⟩
    · rintro none name ⟨c, member, rest, split⟩
      exact none ⟨c, member, name, rest, by simp [← split]⟩

/-- What ends at a path is marked if one of the cases there is. -/
theorem any_ending (path : List String) (cases : List Case) (mark : Case → Bool)
    (kept : ∀ c : Case, mark (c.under path) = mark c) :
    ((within path cases).filter (·.path.isEmpty)).any mark =
      decide (∃ c ∈ cases, c.path = path ∧ mark c = true) := by
  have found := exists_mem_within path cases fun rest c => rest = [] ∧ mark c = true
  simp only [kept] at found
  rw [Bool.eq_iff_iff, decide_eq_true_iff, List.any_filter, List.any_eq_true]
  simp only [Bool.and_eq_true, List.isEmpty_iff, found]
  refine exists_congr fun c => and_congr_right fun _ => ?_
  constructor
  · rintro ⟨rest, split, rfl, marked⟩
    exact ⟨by simpa using split, marked⟩
  · rintro ⟨split, marked⟩
    exact ⟨[], by simpa using split, rfl, marked⟩

theorem anyFailure_eq_any (nodes : List ReportNode) :
    ReportNode.anyFailure nodes = nodes.any ReportNode.hasFailure := by
  induction nodes with
  | nil => rfl
  | cons first rest ih => rw [ReportNode.anyFailure, ih, List.any_cons]

theorem hasFailure_branch {name : String}
    (inside : ReportNode.anyFailure (forest levels (within (above ++ [name]) cases)) = true ↔
      ∃ c ∈ cases, StrictlyBelow (above ++ [name]) c.path ∧ c.failed = true) :
    ReportNode.hasFailure (branch cases levels above name) = true ↔
      ∃ c ∈ cases, above ++ [name] <+: c.path ∧ c.failed = true := by
  have ending := any_ending (above ++ [name]) cases (·.failed) fun _ => rfl
  rw [branch, ReportNode.hasFailure, ending, Bool.or_eq_true, decide_eq_true_iff, inside,
    ← exists_or]
  refine exists_congr fun c => ?_
  rw [prefix_iff_eq_or_strictlyBelow]
  tauto

theorem anyFailure_forest (deep : Reaches cases above levels) :
    ReportNode.anyFailure (forest levels (within above cases)) = true ↔
      ∃ c ∈ cases, StrictlyBelow above c.path ∧ c.failed = true := by
  induction levels generalizing above with
  | zero =>
    refine iff_of_false Bool.false_ne_true ?_
    rintro ⟨c, member, below, -⟩
    exact deep.not_below member below
  | succ levels ih =>
    simp only [forest_within, anyFailure_eq_any, List.any_map, List.any_eq_true,
      Function.comp_apply, hasFailure_branch (ih (deep.inside _)), mem_firstNames_within]
    constructor
    · rintro ⟨name, -, c, member, ⟨rest, split⟩, failed⟩
      exact ⟨c, member, ⟨name, rest, by simp [← split]⟩, failed⟩
    · rintro ⟨c, member, ⟨name, rest, split⟩, failed⟩
      have here : above ++ [name] <+: c.path := ⟨rest, by simp [split]⟩
      exact ⟨name, ⟨c, member, here⟩, c, member, here, failed⟩

end Case

/-! ## The lines -/

namespace ReportStyle

theorem join_flatMap {α : Type} (items : List α) (parts : α → List String) :
    String.join (items.flatMap parts) =
      String.join (items.map fun item => String.join (parts item)) := by
  induction items with
  | nil => rfl
  | cons item rest ih =>
    rw [List.flatMap_cons, String.join_append, ih, List.map_cons, String.join_cons]

def line (style : ReportStyle) (cases : List Case) (path : List String) : String :=
  let name := path.getLast?.getD ""
  let failed : Bool := ∃ c ∈ cases, c.path = path ∧ c.failed = true
  let skipped : Bool := ∃ c ∈ cases, c.path = path ∧ c.skipped = true
  let label :=
    if ∃ c ∈ cases, StrictlyBelow path c.path then name
    else style.paint (leafColour failed skipped) (name ++ marker failed skipped)
  indent (path.length - 1) ++ label

theorem renderNodes_eq_join (style : ReportStyle) (level : Nat) (nodes : List ReportNode) :
    style.renderNodes level nodes = String.join (nodes.map (style.renderNode level)) := by
  induction nodes with
  | nil => rfl
  | cons first rest ih => rw [renderNodes, ih, List.map_cons, String.join_cons]

theorem renderNode_eq (style : ReportStyle) (level : Nat) (name : String) (failed skipped : Bool)
    (below : List ReportNode) :
    style.renderNode level (.node name failed skipped below) =
      if style.verbose || ReportNode.hasFailure (.node name failed skipped below) then
        indent level ++
          (if below = [] then style.paint (leafColour failed skipped) (name ++ marker failed skipped)
            else name) ++ "\n" ++ style.renderNodes (level + 1) below
      else "" := by
  unfold renderNode
  simp only [← Bool.not_or, Bool.not_eq_true']
  cases below with
  | nil => cases style.verbose || _ <;> simp [renderNodes]
  | cons first rest => cases style.verbose || _ <;> simp [renderNodes]

variable {cases : List Case} {levels : Nat} {above : List String}

theorem hasFailure_branch_eq (deep : Case.Reaches cases above (levels + 1)) (name : String) :
    ReportNode.hasFailure (Case.branch cases levels above name) =
      (Case.within (above ++ [name]) cases).any (·.failed) := by
  rw [Bool.eq_iff_iff, Case.any_within (above ++ [name]) cases (·.failed) fun _ => rfl]
  exact Case.hasFailure_branch (Case.anyFailure_forest (deep.inside name))

/-- The branch of a path begins with the line of the path. -/
theorem renderNode_branch (style : ReportStyle) (deep : Case.Reaches cases above (levels + 1))
    (name : String) : style.renderNode above.length (Case.branch cases levels above name) =
      if style.verbose || (Case.within (above ++ [name]) cases).any (·.failed) then
        style.line cases (above ++ [name]) ++ "\n" ++ style.renderNodes (above ++ [name]).length
          (Case.forest levels (Case.within (above ++ [name]) cases))
      else "" := by
  have shown := hasFailure_branch_eq deep name
  have none := Case.forest_eq_nil_iff (deep.inside name)
  rw [Case.branch] at shown ⊢
  rw [renderNode_eq, shown]
  have failed := Case.any_ending (above ++ [name]) cases (·.failed) fun _ => rfl
  have skipped := Case.any_ending (above ++ [name]) cases (·.skipped) fun _ => rfl
  simp only [failed, skipped, none, line, List.getLast?_append, List.getLast?_singleton,
    List.length_append, List.length_singleton, Nat.add_sub_cancel, ite_not]
  rfl

theorem renderNodes_forest (style : ReportStyle) (deep : Case.Reaches cases above levels) :
    style.renderNodes above.length (Case.forest levels (Case.within above cases)) =
      String.join ((Case.outline style.verbose cases levels above).map
        fun path => style.line cases path ++ "\n") := by
  induction levels generalizing above with
  | zero => rfl
  | succ levels ih =>
    rw [Case.forest_within, renderNodes_eq_join, List.map_map, Case.outline, List.map_flatMap,
      join_flatMap]
    refine congrArg String.join (List.map_congr_left fun name _ => ?_)
    rw [Function.comp_apply, style.renderNode_branch deep]
    split
    · rw [ih (deep.inside name), List.map_cons, String.join_cons]
    · rfl

/-- A report is the concatenation of the lines of the paths that have one. -/
theorem format_eq_join (style : ReportStyle) (cases : List Case) :
    style.format cases = String.join
      ((Case.outline style.verbose cases (Case.depth cases) []).map
        fun path => style.line cases path ++ "\n") := by
  have deep := Case.reaches_depth cases
  have whole := style.renderNodes_forest deep
  unfold format
  split
  · rename_i quiet
    rw [Case.outline_eq_nil deep quiet]
    rfl
  · exact whole

end ReportStyle

namespace Case

/-- The paths that have a line, in the order of the lines: those that begin the path of a case, or
of a failed one, as a depth-first walk meets them. -/
structure Outlines (verbose : Bool) (cases : List Case) (shown : List (List String)) : Prop where
  mem_iff : ∀ path, path ∈ shown ↔
    path ≠ [] ∧ ∃ c ∈ cases, path <+: c.path ∧ (verbose = true ∨ c.failed = true)
  ordered : shown.Pairwise fun path later => rank cases path < rank cases later

/-- There is only one order of the lines. -/
theorem Outlines.unique {verbose : Bool} {cases : List Case} {shown other : List (List String)}
    (outlines : Outlines verbose cases shown) (outlines' : Outlines verbose cases other) :
    other = shown := by
  have : Std.Antisymm fun path later : List String => rank cases path < rank cases later :=
    ⟨fun _ _ before after => (List.lt_asymm before after).elim⟩
  have : Std.Irrefl fun path later : List String => rank cases path < rank cases later :=
    ⟨fun path => List.lt_irrefl (rank cases path)⟩
  exact List.Pairwise.eq_of_mem_iff outlines'.ordered outlines.ordered fun path =>
    (outlines'.mem_iff path).trans (outlines.mem_iff path).symm

theorem outlines_outline (verbose : Bool) (cases : List Case) :
    Outlines verbose cases (outline verbose cases (depth cases) []) where
  mem_iff := by
    intro path
    rw [mem_outline (reaches_depth cases)]
    refine and_congr_left fun _ => ⟨?_, fun inside => ?_⟩
    · rintro ⟨name, rest, rfl⟩
      exact List.cons_ne_nil name rest
    · obtain ⟨name, rest, rfl⟩ := List.exists_cons_of_ne_nil inside
      exact ⟨name, rest, rfl⟩
  ordered := outline_ordered (reaches_depth cases)

def markAt (cases : List Case) (path : List String) : String :=
  if ∃ c ∈ cases, StrictlyBelow path c.path then ""
  else if ∃ c ∈ cases, c.path = path ∧ c.failed = true then " [FAIL]"
  else if ∃ c ∈ cases, c.path = path ∧ c.skipped = true then " [SKIP]"
  else ""

def plainLine (cases : List Case) (path : List String) : String :=
  String.ofList (List.replicate (2 * (path.length - 1)) ' ') ++ path.getLast?.getD "" ++
    markAt cases path

end Case

namespace ReportStyle

theorem line_plain (verbose : Bool) (cases : List Case) (path : List String) :
    line ⟨verbose, false⟩ cases path = Case.plainLine cases path := by
  unfold line Case.plainLine Case.markAt
  split
  · simp [indent]
  · simp [indent, paint, marker, String.append_assoc]

/-- A report without colour outlines its cases. -/
theorem format_outlines (verbose : Bool) (cases : List Case) : ∃ shown,
    Case.Outlines verbose cases shown ∧
    (∀ other, Case.Outlines verbose cases other → other = shown) ∧
    format ⟨verbose, false⟩ cases =
      if verbose || cases.any (·.failed) then
        String.join (shown.map fun path => Case.plainLine cases path ++ "\n")
      else "" := by
  have outlines := Case.outlines_outline verbose cases
  refine ⟨_, outlines, fun _ => outlines.unique, ?_⟩
  split
  · rw [format_eq_join]
    simp only [line_plain]
  · rename_i quiet
    rw [format, if_pos (by simpa using quiet)]

/-- A branch without failures is left out, and only the end of the other one is marked. -/
example : format ⟨false, false⟩ [⟨["spec", "group", "a"], false, false⟩,
      ⟨["spec", "group"], false, false⟩, ⟨["spec", "b"], true, false⟩, ⟨["spec"], true, false⟩] =
    "spec\n  b [FAIL]\n" := by
  decide +kernel

end ReportStyle
end NestedSpec
