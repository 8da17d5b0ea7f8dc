import NestedSpec.Proofs.Visiting
import NestedSpec.Search

/-!
# Searching for the block around a line

The search leaves out the nodes that do not cover the line and ends at the first node that begins
after it. If nodes lie within those around them and begin no earlier than the nodes visited before,
it finds what a walk over everything finds: the last block whose closure covers the line.
-/

namespace NestedSpec.Source

def Visited.Nests (visit : Visited) : Prop :=
  ∀ outer ∈ visit.around, outer.first ≤ visit.node.first ∧ visit.node.last ≤ outer.last

instance (visit : Visited) : Decidable visit.Nests :=
  inferInstanceAs (Decidable (∀ outer ∈ visit.around, _ ∧ _))

/-- No node begins on an earlier line than one that is visited before it. -/
def Ascends (visits : List Visited) : Prop :=
  visits.Pairwise fun earlier later => earlier.node.first ≤ later.node.first

instance (visits : List Visited) : Decidable (Ascends visits) :=
  inferInstanceAs (Decidable (List.Pairwise _ visits))

namespace Walk

variable {β : Type} {line : Nat} {take : Visited → Option β} {around : List Node}

def searching (line : Nat) (take : Visited → Option β) : Visitor (Option β) :=
  fun node around found =>
    if line < node.first then (.stop, found)
    else if !node.covers line then (.skip, found)
    else (.enter, (take ⟨node, around⟩).or found)

def lookAt (line : Nat) (take : Visited → Option β) (found : Option β) (visit : Visited) :
    Option β :=
  if visit.node.covers line then (take visit).or found else found

theorem foldl_lookAt_of_uncovered {visits : List Visited}
    (uncovered : ∀ visit ∈ visits, visit.node.covers line = false) (found : Option β) :
    visits.foldl (lookAt line take) found = found := by
  induction visits with
  | nil => rfl
  | cons visit rest ih =>
    obtain ⟨here, later⟩ := List.forall_mem_cons.mp uncovered
    rw [List.foldl_cons, lookAt, here]
    exact ih later

/-- The last of those that cover the line is found. -/
theorem foldl_lookAt (visits : List Visited) (found : Option β) :
    visits.foldl (lookAt line take) found =
      (((visits.filter (·.node.covers line)).filterMap take).getLast?).or found := by
  induction visits generalizing found with
  | nil => rfl
  | cons visit rest ih =>
    rw [List.foldl_cons, ih, lookAt, List.filter_cons]
    cases covered : visit.node.covers line with
    | false => rfl
    | true =>
      rw [if_pos rfl, if_pos rfl, List.filterMap_cons]
      cases taken : take visit with
      | none => rfl
      | some value =>
        rw [List.getLast?_cons]
        cases (rest.filter (·.node.covers line)).filterMap take |>.getLast? <;> rfl

theorem not_covers_of_lt {n : Node} (later : line < n.first) : n.covers line = false := by
  rw [Node.covers, decide_eq_false (by omega), Bool.false_and]

theorem not_covers_of_within {n inner : Node} (first : n.first ≤ inner.first)
    (last : inner.last ≤ n.last) (uncovered : n.covers line = false) :
    inner.covers line = false := by
  rw [Node.covers, Bool.and_eq_false_iff, decide_eq_false_iff_not, decide_eq_false_iff_not]
    at uncovered ⊢
  omega

theorem within_of_nests {n : Node} (nested : ∀ visit ∈ n.visits around, visit.Nests) :
    ∀ visit ∈ n.visits around, n.first ≤ visit.node.first ∧ visit.node.last ≤ n.last := by
  rw [Node.visits_eq] at nested ⊢
  intro visit found
  rcases List.mem_cons.mp found with rfl | inside
  · exact ⟨Nat.le_refl _, Nat.le_refl _⟩
  · exact nested visit (List.mem_cons_of_mem _ inside) n (Node.mem_around_inside inside)

mutual
/-- The search finds what looking at all visits finds, and it is stopped only by a node that begins
after the line. -/
theorem node_searching (around : List Node) : ∀ (n : Node),
    (∀ visit ∈ n.visits around, visit.Nests) → Ascends (n.visits around) →
    ∀ found : Option β, ∃ stopped,
    node (searching line take) around n found =
      (stopped, (n.visits around).foldl (lookAt line take) found) ∧
    (stopped = true → ∃ visit ∈ n.visits around, line < visit.node.first)
  | .node kind first last children, nested, ascending, found => by
    -- What is in the node lies in its lines, so it covers the line only if the node does.
    have within := within_of_nests nested
    rw [node, searching]
    by_cases later : line < (Node.node kind first last children).first
    · have uncovered : ∀ visit ∈ (Node.node kind first last children).visits around,
          visit.node.covers line = false := fun visit member =>
        not_covers_of_lt (Nat.lt_of_lt_of_le later (within visit member).1)
      rw [foldl_lookAt_of_uncovered uncovered, if_pos later]
      exact ⟨true, rfl, fun _ => ⟨_, List.mem_cons_self, later⟩⟩
    rw [if_neg later]
    cases covered : (Node.node kind first last children).covers line with
    | false =>
      have uncovered : ∀ visit ∈ (Node.node kind first last children).visits around,
          visit.node.covers line = false := fun visit member =>
        not_covers_of_within (within visit member).1 (within visit member).2 covered
      rw [foldl_lookAt_of_uncovered uncovered]
      exact ⟨false, rfl, fun ended => absurd ended Bool.false_ne_true⟩
    | true =>
      rw [Node.visits] at nested ascending ⊢
      obtain ⟨stopped, searched, reason⟩ := nodes_searching _ children
        (List.forall_mem_cons.mp nested).2 (List.pairwise_cons.mp ascending).2
        ((take ⟨.node kind first last children, around⟩).or found)
      refine ⟨stopped, ?_, fun ended => ?_⟩
      · rw [List.foldl_cons, lookAt, if_pos covered]
        exact searched
      · obtain ⟨visit, member, after⟩ := reason ended
        exact ⟨visit, List.mem_cons_of_mem _ member, after⟩

theorem nodes_searching (around : List Node) : ∀ (ns : List Node),
    (∀ visit ∈ Node.visitsAll around ns, visit.Nests) → Ascends (Node.visitsAll around ns) →
    ∀ found : Option β, ∃ stopped,
    nodes (searching line take) around ns found =
      (stopped, (Node.visitsAll around ns).foldl (lookAt line take) found) ∧
    (stopped = true → ∃ visit ∈ Node.visitsAll around ns, line < visit.node.first)
  | [], _, _, found => ⟨false, rfl, fun ended => absurd ended Bool.false_ne_true⟩
  | first :: rest, nested, ascending, found => by
    rw [Node.visitsAll] at nested ascending ⊢
    obtain ⟨nestedFirst, nestedRest⟩ := List.forall_mem_append.mp nested
    obtain ⟨ascendingFirst, ascendingRest, between⟩ := List.pairwise_append.mp ascending
    obtain ⟨stopped, searched, reason⟩ :=
      node_searching around first nestedFirst ascendingFirst found
    rw [nodes, searched, List.foldl_append]
    cases stopped with
    | true =>
      -- What comes later begins after the node that stopped the search, so after the line too.
      obtain ⟨visit, member, after⟩ := reason rfl
      have uncovered : ∀ later ∈ Node.visitsAll around rest, later.node.covers line = false :=
        fun later listed =>
          not_covers_of_lt (Nat.lt_of_lt_of_le after (between visit member later listed))
      rw [foldl_lookAt_of_uncovered uncovered]
      exact ⟨true, rfl, fun _ => ⟨visit, List.mem_append_left _ member, after⟩⟩
    | false =>
      obtain ⟨stopped, searched, reason⟩ := nodes_searching around rest nestedRest ascendingRest
        ((first.visits around).foldl (lookAt line take) found)
      refine ⟨stopped, searched, fun ended => ?_⟩
      obtain ⟨visit, member, after⟩ := reason ended
      exact ⟨visit, List.mem_append_right _ member, after⟩
end

/-- A search from the outermost nodes finds what a walk over everything finds. -/
theorem run_searching {outline : List Node}
    (nested : ∀ visit ∈ Node.visitsAll [] outline, visit.Nests)
    (ascending : Ascends (Node.visitsAll [] outline)) (found : Option β) :
    run (searching line take) outline found = run (entering (lookAt line take)) outline found := by
  obtain ⟨stopped, searched, -⟩ := nodes_searching [] outline nested ascending found
  rw [run, searched, run_entering]

/-- What a search finds is taken at a node that covers the line, whatever the lines of the nodes
are. -/
theorem exists_of_run_searching {outline : List Node} {value : β}
    (found : run (searching line take) outline none = some value) :
    ∃ visit ∈ Node.visitsAll [] outline, visit.node.covers line = true ∧
      take visit = some value := by
  refine nodes_keeps (fun found => ∀ value, found = some value →
    ∃ visit ∈ Node.visitsAll [] outline, visit.node.covers line = true ∧ take visit = some value)
    (searching line take) [] outline ?_ none (by simp) value found
  intro visit member state holding value taken
  rw [searching] at taken
  split at taken
  · exact holding value taken
  split at taken
  · exact holding value taken
  case isFalse.isFalse covered =>
    rcases Option.or_eq_some_iff.mp taken with here | ⟨-, before⟩
    · exact ⟨visit, member, by simpa using covered, here⟩
    · exact holding value before

end Walk

/-! ## Blocks where they stand -/

structure Site where
  visit : Visited
  body : Body

namespace Site

def covers (site : Site) (line : Nat) : Bool := site.visit.node.covers line

def block (file contents : String) (site : Site) : RuntimeBlock :=
  .ofBody file contents site.body

def of? (names : ContextNames) (visit : Visited) : Option Site :=
  (visit.node.runtimeBody? names visit.around).map (Site.mk visit)

def all (names : ContextNames) (visits : List Visited) : List Site := visits.filterMap (of? names)

def inner (names : ContextNames) (site : Site) : List Site :=
  all names site.visit.inside

variable {names : ContextNames} {outline : List Node} {line : Nat}

theorem visit_of? {visit : Visited} {site : Site} (made : of? names visit = some site) :
    site.visit = visit := by
  obtain ⟨body, -, rfl⟩ := Option.map_eq_some_iff.mp made
  rfl

theorem filter_covers_all (visits : List Visited) :
    (all names visits).filter (·.covers line) =
      all names (visits.filter (·.node.covers line)) := by
  rw [all, all, List.filter_filterMap, List.filterMap_filter]
  congr 1
  funext visit
  cases made : of? names visit with
  | none => simp
  | some site => rw [Option.filter_some, covers, visit_of? made]

theorem map_body_all (visits : List Visited) : (all names visits).map (·.body) =
    visits.filterMap fun visit => visit.node.runtimeBody? names visit.around := by
  rw [all, List.map_filterMap]
  congr 1
  funext visit
  rw [of?, Option.map_map]
  exact Option.map_id'

theorem foldl_append_toList {β : Type} (found : Visited → Option β) (visits : List Visited)
    (before : List β) :
    (visits.foldl (fun before visit => (found visit).toList ++ before) before).reverse =
      before.reverse ++ visits.filterMap found := by
  induction visits generalizing before with
  | nil => simp
  | cons visit rest ih =>
    rw [List.foldl_cons, ih, List.filterMap_cons]
    cases found visit <;> simp

theorem bodies_eq : RuntimeBlock.bodies names outline =
    (all names (Node.visitsAll [] outline)).map (·.body) := by
  change (Walk.run (Walk.entering fun before visit =>
    (visit.node.runtimeBody? names visit.around).toList ++ before) outline []).reverse = _
  rw [Walk.run_entering, foldl_append_toList, map_body_all]
  rfl

theorem innermostBody_eq_run : RuntimeBlock.innermostBody names outline line =
    Walk.run (Walk.searching line fun visit => visit.node.runtimeBody? names visit.around) outline
      none :=
  rfl

/-- The search finds the last body whose closure covers the line. -/
theorem innermostBody_eq (nested : ∀ visit ∈ Node.visitsAll [] outline, visit.Nests)
    (ascending : Ascends (Node.visitsAll [] outline)) :
    RuntimeBlock.innermostBody names outline line =
      (((all names (Node.visitsAll [] outline)).filter (·.covers line)).getLast?).map (·.body) := by
  rw [innermostBody_eq_run, Walk.run_searching nested ascending, Walk.run_entering,
    Walk.foldl_lookAt, Option.or_none, filter_covers_all, ← List.getLast?_map, map_body_all]

theorem exists_split_of_getLast? {α : Type} {p : α → Bool} {l : List α} {a : α}
    (last : (l.filter p).getLast? = some a) :
    ∃ before after, l = before ++ a :: after ∧ p a = true ∧ ∀ x ∈ after, p x = false := by
  obtain ⟨kept, parts⟩ := List.getLast?_eq_some_iff.mp last
  obtain ⟨front, back, rfl, -, ends⟩ := List.filter_eq_append_iff.mp parts
  obtain ⟨middle, after, rfl, -, holds, none⟩ := List.filter_eq_cons_iff.mp ends
  refine ⟨front ++ middle, after, by rw [List.append_assoc], holds, fun x member => ?_⟩
  simpa using List.filter_eq_nil_iff.mp none x member

/-- Inside the closure of the last body around a line there is none that covers the line. -/
theorem not_covers_inner {around : List Node} {ns : List Node} {site : Site}
    (last : ((all names (Node.visitsAll around ns)).filter (·.covers line)).getLast? = some site) :
    ∀ inner ∈ site.inner names, inner.covers line = false := by
  obtain ⟨before, after, parts, -, none⟩ := exists_split_of_getLast? last
  obtain ⟨front, back, visits, -, rest⟩ := List.filterMap_eq_append_iff.mp parts
  obtain ⟨middle, visit, later, rfl, -, made, rfl⟩ := List.filterMap_eq_cons_iff.mp rest
  rw [← List.append_assoc] at visits
  obtain ⟨further, rfl⟩ := Node.inside_prefix_visitsAll ns visits
  intro inner member
  rw [Site.inner, visit_of? made] at member
  refine none inner ?_
  rw [List.filterMap_append]
  exact List.mem_append_left _ member

/-- The closure of a body that is found covers the line. If nodes lie within those around them and
are visited in the order of the source, no closure inside it that runs with a context does. -/
theorem exists_of_innermostBody {body : Body}
    (found : RuntimeBlock.innermostBody names outline line = some body) :
    ∃ site ∈ all names (Node.visitsAll [] outline), site.covers line = true ∧ site.body = body ∧
      ((∀ visit ∈ Node.visitsAll [] outline, visit.Nests) → Ascends (Node.visitsAll [] outline) →
        ∀ inner ∈ site.inner names, inner.covers line = false) := by
  -- Without an order of the nodes any visit may have been the last, but it covers the line.
  by_cases ordered : (∀ visit ∈ Node.visitsAll [] outline, visit.Nests) ∧
      Ascends (Node.visitsAll [] outline)
  · rw [innermostBody_eq ordered.1 ordered.2] at found
    obtain ⟨site, last, taken⟩ := Option.map_eq_some_iff.mp found
    obtain ⟨member, covers⟩ := List.mem_filter.mp (List.mem_of_getLast? last)
    exact ⟨site, member, covers, taken, fun _ _ => not_covers_inner last⟩
  · rw [innermostBody_eq_run] at found
    obtain ⟨visit, member, covers, taken⟩ := Walk.exists_of_run_searching found
    have made : of? names visit = some ⟨visit, body⟩ := by rw [of?, taken, Option.map_some]
    exact ⟨⟨visit, body⟩, List.mem_filterMap.mpr ⟨visit, member, made⟩, covers, rfl,
      fun nested ascending => absurd ⟨nested, ascending⟩ ordered⟩

end Site

/-! ## Searches in files -/

def Node.HoldsBody (n : Node) : Prop :=
  match n.kind with
  | .closure c => n.first ≤ c.body.firstLine ∧ c.body.lastLine = n.last
  | _ => True

instance : DecidablePred Node.HoldsBody
  | .node (.closure _) _ _ _ => inferInstanceAs (Decidable (_ ∧ _))
  | .node (.item _) _ _ _ => .isTrue trivial
  | .node (.methodCall _) _ _ _ => .isTrue trivial
  | .node (.call _) _ _ _ => .isTrue trivial

namespace Site

variable {names : ContextNames} {visits : List Visited} {line : Nat} {file contents : String}

theorem mem_all {site : Site} (member : site ∈ all names visits) :
    site.visit ∈ visits ∧ of? names site.visit = some site := by
  obtain ⟨visit, found, made⟩ := List.mem_filterMap.mp member
  rw [visit_of? made]
  exact ⟨found, made⟩

theorem mem_inner {site inner : Site} (member : inner ∈ all names visits)
    (inside : inner.visit ∈ site.visit.inside) : inner ∈ site.inner names :=
  List.mem_filterMap.mpr ⟨inner.visit, inside, (mem_all member).2⟩

theorem body_of_holdsBody {site : Site} (made : of? names site.visit = some site)
    (holds : site.visit.node.HoldsBody) : site.visit.node.first ≤ site.body.firstLine ∧
      site.body.lastLine = site.visit.node.last := by
  obtain ⟨body, taken, same⟩ := Option.map_eq_some_iff.mp made
  obtain rfl : body = site.body := congrArg Site.body same
  rw [Node.runtimeBody?] at taken
  rw [Node.HoldsBody] at holds
  split at taken
  case h_1 c closure =>
    rw [closure] at holds
    split at taken
    · rwa [← Option.some.inj taken]
    · cases taken
  case h_2 => cases taken

/-- A line that a closure covers is in its body unless it comes before the body. -/
theorem containsLine_iff {site : Site} (made : of? names site.visit = some site)
    (holds : site.visit.node.HoldsBody) : (site.block file contents).containsLine line = true ↔
      site.covers line = true ∧ site.body.firstLine ≤ line := by
  obtain ⟨first, last⟩ := body_of_holdsBody made holds
  have inBody : (site.block file contents).containsLine line = true ↔
      site.body.firstLine ≤ line ∧ line ≤ site.body.lastLine := by
    rw [RuntimeBlock.containsLine, Bool.and_eq_true, decide_eq_true_iff, decide_eq_true_iff]
    rfl
  rw [inBody, covers, Node.covers, Bool.and_eq_true, decide_eq_true_iff, decide_eq_true_iff]
  omega

end Site
end NestedSpec.Source

namespace NestedSpec.Search

open Source

variable {search : Search} {path contents : String} {found : List Node} {line : Nat}

def sites (search : Search) (outline : List Node) : List Site :=
  Site.all (.ofOutline search.library outline) (Node.visitsAll [] outline)

theorem locate_eq (read : search.tree.readText path = .ok contents)
    (parsed : outline contents = .ok found) (line : Nat) : search.locate path line =
      .ok ((RuntimeBlock.innermostBody (.ofOutline search.library found) found line).map
        (.ofBody path contents)) := by
  rw [locate, read]
  simp only [RuntimeBlock.around?, parsed]
  rfl

theorem blocks_eq (read : search.tree.readText path = .ok contents)
    (parsed : outline contents = .ok found) :
    search.blocks path = .ok ((search.sites found).map (·.block path contents)) := by
  rw [blocks, read]
  simp only [RuntimeBlock.all, parsed]
  change Except.ok ((RuntimeBlock.bodies (.ofOutline search.library found) found).map _) = _
  rw [Site.bodies_eq, List.map_map]
  rfl

def ofSource (contents : String) : Search :=
  ⟨({} : FileTree).addFile "spec.rs" (some contents), usualLibrary⟩

theorem readText_ofSource (contents : String) :
    (ofSource contents).tree.readText "spec.rs" = .ok contents := by
  have parts : Text.splitAtChar '/' "spec.rs" = ["spec.rs"] := by decide
  have start : FileTree.start "spec.rs" = [] := by decide +kernel
  have enter : FileTree.enter [] "spec.rs" = ["spec.rs"] := by decide
  have short : ¬ FileTree.longestName < "spec.rs".utf8ByteSize := by decide +kernel
  have place : FileTree.place "spec.rs" = ["spec.rs"] := by
    rw [FileTree.place, parts, start, List.foldl_cons, enter, List.foldl_nil]
  simp [ofSource, FileTree.addFile, FileTree.readText, FileTree.resolve, FileTree.follow,
    FileTree.entry?, parts, start, enter, short, place]

theorem exists_of_any {ε α : Type} {result : Except ε α} {P : α → Prop} [DecidablePred P]
    (holds : result.toOption.any (fun value => decide (P value)) = true) :
    ∃ value, result = .ok value ∧ P value := by
  cases result with
  | error fault => cases holds
  | ok value => exact ⟨value, rfl, of_decide_eq_true holds⟩

theorem exists_located {P : RuntimeBlock → Prop} [DecidablePred P]
    (holds : (RuntimeBlock.around? usualLibrary "spec.rs" contents line).toOption.any
      (fun located => decide (∃ block ∈ located, P block)) = true) :
    ∃ block, (ofSource contents).locate "spec.rs" line = .ok (some block) ∧ P block := by
  obtain ⟨located, around, block, rfl, passes⟩ := exists_of_any holds
  refine ⟨block, ?_, passes⟩
  rw [locate, readText_ofSource]
  exact congrArg (inFile "spec.rs" contents) around

/-- The search around a line gives the last of the blocks of a file whose closure covers the line,
and nothing exactly if no closure does: leaving out nodes that do not cover the line, and ending at
a node that begins after it, makes no difference. -/
theorem locate_takes_last (read : search.tree.readText path = .ok contents)
    (parsed : outline contents = .ok found)
    (nested : ∀ visit ∈ Node.visitsAll [] found, visit.Nests)
    (ascending : Ascends (Node.visitsAll [] found)) (line : Nat) :
    search.blocks path = .ok ((search.sites found).map (·.block path contents)) ∧
    search.locate path line = .ok
      ((((search.sites found).filter (·.covers line)).getLast?).map (·.block path contents)) ∧
    (search.locate path line = .ok none ↔
      ∀ site ∈ search.sites found, site.covers line = false) ∧
    RuntimeBlock.innermostBody (.ofOutline search.library found) found line =
      Walk.run (Walk.entering (Walk.lookAt line fun visit =>
        visit.node.runtimeBody? (.ofOutline search.library found) visit.around)) found none := by
  have located : search.locate path line = .ok
      ((((search.sites found).filter (·.covers line)).getLast?).map (·.block path contents)) := by
    rw [locate_eq read parsed, Site.innermostBody_eq nested ascending, Option.map_map]
    rfl
  have searched : RuntimeBlock.innermostBody (.ofOutline search.library found) found line =
      Walk.run (Walk.entering (Walk.lookAt line fun visit =>
        visit.node.runtimeBody? (.ofOutline search.library found) visit.around)) found none := by
    rw [Site.innermostBody_eq_run]
    exact Walk.run_searching nested ascending none
  refine ⟨blocks_eq read parsed, located, ?_, searched⟩
  rw [located, Except.ok.injEq, Option.map_eq_none_iff, List.getLast?_eq_none_iff,
    List.filter_eq_nil_iff]
  simp only [Bool.not_eq_true]

def besideEachOther : String :=
  "fn spec(s: &mut Spec) \x7b\n" ++
  "    s.test(\"a\", |t| one(t)).test(\"b\", |t| \x7b\n" ++
  "        two(t);\n" ++
  "    \x7d);\n" ++
  "\x7d\n"

theorem locate_takes_last_besideEachOther : ∃ found, outline besideEachOther = .ok found ∧
    (∀ visit ∈ Node.visitsAll [] found, visit.Nests) ∧ Ascends (Node.visitsAll [] found) ∧
    (((ofSource besideEachOther).sites found).filter (·.covers 2)).length = 2 ∧
    (ofSource besideEachOther).locate "spec.rs" 2 = .ok
      ((((ofSource besideEachOther).sites found).filter (·.covers 2)).getLast?.map
        (·.block "spec.rs" besideEachOther)) := by
  obtain ⟨found, parsed, nested, ascending, two⟩ : ∃ found, outline besideEachOther = .ok found ∧
      (∀ visit ∈ Node.visitsAll [] found, visit.Nests) ∧ Ascends (Node.visitsAll [] found) ∧
      (((ofSource besideEachOther).sites found).filter (·.covers 2)).length = 2 :=
    exists_of_any (by decide +kernel)
  exact ⟨found, parsed, nested, ascending, two,
    (locate_takes_last (readText_ofSource _) parsed nested ascending 2).2.1⟩

/-- The block that is found around a line contains it, unless the line is in the head of its
closure. If nodes lie within those around them and are visited in the order of the source, no block
inside it contains the line. -/
theorem locate_surrounds (read : search.tree.readText path = .ok contents)
    (parsed : outline contents = .ok found)
    (bodies : ∀ visit ∈ Node.visitsAll [] found, visit.node.HoldsBody) {block : RuntimeBlock}
    (located : search.locate path line = .ok (some block)) :
    ∃ site ∈ search.sites found, block = site.block path contents ∧
      site.covers line = true ∧
      (block.containsLine line = true ↔ block.body.firstLine ≤ line) ∧
      ((∀ visit ∈ Node.visitsAll [] found, visit.Nests) → Ascends (Node.visitsAll [] found) →
        ∀ other ∈ search.sites found, other.visit ∈ site.visit.inside →
          (other.block path contents).containsLine line = false) := by
  have fits {site : Site} (member : site ∈ search.sites found) :
      (site.block path contents).containsLine line = true ↔
        site.covers line = true ∧ site.body.firstLine ≤ line := by
    obtain ⟨visited, made⟩ := Site.mem_all member
    exact Site.containsLine_iff made (bodies _ visited)
  rw [locate_eq read parsed, Except.ok.injEq] at located
  obtain ⟨body, innermost, rfl⟩ := Option.map_eq_some_iff.mp located
  obtain ⟨site, member, covers, rfl, inner⟩ := Site.exists_of_innermostBody innermost
  refine ⟨site, member, rfl, covers, ?_, fun nested ascending other listed inside => ?_⟩
  · exact (fits member).trans (and_iff_right covers)
  · have uncovered := inner nested ascending other (Site.mem_inner listed inside)
    rw [← Bool.not_eq_true, fits listed, uncovered]
    exact fun holds => Bool.false_ne_true holds.1

/-- The head of the outer closure begins on the second line and its body on the third. -/
def spreadAround : String :=
  "fn spec(s: &mut Spec) \x7b\n" ++
  "    s.test(\"a\", |\n" ++
  "        t| \x7b\n" ++
  "        s.test(\"b\", |t| one(t));\n" ++
  "    \x7d);\n" ++
  "\x7d\n"

theorem locate_surrounds_spreadAround : ∃ found block, outline spreadAround = .ok found ∧
    (∀ visit ∈ Node.visitsAll [] found, visit.node.HoldsBody) ∧
    (∀ visit ∈ Node.visitsAll [] found, visit.Nests) ∧ Ascends (Node.visitsAll [] found) ∧
    (ofSource spreadAround).locate "spec.rs" 2 = .ok (some block) ∧
    ∃ site ∈ (ofSource spreadAround).sites found, block = site.block "spec.rs" spreadAround ∧
      site.covers 2 = true ∧ (block.containsLine 2 = true ↔ block.body.firstLine ≤ 2) ∧
      (site.inner (.ofOutline usualLibrary found)).length = 1 ∧
      ∀ other ∈ (ofSource spreadAround).sites found, other.visit ∈ site.visit.inside →
        (other.block "spec.rs" spreadAround).containsLine 2 = false := by
  obtain ⟨found, parsed, bodies, nested, ascending, single⟩ :
      ∃ found, outline spreadAround = .ok found ∧
        (∀ visit ∈ Node.visitsAll [] found, visit.node.HoldsBody) ∧
        (∀ visit ∈ Node.visitsAll [] found, visit.Nests) ∧ Ascends (Node.visitsAll [] found) ∧
        ∀ site ∈ (ofSource spreadAround).sites found, site.covers 2 = true →
          (site.inner (.ofOutline usualLibrary found)).length = 1 :=
    exists_of_any (by decide +kernel)
  obtain ⟨block, located, -⟩ : ∃ block,
      (ofSource spreadAround).locate "spec.rs" 2 = .ok (some block) ∧ block.body.firstLine = 3 :=
    exists_located (by decide +kernel)
  obtain ⟨site, member, made, covers, contains, inner⟩ :=
    locate_surrounds (readText_ofSource _) parsed bodies located
  exact ⟨found, block, parsed, bodies, nested, ascending, located, site, member, made, covers,
    contains, single site member covers, inner nested ascending⟩

def spreadHead : String :=
  "fn spec(s: &mut Spec) \x7b\n" ++
  "    s.test(\"a\", |\n" ++
  "        t| \x7b\n" ++
  "        one(t);\n" ++
  "    \x7d);\n" ++
  "\x7d\n"

/-- On a line of the head the closure is found, and its body begins later. -/
theorem head_is_not_contained : ∃ block,
    (ofSource spreadHead).locate "spec.rs" 2 = .ok (some block) ∧
      ¬ block.containsLine 2 = true :=
  exists_located (by decide +kernel)

/-- The clause at the end of a signature is visited before the parameters. -/
def clauseBehind : String :=
  "fn spec(s: &mut Spec) \x7b\n" ++
  "    s.test(\"a\", |t| \x7b\n" ++
  "        fn f(x: [u8; \x7b s.test(\"x\", |t| one(t)); 0 \x7d])\n" ++
  "        where\n" ++
  "            [u8; g()]: Sized,\n" ++
  "        \x7b\n" ++
  "        \x7d\n" ++
  "    \x7d);\n" ++
  "\x7d\n"

/-- A node that is visited early but begins behind the line ends the search: the block around the
line is found and the one inside it is not. -/
theorem early_visit_hides_block : ∃ outer, ∃ blocks, ∃ inner ∈ blocks,
    (ofSource clauseBehind).locate "spec.rs" 3 = .ok (some outer) ∧
    (ofSource clauseBehind).blocks "spec.rs" = .ok blocks ∧
    (outer.body.firstLine, outer.body.lastLine) = (2, 8) ∧
    (inner.body.firstLine, inner.body.lastLine) = (3, 3) := by
  obtain ⟨outer, located, around⟩ : ∃ outer,
      (ofSource clauseBehind).locate "spec.rs" 3 = .ok (some outer) ∧
        (outer.body.firstLine, outer.body.lastLine) = (2, 8) :=
    exists_located (by decide +kernel)
  obtain ⟨blocks, all, inner, member, within⟩ : ∃ blocks,
      RuntimeBlock.all usualLibrary "spec.rs" clauseBehind = .ok blocks ∧
        ∃ inner ∈ blocks, (inner.body.firstLine, inner.body.lastLine) = (3, 3) :=
    exists_of_any (by decide +kernel)
  refine ⟨outer, blocks, inner, member, located, ?_, around, within⟩
  rw [Search.blocks, readText_ofSource]
  exact congrArg (inFile "spec.rs" clauseBehind) all

end NestedSpec.Search
