import Mathlib.Data.List.Nodup
import NestedSpec.Proofs.Regrouping

/-!
# Playing back rebuilds the sub-runs

The cases of a flow are its tree of sub-runs, flattened: those inside a sub-run stand before it. A
report keeps this list, with paths as seen from the flow, and playing it back finds the sub-runs
inside a flow by the length and the beginning of their paths. If no flow has two sub-runs of one
name, this is the tree again, and a leaf that ran apart is recorded as if it ran in its place.
-/

namespace NestedSpec

variable {ν : Type}

inductive SubRun where
  | mk (name : String) (failed skipped : Bool) (inside : List SubRun)

namespace SubRun

def name : SubRun → String
  | mk name _ _ _ => name

def failed : SubRun → Bool
  | mk _ failed _ _ => failed

def skipped : SubRun → Bool
  | mk _ _ skipped _ => skipped

def inside : SubRun → List SubRun
  | mk _ _ _ inside => inside

def ownCase (path : List String) (run : SubRun) : Case :=
  ⟨path ++ [run.name], run.failed, run.skipped⟩

mutual
def cases (path : List String) : SubRun → List Case
  | mk name failed skipped inside =>
    casesOf (path ++ [name]) inside ++ [⟨path ++ [name], failed, skipped⟩]

def casesOf (path : List String) : List SubRun → List Case
  | [] => []
  | first :: rest => cases path first ++ casesOf path rest
end

theorem casesOf_append (path : List String) (before after : List SubRun) :
    casesOf path (before ++ after) = casesOf path before ++ casesOf path after := by
  induction before with
  | nil => rfl
  | cons first rest ih => simp only [List.cons_append, casesOf, ih, List.append_assoc]

mutual
theorem map_under_cases (path inner : List String) : (run : SubRun) →
    (run.cases inner).map (·.under path) = run.cases (path ++ inner)
  | mk name failed skipped inside => by
    have below := map_under_casesOf path (inner ++ [name]) inside
    simp only [cases, List.map_append, below, List.append_assoc]
    simp [Case.under]

theorem map_under_casesOf (path inner : List String) : (runs : List SubRun) →
    (casesOf inner runs).map (·.under path) = casesOf (path ++ inner) runs
  | [] => rfl
  | first :: rest => by
    simp only [casesOf, List.map_append, map_under_cases path inner first,
      map_under_casesOf path inner rest]
end

mutual
theorem path_of_mem_cases {path : List String} {c : Case} : (run : SubRun) →
    c ∈ run.cases path → ∃ rest, c.path = path ++ run.name :: rest
  | mk name failed skipped inside, member => by
    rcases List.mem_append.mp member with inner | own
    · obtain ⟨run, -, rest, split⟩ := path_of_mem_casesOf inside inner
      exact ⟨run.name :: rest, by rw [split]; simp [SubRun.name]⟩
    · rw [List.mem_singleton.mp own]
      exact ⟨[], rfl⟩

theorem path_of_mem_casesOf {path : List String} {c : Case} : (runs : List SubRun) →
    c ∈ casesOf path runs → ∃ run ∈ runs, ∃ rest, c.path = path ++ run.name :: rest
  | first :: others, member => by
    rcases List.mem_append.mp member with here | later
    · exact ⟨first, List.mem_cons_self .., path_of_mem_cases first here⟩
    · obtain ⟨run, among, found⟩ := path_of_mem_casesOf others later
      exact ⟨run, List.mem_cons_of_mem _ among, found⟩
end

inductive Fits : Bool → List SubRun → Prop
  | nil (failed : Bool) : Fits failed []
  | cons {failed inner skipped : Bool} {name : String} {inside rest : List SubRun}
    (bears : inner = true → failed = true) (below : Fits inner inside)
    (later : Fits failed rest) : Fits failed (mk name inner skipped inside :: rest)

namespace Fits

variable {failed inner : Bool} {runs inside : List SubRun}

theorem mono (fits : Fits failed runs) {later : Bool} (grows : failed = true → later = true) :
    Fits later runs := by
  induction fits with
  | nil => exact .nil _
  | cons bears below _ _ ih => exact .cons (grows ∘ bears) below (ih grows)

theorem failed_of_any (fits : Fits failed runs) (some : runs.any (·.failed) = true) :
    failed = true := by
  induction fits with
  | nil => simp at some
  | cons bears _ _ _ ih =>
    rcases Bool.or_eq_true_iff.mp some with first | later
    · exact bears first
    · exact ih later

theorem append (fits : Fits failed runs) (name : String) (skipped : Bool)
    (child : Fits inner inside) :
    Fits (failed || inner) (runs ++ [mk name inner skipped inside]) := by
  induction fits with
  | nil failed => exact .cons (by simp_all) child (.nil _)
  | cons bears below _ _ ih => exact .cons (fun mark => by simp [bears mark]) below ih

end Fits
end SubRun

open SubRun in
def recorded : Likeness (List String) where
  like path r r' := r = r' ∧ r.path = path ∧
    ∃ runs, r.cases = casesOf path runs ∧ Fits r.failed runs
  below path name := path ++ [name]
  name like := by rw [like.1]
  failed like := by rw [like.1]
  skipped like := by rw [like.1]
  log message like := ⟨by rw [like.1], like.2.1, like.2.2⟩
  fail like := by
    obtain ⟨same, path, runs, cases, fits⟩ := like
    exact ⟨by rw [same], path, runs, cases, fits.mono fun _ => rfl⟩
  skip like := ⟨by rw [like.1], like.2.1, like.2.2⟩
  child name like := ⟨by rw [like.1], congrArg (· ++ [name]) like.2.1, [], rfl, .nil _⟩
  merge {_ _ _ c _} name like likeChild := by
    obtain ⟨same, path, runs, cases, fits⟩ := like
    obtain ⟨sameChild, pathChild, inside, casesChild, fitsChild⟩ := likeChild
    refine ⟨by rw [same, sameChild], path, _, ?_, fits.append name c.skipped fitsChild⟩
    simp only [Recorder.merge, cases, casesChild, pathChild, casesOf_append, casesOf, SubRun.cases,
      List.append_nil, List.append_assoc]

/-- The cases of a report are a tree of sub-runs, flattened. -/
theorem cases_report {flow : Flow ν .flow Unit} (respects : recorded.Respects flow)
    (start : State ν .flow) {path : List String} (fresh : start.recorder = .ofPath path) :
    ∃ runs, (Flow.settle (flow.run start)).recorder.report.cases = SubRun.casesOf [] runs ∧
      SubRun.Fits (Flow.settle (flow.run start)).recorder.failed runs := by
  have same : recorded.Same path start start :=
    ⟨rfl, rfl, by rw [fresh]; exact ⟨rfl, rfl, [], rfl, .nil _⟩⟩
  obtain ⟨-, here, runs, cases, fits⟩ := (respects _ _ _ same).settle.recorder
  refine ⟨runs, Recorder.report_cases ?_, fits⟩
  rw [cases, here, SubRun.map_under_casesOf, List.append_nil]

def Case.directlyIn (scope : List String) (c : Case) : Bool :=
  c.path.length = scope.length + 1 && scope.isPrefixOf c.path

theorem Case.directlyIn_iff {scope : List String} {c : Case} :
    c.directlyIn scope = true ↔ ∃ name, c.path = scope ++ [name] :=
  RunReport.directlyInside_iff

namespace RunReport

open SubRun

variable {report : RunReport}

def NamesOnce (report : RunReport) : Prop :=
  ∀ scope, ((report.casesIn scope).map (·.path)).Nodup

theorem namesOnce_iff_nodup (inside : ∀ c ∈ report.cases, c.path ≠ []) :
    report.NamesOnce ↔ (report.cases.map (·.path)).Nodup := by
  constructor
  · intro once
    rw [List.nodup_iff_count_le_one]
    intro path
    by_cases member : path ∈ report.cases.map (·.path)
    · obtain ⟨c, among, rfl⟩ := List.mem_map.mp member
      obtain ⟨scope, name, split⟩ := (List.eq_nil_or_concat' c.path).resolve_left (inside c among)
      have counted := List.nodup_iff_count_le_one.mp (once scope) (scope ++ [name])
      rw [List.count, List.countP_map] at counted
      rw [split, ← countP_casesIn]
      simpa [Function.comp_def, beq_eq_decide] using counted
    · rw [List.count_eq_zero_of_not_mem member]
      exact Nat.zero_le _
  · exact fun nodup scope => nodup.sublist (List.filter_sublist.map _)

/-- The sub-runs inside the flow at `scope` are these, and their cases stand in one piece. -/
def Holds (report : RunReport) (scope : List String) (runs : List SubRun) : Prop :=
  ∃ before after, report.cases = before ++ casesOf scope runs ++ after ∧
    ∀ c ∈ before ++ after, ¬ StrictlyBelow scope c.path

theorem holds_all {runs : List SubRun} (cases : report.cases = casesOf [] runs) :
    report.Holds [] runs :=
  ⟨[], [], by simpa using cases, by simp⟩

theorem filter_away {cases : List Case} {scope : List String}
    (away : ∀ c ∈ cases, ¬ StrictlyBelow scope c.path) :
    cases.filter (·.directlyIn scope) = [] := by
  rw [List.filter_eq_nil_iff]
  intro c member inside
  obtain ⟨name, path⟩ := Case.directlyIn_iff.mp inside
  exact away c member ⟨name, [], path⟩

theorem filter_casesOf (scope : List String) (runs : List SubRun) :
    (casesOf scope runs).filter (·.directlyIn scope) = runs.map (ownCase scope) := by
  induction runs with
  | nil => rfl
  | cons first rest ih =>
    obtain ⟨name, failed, skipped, inside⟩ := first
    have deeper : (casesOf (scope ++ [name]) inside).filter (·.directlyIn scope) = [] := by
      rw [List.filter_eq_nil_iff]
      intro c member here
      obtain ⟨run, -, rest, path⟩ := path_of_mem_casesOf inside member
      obtain ⟨last, direct⟩ := Case.directlyIn_iff.mp here
      have lengths := congrArg List.length (path.symm.trans direct)
      simp at lengths
    have own : [(⟨scope ++ [name], failed, skipped⟩ : Case)].filter (·.directlyIn scope) =
        [⟨scope ++ [name], failed, skipped⟩] :=
      List.filter_cons_of_pos (Case.directlyIn_iff.mpr ⟨name, rfl⟩)
    simp only [casesOf, SubRun.cases, List.filter_append, deeper, own, ih]
    rfl

theorem Holds.casesIn {scope : List String} {runs : List SubRun} (holds : report.Holds scope runs) :
    report.casesIn scope = runs.map (ownCase scope) := by
  obtain ⟨before, after, cases, away⟩ := holds
  have front := filter_away fun c member => away c (List.mem_append_left after member)
  have back := filter_away fun c member => away c (List.mem_append_right before member)
  change report.cases.filter (·.directlyIn scope) = _
  rw [cases, List.filter_append, List.filter_append, filter_casesOf, front, back, List.nil_append,
    List.append_nil]

theorem not_below_sibling {scope path : List String} {name other : String} {rest : List String}
    (split : path = scope ++ other :: rest) (apart : other ≠ name) :
    ¬ StrictlyBelow (scope ++ [name]) path := by
  rintro ⟨next, further, below⟩
  rw [split, List.append_assoc, List.append_cancel_left_eq] at below
  exact apart (List.cons.inj below).1

/-- Where sub-runs of one flow have different names, the cases inside one of them stand in one
piece. -/
theorem Holds.inside {scope : List String} {before after : List SubRun} {run : SubRun}
    (holds : report.Holds scope (before ++ run :: after))
    (apart : ∀ other ∈ before ++ after, other.name ≠ run.name) :
    report.Holds (scope ++ [run.name]) run.inside := by
  obtain ⟨front, back, cases, away⟩ := holds
  obtain ⟨name, failed, skipped, inside⟩ := run
  refine ⟨front ++ casesOf scope before,
    ⟨scope ++ [name], failed, skipped⟩ :: casesOf scope after ++ back, ?_, ?_⟩
  · rw [cases, casesOf_append]
    simp [casesOf, SubRun.cases, SubRun.name, SubRun.inside]
  · have sibling : ∀ runs, (∀ other ∈ runs, other ∈ before ++ after) →
        ∀ c ∈ casesOf scope runs, ¬ StrictlyBelow (scope ++ [name]) c.path := by
      intro runs among c member
      obtain ⟨other, chosen, rest, path⟩ := path_of_mem_casesOf runs member
      exact not_below_sibling path (apart other (among other chosen))
    intro c member
    simp only [List.mem_append, List.mem_cons] at member
    rcases member with (outer | left) | ((own | right) | outer)
    · exact fun below => away c (List.mem_append_left _ outer) below.of_child
    · exact sibling before (fun _ => List.mem_append_left _) c left
    · rintro ⟨next, rest, below⟩
      have lengths := congrArg List.length (own ▸ below)
      simp at lengths
    · exact sibling after (fun _ => List.mem_append_right _) c right
    · exact fun below => away c (List.mem_append_right _ outer) below.of_child

theorem Holds.inside_of_namesOnce {scope : List String} {runs : List SubRun}
    (holds : report.Holds scope runs) (once : report.NamesOnce) {run : SubRun}
    (member : run ∈ runs) : report.Holds (scope ++ [run.name]) run.inside := by
  obtain ⟨before, after, rfl⟩ := List.append_of_mem member
  have paths := once scope
  rw [holds.casesIn, List.map_map, List.map_append, List.map_cons, List.nodup_middle,
    List.nodup_cons, ← List.map_append] at paths
  refine holds.inside fun other among same => paths.1 (List.mem_map.mpr ⟨other, among, ?_⟩)
  simp [ownCase, same]

structure Rebuilt (r later : Recorder) (runs : List SubRun) : Prop where
  path : later.path = r.path
  cases : later.cases = r.cases ++ casesOf r.path runs
  failed : later.failed = (r.failed || runs.any (·.failed))
  skipped : later.skipped = r.skipped

theorem rebuilt_ownLines (scope : List String) (r : Recorder) :
    Rebuilt r (report.playOwnLines scope r) [] := by
  unfold playOwnLines
  induction report.linesOf scope generalizing r with
  | nil => exact ⟨rfl, by simp [casesOf], by simp, rfl⟩
  | cons line rest ih =>
    have later := ih (r.log line.message)
    exact ⟨later.path, later.cases, later.failed, later.skipped⟩

theorem Rebuilt.trans {r middle later : Recorder} {first second : List SubRun}
    (before : Rebuilt r middle first) (after : Rebuilt middle later second) :
    Rebuilt r later (first ++ second) := by
  refine ⟨after.path.trans before.path, ?_, ?_, after.skipped.trans before.skipped⟩
  · rw [after.cases, before.cases, before.path, casesOf_append, List.append_assoc]
  · rw [after.failed, before.failed, List.any_append, Bool.or_assoc]

theorem rebuilt_merge {r later : Recorder} {inside : List SubRun} {name : String}
    (rebuilt : Rebuilt (r.child name) later inside) {failed : Bool} (fits : Fits failed inside)
    (skipped : Bool) :
    Rebuilt r (r.merge (later.withMarks failed skipped) name) [.mk name failed skipped inside] := by
  have marked : (later.withMarks failed skipped).failed = failed := by
    have within : inside.any (·.failed) = true → failed = true := fits.failed_of_any
    simp only [Recorder.withMarks, rebuilt.failed]
    change (inside.any (·.failed) || failed) = failed
    cases failed <;> simp_all
  refine ⟨rfl, ?_, ?_, rfl⟩
  · have path : later.path = r.path ++ [name] := rebuilt.path
    have cases : later.cases = casesOf (r.path ++ [name]) inside := rebuilt.cases
    have skips : later.skipped = false := rebuilt.skipped
    simp only [Recorder.merge, marked]
    simp [Recorder.withMarks, cases, path, skips, casesOf, SubRun.cases]
  · simp only [Recorder.merge, marked]
    simp [SubRun.failed]

theorem rebuilt_children {play : List String → Recorder → Recorder} {scope : List String}
    {runs : List SubRun} {failed : Bool} (fits : Fits failed runs)
    (plays : ∀ run ∈ runs, ∀ {mark}, Fits mark run.inside → ∀ r,
      Rebuilt r (play (scope ++ [run.name]) r) run.inside) (r : Recorder) :
    Rebuilt r ((runs.map (ownCase scope)).foldl (playChild play) r) runs := by
  induction fits generalizing r with
  | nil => exact ⟨rfl, by simp [casesOf], by simp, rfl⟩
  | @cons _ inner skipped name inside rest bears below _ _ ih =>
    have first := rebuilt_merge (plays _ (List.mem_cons_self ..) below (r.child name)) below skipped
    have played : playChild play r (ownCase scope (.mk name inner skipped inside)) =
        r.merge ((play (scope ++ [name]) (r.child name)).withMarks inner skipped) name := by
      simp only [playChild, ownCase, SubRun.name, List.getLast?_concat]
      rfl
    rw [List.map_cons, List.foldl_cons, played]
    exact first.trans (ih (fun run member => plays run (List.mem_cons_of_mem _ member)) _)

/-- Playing back one scope rebuilds the sub-runs inside it, if as many levels are left as the paths
below it are long. -/
theorem rebuilt_playScope (once : report.NamesOnce) {levels : Nat} {scope : List String}
    {runs : List SubRun} {failed : Bool} (holds : report.Holds scope runs)
    (fits : Fits failed runs)
    (deep : ∀ c ∈ report.cases, c.path.length ≤ scope.length + levels) (r : Recorder) :
    Rebuilt r (report.playScope levels scope r) runs := by
  induction levels generalizing scope runs failed r with
  | zero =>
    cases runs with
    | nil => exact rebuilt_ownLines scope r
    | cons run rest =>
      have direct : ownCase scope run ∈ report.casesIn scope := by simp [holds.casesIn]
      have short := deep _ (mem_casesIn.mp direct).1
      simp only [ownCase, List.length_append, List.length_singleton] at short
      omega
  | succ levels ih =>
    rw [playScope, holds.casesIn]
    refine (rebuilt_ownLines scope r).trans
      (rebuilt_children fits (fun run member _ below r => ?_) _)
    refine ih (holds.inside_of_namesOnce once member) below (fun c among => ?_) r
    have long := deep c among
    simp only [List.length_append, List.length_singleton]
    omega

end RunReport

theorem joinNames_append_congr {here there : List String} (inside : here ≠ [] ∧ there ≠ [])
    (same : joinNames here = joinNames there) (rest : List String) :
    joinNames (here ++ rest) = joinNames (there ++ rest) := by
  induction rest generalizing here there with
  | nil => simpa using same
  | cons name rest ih =>
    have next : joinNames (here ++ [name]) = joinNames (there ++ [name]) := by
      rw [joinNames_append_singleton inside.1, joinNames_append_singleton inside.2, same]
    simpa using ih (by simp) next

theorem Recorder.merge_cases_congr (r : Recorder) {c c' : Recorder} (name : String)
    (path : c.path = c'.path) (cases : c.cases = c'.cases) (failed : c.failed = c'.failed)
    (skipped : c.skipped = c'.skipped) : (r.merge c name).cases = (r.merge c' name).cases := by
  simp only [merge, path, cases, failed, skipped]

namespace Runner

/-- Playing back what a leaf has reported apart leaves a sub-run with the cases and marks that the
leaf has in its place. -/
theorem replayed_endedLeaf {runner : Runner ν} (below : ∀ {ι} (L : Likeness ι),
    L.RespectsDeeper runner.deeper) (chain : Chain ν) (leaf : Leaf ν) {s : State ν .flow}
    (rooted : s.recorder.path ≠ []) (once : (runner.reportBeside chain leaf s).NamesOnce) :
    let start : State ν .flow := ⟨s.world, s.recorder.child leaf.description, ()⟩
    let replay : Flow ν .flow Unit := (runner.reportBeside chain leaf s).replay
    let played := (Flow.settle (replay.run start)).recorder
    let place := (runner.endedLeaf chain leaf start).recorder
    played.path = place.path ∧ played.cases = place.cases ∧ played.failed = place.failed ∧
      played.skipped = place.skipped := by
  intro start replay played place
  let report := runner.reportBeside chain leaf s
  obtain ⟨runs, cases, fits⟩ :=
    cases_report (Likeness.respects_runLeaf (below recorded) chain leaf)
      ⟨s.world, .detached s.recorder.name leaf.description, ()⟩ rfl
  -- The report is made on a recorder of its own; its cases are those of the place, as seen there.
  have same := (same_endedLeaf (below apartness) chain leaf rooted).recorder
  have tree : report.cases = SubRun.casesOf [] runs := cases
  obtain ⟨seen, here, there, -⟩ := same.cases
  have reported : report.cases = seen := Recorder.report_cases (same.there ▸ there)
  have deep : ∀ c ∈ report.cases,
      c.path.length ≤ ([] : List String).length + Case.depth report.cases := by
    intro c member
    rw [List.length_nil, Nat.zero_add]
    exact Case.length_le_depth member
  have rebuilt := RunReport.rebuilt_playScope once (RunReport.holds_all tree) fits deep
    start.recorder
  have settled : played = (report.playScope (Case.depth report.cases) [] start.recorder).withMarks
      report.failed report.skipped := congrArg State.recorder (report.settles_replay start)
  have failing : report.failed = place.failed := same.failed.symm
  rw [settled]
  refine ⟨rebuilt.path.trans same.here.symm, ?_, ?_, ?_⟩
  · have inPlace : place.cases = SubRun.casesOf start.recorder.path runs := by
      rw [here, ← reported, tree, SubRun.map_under_casesOf, List.append_nil]
      rfl
    rw [inPlace]
    exact rebuilt.cases
  · have within : runs.any (·.failed) = true → report.failed = true := fits.failed_of_any
    have played : ((report.playScope (Case.depth report.cases) [] start.recorder).withMarks
        report.failed report.skipped).failed = (runs.any (·.failed) || report.failed) :=
      congrArg (· || report.failed) rebuilt.failed
    rw [played, ← failing]
    cases failed : report.failed <;> simp_all
  · have skips : report.skipped = place.skipped := same.skipped.symm
    rw [← skips]
    exact congrArg (· || report.skipped) rebuilt.skipped

/-- A leaf that runs apart and is played back is recorded as if it ran in its place: the flow that
holds it ends with the same cases and marks. Apart and in its place, the leaf and each of its
sub-runs have the same full names, and the worlds that are left are the same, with the journal in
which scripts note what they see, such as their names. -/
theorem replay_rebuilds (config : Config) (mode : RunMode) (levels : Nat) (chain : Chain ν)
    (leaf : Leaf ν) (s : State ν .flow) (rooted : s.recorder.path ≠ [])
    (once : (reportBeside ⟨config, mode, Deeper.within levels⟩ chain leaf s).NamesOnce) :
    let runner : Runner ν := ⟨config, mode, Deeper.within levels⟩
    let place := runner.endedLeaf chain leaf ⟨s.world, s.recorder.child leaf.description, ()⟩
    let apart := runner.endedLeaf chain leaf
      ⟨s.world, .detached s.recorder.name leaf.description, ()⟩
    (runner.playedInPlace chain leaf s).cases = (runner.ranInPlace chain leaf s).cases ∧
      (runner.playedInPlace chain leaf s).failed = (runner.ranInPlace chain leaf s).failed ∧
      (runner.playedInPlace chain leaf s).skipped = (runner.ranInPlace chain leaf s).skipped ∧
      apart.world = place.world ∧ apart.recorder.name = place.recorder.name ∧
      apart.recorder.cases.map (joinNames ·.path) =
        place.recorder.cases.map (joinNames ·.path) := by
  intro runner place apart
  have below : ∀ {ι} (L : Likeness ι), L.RespectsDeeper runner.deeper :=
    fun _ => Likeness.respects_deeper levels
  have same := same_endedLeaf (below apartness) chain leaf rooted
  obtain ⟨path, cases, failed, skipped⟩ := replayed_endedLeaf below chain leaf rooted once
  refine ⟨?_, ?_, rfl, same.world.symm, (apartness.name same.recorder).symm, ?_⟩
  · exact Recorder.merge_cases_congr s.recorder leaf.description path cases failed skipped
  · exact congrArg (s.recorder.failed || ·) failed
  · obtain ⟨seen, here, there, -⟩ := same.recorder.cases
    rw [here, there, List.map_map, List.map_map]
    exact List.map_congr_left fun c _ =>
      (joinNames_append_congr same.recorder.inside same.recorder.name c.path).symm

def failsInside : Leaf Unit :=
  ⟨"x", default, .run "a" (.run "b" .failNow fun _ => .skipNow) fun _ =>
    .run "c" .skipNow fun _ => .done⟩

theorem replay_rebuilds_failsInside :
    (freshHost "spec" : State Unit .flow).recorder.path ≠ [] ∧
    (plainRunner.reportBeside [apartGroup] failsInside (freshHost "spec")).NamesOnce ∧
    (plainRunner.playedInPlace [apartGroup] failsInside (freshHost "spec")).cases =
      (plainRunner.ranInPlace [apartGroup] failsInside (freshHost "spec")).cases ∧
    (plainRunner.ranInPlace [apartGroup] failsInside (freshHost "spec")).cases =
      [⟨["spec", "x", "a", "b"], true, false⟩, ⟨["spec", "x", "a"], true, true⟩,
        ⟨["spec", "x", "c"], false, true⟩, ⟨["spec", "x"], true, false⟩] := by
  have once : (plainRunner.reportBeside [apartGroup] failsInside (freshHost "spec")).NamesOnce :=
    (RunReport.namesOnce_iff_nodup (by decide)).mpr (by decide)
  have rooted : (freshHost "spec" : State Unit .flow).recorder.path ≠ [] := by decide
  exact ⟨rooted, once,
    (replay_rebuilds (.default 0) .test 1 [apartGroup] failsInside (freshHost "spec") rooted
      once).1, by decide⟩

end Runner
end NestedSpec
