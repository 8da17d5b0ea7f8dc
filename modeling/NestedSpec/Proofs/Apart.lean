import NestedSpec.Proofs.LikeRuns

/-!
# Flows that run apart

A flow cannot tell whether it runs in its place or apart, on a recorder that has the same full name:
it reports the same lines and marks, and the same sub-runs as seen from itself. What it reports fits
together: every line comes from the flow itself or from a sub-run that has a case, every sub-run
inside another one has the case of that one, and a failed sub-run makes the flow fail.
-/

namespace NestedSpec

def Case.under (path : List String) (c : Case) : Case := { c with path := path ++ c.path }

structure Coherent (failed : Bool) (logs : List LogLine) (cases : List Case) : Prop where
  failure : ∀ c ∈ cases, c.failed = true → failed = true
  origin : ∀ line ∈ logs, line.origin ≠ [] → line.origin ∈ cases.map (·.path)
  parent : ∀ path name, path ≠ [] → path ++ [name] ∈ cases.map (·.path) →
    path ∈ cases.map (·.path)

namespace Coherent

variable {failed : Bool} {logs : List LogLine} {cases : List Case}

theorem start : Coherent false [] [] :=
  ⟨by simp, by simp, by simp⟩

theorem log (coherent : Coherent failed logs cases) (message : String) :
    Coherent failed (logs ++ [⟨[], message⟩]) cases := by
  refine ⟨coherent.failure, fun line member => ?_, coherent.parent⟩
  rcases List.mem_append.mp member with old | new
  · exact coherent.origin line old
  · rw [List.mem_singleton.mp new]
    exact fun inside => absurd rfl inside

theorem fail (coherent : Coherent failed logs cases) : Coherent true logs cases :=
  ⟨fun _ _ _ => rfl, coherent.origin, coherent.parent⟩

theorem merge (coherent : Coherent failed logs cases) {childFailed : Bool}
    {childLogs : List LogLine} {childCases : List Case}
    (child : Coherent childFailed childLogs childCases) (name : String) (skipped : Bool) :
    Coherent (failed || childFailed)
      (logs ++ childLogs.map fun line => { line with origin := name :: line.origin })
      (cases ++ childCases.map (·.under [name]) ++ [⟨[name], childFailed, skipped⟩]) := by
  have paths : (cases ++ childCases.map (·.under [name]) ++
        [(⟨[name], childFailed, skipped⟩ : Case)]).map (·.path) =
      cases.map (·.path) ++ (childCases.map (·.path)).map (name :: ·) ++ [[name]] := by
    simp [Case.under, Function.comp_def]
  constructor
  · intro c member failing
    simp only [List.mem_append, List.mem_map, List.mem_singleton] at member
    rcases member with (own | ⟨inner, inside, rfl⟩) | rfl
    · simp [coherent.failure c own failing]
    · simp [child.failure inner inside failing]
    · simp only at failing
      simp [failing]
  · intro line member away
    rw [paths]
    simp only [List.mem_append, List.mem_map, List.mem_singleton] at member ⊢
    rcases member with own | ⟨inner, inside, rfl⟩
    · exact .inl (.inl (List.mem_map.mp (coherent.origin line own away)))
    · by_cases here : inner.origin = []
      · exact .inr (by rw [here])
      · obtain ⟨c, among, path⟩ := List.mem_map.mp (child.origin inner inside here)
        exact .inl (.inr ⟨_, ⟨c, among, path⟩, rfl⟩)
  -- What lies inside the child has its parent among the child's cases, or the child itself is it.
  · intro path last away member
    rw [paths] at member ⊢
    simp only [List.mem_append, List.mem_singleton] at member ⊢
    rcases member with (own | inside) | single
    · exact .inl (.inl (coherent.parent path last away own))
    · obtain ⟨inner, among, split⟩ := List.mem_map.mp inside
      cases path with
      | nil => exact absurd rfl away
      | cons first rest =>
        obtain ⟨rfl, rfl⟩ : name = first ∧ inner = rest ++ [last] := by simpa using split
        cases rest with
        | nil => exact .inr rfl
        | cons second others =>
          have above := child.parent (second :: others) last (by simp) among
          exact .inl (.inr (List.mem_map.mpr ⟨_, above, rfl⟩))
    · cases path with
      | nil => exact absurd rfl away
      | cons first rest => simp at single

theorem around (coherent : Coherent failed logs cases) {path : List String} (away : path ≠ [])
    (rest : List String) (inside : path ++ rest ∈ cases.map (·.path)) :
    path ∈ cases.map (·.path) := by
  induction rest generalizing path with
  | nil => simpa using inside
  | cons name rest ih =>
    have next : path ++ [name] ∈ cases.map (·.path) := ih (by simp) (by simpa using inside)
    exact coherent.parent path name away next

end Coherent

structure Elsewhere (places : List String × List String) (r r' : Recorder) : Prop where
  here : r.path = places.1
  there : r'.path = places.2
  inside : places.1 ≠ [] ∧ places.2 ≠ []
  name : joinNames places.1 = joinNames places.2
  failed : r.failed = r'.failed
  skipped : r.skipped = r'.skipped
  logs : r.logs = r'.logs
  cases : ∃ seen : List Case, r.cases = seen.map (·.under places.1) ∧
    r'.cases = seen.map (·.under places.2) ∧ Coherent r.failed r.logs seen

theorem joinNames_append_singleton {names : List String} (inside : names ≠ []) (name : String) :
    joinNames (names ++ [name]) = joinNames names ++ "/" ++ name := by
  simp [joinNames, String.intercalate_append_of_ne_nil inside]

namespace Elsewhere

variable {places : List String × List String} {r r' c c' : Recorder}

theorem start (inside : places.1 ≠ [] ∧ places.2 ≠ [])
    (name : joinNames places.1 = joinNames places.2) :
    Elsewhere places (.ofPath places.1) (.ofPath places.2) :=
  ⟨rfl, rfl, inside, name, rfl, rfl, rfl, [], rfl, rfl, .start⟩

theorem child (name : String) (like : Elsewhere places r r') :
    Elsewhere (places.1 ++ [name], places.2 ++ [name]) (r.child name) (r'.child name) := by
  have start : Elsewhere (places.1 ++ [name], places.2 ++ [name])
      (.ofPath (places.1 ++ [name])) (.ofPath (places.2 ++ [name])) :=
    start (by simp) (by simp only [joinNames_append_singleton like.inside.1,
      joinNames_append_singleton like.inside.2, like.name])
  rwa [Recorder.child, Recorder.child, like.here, like.there]

theorem merge (name : String) (like : Elsewhere places r r')
    (child : Elsewhere (places.1 ++ [name], places.2 ++ [name]) c c') :
    Elsewhere places (r.merge c name) (r'.merge c' name) := by
  obtain ⟨seen, cases, cases', coherent⟩ := like.cases
  obtain ⟨childSeen, childCases, childCases', childCoherent⟩ := child.cases
  let own : Case := ⟨[name], c.failed, c.skipped⟩
  refine ⟨like.here, like.there, like.inside, like.name, ?_, like.skipped, ?_,
    seen ++ childSeen.map (·.under [name]) ++ [own], ?_, ?_,
    coherent.merge childCoherent name c.skipped⟩
  · simp only [Recorder.merge, like.failed, child.failed]
  · simp only [Recorder.merge, like.logs, child.logs]
  · simp [Recorder.merge, cases, childCases, child.here, own, Case.under, Function.comp_def]
  · simp [Recorder.merge, cases', childCases', child.there, child.failed, child.skipped, own,
      Case.under, Function.comp_def]

end Elsewhere

def apartness : Likeness (List String × List String) where
  like := Elsewhere
  below places name := (places.1 ++ [name], places.2 ++ [name])
  name like := by rw [Recorder.name, Recorder.name, like.here, like.there, like.name]
  failed like := like.failed
  skipped like := like.skipped
  log message like := by
    obtain ⟨seen, cases, cases', coherent⟩ := like.cases
    exact { like with
      logs := by simp only [Recorder.log, like.logs]
      cases := ⟨seen, cases, cases', coherent.log message⟩ }
  fail like := by
    obtain ⟨seen, cases, cases', coherent⟩ := like.cases
    exact { like with
      failed := rfl
      cases := ⟨seen, cases, cases', coherent.fail⟩ }
  skip like := { like with skipped := rfl }
  child name like := like.child name
  merge name like child := like.merge name child

theorem Recorder.report_cases {r : Recorder} {seen : List Case}
    (cases : r.cases = seen.map (·.under r.path)) : r.report.cases = seen := by
  simp [report, cases, Case.under, Function.comp_def]

/-- What a flow reports on a recorder of its own fits together. -/
theorem coherent_report {ν : Type} {flow : Flow ν .flow Unit} (respects : apartness.Respects flow)
    (start : State ν .flow) {path : List String} (inside : path ≠ [])
    (fresh : start.recorder = .ofPath path) :
    Coherent (Flow.settle (flow.run start)).recorder.report.failed
      (Flow.settle (flow.run start)).recorder.report.logs
      (Flow.settle (flow.run start)).recorder.report.cases := by
  have same : apartness.Same (path, path) start start :=
    ⟨rfl, rfl, fresh ▸ .start ⟨inside, inside⟩ rfl⟩
  have ended := (respects _ _ _ same).settle.recorder
  obtain ⟨seen, cases, -, coherent⟩ := ended.cases
  rw [Recorder.report_cases (ended.here ▸ cases)]
  exact coherent

end NestedSpec
