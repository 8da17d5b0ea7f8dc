import NestedSpec.Proofs.Outlines
import NestedSpec.Proofs.Sessions

/-!
# Every failure has a line

A report shows every failed case of which no sub-case failed. The line of such a case has a mark if
nothing is recorded below the case. A case that failed after its sub-runs have passed stands above
them, and its line has none.
-/

namespace NestedSpec

variable {ν : Type}

/-! ## Cases are recorded below their flow -/

namespace Deed

mutual
theorem extends_record (r : Recorder) : (deed : Deed ν) → r.Extends (record r deed)
  | called (.log message) => .log r message
  | called .fail => .fail r
  | called .skip => .skip r
  | called (.note _) => .refl r
  | ended .completed => .refl r
  | ended (.exited .fail) => .fail r
  | ended (.exited .skip) => .skip r
  | ended (.panicked _) => (Recorder.Extends.log r _).trans (.fail _)
  | ran name deeds => .merge r (extends_recordAll (r.child name) deeds)
  | owns _ | outside | madeDirectory | apart _ => .refl r

theorem extends_recordAll (r : Recorder) : (deeds : List (Deed ν)) → r.Extends (recordAll r deeds)
  | [] => .refl r
  | first :: rest => (extends_record r first).trans (extends_recordAll (record r first) rest)
end

end Deed

/-- Whatever is done with a host, its recorder has only grown. -/
theorem Host.extends_uses (world : World ν) (recorder : Recorder) (uses : List (Host.Use ν)) :
    recorder.Extends (uses.foldl Host.use (.ofRecorder world recorder)).state.recorder := by
  obtain ⟨deeds, s, left, acts, -⟩ := Host.exists_acts uses ⟨world, recorder, ()⟩ cleanupsReady_nil
  obtain ⟨ended, shown⟩ := acts.tells
  have same : uses.foldl Host.use (.ofRecorder world recorder) = Host.waiting s left := ended
  rw [same, Host.waiting, shown.recorder]
  exact Deed.extends_recordAll recorder deeds

/-- So has the recorder of a spec that has been run as a flow of its own. -/
theorem Registration.extends_perform (body : Registration ν) (mode : RunMode) (config : Config)
    (s : State ν .flow) :
    s.recorder.Extends (Flow.settle ((body.perform mode config).run s)).recorder := by
  have composed : Composed (Deeper.within callDepth) true (body.perform mode config) :=
    .declareAndRun mode config body
  exact Flow.settle_grows (composed.respects (Likeness.respects_deeper callDepth)) s

theorem Recorder.Extends.path_ne_nil {path : List String} {r : Recorder}
    (grown : (Recorder.ofPath path).Extends r) : ∀ c ∈ r.cases, c.path ≠ [] := by
  obtain ⟨newer, cases, below⟩ := grown.cases
  intro c member
  rw [cases] at member
  obtain ⟨name, rest, split⟩ := below c member
  simp [split]

/-! ## Lines of a text -/

def HasLine (text line : String) : Prop :=
  ∃ before after, text = before ++ line ++ "\n" ++ after ∧
    (before = "" ∨ ∃ earlier, before = earlier ++ "\n")

theorem hasLine_join {α : Type} {items : List α} {line : α → String} {item : α}
    (member : item ∈ items) :
    HasLine (String.join (items.map fun item => line item ++ "\n")) (line item) := by
  obtain ⟨before, after, rfl⟩ := List.append_of_mem member
  refine ⟨String.join (before.map fun item => line item ++ "\n"),
    String.join (after.map fun item => line item ++ "\n"), ?_, ?_⟩
  · rw [List.map_append, List.map_cons, String.join_append, String.join_cons]
    simp only [String.append_assoc]
  · rcases List.eq_nil_or_concat before with rfl | ⟨earlier, last, rfl⟩
    · exact .inl rfl
    · refine .inr ⟨String.join (earlier.map fun item => line item ++ "\n") ++ line last, ?_⟩
      simp [String.join_append, String.append_assoc]

namespace Case

/-! ## Failed cases -/

structure FailsHere (cases : List Case) (c : Case) : Prop where
  member : c ∈ cases
  failed : c.failed = true
  passing : ∀ inner ∈ cases, StrictlyBelow c.path inner.path → inner.failed = false

/-- The line of a failed case; only a case with nothing below it is marked. -/
def failureLine (style : ReportStyle) (cases : List Case) (c : Case) : String :=
  let name := c.path.getLast?.getD ""
  String.ofList (List.replicate (2 * (c.path.length - 1)) ' ') ++
    if ∃ inner ∈ cases, StrictlyBelow c.path inner.path then name
    else style.paint .red (name ++ " [FAIL]")

theorem line_of_failed (style : ReportStyle) {cases : List Case} {c : Case} (member : c ∈ cases)
    (failed : c.failed = true) : style.line cases c.path = failureLine style cases c := by
  have marked : ∃ other ∈ cases, other.path = c.path ∧ other.failed = true :=
    ⟨c, member, rfl, failed⟩
  simp only [ReportStyle.line, failureLine, marked, decide_true]
  rfl

/-- Below a failed case, or at it, is one of which no sub-case failed. -/
theorem exists_failsHere {cases : List Case} {c : Case} (member : c ∈ cases)
    (failed : c.failed = true) : ∃ innermost, FailsHere cases innermost ∧ c.path <+: innermost.path := by
  -- Cases further down have longer paths, and no path is longer than the depth of all cases.
  induction room : depth cases - c.path.length using Nat.strongRecOn generalizing c with
  | ind _ ih =>
    by_cases passing : ∀ inner ∈ cases, StrictlyBelow c.path inner.path → inner.failed = false
    · exact ⟨c, ⟨member, failed, passing⟩, List.prefix_refl _⟩
    · simp only [not_forall, Bool.not_eq_false] at passing
      obtain ⟨inner, among, below, failedToo⟩ := passing
      obtain ⟨begins, longer⟩ := strictlyBelow_iff.mp below
      have bound := length_le_depth among
      obtain ⟨innermost, fails, reached⟩ := ih _ (by omega) among failedToo rfl
      exact ⟨innermost, fails, begins.trans reached⟩

end Case

namespace ReportStyle

structure ShowsFailures (style : ReportStyle) (cases : List Case) : Prop where
  shown : ∀ c, Case.FailsHere cases c →
    HasLine (style.format cases) (Case.failureLine style cases c)
  reached : ∀ c ∈ cases, c.failed = true →
    ∃ innermost, Case.FailsHere cases innermost ∧ c.path <+: innermost.path

theorem showsFailures (style : ReportStyle) {cases : List Case}
    (named : ∀ c ∈ cases, c.path ≠ []) : style.ShowsFailures cases where
  shown := by
    intro c fails
    have listed : c.path ∈ Case.outline style.verbose cases (Case.depth cases) [] :=
      ((Case.outlines_outline style.verbose cases).mem_iff c.path).mpr
        ⟨named c fails.member, c, fails.member, List.prefix_refl _, .inr fails.failed⟩
    rw [format_eq_join, ← Case.line_of_failed style fails.member fails.failed]
    exact hasLine_join listed
  reached := fun _ => Case.exists_failsHere

end ReportStyle

/-- The report of what was done with a host, or of a spec that was run, has a line for every failure:
for every failed case there is one at or below it of which no sub-case failed, and whose line is in
the report, with a mark if nothing is below it. -/
theorem failures_have_lines (style : ReportStyle) (path : List String) (world : World ν) :
    (∀ uses : List (Host.Use ν), style.ShowsFailures
      (uses.foldl Host.use (.ofRecorder world (.ofPath path))).state.recorder.cases) ∧
    ∀ (body : Registration ν) (mode : RunMode) (config : Config), style.ShowsFailures
      (Flow.settle ((body.perform mode config).run ⟨world, .ofPath path, ()⟩)).recorder.cases := by
  constructor
  · intro uses
    exact style.showsFailures (Host.extends_uses world (.ofPath path) uses).path_ne_nil
  · intro body mode config
    have grown := body.extends_perform mode config ⟨world, .ofPath path, ()⟩
    exact style.showsFailures grown.path_ne_nil

def failsAfterPassing : Script Unit .flow :=
  .run "x" (.run "y" .done fun _ => .fail .done) fun _ => .done

/-- A case that fails after its sub-runs have passed is a failure that no mark in the report tells
of, although no sub-case of it failed. -/
theorem failure_above_passing_is_unmarked :
    let cases := ([.perform failsAfterPassing].foldl Host.use
      (.ofRecorder {} (.new "r"))).state.recorder.cases
    Case.FailsHere cases ⟨["r", "x"], true, false⟩ ∧
      ∀ verbose, '[' ∉ (ReportStyle.format ⟨verbose, false⟩ cases).toList ∧
        ¬ HasLine (ReportStyle.format ⟨verbose, false⟩ cases) "  x [FAIL]" := by
  intro cases
  have recorded : cases = [⟨["r", "x", "y"], false, false⟩, ⟨["r", "x"], true, false⟩] := by
    decide +kernel
  have unmarked (verbose : Bool) :
      '[' ∉ (ReportStyle.format ⟨verbose, false⟩ cases).toList := by
    rw [recorded]
    cases verbose <;> decide +kernel
  refine ⟨?_, fun verbose => ⟨unmarked verbose, ?_⟩⟩
  · rw [recorded]
    exact ⟨by simp, rfl, by decide⟩
  · rintro ⟨before, after, split, -⟩
    exact unmarked verbose (by rw [split]; simp)

end NestedSpec
