import Mathlib.Algebra.BigOperators.Group.List.Basic
import NestedSpec.Proofs.Likeness
import NestedSpec.Runner

/-!
# What playing back a report records

Playing a report back does nothing but report: it leaves the world as it is, and what it does to the
recorder is read off the report. Each flow of the report is played back as one scope: its own lines,
and then the scopes inside it, one for every case there. The scopes are played back in pre-order.
-/

namespace NestedSpec

variable {ν α : Type} {t : Target}

namespace Flow

def Reports (flow : Flow ν .flow Unit) (update : Recorder → Recorder) : Prop :=
  ∀ s, flow.run s = ⟨.ok (), { s with recorder := update s.recorder }, [], []⟩

def SettlesAs (flow : Flow ν .flow Unit) (update : Recorder → Recorder) : Prop :=
  ∀ s, settle (flow.run s) = { s with recorder := update s.recorder }

theorem reports_pure : (pure () : Flow ν .flow Unit).Reports id :=
  fun _ => rfl

theorem Reports.bind {first second : Flow ν .flow Unit} {update updateLater : Recorder → Recorder}
    (reports : first.Reports update) (later : second.Reports updateLater) :
    (first >>= fun _ => second).Reports fun r => updateLater (update r) := by
  intro s
  rw [run_bind_ok _ (reports s), later]
  rfl

theorem Reports.settles_bind {first second : Flow ν .flow Unit}
    {update updateLater : Recorder → Recorder} (reports : first.Reports update)
    (later : second.SettlesAs updateLater) :
    (first >>= fun _ => second).SettlesAs fun r => updateLater (update r) := by
  intro s
  rw [run_bind_ok _ (reports s)]
  simp only [List.append_nil]
  exact later _

theorem reports_forM (items : List α) {part : α → Flow ν .flow Unit}
    {update : Recorder → α → Recorder}
    (each : ∀ item ∈ items, (part item).Reports (update · item)) :
    (items.forM part).Reports fun r => items.foldl update r := by
  induction items with
  | nil => exact reports_pure
  | cons item rest ih =>
    exact (each item (List.mem_cons_self ..)).bind
      (ih fun other member => each other (List.mem_cons_of_mem _ member))

theorem SettlesAs.runChild {body : Flow ν .flow Unit} {update : Recorder → Recorder}
    (settles : body.SettlesAs update) (name : String) :
    (do let _ ← Flow.runChild name body : Flow ν .flow Unit).Reports
      fun r => r.merge (update (r.child name)) name := by
  intro s
  rw [run_bind_ok _ (Likeness.run_runChild name body s), settles]
  rfl

end Flow

def Recorder.withMarks (r : Recorder) (failed skipped : Bool) : Recorder :=
  { r with failed := r.failed || failed, skipped := r.skipped || skipped }

namespace RunReport

theorem settles_replayMarks (failed skipped : Bool) :
    (replayMarks failed skipped : Flow ν .flow Unit).SettlesAs (·.withMarks failed skipped) := by
  intro s
  have mark : (Flow.changeRecorder fun r => if failed then r.fail else r : Flow ν .flow Unit).run s
      = ⟨.ok (), { s with recorder := if failed then s.recorder.fail else s.recorder }, [], []⟩ :=
    rfl
  unfold replayMarks
  rw [Flow.run_bind_ok _ mark]
  cases failed <;> cases skipped <;>
    simp [Flow.settle, Flow.runCleanups, Flow.absorb, Flow.skipNow, Flow.raise, Flow.changeRecorder,
      Flow.change, Recorder.withMarks, Recorder.absorb, Recorder.fail, Recorder.skip,
      Outcome.ofExcept, Outcome.ofStop, bind, Flow.andThen]

def linesOf (report : RunReport) (scope : List String) : List LogLine :=
  report.logs.filter (·.origin = scope)

def casesIn (report : RunReport) (scope : List String) : List Case :=
  report.cases.filter fun c => c.path.length = scope.length + 1 && scope.isPrefixOf c.path

theorem directlyInside_iff {scope path : List String} :
    (path.length = scope.length + 1 && scope.isPrefixOf path) = true ↔
      ∃ name, path = scope ++ [name] := by
  simp only [Bool.and_eq_true, decide_eq_true_eq, List.isPrefixOf_iff_prefix]
  refine ⟨fun ⟨length, rest, split⟩ => ?_, fun ⟨name, split⟩ => ?_⟩
  · rw [← split, List.length_append, Nat.add_left_cancel_iff, List.length_eq_one_iff] at length
    obtain ⟨name, rfl⟩ := length
    exact ⟨name, split.symm⟩
  · rw [split]
    exact ⟨by simp, List.prefix_append _ _⟩

theorem mem_casesIn {report : RunReport} {scope : List String} {c : Case} :
    c ∈ report.casesIn scope ↔ c ∈ report.cases ∧ ∃ name, c.path = scope ++ [name] := by
  simp only [casesIn, List.mem_filter, directlyInside_iff]

def playOwnLines (report : RunReport) (scope : List String) (r : Recorder) : Recorder :=
  (report.linesOf scope).foldl (fun r line => r.log line.message) r

def playChild (play : List String → Recorder → Recorder) (r : Recorder) (c : Case) : Recorder :=
  match c.path.getLast? with
  | none => r
  | some name => r.merge ((play c.path (r.child name)).withMarks c.failed c.skipped) name

def playScope (report : RunReport) : Nat → List String → Recorder → Recorder
  | 0, scope, r => report.playOwnLines scope r
  | levels + 1, scope, r =>
    (report.casesIn scope).foldl (playChild (report.playScope levels)) (report.playOwnLines scope r)

theorem reports_ownLines (report : RunReport) (scope : List String) :
    ((report.linesOf scope).forM fun line => Flow.log line.message : Flow ν .flow Unit).Reports
      (report.playOwnLines scope) :=
  Flow.reports_forM _ fun _ _ _ => rfl

theorem reports_replayScope (report : RunReport) (levels : Nat) (scope : List String) :
    (report.replayScope levels scope : Flow ν .flow Unit).Reports
      (report.playScope levels scope) := by
  induction levels generalizing scope with
  | zero => exact (report.reports_ownLines scope).bind Flow.reports_pure
  | succ levels ih =>
    have child : ∀ c, (match c.path.getLast? with
        | none => pure ()
        | some name => do
          let _ ← Flow.runChild name do
            report.replayScope levels c.path
            replayMarks c.failed c.skipped : Flow ν .flow Unit).Reports
          (playChild (report.playScope levels) · c) := by
      intro c
      unfold playChild
      cases c.path.getLast? with
      | none => exact Flow.reports_pure
      | some name =>
        exact ((ih c.path).settles_bind (settles_replayMarks c.failed c.skipped)).runChild name
    have children := Flow.reports_forM (report.casesIn scope) fun c _ => child c
    exact (report.reports_ownLines scope).bind children

theorem settles_replay (report : RunReport) : (report.replay : Flow ν .flow Unit).SettlesAs
    fun r => (report.playScope (Case.depth report.cases) [] r).withMarks
      report.failed report.skipped :=
  (report.reports_replayScope (Case.depth report.cases) []).settles_bind
    (settles_replayMarks report.failed report.skipped)

/-! ## Lines -/

def scopes (report : RunReport) : Nat → List String → List (List String)
  | 0, scope => [scope]
  | levels + 1, scope =>
    scope :: (report.casesIn scope).flatMap fun c => report.scopes levels c.path

def playedLines (report : RunReport) (levels : Nat) (scope : List String) : List LogLine :=
  (report.scopes levels scope).flatMap fun inner =>
    (report.linesOf inner).map fun line => ⟨inner.drop scope.length, line.message⟩

theorem prefix_of_mem_scopes {report : RunReport} {levels : Nat} {scope inner : List String}
    (member : inner ∈ report.scopes levels scope) : scope <+: inner := by
  induction levels generalizing scope with
  | zero => exact List.mem_singleton.mp member ▸ List.prefix_refl _
  | succ levels ih =>
    rcases List.mem_cons.mp member with rfl | inside
    · exact List.prefix_refl _
    · obtain ⟨c, among, member⟩ := List.mem_flatMap.mp inside
      obtain ⟨-, name, path⟩ := mem_casesIn.mp among
      exact (path ▸ List.prefix_append _ _).trans (ih member)

theorem logs_foldl {items : List α} {update : Recorder → α → Recorder} (added : α → List LogLine)
    (each : ∀ item ∈ items, ∀ r, (update r item).logs = r.logs ++ added item) (r : Recorder) :
    (items.foldl update r).logs = r.logs ++ items.flatMap added := by
  induction items generalizing r with
  | nil => simp
  | cons item rest ih =>
    rw [List.foldl_cons, ih fun other member => each other (List.mem_cons_of_mem _ member),
      each item (List.mem_cons_self ..), List.flatMap_cons, List.append_assoc]

theorem logs_playOwnLines (report : RunReport) (scope : List String) (r : Recorder) :
    (report.playOwnLines scope r).logs =
      r.logs ++ (report.linesOf scope).map fun line => ⟨[], line.message⟩ := by
  rw [playOwnLines, logs_foldl (fun line : LogLine => [⟨[], line.message⟩]) fun _ _ _ => rfl,
    List.map_eq_flatMap]

theorem playedLines_under (report : RunReport) (levels : Nat) (scope : List String)
    (name : String) : (report.playedLines levels (scope ++ [name])).map
        (fun line => { line with origin := name :: line.origin }) =
      (report.scopes levels (scope ++ [name])).flatMap fun inner =>
        (report.linesOf inner).map fun line => ⟨inner.drop scope.length, line.message⟩ := by
  rw [playedLines, List.map_flatMap]
  refine List.flatMap_congr fun inner member => ?_
  obtain ⟨rest, rfl⟩ := prefix_of_mem_scopes member
  simp

theorem logs_playScope (report : RunReport) (levels : Nat) (scope : List String) (r : Recorder) :
    (report.playScope levels scope r).logs = r.logs ++ report.playedLines levels scope := by
  induction levels generalizing scope r with
  | zero => simp [playScope, logs_playOwnLines, playedLines, scopes]
  | succ levels ih =>
    rw [playScope, logs_foldl fun c => (report.scopes levels c.path).flatMap fun inner =>
      (report.linesOf inner).map fun line => ⟨inner.drop scope.length, line.message⟩,
      logs_playOwnLines]
    · simp [playedLines, scopes, List.flatMap_assoc]
    · intro c member r
      obtain ⟨-, name, path⟩ := mem_casesIn.mp member
      have lines := ih (scope ++ [name]) (r.child name)
      simp only [playChild, path, List.getLast?_concat, Recorder.merge, Recorder.withMarks, lines,
        ← playedLines_under]
      rfl

/-- The lines that playing back a report adds: those of each flow together. -/
theorem logs_replay (report : RunReport) (s : State ν .flow) :
    (Flow.settle (report.replay.run s)).recorder.logs = s.recorder.logs ++
      (report.scopes (Case.depth report.cases) []).flatMap report.linesOf := by
  rw [report.settles_replay s]
  simp only [Recorder.withMarks, logs_playScope, playedLines, List.length_nil, List.drop_zero]
  refine congrArg (s.recorder.logs ++ ·) (List.flatMap_congr fun scope _ => ?_)
  refine (List.map_congr_left fun line member => ?_).trans (List.map_id _)
  have origin : line.origin = scope := by simpa [linesOf] using (List.mem_filter.mp member).2
  simp [← origin]

/-! ## Failures -/

theorem failed_playOwnLines (report : RunReport) (scope : List String) (r : Recorder) :
    (report.playOwnLines scope r).failed = r.failed := by
  unfold playOwnLines
  induction report.linesOf scope generalizing r with
  | nil => rfl
  | cons line rest ih => exact ih (r.log line.message)

theorem failed_foldl_playChild {play : List String → Recorder → Recorder}
    (keeps : ∀ scope r, (play scope r).failed = r.failed) {cases : List Case}
    (spared : ∀ c ∈ cases, c.failed = false) (r : Recorder) :
    (cases.foldl (playChild play) r).failed = r.failed := by
  induction cases generalizing r with
  | nil => rfl
  | cons c rest ih =>
    rw [List.foldl_cons, ih fun other member => spared other (List.mem_cons_of_mem _ member)]
    unfold playChild
    split
    · rfl
    · simp [Recorder.merge, Recorder.withMarks, keeps, spared c, Recorder.child, Recorder.ofPath]

theorem failed_playScope {report : RunReport} (spared : ∀ c ∈ report.cases, c.failed = false)
    (levels : Nat) (scope : List String) (r : Recorder) :
    (report.playScope levels scope r).failed = r.failed := by
  induction levels generalizing scope r with
  | zero => exact report.failed_playOwnLines scope r
  | succ levels ih =>
    have inner : ∀ c ∈ report.casesIn scope, c.failed = false :=
      fun c member => spared c (mem_casesIn.mp member).1
    rw [playScope, failed_foldl_playChild ih inner, failed_playOwnLines]

/-- Playing back a report marks the flow as the flow of the report was marked, if every failed case
of the report made that flow fail. -/
theorem failed_replay {report : RunReport}
    (failure : ∀ c ∈ report.cases, c.failed = true → report.failed = true) (s : State ν .flow) :
    (Flow.settle (report.replay.run s)).recorder.failed = (s.recorder.failed || report.failed) := by
  rw [report.settles_replay s]
  cases failed : report.failed with
  | true => simp [Recorder.withMarks]
  | false =>
    have spared : ∀ c ∈ report.cases, c.failed = false := by
      intro c member
      by_contra failing
      simp [failure c member (by simpa using failing)] at failed
    simp [Recorder.withMarks, failed_playScope spared]

end RunReport
end NestedSpec
