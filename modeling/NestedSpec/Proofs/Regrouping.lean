import Mathlib.Data.List.Infix
import NestedSpec.Proofs.Apart
import NestedSpec.Proofs.Playback
import NestedSpec.Proofs.Visits

/-!
# Playing back regroups lines

A leaf that runs apart reports the lines that it would have logged in its place. When its report is
played back, the lines of one flow come together: those of the leaf first, then those of its
sub-runs, one sub-run after another. No line is lost, and none comes twice unless sub-runs share
a name.
-/

namespace NestedSpec

variable {ν α β : Type}

theorem count_flatMap_eq [BEq β] [LawfulBEq β] {items : List α} {parts : α → List β}
    (picked : α → Bool) {b : β} {times : Nat}
    (others : ∀ a ∈ items, picked a = false → b ∉ parts a)
    (each : ∀ a ∈ items, picked a = true → (parts a).count b = times) :
    (items.flatMap parts).count b = items.countP picked * times := by
  induction items with
  | nil => simp
  | cons a rest ih =>
    have later := ih (fun other member => others other (List.mem_cons_of_mem _ member))
      fun other member => each other (List.mem_cons_of_mem _ member)
    rw [List.flatMap_cons, List.count_append, later]
    cases here : picked a with
    | true =>
      rw [each a (List.mem_cons_self ..) here, List.countP_cons_of_pos here, Nat.succ_mul,
        Nat.add_comm]
    | false =>
      rw [List.count_eq_zero_of_not_mem (others a (List.mem_cons_self ..) here),
        List.countP_cons_of_neg (by simp [here]), Nat.zero_add]

theorem flatMap_ite_eq [DecidableEq α] [BEq α] [LawfulBEq α] (items : List α) (b : α)
    (part : List β) :
    (items.flatMap fun a => if a = b then part else []) =
      (List.replicate (items.count b) part).flatten := by
  induction items with
  | nil => rfl
  | cons a rest ih =>
    by_cases same : a = b
    · simp [same, ih, List.replicate_succ]
    · simp [same, ih, List.count_cons_of_ne same]

namespace RunReport

variable {report : RunReport}

theorem scope_not_mem_children {levels : Nat} (scope : List String) :
    scope ∉ (report.casesIn scope).flatMap fun c => report.scopes levels c.path := by
  intro member
  obtain ⟨c, among, within⟩ := List.mem_flatMap.mp member
  obtain ⟨-, name, path⟩ := mem_casesIn.mp among
  have shorter := (prefix_of_mem_scopes within).length_le
  rw [path, List.length_append, List.length_singleton] at shorter
  omega

theorem countP_casesIn (scope : List String) (name : String) :
    (report.casesIn scope).countP (fun c => c.path = scope ++ [name]) =
      (report.cases.map (·.path)).count (scope ++ [name]) := by
  rw [List.count, List.countP_map, casesIn, List.countP_filter]
  refine List.countP_congr fun c _ => ?_
  simp only [decide_eq_true_eq, Bool.and_eq_true, List.isPrefixOf_iff_prefix,
    Function.comp_apply, beq_iff_eq]
  exact ⟨fun both => both.1, fun path => ⟨path, by simp [path]⟩⟩

/-- A scope is played back inside those cases only that are on the way to it. -/
theorem count_children {levels : Nat} (scope : List String) (name : String) (rest : List String) :
    ((report.casesIn scope).flatMap fun c => report.scopes levels c.path).count
        (scope ++ name :: rest) =
      (report.casesIn scope).countP (fun c => c.path = scope ++ [name]) *
        (report.scopes levels (scope ++ [name])).count (scope ++ name :: rest) := by
  refine count_flatMap_eq _ ?_ ?_
  · intro c among other within
    obtain ⟨-, first, path⟩ := mem_casesIn.mp among
    have pre := prefix_of_mem_scopes within
    rw [path, List.prefix_append_right_inj, List.cons_prefix_cons] at pre
    simp [path, pre.1] at other
  · intro c _ same
    rw [of_decide_eq_true same]

/-- A scope is played back once if each sub-run around it, and it itself, has one case. -/
theorem count_scopes {levels : Nat} {scope inner : List String} (inside : scope <+: inner)
    (deep : inner.length ≤ scope.length + levels)
    (once : ∀ path, path <+: inner → scope.length < path.length →
      (report.cases.map (·.path)).count path = 1) :
    (report.scopes levels scope).count inner = 1 := by
  induction levels generalizing scope with
  | zero =>
    have same : scope = inner := inside.sublist.eq_of_length_le (by simpa using deep)
    simp [scopes, same]
  | succ levels ih =>
    obtain ⟨rest, rfl⟩ := inside
    cases rest with
    | nil =>
      have away : scope ∉ (report.casesIn scope).flatMap fun c => report.scopes levels c.path :=
        scope_not_mem_children scope
      simp [scopes, List.count_eq_zero_of_not_mem away]
    | cons name rest =>
      have whole : scope ++ name :: rest = (scope ++ [name]) ++ rest := by simp
      have below : (report.scopes levels (scope ++ [name])).count (scope ++ name :: rest) = 1 := by
        refine ih (whole ▸ List.prefix_append _ _) ?_ fun path pre longer => once path pre ?_
        · simp only [List.length_append, List.length_cons, List.length_nil] at deep ⊢
          omega
        · simp only [List.length_append, List.length_cons, List.length_nil] at longer
          omega
      have only : (report.casesIn scope).countP (fun c => c.path = scope ++ [name]) = 1 := by
        rw [countP_casesIn]
        exact once (scope ++ [name]) (whole ▸ List.prefix_append _ _) (by simp)
      rw [scopes, List.count_cons_of_ne (by simp), count_children, only, below]

/-- Whenever a sub-run logs, neither it nor a sub-run around it shares its name with another
sub-run of the same flow. -/
def NamedApart (report : RunReport) : Prop :=
  ∀ line ∈ report.logs, ∀ path ∈ line.origin.inits, path ≠ [] →
    (report.cases.map (·.path)).count path ≤ 1

instance (report : RunReport) : Decidable report.NamedApart :=
  inferInstanceAs (Decidable (∀ line ∈ report.logs, ∀ path ∈ line.origin.inits, path ≠ [] →
    (report.cases.map (·.path)).count path ≤ 1))

def order (report : RunReport) : List (List String) :=
  report.scopes (Case.depth report.cases) []

structure Regrouped (report : RunReport) (lines : List LogLine) : Prop where
  grouped : lines = report.order.flatMap report.linesOf
  once : lines.Perm report.logs
  inOrder : ∀ scope, lines.filter (·.origin = scope) = report.linesOf scope

theorem count_order {failed : Bool} (coherent : Coherent failed report.logs report.cases)
    (named : report.NamedApart) {line : LogLine} (member : line ∈ report.logs) :
    report.order.count line.origin = 1 := by
  refine count_scopes List.nil_prefix ?_ fun path pre away => ?_
  · rw [List.length_nil, Nat.zero_add]
    by_cases own : line.origin = []
    · simp [own]
    · obtain ⟨c, among, path⟩ := List.mem_map.mp (coherent.origin line member own)
      rw [← path]
      exact Case.length_le_depth among
  · have inside : path ≠ [] := List.ne_nil_of_length_pos away
    obtain ⟨rest, split⟩ := pre
    have own : line.origin ≠ [] := by
      rw [← split]
      simp [inside]
    have known := coherent.around inside rest (split ▸ coherent.origin line member own)
    exact Nat.le_antisymm (named line member path ((List.mem_inits ..).mpr ⟨rest, split⟩) inside)
      (List.count_pos_iff.mpr known)

theorem order_perm_logs {failed : Bool} (coherent : Coherent failed report.logs report.cases)
    (named : report.NamedApart) : (report.order.flatMap report.linesOf).Perm report.logs := by
  refine List.perm_iff_count.mpr fun line => ?_
  by_cases member : line ∈ report.logs
  · have single : report.order.countP (· == line.origin) = 1 :=
      report.count_order coherent named member
    have lines : (report.order.flatMap report.linesOf).count line =
        report.order.countP (· == line.origin) * report.logs.count line := by
      refine count_flatMap_eq _ ?_ ?_
      · intro scope _ other within
        have origin := (List.mem_filter.mp within).2
        simp_all
      · intro scope _ same
        rw [linesOf, List.count_filter (by simp_all)]
    rw [lines, single, Nat.one_mul]
  · rw [List.count_eq_zero_of_not_mem member, List.count_eq_zero]
    intro within
    obtain ⟨scope, -, among⟩ := List.mem_flatMap.mp within
    exact member (List.mem_filter.mp among).1

theorem filter_linesOf (scope inner : List String) :
    (report.linesOf inner).filter (·.origin = scope) =
      if inner = scope then report.linesOf scope else [] := by
  split
  · rename_i same
    rw [same, List.filter_eq_self]
    exact fun line within => (List.mem_filter.mp within).2
  · rename_i other
    rw [List.filter_eq_nil_iff]
    intro line within
    have origin := (List.mem_filter.mp within).2
    simp_all

theorem filter_order {failed : Bool} (coherent : Coherent failed report.logs report.cases)
    (named : report.NamedApart) (scope : List String) :
    (report.order.flatMap report.linesOf).filter (·.origin = scope) = report.linesOf scope := by
  rw [List.filter_flatMap, List.flatMap_congr fun inner _ => filter_linesOf scope inner,
    flatMap_ite_eq]
  -- A scope without lines may be played back any number of times.
  rcases lines : report.linesOf scope with _ | ⟨line, rest⟩
  · simp
  · have within : line ∈ report.linesOf scope := lines ▸ List.mem_cons_self ..
    obtain ⟨member, origin⟩ := List.mem_filter.mp within
    rw [← of_decide_eq_true origin, report.count_order coherent named member]
    simp

theorem regrouped {failed : Bool} (coherent : Coherent failed report.logs report.cases)
    (named : report.NamedApart) : report.Regrouped (report.order.flatMap report.linesOf) :=
  ⟨rfl, order_perm_logs coherent named, filter_order coherent named⟩

end RunReport

def LogLine.under (name : String) (line : LogLine) : LogLine :=
  { line with origin := name :: line.origin }

namespace Runner

def reportBeside (runner : Runner ν) (chain : Chain ν) (leaf : Leaf ν) (s : State ν .flow) :
    RunReport :=
  runner.reportApart chain leaf ⟨s.world, .detached s.recorder.name leaf.description, ()⟩

def ranInPlace (runner : Runner ν) (chain : Chain ν) (leaf : Leaf ν) (s : State ν .flow) :
    Recorder :=
  ((Flow.runChild leaf.description (runner.runLeaf chain leaf)).run s).state.recorder

def playedInPlace (runner : Runner ν) (chain : Chain ν) (leaf : Leaf ν) (s : State ν .flow) :
    Recorder :=
  ((Flow.runChild leaf.description (runner.reportBeside chain leaf s).replay).run s).state.recorder

/-- A leaf that runs apart does and reports what it would have done and reported in its place. -/
theorem same_endedLeaf {runner : Runner ν} (below : apartness.RespectsDeeper runner.deeper)
    (chain : Chain ν) (leaf : Leaf ν) {s : State ν .flow} (rooted : s.recorder.path ≠ []) :
    apartness.Same (s.recorder.path ++ [leaf.description], [s.recorder.name, leaf.description])
      (runner.endedLeaf chain leaf ⟨s.world, s.recorder.child leaf.description, ()⟩)
      (runner.endedLeaf chain leaf ⟨s.world, .detached s.recorder.name leaf.description, ()⟩) := by
  have name : joinNames (s.recorder.path ++ [leaf.description]) =
      joinNames [s.recorder.name, leaf.description] := by
    have other := joinNames_append_singleton (List.cons_ne_nil s.recorder.name [])
      leaf.description
    rw [joinNames_append_singleton rooted]
    exact other.symm
  have start : apartness.Same
      (s.recorder.path ++ [leaf.description], [s.recorder.name, leaf.description])
      (⟨s.world, s.recorder.child leaf.description, ()⟩ : State ν .flow)
      ⟨s.world, .detached s.recorder.name leaf.description, ()⟩ :=
    ⟨rfl, rfl, .start (by simp) name⟩
  exact (Likeness.respects_runLeaf below chain leaf _ _ _ start).settle

/-- Playing back what a leaf has reported apart regroups its lines by the flows they come from. -/
theorem replay_regroups (config : Config) (mode : RunMode) (levels : Nat) (chain : Chain ν)
    (leaf : Leaf ν) (s : State ν .flow) (rooted : s.recorder.path ≠ [])
    (named : (reportBeside ⟨config, mode, Deeper.within levels⟩ chain leaf s).NamedApart) :
    ∃ played : List LogLine,
      (ranInPlace ⟨config, mode, Deeper.within levels⟩ chain leaf s).logs = s.recorder.logs ++
        (reportBeside ⟨config, mode, Deeper.within levels⟩ chain leaf s).logs.map
          (.under leaf.description) ∧
      (playedInPlace ⟨config, mode, Deeper.within levels⟩ chain leaf s).logs =
        s.recorder.logs ++ played.map (.under leaf.description) ∧
      (reportBeside ⟨config, mode, Deeper.within levels⟩ chain leaf s).Regrouped played := by
  let runner : Runner ν := ⟨config, mode, Deeper.within levels⟩
  have below : apartness.RespectsDeeper runner.deeper := Likeness.respects_deeper levels
  have same := (same_endedLeaf below chain leaf rooted).recorder
  have coherent := coherent_report (Likeness.respects_runLeaf below chain leaf)
    ⟨s.world, .detached s.recorder.name leaf.description, ()⟩ (List.cons_ne_nil _ _) rfl
  refine ⟨_, ?_, ?_, RunReport.regrouped coherent named⟩
  · exact congrArg (fun lines => s.recorder.logs ++ lines.map (LogLine.under leaf.description))
      same.logs
  · have lines := (runner.reportBeside chain leaf s).logs_replay
      ⟨s.world, s.recorder.child leaf.description, ()⟩
    exact congrArg (fun lines => s.recorder.logs ++ lines.map (LogLine.under leaf.description))
      lines

def apartGroup : Group Unit :=
  { index := 0, description := "spec", place := default, parallel := some true }

def logsLast : Leaf Unit :=
  ⟨"x", default, .run "a" (.log "first" .done) fun _ => .log "second" .done⟩

def twins : Leaf Unit :=
  ⟨"x", default, .run "a" (.log "first" .done) fun _ => .run "a" (.log "second" .done) fun _ => .done⟩

theorem replay_regroups_logsLast :
    (freshHost "spec" : State Unit .flow).recorder.path ≠ [] ∧
    (plainRunner.reportBeside [apartGroup] logsLast (freshHost "spec")).NamedApart ∧
    ∃ played : List LogLine,
      (plainRunner.ranInPlace [apartGroup] logsLast (freshHost "spec")).logs =
        (plainRunner.reportBeside [apartGroup] logsLast (freshHost "spec")).logs.map
          (.under "x") ∧
      (plainRunner.playedInPlace [apartGroup] logsLast (freshHost "spec")).logs =
        played.map (.under "x") ∧
      (plainRunner.reportBeside [apartGroup] logsLast (freshHost "spec")).Regrouped played :=
  ⟨by decide, by decide, replay_regroups (.default 0) .test 1 [apartGroup] logsLast
    (freshHost "spec") (by decide) (by decide)⟩

/-- Playing back may change the order of lines, and it repeats those of sub-runs of one name. -/
theorem replay_moves_and_repeats :
    (plainRunner.playedInPlace [apartGroup] logsLast (freshHost "spec")).logs ≠
      (plainRunner.ranInPlace [apartGroup] logsLast (freshHost "spec")).logs ∧
    ¬ (plainRunner.playedInPlace [apartGroup] twins (freshHost "spec")).logs.Perm
      (plainRunner.ranInPlace [apartGroup] twins (freshHost "spec")).logs := by
  have moved : (plainRunner.playedInPlace [apartGroup] logsLast (freshHost "spec")).logs =
      [⟨["x"], "second"⟩, ⟨["x", "a"], "first"⟩] := rfl
  have kept : (plainRunner.ranInPlace [apartGroup] logsLast (freshHost "spec")).logs =
      [⟨["x", "a"], "first"⟩, ⟨["x"], "second"⟩] := rfl
  have repeated : (plainRunner.playedInPlace [apartGroup] twins (freshHost "spec")).logs =
      [⟨["x", "a"], "first"⟩, ⟨["x", "a"], "second"⟩, ⟨["x", "a"], "first"⟩,
        ⟨["x", "a"], "second"⟩] := rfl
  have once : (plainRunner.ranInPlace [apartGroup] twins (freshHost "spec")).logs =
      [⟨["x", "a"], "first"⟩, ⟨["x", "a"], "second"⟩] := rfl
  refine ⟨?_, fun perm => ?_⟩
  · rw [moved, kept]
    decide
  · rw [repeated, once] at perm
    exact absurd perm.length_eq (by decide)

end Runner
end NestedSpec
