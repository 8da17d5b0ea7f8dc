import NestedSpec.Proofs.Accounting
import NestedSpec.Proofs.Sessions

/-!
# The log is the chronicle of a flow

A recorder takes over the lines of a sub-run when the sub-run has ended, with the names of all the
flows between them. In the end it shows every line that it or one of the sub-runs inside it logged,
in the order in which they were logged, under the name of the flow that logged it.
-/

namespace NestedSpec

variable {ν : Type}

namespace Deed

mutual
/-- The lines that are logged, in the order in which they are logged, each with the recorder of the
flow that logs it, as it is at that moment. A panic is logged when the flow, or a cleanup, ends. -/
def logged (r : Recorder) : Deed ν → List (Recorder × String)
  | called (.log message) => [(r, message)]
  | ended (.panicked payload) => [(r, "panicked: " ++ payload.message)]
  | ran name deeds => loggedAll (r.child name) deeds
  | called _ | ended _ | owns _ | outside | madeDirectory | apart _ => []

def loggedAll (r : Recorder) : List (Deed ν) → List (Recorder × String)
  | [] => []
  | first :: rest => logged r first ++ loggedAll (record r first) rest
end

mutual
theorem prefix_logged (r : Recorder) : (deed : Deed ν) → ∀ line ∈ logged r deed,
    r.path <+: line.1.path
  | called call, line, member => by
    cases call with
    | log message =>
      obtain rfl := List.mem_singleton.mp member
      exact List.prefix_refl _
    | note | fail | skip => exact absurd member List.not_mem_nil
  | ended outcome, line, member => by
    cases outcome with
    | panicked payload =>
      obtain rfl := List.mem_singleton.mp member
      exact List.prefix_refl _
    | completed | exited => exact absurd member List.not_mem_nil
  | ran name deeds, line, member =>
    (List.prefix_append r.path [name]).trans (prefix_loggedAll (r.child name) deeds line member)
  | owns _, _, member | outside, _, member | madeDirectory, _, member | apart _, _, member =>
    absurd member List.not_mem_nil

theorem prefix_loggedAll (r : Recorder) : (deeds : List (Deed ν)) → ∀ line ∈ loggedAll r deeds,
    r.path <+: line.1.path
  | [], _, member => absurd member List.not_mem_nil
  | first :: rest, line, member => by
    rcases List.mem_append.mp member with here | later
    · exact prefix_logged r first line here
    · exact record_path r first ▸ prefix_loggedAll (record r first) rest line later
end

def keptAt (path : List String) (line : Recorder × String) : LogLine :=
  ⟨line.1.path.drop path.length, line.2⟩

theorem keptAt_child {path : List String} {name : String} {line : Recorder × String}
    (below : path ++ [name] <+: line.1.path) :
    ⟨name :: (keptAt (path ++ [name]) line).origin, line.2⟩ = keptAt path line := by
  obtain ⟨rest, same⟩ := below
  simp [keptAt, ← same]

mutual
theorem logs_record (r : Recorder) : (deed : Deed ν) →
    (record r deed).logs = r.logs ++ (logged r deed).map (keptAt r.path)
  | called call => by
    cases call with
    | log message => simp [record, Call.record, Recorder.log, logged, keptAt]
    | note | fail | skip => exact (List.append_nil _).symm
  | ended outcome => by
    rcases outcome with _ | ⟨_ | _⟩ | payload
    · exact (List.append_nil _).symm
    · exact (List.append_nil _).symm
    · exact (List.append_nil _).symm
    · simp [record, Recorder.absorb, Recorder.log, Recorder.fail, logged, keptAt]
  | ran name deeds => by
    have inside : (recordAll (r.child name) deeds).logs =
        (loggedAll (r.child name) deeds).map (keptAt (r.path ++ [name])) :=
      logs_recordAll (r.child name) deeds
    have lines : (loggedAll (r.child name) deeds).map (keptAt r.path) =
        (recordAll (r.child name) deeds).logs.map
          fun line => { line with origin := name :: line.origin } := by
      rw [inside, List.map_map]
      refine List.map_congr_left fun line member => (keptAt_child ?_).symm
      exact prefix_loggedAll (r.child name) deeds line member
    rw [logged, lines]
    rfl
  | owns _ | outside | madeDirectory | apart _ => (List.append_nil _).symm

theorem logs_recordAll (r : Recorder) : (deeds : List (Deed ν)) →
    (recordAll r deeds).logs = r.logs ++ (loggedAll r deeds).map (keptAt r.path)
  | [] => (List.append_nil _).symm
  | first :: rest => by
    rw [recordAll, logs_recordAll (record r first) rest, logs_record r first, record_path,
      List.append_assoc, ← List.map_append]
    rfl
end

end Deed

namespace Recorder

def showLogged (r : Recorder) (line : Recorder × String) : String :=
  if line.1.path = r.path then line.2 else line.1.name ++ ": " ++ line.2

theorem renderLine_keptAt {r : Recorder} (named : r.path ≠ []) {line : Recorder × String}
    (below : r.path <+: line.1.path) :
    r.renderLine (Deed.keptAt r.path line) = r.showLogged line := by
  obtain ⟨origin, same⟩ := below
  have kept : Deed.keptAt r.path line = ⟨origin, line.2⟩ := by simp [Deed.keptAt, ← same]
  rw [kept]
  cases origin with
  | nil =>
    rw [showLogged, if_pos (by simpa using same.symm)]
    rfl
  | cons name names =>
    have name_eq : line.1.name = r.name ++ "/" ++ joinNames (name :: names) := by
      rw [Recorder.name, ← same]
      exact String.intercalate_append_of_ne_nil named (List.cons_ne_nil _ _)
    rw [showLogged, if_neg (by simp [← same]), name_eq]
    rfl

/-- What a flow has logged and what its sub-runs have logged is shown in order. -/
theorem lines_recordAll {r : Recorder} (named : r.path ≠ []) (fresh : r.logs = [])
    (deeds : List (Deed ν)) :
    (Deed.recordAll r deeds).lines = (Deed.loggedAll r deeds).map r.showLogged := by
  have path : (Deed.recordAll r deeds).path = r.path := Deed.recordAll_path r deeds
  have render : (Deed.recordAll r deeds).renderLine = r.renderLine := by
    funext line
    rw [renderLine, renderLine, name, path]
    rfl
  rw [lines, render, Deed.logs_recordAll, fresh, List.nil_append, List.map_map]
  refine List.map_congr_left fun line member => ?_
  exact renderLine_keptAt named (Deed.prefix_loggedAll r deeds line member)

end Recorder

/-- What a flow of its own shows in the end is the chronicle of what it and its cleanups did. -/
theorem Settles.lines {view : View} {flow : Flow ν .flow Unit} {start : State ν .flow}
    {deeds : List (Deed ν)} (settles : Settles view flow start deeds)
    (named : start.recorder.path ≠ []) (fresh : start.recorder.logs = []) :
    (Flow.settle (flow.run start)).recorder.lines =
      (Deed.loggedAll start.recorder deeds).map start.recorder.showLogged := by
  rw [settles.shows.recorder, Recorder.lines_recordAll named fresh]

/-- The log is the chronicle of a flow. Whatever is done with a host, there is a trace of it, and in
every trace the lines of the host are, at that moment, the lines that were logged so far. So are in
the end the lines of a flow of its own, be it that of a script or that of a leaf. -/
theorem log_is_chronicle (levels : Nat) (outermost : String) (inner : List String)
    (world : World ν) :
    let recorder := Recorder.ofPath (outermost :: inner)
    let start : State ν .flow := ⟨world, recorder, ()⟩
    let chronicle := fun deeds => (Deed.loggedAll recorder deeds).map recorder.showLogged
    (∀ uses : List (Host.Use ν),
      let host := uses.foldl Host.use (.ofRecorder world recorder)
      (∃ deeds s left, Host.Acts start [] uses deeds s left) ∧
      ∀ deeds s left, Host.Acts start [] uses deeds s left →
        host.state.recorder.lines = chronicle deeds) ∧
    (∀ body : Script ν .flow,
      let flow := body.exec (Deeper.within levels)
      (∃ deeds, Settles (.all true) flow start deeds) ∧
      ∀ deeds, Settles (.all true) flow start deeds →
        (Flow.settle (flow.run start)).recorder.lines = chronicle deeds) ∧
    ∀ (config : Config) (mode : RunMode) (chain : Chain ν) (leaf : Leaf ν),
      let flow := Runner.runLeaf ⟨config, mode, Deeper.within levels⟩ chain leaf
      (∃ deeds, Settles (.all true) flow start deeds) ∧
      ∀ deeds, Settles (.all true) flow start deeds →
        (Flow.settle (flow.run start)).recorder.lines = chronicle deeds := by
  intro recorder start chronicle
  have named : start.recorder.path ≠ [] := List.cons_ne_nil outermost inner
  refine ⟨fun uses => ?_, fun body => ?_, fun config mode chain leaf => ?_⟩
  · intro host
    obtain ⟨deeds, s, left, acts, -⟩ := Host.exists_acts uses start cleanupsReady_nil
    refine ⟨⟨deeds, s, left, acts⟩, fun deeds s left acts => ?_⟩
    obtain ⟨same, shown⟩ := acts.tells
    have ended : host = Host.waiting s left := same
    rw [ended, Host.waiting, shown.recorder]
    exact Recorder.lines_recordAll named rfl deeds
  · have traceable := body.traceable levels
    exact ⟨traceable.settles start, fun deeds settles => settles.lines named rfl⟩
  · have traceable := Runner.traceable_runLeaf levels config mode chain leaf
    exact ⟨traceable.settles start, fun deeds settles => settles.lines named rfl⟩

end NestedSpec
