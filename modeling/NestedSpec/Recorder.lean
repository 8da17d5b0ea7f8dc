import NestedSpec.Config
import NestedSpec.Outcome

/-!
# What a flow reports

A recorder keeps what one flow and the sub-runs inside it report: log lines, the marks of failure
and skipping, and a case for every sub-run that has ended. The report of a flow that ran apart can
be played back later as if the flow ran in its place.
-/

namespace NestedSpec

/-- A logged line. The origin names the sub-run that logged it, as seen from the flow that holds the
line; it is empty for the flow's own lines. -/
structure LogLine where
  origin : List String
  message : String
deriving Repr, DecidableEq

/-- What a flow has reported so far. -/
structure Recorder where
  /-- The names of the flow and of those it runs in, outermost first. -/
  path : List String
  failed : Bool
  skipped : Bool
  logs : List LogLine
  /-- The sub-runs that have ended, innermost first. -/
  cases : List Case
deriving Repr, DecidableEq

/-- What a flow that ran apart has reported, as seen from the flow itself. -/
structure RunReport where
  name : String
  failed : Bool
  skipped : Bool
  logs : List LogLine
  cases : List Case
deriving Repr, DecidableEq

def joinNames (names : List String) : String :=
  "/".intercalate names

namespace Recorder

def ofPath (path : List String) : Recorder :=
  ⟨path, false, false, [], []⟩

/-- A recorder for a flow of its own. -/
def new (name : String) : Recorder := ofPath [name]

/-- A recorder with the full name of the sub-run `name` of `parent`, for a flow that runs apart. -/
def detached (parent name : String) : Recorder := ofPath [parent, name]

def child (r : Recorder) (name : String) : Recorder := ofPath (r.path ++ [name])

def name (r : Recorder) : String := joinNames r.path

def log (message : String) (r : Recorder) : Recorder :=
  { r with logs := r.logs ++ [⟨[], message⟩] }

def fail (r : Recorder) : Recorder := { r with failed := true }

def skip (r : Recorder) : Recorder := { r with skipped := true }

/-- Takes the end of the flow, or of one of its cleanups, into account. -/
def absorb (outcome : Outcome) (r : Recorder) : Recorder :=
  match outcome with
  | .completed => r
  | .exited .fail => r.fail
  | .exited .skip => r.skip
  | .panicked payload => (r.log ("panicked: " ++ payload.message)).fail

/-- Takes over what an ended sub-run has reported; its failure is a failure here. -/
def merge (r child : Recorder) (name : String) : Recorder :=
  { r with
    failed := r.failed || child.failed
    logs := r.logs ++ child.logs.map fun line => { line with origin := name :: line.origin }
    cases := r.cases ++ child.cases ++ [⟨child.path, child.failed, child.skipped⟩] }

/-- A line as shown: one of a sub-run begins with the full name of the sub-run. -/
def renderLine (r : Recorder) (line : LogLine) : String :=
  match line.origin with
  | [] => line.message
  | origin => r.name ++ "/" ++ joinNames origin ++ ": " ++ line.message

def lines (r : Recorder) : List String := r.logs.map r.renderLine

/-- The report of the flow, with the paths of its sub-runs cut down to their own part. -/
def report (r : Recorder) : RunReport where
  name := r.name
  failed := r.failed
  skipped := r.skipped
  logs := r.logs
  cases := r.cases.map fun c => { c with path := c.path.drop r.path.length }

/-- What is printed when a flow of its own has ended: its lines, the seed if everything is shown,
and the report. -/
def summary (r : Recorder) (config : Config) : String :=
  let seedLine := if config.verbose then [seedKey ++ "=" ++ toString config.seed.toNat] else []
  let report := config.reportStyle.format r.cases
  "\n".intercalate (r.lines ++ seedLine ++ if report = "" then [] else [report])

end Recorder
end NestedSpec
