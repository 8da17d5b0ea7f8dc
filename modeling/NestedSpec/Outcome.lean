import NestedSpec.Text.Quoted

/-!
# How a flow ends

A flow runs to its end, or leaves early on purpose, or is broken off by a panic.
-/

namespace NestedSpec

/-- Why a flow left early on purpose. -/
inductive Exit where
  | fail
  | skip
deriving Repr, DecidableEq

/-- What a panic carries. -/
inductive Payload where
  | text (message : String)
  | other
deriving Repr, DecidableEq

/-- What keeps a flow from going on. -/
inductive Stop where
  | exit (exit : Exit)
  | panic (payload : Payload)
deriving Repr, DecidableEq

/-- How a guarded flow ended. -/
inductive Outcome where
  | completed
  | exited (exit : Exit)
  | panicked (payload : Payload)
deriving Repr, DecidableEq

def Payload.message : Payload → String
  | .text message => message
  | .other => "panic with a non-string payload"

namespace Outcome

def ofStop : Stop → Outcome
  | .exit exit => .exited exit
  | .panic payload => .panicked payload

def ofExcept {α : Type} : Except Stop α → Outcome
  | .ok _ => .completed
  | .error stop => .ofStop stop

def stop? : Outcome → Option Stop
  | .completed => none
  | .exited exit => some (.exit exit)
  | .panicked payload => some (.panic payload)

def panicMessage? : Outcome → Option String
  | .panicked payload => some payload.message
  | _ => none

def text : Outcome → String
  | .completed => "Completed"
  | .exited .fail => "Exited(Fail)"
  | .exited .skip => "Exited(Skip)"
  | .panicked payload => "Panicked(" ++ Text.quote payload.message ++ ")"

@[simp] theorem stop?_ofStop (stop : Stop) : (ofStop stop).stop? = some stop := by
  cases stop <;> rfl

end Outcome
end NestedSpec
