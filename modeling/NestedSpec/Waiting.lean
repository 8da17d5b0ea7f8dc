import NestedSpec.Outcome

/-!
# Computations that wait

A flow puts computations on a stack, to run when it has ended. The newest one runs first, and what
it puts on the stack while it runs lies above the older ones. How each of them ended is accounted
for before the next one starts.
-/

namespace NestedSpec

variable {σ : Type}

/-- What an entry of a stack came to: how it ended, the state it left behind, and the entries it put
on the stack, newest first. -/
inductive Ended (σ : Type) where
  | mk (result : Except Stop Unit) (state : σ) (pushed : List (σ → Ended σ))

/-- A computation on a stack. -/
abbrev Waiting (σ : Type) := σ → Ended σ

namespace Ended

def result : Ended σ → Except Stop Unit
  | mk result _ _ => result

def state : Ended σ → σ
  | mk _ state _ => state

/-- The entries that it put on the stack, newest first. -/
def pushed : Ended σ → List (Waiting σ)
  | mk _ _ pushed => pushed

mutual
/-- The state once the end of an entry is accounted for and all that it put on the stack has run. -/
def unwind (account : Outcome → σ → σ) : Ended σ → σ
  | mk result state pushed => unwindAll account pushed (account (.ofExcept result) state)

/-- The state once all entries of a stack have run, newest first. -/
def unwindAll (account : Outcome → σ → σ) : List (Waiting σ) → σ → σ
  | [], s => s
  | entry :: older, s => unwindAll account older (unwind account (entry s))
end

def accounted (account : Outcome → σ → σ) (ended : Ended σ) : σ :=
  account (.ofExcept ended.result) ended.state

@[simp] theorem unwindAll_nil (account : Outcome → σ → σ) (s : σ) :
    unwindAll account [] s = s := rfl

end Ended
end NestedSpec
