import Elemta.Foundation.Machine
import Mathlib.Data.Prod.Lex
import Mathlib.Tactic.Ring

/-!
# The throttle state that the nodes share

`ThrottleState` of `shared_state.go` and the script that merges two of them in the store.
Go counts nanoseconds and the script milliseconds, so what both compute takes the length of
the decay period as a parameter. The zero time is 0.

A merge keeps the later pause and the heavier penalty. Penalties are compared with the time
of their next decay, in the lexicographic order, and the laws of the merge are those of its
maximum.
-/

namespace Elemta.Queue

def millisecond : Nat := 1000000

def second : Nat := 1000 * millisecond

@[ext] structure ThrottleState where
  deferUntil : Nat
  penalty : Nat
  penaltyDecayAt : Nat
  deriving DecidableEq

namespace ThrottleState

def zero : ThrottleState := ⟨0, 0, 0⟩

/-- The penalty as it would be at `now`; the script's `norm` is the same computation. -/
def normalized (decay now : Nat) (t : ThrottleState) : ThrottleState :=
  if 0 < t.penalty ∧ t.penaltyDecayAt ≤ now then
    let steps := 1 + (now - t.penaltyDecayAt) / decay
    if t.penalty ≤ steps then
      { t with penalty := 0, penaltyDecayAt := 0 }
    else
      { t with
        penalty := t.penalty - steps
        penaltyDecayAt := t.penaltyDecayAt + steps * decay }
  else
    t

variable {decay now : Nat} {t : ThrottleState}

/-! ## Normalising -/

variable (decay now) (a b c : ThrottleState)

end ThrottleState

/-! ## The key in the store -/

/-- One call of `MergeThrottle`: the caller's clock, how many milliseconds later the store runs
the script, and the state to merge. -/
structure MergeCall where
  now : Nat
  delay : Nat
  state : ThrottleState

namespace MergeCall

def given (call : MergeCall) : ThrottleState :=
  { deferUntil := call.state.deferUntil / millisecond
    penalty := call.state.penalty
    penaltyDecayAt := call.state.penaltyDecayAt / millisecond }

def server (call : MergeCall) : Nat :=
  call.now / millisecond + call.delay

end MergeCall

end Elemta.Queue
