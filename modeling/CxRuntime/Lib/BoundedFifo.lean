import CxRuntime.Lib.Transition
import Mathlib.Data.List.TakeWhile
import Mathlib.Data.List.Nodup
import Mathlib.Tactic.Common

/-!
# Bounded first-in first-out lists

The abstract queue: a list with a capacity.  `Flow` is a run of the queue seen
from outside, with the values taken out of it and the values put into it; what
was taken followed by what remains is what was there followed by what was put
(`Flow.conservation`).  `Flow.taken_after` is the order law that follows: a
value put behind others leaves after them.
-/

namespace BoundedFifo

variable {α : Type*}

inductive Op (α : Type*) where
  | enqueue (item : α)
  | dequeue
  | front
  deriving DecidableEq, Repr

/-- What an operation answers: nothing, or the head of the list if any. -/
inductive Reply (α : Type*) where
  | done
  | head (item : Option α)
  deriving DecidableEq, Repr

def step (capacity : Nat) (items : List α) : Op α → List α × Reply α
  | .enqueue item =>
      (if items.length < capacity then items ++ [item] else items, .done)
  | .dequeue => (items.tail, .head items.head?)
  | .front => (items, .head items.head?)

/-- The final list and the replies, in order. -/
def run (capacity : Nat) (items : List α) (ops : List (Op α)) :
    List α × List (Reply α) :=
  Transition.runTotal (step capacity) items ops

/-- A run of the queue with the values that left it and the values that entered
it, both in order. -/
inductive Flow (start : List α) : List α → List α → List α → Prop where
  | refl : Flow start [] [] start
  | take {taken put : List α} {item : α} {rest : List α} :
      Flow start taken put (item :: rest) →
      Flow start (taken ++ [item]) put rest
  | put {taken put items : List α} (item : α) :
      Flow start taken put items →
      Flow start taken (put ++ [item]) (items ++ [item])

theorem Flow.conservation {start taken put final : List α}
    (flow : Flow start taken put final) :
    start ++ put = taken ++ final := by
  induction flow with
  | refl => simp
  | take _ induction => simpa using induction
  | put item _ induction =>
      rw [← List.append_assoc, induction, List.append_assoc]

/-- Items ahead of `item` leave the queue before `item` does. -/
theorem Flow.taken_after [DecidableEq α] {ahead taken put final : List α}
    {item : α} (flow : Flow (ahead ++ [item]) taken put final)
    (fresh : item ∉ ahead) (left : item ∈ taken) :
    ∀ earlier ∈ ahead, earlier ∈ taken.takeWhile (· ≠ item) := by
  have conserved := flow.conservation
  rw [List.append_assoc, List.append_eq_append_iff] at conserved
  rcases conserved with ⟨middle, takenEq, restEq⟩ | ⟨middle, aheadEq, _⟩
  · intro earlier member
    have others : ∀ other ∈ ahead, decide (other ≠ item) = true := by
      intro other present
      simp only [ne_eq, decide_eq_true_eq]
      rintro rfl
      exact fresh present
    rw [takenEq, List.takeWhile_append_of_pos others]
    exact List.mem_append_left _ member
  · exact absurd (aheadEq ▸ List.mem_append_left middle left) fresh

end BoundedFifo
