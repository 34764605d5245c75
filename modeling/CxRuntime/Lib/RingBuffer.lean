import CxRuntime.Lib.BoundedFifo
import Mathlib.Logic.Function.Basic
import Mathlib.Data.List.Range
import Mathlib.Data.Nat.ModEq

/-!
# Ring buffers

A wrapping segment of an array read as a list.  `segment cells capacity front
size` lists `size` cells from position `front`, with positions taken modulo
`capacity`.  Storing behind the segment appends, moving the front drops the
head; both hold in every wrap position.
-/

namespace RingBuffer

variable {α : Type*}

def segment (cells : Nat → α) (capacity front size : Nat) : List α :=
  (List.range size).map fun offset => cells ((front + offset) % capacity)

@[simp] theorem length_segment (cells : Nat → α) (capacity front size : Nat) :
    (segment cells capacity front size).length = size := by
  simp [segment]

@[simp] theorem segment_zero (cells : Nat → α) (capacity front : Nat) :
    segment cells capacity front 0 = [] := rfl

theorem position_ne {capacity front first second : Nat}
    (ordered : first < second) (inside : second < capacity) :
    (front + first) % capacity ≠ (front + second) % capacity := by
  intro same
  have modEq : first ≡ second [MOD capacity] :=
    Nat.ModEq.add_left_cancel' front same
  have equal := modEq.eq_of_lt_of_lt (ordered.trans inside) inside
  omega

/-- Storing just behind the segment appends to it. -/
theorem segment_push (cells : Nat → α)
    {capacity front size : Nat} (room : size < capacity) (item : α) :
    segment (Function.update cells ((front + size) % capacity) item)
        capacity front (size + 1) =
      segment cells capacity front size ++ [item] := by
  simp only [segment, List.range_succ, List.map_append, List.map_cons,
    List.map_nil, Function.update_self, List.append_cancel_right_eq]
  apply List.map_congr_left
  intro offset member
  have below : offset < size := List.mem_range.mp member
  rw [Function.update_of_ne (position_ne below room)]

/-- Moving the front past one cell drops the head. -/
theorem segment_pop (cells : Nat → α) (capacity front size : Nat) :
    segment cells capacity front (size + 1) =
      cells (front % capacity) ::
        segment cells capacity ((front + 1) % capacity) size := by
  simp only [segment, List.range_succ_eq_map, List.map_cons, List.map_map,
    Nat.add_zero, List.cons.injEq, true_and]
  apply List.map_congr_left
  intro offset _
  simp only [Function.comp_apply, Nat.mod_add_mod]
  congr 2
  omega

end RingBuffer
