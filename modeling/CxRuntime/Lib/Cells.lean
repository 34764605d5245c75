import CxRuntime.Lib.Loop
import Mathlib.Logic.Function.Basic

/-!
# Bounded cells

The cells of a contiguous array that faults outside its bounds, and the same
cells with a record of the positions accessed.  The two loop lemmas at the end
describe a row filled with given values and a row combined with another row.
-/

namespace Cells

variable {α : Type*}

/-- An array access that is defined only inside `0 ≤ index < length`. -/
def load (length : Nat) (cells : Nat → α) (index : Int) : Option α :=
  if 0 ≤ index ∧ index < length then some (cells index.toNat) else none

def store (length : Nat) (cells : Nat → α) (index : Int) (value : α) :
    Option (Nat → α) :=
  if 0 ≤ index ∧ index < length then
    some (Function.update cells index.toNat value)
  else none

theorem load_natCast {length : Nat} (cells : Nat → α) {index : Nat}
    (inside : index < length) :
    load length cells index = some (cells index) := by
  have bounds : 0 ≤ (index : Int) ∧ (index : Int) < length := by omega
  simp only [load, if_pos bounds, Int.toNat_natCast]

theorem store_natCast {length : Nat} (cells : Nat → α) {index : Nat}
    (inside : index < length) (value : α) :
    store length cells index value =
      some (Function.update cells index value) := by
  have bounds : 0 ≤ (index : Int) ∧ (index : Int) < length := by omega
  simp only [store, if_pos bounds, Int.toNat_natCast]

theorem load_outside {length : Nat} (cells : Nat → α) {index : Int}
    (outside : index < 0 ∨ (length : Int) ≤ index) :
    load length cells index = none := by
  have bounds : ¬(0 ≤ index ∧ index < length) := by omega
  rw [load, if_neg bounds]

theorem store_outside {length : Nat} (cells : Nat → α) {index : Int}
    (outside : index < 0 ∨ (length : Int) ≤ index) (value : α) :
    store length cells index value = none := by
  have bounds : ¬(0 ≤ index ∧ index < length) := by omega
  rw [store, if_neg bounds]

/-! ## Overwritten rows -/

/-- The `count` cells from `base` replaced by `value 0`, `value 1`, ... -/
def overwrite (cells : Nat → α) (base count : Nat) (value : Nat → α) :
    Nat → α :=
  fun address =>
    if base ≤ address ∧ address < base + count then value (address - base)
    else cells address

@[simp] theorem overwrite_zero (cells : Nat → α) (base : Nat)
    (value : Nat → α) : overwrite cells base 0 value = cells := by
  funext address
  have outside : ¬(base ≤ address ∧ address < base + 0) := by omega
  simp only [overwrite, if_neg outside]

theorem overwrite_inside (cells : Nat → α) {base count offset : Nat}
    (inside : offset < count) (value : Nat → α) :
    overwrite cells base count value (base + offset) = value offset := by
  have bounds : base ≤ base + offset ∧ base + offset < base + count := by omega
  simp only [overwrite, if_pos bounds, Nat.add_sub_cancel_left]

theorem overwrite_outside (cells : Nat → α) {base count address : Nat}
    (outside : address < base ∨ base + count ≤ address) (value : Nat → α) :
    overwrite cells base count value address = cells address := by
  have bounds : ¬(base ≤ address ∧ address < base + count) := by omega
  simp only [overwrite, if_neg bounds]

theorem update_overwrite (cells : Nat → α) (base count : Nat)
    (value : Nat → α) :
    Function.update (overwrite cells base count value) (base + count)
        (value count) =
      overwrite cells base (count + 1) value := by
  funext address
  by_cases last : address = base + count
  · subst last
    rw [Function.update_self, overwrite_inside cells (Nat.lt_succ_self count)]
  · rw [Function.update_of_ne last]
    simp only [overwrite]
    congr 1
    apply propext
    omega

/-! ## Static arrays -/

/-- A static array: the elements its initialiser lists, then zeros. -/
def initialised (listed : List α) (zero : α) : Nat → α :=
  fun index => listed.getD index zero

/-- `for (i = first; i < past; i++) cells[i] = value;` -/
def fill (length first past : Nat) (value : α) (cells : Nat → α) :
    Option (Nat → α) :=
  Loop.forUpTo (past - first)
    (fun offset cells =>
      store length cells ((first + offset : Nat) : Int) value)
    cells

theorem fill_eq {length first past : Nat} (ordered : first ≤ past)
    (inside : past ≤ length) (value : α) (cells : Nat → α) :
    fill length first past value cells =
      some (overwrite cells first (past - first) fun _ => value) := by
  obtain ⟨final, ran, finalEq⟩ := Loop.forUpTo_total
    (fun offset cells =>
      store length cells ((first + offset : Nat) : Int) value)
    cells
    (fun offset state => state = overwrite cells first offset fun _ => value)
    (overwrite_zero cells first _).symm (past - first)
    (by
      intro offset state below stateEq
      have bound : first + offset < length := by omega
      refine ⟨_, store_natCast state bound value, ?_⟩
      rw [stateEq]
      exact update_overwrite cells first offset fun _ => value)
  rw [fill, ran, finalEq]

/-! ## Cells with a record of the accesses -/

structure Traced (α : Type*) where
  cells : Nat → α
  touched : List Int

namespace Traced

def load (length : Nat) (traced : Traced α) (index : Int) :
    Option (α × Traced α) :=
  (Cells.load length traced.cells index).map fun value =>
    (value, { traced with touched := index :: traced.touched })

def store (length : Nat) (traced : Traced α) (index : Int) (value : α) :
    Option (Traced α) :=
  (Cells.store length traced.cells index value).map fun cells =>
    { cells := cells, touched := index :: traced.touched }

theorem load_natCast {length : Nat} (traced : Traced α) {index : Nat}
    (inside : index < length) :
    traced.load length index =
      some (traced.cells index,
        { traced with touched := index :: traced.touched }) := by
  rw [load, Cells.load_natCast traced.cells inside, Option.map_some]

theorem store_natCast {length : Nat} (traced : Traced α) {index : Nat}
    (inside : index < length) (value : α) :
    traced.store length index value =
      some { cells := Function.update traced.cells index value
             touched := index :: traced.touched } := by
  rw [store, Cells.store_natCast traced.cells inside, Option.map_some]

theorem load_outside {length : Nat} (traced : Traced α) {index : Int}
    (outside : index < 0 ∨ (length : Int) ≤ index) :
    traced.load length index = none := by
  rw [load, Cells.load_outside traced.cells outside, Option.map_none]

theorem store_outside {length : Nat} (traced : Traced α) {index : Int}
    (outside : index < 0 ∨ (length : Int) ≤ index) (value : α) :
    traced.store length index value = none := by
  rw [store, Cells.store_outside traced.cells outside, Option.map_none]

theorem touched_of_load {length : Nat} {traced next : Traced α} {index : Int}
    {value : α} (loaded : traced.load length index = some (value, next)) :
    next.touched = index :: traced.touched := by
  obtain ⟨_, _, equality⟩ := Option.map_eq_some_iff.mp loaded
  cases equality
  rfl

theorem touched_of_store {length : Nat} {traced next : Traced α} {index : Int}
    {value : α} (stored : traced.store length index value = some next) :
    next.touched = index :: traced.touched := by
  obtain ⟨_, _, rfl⟩ := Option.map_eq_some_iff.mp stored
  rfl

/-- Every access beyond those of `start` satisfies `region`. -/
def Within (region : Int → Prop) (start traced : Traced α) : Prop :=
  ∀ index ∈ traced.touched, index ∈ start.touched ∨ region index

theorem Within.refl (region : Int → Prop) (start : Traced α) :
    Within region start start := fun _ member => Or.inl member

theorem Within.cons {region : Int → Prop} {start traced : Traced α}
    (within : Within region start traced) {index : Int}
    (inRegion : region index) (cells : Nat → α) :
    Within region start
      { cells := cells, touched := index :: traced.touched } := by
  intro other member
  rcases List.mem_cons.mp member with rfl | earlier
  · exact Or.inr inRegion
  · exact within other earlier

end Traced

/-- A loop that stores `value offset` into each cell of a row. -/
theorem forUpTo_fill {length base count : Nat} (inside : base + count ≤ length)
    (region : Int → Prop)
    (inRegion : ∀ offset < count, region ((base + offset : Nat) : Int))
    (value : Nat → α) (start : Traced α) :
    ∃ final, Loop.forUpTo count
        (fun offset traced =>
          traced.store length ((base + offset : Nat) : Int) (value offset))
        start = some final ∧
      final.cells = overwrite start.cells base count value ∧
      Traced.Within region start final := by
  refine Loop.forUpTo_total _ start
    (fun offset traced =>
      traced.cells = overwrite start.cells base offset value ∧
        Traced.Within region start traced)
    ⟨by rw [overwrite_zero], .refl region start⟩ count ?_
  intro offset traced below held
  obtain ⟨cellsEq, within⟩ := held
  have bound : base + offset < length := by omega
  refine ⟨_, traced.store_natCast bound (value offset), ?_,
    within.cons (inRegion offset below) _⟩
  simp only [cellsEq, update_overwrite]

/-- A loop that combines each cell of a row with the cell of another row.  The
rows are equal or disjoint, so no iteration reads a cell already rewritten. -/
theorem forUpTo_combine {length target source count : Nat}
    (targetInside : target + count ≤ length)
    (sourceInside : source + count ≤ length)
    (aligned : source = target ∨ source + count ≤ target ∨
      target + count ≤ source)
    (region : Int → Prop)
    (targetRegion : ∀ offset < count, region ((target + offset : Nat) : Int))
    (sourceRegion : ∀ offset < count, region ((source + offset : Nat) : Int))
    (combine : α → α → α) (start : Traced α) :
    ∃ final, Loop.forUpTo count
        (fun offset traced => do
          let left ← traced.load length ((target + offset : Nat) : Int)
          let right ← left.2.load length ((source + offset : Nat) : Int)
          right.2.store length ((target + offset : Nat) : Int)
            (combine left.1 right.1))
        start = some final ∧
      final.cells = overwrite start.cells target count
        (fun offset => combine (start.cells (target + offset))
          (start.cells (source + offset))) ∧
      Traced.Within region start final := by
  refine Loop.forUpTo_total _ start
    (fun offset traced =>
      traced.cells = overwrite start.cells target offset
          (fun offset => combine (start.cells (target + offset))
            (start.cells (source + offset))) ∧
        Traced.Within region start traced)
    ⟨by rw [overwrite_zero], .refl region start⟩ count ?_
  intro offset traced below held
  obtain ⟨cellsEq, within⟩ := held
  have targetBound : target + offset < length := by omega
  have sourceBound : source + offset < length := by omega
  have targetOld : traced.cells (target + offset) =
      start.cells (target + offset) := by
    rw [cellsEq, overwrite_outside _ (by omega)]
  have sourceOld : traced.cells (source + offset) =
      start.cells (source + offset) := by
    rw [cellsEq, overwrite_outside _ (by omega)]
  simp only [Traced.load_natCast _ targetBound,
    Traced.load_natCast _ sourceBound, Traced.store_natCast _ targetBound,
    Option.bind_eq_bind, Option.bind_some, targetOld, sourceOld]
  refine ⟨_, rfl, ?_, ?_⟩
  · simp only [cellsEq]
    exact update_overwrite start.cells target offset _
  · exact ((within.cons (targetRegion offset below) traced.cells).cons
      (sourceRegion offset below) traced.cells).cons
        (targetRegion offset below) _

/-! ## Square matrices -/

theorem rowMajor_lt {rows columns i j : Nat} (row : i < rows)
    (column : j < columns) : i * columns + j < rows * columns :=
  calc
    i * columns + j < i * columns + columns := Nat.add_lt_add_left column _
    _ = (i + 1) * columns := (Nat.succ_mul i columns).symm
    _ ≤ rows * columns := Nat.mul_le_mul_right columns row

/-- Two nested loops that set the elements of a matrix one after the other, row
by row.  Each turn finds its element as it was at the start. -/
theorem forUpTo_matrix {τ : Type*} {rows columns : Nat} (cells : τ → Nat → α)
    (holds : τ → Prop) (value : Nat → α)
    (element : Nat → Nat → τ → Option τ) (start : τ) (initial : holds start)
    (step : ∀ i j state, i < rows → j < columns → holds state →
      cells state (i * columns + j) = cells start (i * columns + j) →
      ∃ next, element i j state = some next ∧ holds next ∧
        cells next = Function.update (cells state) (i * columns + j)
          (value (i * columns + j))) :
    ∃ final,
      Loop.forUpTo rows (fun i => Loop.forUpTo columns (element i)) start =
        some final ∧
      holds final ∧
      cells final = overwrite (cells start) 0 (rows * columns) value := by
  let done (count : Nat) (state : τ) : Prop :=
    holds state ∧ cells state = overwrite (cells start) 0 count value
  refine Loop.forUpTo_total _ start (fun i => done (i * columns))
    ⟨initial, by rw [Nat.zero_mul, overwrite_zero]⟩ rows ?_
  intro i rowStart row rowHeld
  rw [Nat.succ_mul]
  refine Loop.forUpTo_total _ rowStart (fun j => done (i * columns + j))
    rowHeld columns ?_
  intro j state column held
  obtain ⟨stateHolds, cellsEq⟩ := held
  have untouched :
      cells state (i * columns + j) = cells start (i * columns + j) := by
    rw [cellsEq]
    apply overwrite_outside
    omega
  obtain ⟨next, ran, nextHolds, nextEq⟩ :=
    step i j state row column stateHolds untouched
  refine ⟨next, ran, nextHolds, ?_⟩
  have extended :=
    update_overwrite (cells start) 0 (i * columns + j) value
  rw [Nat.zero_add] at extended
  rw [nextEq, cellsEq, extended, Nat.add_assoc]

end Cells
