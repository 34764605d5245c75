import Mathlib.Tactic.Common

/-!
# Words made of bit fields

A layout lists the widths of the fields of a word from the lowest bit.  Packing
the fields and reading them back are inverse to each other, for every layout.
-/

namespace BitFields

/-- The width of a word with the given fields. -/
def width : List Nat → Nat
  | [] => 0
  | field :: layout => width layout + field

/-- A value for each field. -/
def Fields : List Nat → Type
  | [] => Unit
  | field :: layout => BitVec field × Fields layout

def pack : (layout : List Nat) → Fields layout → BitVec (width layout)
  | [], _ => 0#0
  | _ :: layout, fields => pack layout fields.2 ++ fields.1

def unpack : (layout : List Nat) → BitVec (width layout) → Fields layout
  | [], _ => ()
  | field :: layout, word =>
      (word.extractLsb' 0 field,
        unpack layout (word.extractLsb' field (width layout)))

theorem unpack_pack (layout : List Nat) (fields : Fields layout) :
    unpack layout (pack layout fields) = fields := by
  induction layout with
  | nil => rfl
  | cons field layout induction =>
      obtain ⟨low, high⟩ := fields
      apply Prod.ext
      · exact BitVec.extractLsb'_append_eq_right
      · have rest : (pack layout high ++ low).extractLsb' field (width layout) =
            pack layout high := BitVec.extractLsb'_append_eq_left
        exact (congrArg (unpack layout) rest).trans (induction high)

theorem pack_unpack (layout : List Nat) (word : BitVec (width layout)) :
    pack layout (unpack layout word) = word := by
  induction layout with
  | nil => exact (BitVec.eq_nil word).symm
  | cons field layout induction =>
      have whole : ∀ word : BitVec (width layout + field),
          pack layout (unpack layout
              (word.extractLsb' field (width layout))) ++
            word.extractLsb' 0 field = word := by
        intro word
        rw [induction]
        exact BitVec.extractLsb'_append_extractLsb'
      exact whole word

/-- A word is packed from exactly one choice of fields. -/
theorem pack_eq_iff {layout : List Nat} {fields : Fields layout}
    {word : BitVec (width layout)} :
    pack layout fields = word ↔ fields = unpack layout word := by
  constructor
  · intro packed
    rw [← packed, unpack_pack]
  · intro read
    rw [read, pack_unpack]

end BitFields
