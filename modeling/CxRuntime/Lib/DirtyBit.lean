import Mathlib.Data.List.Induction
import Mathlib.Tactic.Common

/-!
# Dirty bits

A value with a bit that is set when the value may differ from a saved copy.
Operations update the value and set the bit, erase the value without touching
the bit, sweep (erase the value and clear the bit), or do nothing.  Only an
erased value can go unnoticed: `tracks_iff` says exactly when a clean bit at the
end of a run means that the value is the one it started with.
-/

namespace DirtyBit

variable {α ι : Type*}

/-- What an operation does. -/
inductive Effect (α : Type*) where
  | update (change : α → α)
  | erase
  | sweep
  | keep

namespace Effect

def Updates : Effect α → Prop
  | update _ => True
  | _ => False

def Erases : Effect α → Prop
  | erase => True
  | sweep => True
  | _ => False

def Sweeps : Effect α → Prop
  | sweep => True
  | _ => False

end Effect

/-- A value with its dirty bit. -/
structure Tracked (α : Type*) where
  value : α
  dirty : Bool

/-- `blank` is the value left by an erasure. -/
def Effect.apply (blank : α) (tracked : Tracked α) : Effect α → Tracked α
  | update change => { value := change tracked.value, dirty := true }
  | erase => { tracked with value := blank }
  | sweep => { value := blank, dirty := false }
  | keep => tracked

variable (blank : α) (effect : ι → Effect α)

def applyAll (tracked : Tracked α) (inputs : List ι) : Tracked α :=
  inputs.foldl (fun tracked input => (effect input).apply blank tracked) tracked

theorem applyAll_concat (tracked : Tracked α) (inputs : List ι) (last : ι) :
    applyAll blank effect tracked (inputs ++ [last]) =
      (effect last).apply blank (applyAll blank effect tracked inputs) := by
  simp only [applyAll, List.foldl_append, List.foldl_cons, List.foldl_nil]

/-- Some input updates the value and no later one sweeps it. -/
def Marked (inputs : List ι) : Prop :=
  ∃ before input after, inputs = before ++ input :: after ∧
    (effect input).Updates ∧ ∀ later ∈ after, ¬(effect later).Sweeps

theorem marked_concat {inputs : List ι} {last : ι} :
    Marked effect (inputs ++ [last]) ↔
      (effect last).Updates ∨
        (Marked effect inputs ∧ ¬(effect last).Sweeps) := by
  constructor
  · intro marked
    obtain ⟨before, input, after, split, updates, unswept⟩ := marked
    rcases List.eq_nil_or_concat after with rfl | ⟨middle, final, rfl⟩
    · obtain ⟨_, same⟩ := List.append_inj' split rfl
      rw [List.singleton_inj.mp same]
      exact Or.inl updates
    · rw [List.concat_eq_append, ← List.cons_append, ← List.append_assoc] at split
      obtain ⟨rfl, same⟩ := List.append_inj' split rfl
      obtain rfl := List.singleton_inj.mp same
      refine Or.inr ⟨⟨before, input, middle, rfl, updates, ?_⟩, ?_⟩
      · exact fun later member => unswept later (by simp [member])
      · exact unswept last (by simp)
  · rintro (updates | ⟨⟨before, input, after, rfl, updates, unswept⟩, notSwept⟩)
    · exact ⟨inputs, last, [], rfl, updates, fun _ member => by cases member⟩
    · refine ⟨before, input, after ++ [last], by simp, updates, ?_⟩
      intro later member
      rcases List.mem_append.mp member with earlier | isLast
      · exact unswept later earlier
      · rwa [List.mem_singleton.mp isLast]

/-- From a clean start, the bit is set at the end exactly if some update was not
swept. -/
theorem dirty_applyAll_iff (value : α) (inputs : List ι) :
    (applyAll blank effect ⟨value, false⟩ inputs).dirty = true ↔
      Marked effect inputs := by
  induction inputs using List.reverseRecOn with
  | nil =>
      refine iff_of_false Bool.false_ne_true ?_
      intro marked
      obtain ⟨before, input, after, split, _⟩ := marked
      cases before <;> cases split
  | append_singleton inputs last induction =>
      rw [applyAll_concat, marked_concat, ← induction]
      cases effect last <;> simp [Effect.apply, Effect.Updates, Effect.Sweeps]

/-- From a clean start, a value whose bit is clear at the end was erased and is
blank, or was left alone. -/
theorem value_applyAll_of_clean {value : α} {inputs : List ι}
    (clean : (applyAll blank effect ⟨value, false⟩ inputs).dirty = false) :
    ((∃ input ∈ inputs, (effect input).Erases) ∧
        (applyAll blank effect ⟨value, false⟩ inputs).value = blank) ∨
      ((∀ input ∈ inputs, ¬(effect input).Erases) ∧
        (applyAll blank effect ⟨value, false⟩ inputs).value = value) := by
  induction inputs using List.reverseRecOn with
  | nil => exact Or.inr ⟨fun _ member => absurd member List.not_mem_nil, rfl⟩
  | append_singleton inputs last induction =>
      have lastMember : last ∈ inputs ++ [last] := by simp
      rw [applyAll_concat] at clean ⊢
      cases kind : effect last with
      | update change => simp [kind, Effect.apply] at clean
      | erase => exact Or.inl ⟨⟨last, lastMember, by rw [kind]; trivial⟩, rfl⟩
      | sweep => exact Or.inl ⟨⟨last, lastMember, by rw [kind]; trivial⟩, rfl⟩
      | keep =>
          rw [kind] at clean
          rcases induction clean with ⟨⟨input, member, erases⟩, erased⟩ |
            ⟨untouched, same⟩
          · exact Or.inl
              ⟨⟨input, List.mem_append_left _ member, erases⟩, erased⟩
          · refine Or.inr ⟨?_, same⟩
            intro input member
            rcases List.mem_append.mp member with earlier | isLast
            · exact untouched input earlier
            · rw [List.mem_singleton.mp isLast, kind]
              exact id

/-- A clear bit at the end of a run stands for an unchanged value exactly if the
value was blank already, nothing erased it, or the bit is in fact set. -/
theorem tracks_iff (value : α) (inputs : List ι) :
    ((applyAll blank effect ⟨value, false⟩ inputs).dirty = false →
        (applyAll blank effect ⟨value, false⟩ inputs).value = value) ↔
      value = blank ∨ (∀ input ∈ inputs, ¬(effect input).Erases) ∨
        Marked effect inputs := by
  rw [← dirty_applyAll_iff blank effect value inputs]
  cases dirty : (applyAll blank effect ⟨value, false⟩ inputs).dirty with
  | true => simp
  | false =>
      rcases value_applyAll_of_clean blank effect dirty with
        ⟨⟨input, member, erases⟩, erased⟩ | ⟨untouched, same⟩
      · have touched : ¬∀ input ∈ inputs, ¬(effect input).Erases :=
          fun untouched => untouched input member erases
        simp [erased, touched, eq_comm]
      · exact iff_of_true (fun _ => same) (Or.inr (Or.inl untouched))

end DirtyBit
