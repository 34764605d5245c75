import CxRuntime.Lib.Loop
import Mathlib.Data.List.Range

/-!
# Saving and restoring a context through a port

A port gives access to one context of a device: its status, which announces how
many data words it has, and each word by index.  `save` reads the status and
then the words; `restore` writes the words and then the status.  The laws name
what the port reads and writes in terms of views `word` and `status` of all
contexts; under them a restored context equals the saved one and every other
context keeps its content.
-/

structure ContextPort (σ ω τ : Type) where
  announced : τ → Nat
  readStatus : σ → Option (τ × σ)
  readWord : Nat → σ → Option (ω × σ)
  writeWord : Nat → ω → σ → Option σ
  writeStatus : τ → σ → Option σ

namespace ContextPort

variable {σ ω τ χ : Type}

def readWords (port : ContextPort σ ω τ) : Nat → σ → Option (List ω × σ)
  | 0, state => some ([], state)
  | count + 1, state => do
      let (words, state) ← readWords port count state
      let (word, state) ← port.readWord count state
      some (words ++ [word], state)

def writeWords (port : ContextPort σ ω τ) (words : List ω) (state : σ) :
    Option σ :=
  Loop.forUpTo words.length
    (fun index state =>
      words[index]?.bind fun word => port.writeWord index word state)
    state

def save (port : ContextPort σ ω τ) (state : σ) :
    Option ((τ × List ω) × σ) := do
  let (status, state) ← port.readStatus state
  let (words, state) ← port.readWords (port.announced status) state
  some ((status, words), state)

def restore (port : ContextPort σ ω τ) (saved : τ × List ω) (state : σ) :
    Option σ := do
  let state ← port.writeWords saved.2 state
  port.writeStatus saved.1 state

/-- What a port for the context `here` does on states whose contexts are seen
through `word` and `status`; `resting` are the status values that can be
restored. -/
structure Laws (port : ContextPort σ ω τ) (size : Nat) (here : χ)
    (word : σ → χ → Nat → ω) (status : σ → χ → τ) (resting : τ → Prop) :
    Prop where
  announced_eq : ∀ {value}, resting value → port.announced value = size
  readStatus_eq : ∀ state,
    port.readStatus state = some (status state here, state)
  readWord_eq : ∀ {index}, index < size → ∀ state,
    port.readWord index state = some (word state here index, state)
  writeWord_eq : ∀ {index}, index < size → ∀ value state,
    ∃ next, port.writeWord index value state = some next ∧
      word next here index = value ∧
      (∀ other, other < size → other ≠ index →
        word next here other = word state here other) ∧
      (∀ context, context ≠ here → ∀ other, other < size →
        word next context other = word state context other) ∧
      ∀ context, status next context = status state context
  writeStatus_eq : ∀ {value}, resting value → ∀ state,
    resting (status state here) →
    ∃ next, port.writeStatus value state = some next ∧
      status next here = value ∧
      (∀ context, context ≠ here →
        status next context = status state context) ∧
      ∀ context other, other < size →
        word next context other = word state context other

variable {port : ContextPort σ ω τ} {size : Nat} {here : χ}
  {word : σ → χ → Nat → ω} {status : σ → χ → τ} {resting : τ → Prop}

theorem Laws.readWords_eq (laws : port.Laws size here word status resting)
    (state : σ) {count : Nat} (inside : count ≤ size) :
    port.readWords count state =
      some ((List.range count).map (word state here), state) := by
  induction count with
  | zero => rfl
  | succ count induction =>
      simp only [readWords, induction (Nat.le_of_succ_le inside),
        laws.readWord_eq inside, Option.bind_eq_bind, Option.bind_some,
        List.range_succ, List.map_append, List.map_cons, List.map_nil]

/-- A save returns the status and all words and leaves the state as it was. -/
theorem Laws.save_eq (laws : port.Laws size here word status resting) {state : σ}
    (rest : resting (status state here)) :
    port.save state =
      some ((status state here, (List.range size).map (word state here)),
        state) := by
  simp only [save, laws.readStatus_eq, laws.announced_eq rest,
    laws.readWords_eq state (Nat.le_refl size), Option.bind_eq_bind,
    Option.bind_some]

/-- Writing `size` words installs them in the context and changes nothing else. -/
theorem Laws.writeWords_eq (laws : port.Laws size here word status resting)
    {words : List ω} (complete : words.length = size) (state : σ) :
    ∃ written, port.writeWords words state = some written ∧
      (∀ index, index < size →
        words[index]? = some (word written here index)) ∧
      (∀ context, context ≠ here → ∀ index, index < size →
        word written context index = word state context index) ∧
      ∀ context, status written context = status state context := by
  subst complete
  refine Loop.forUpTo_total _ state
    (fun done current =>
      (∀ index, index < done →
        words[index]? = some (word current here index)) ∧
      (∀ context, context ≠ here → ∀ index, index < words.length →
        word current context index = word state context index) ∧
      ∀ context, status current context = status state context)
    ⟨fun _ below => absurd below (Nat.not_lt_zero _),
      fun _ _ _ _ => rfl, fun _ => rfl⟩
    words.length ?_
  intro index current inside held
  obtain ⟨prefixWritten, othersKept, statusKept⟩ := held
  obtain ⟨next, stored, same, rest, others, statusSame⟩ :=
    laws.writeWord_eq inside words[index] current
  refine ⟨next, ?_, ?_, ?_, ?_⟩
  · rw [List.getElem?_eq_getElem inside]
    exact stored
  · intro earlier earlierLt
    rcases Nat.lt_succ_iff_lt_or_eq.mp earlierLt with lower | rfl
    · rw [prefixWritten earlier lower,
        rest earlier (lower.trans inside) (Nat.ne_of_lt lower)]
    · rw [List.getElem?_eq_getElem inside, same]
  · intro context different other otherLt
    rw [others context different other otherLt,
      othersKept context different other otherLt]
  · intro context
    rw [statusSame, statusKept]

/-- A restore of `size` words succeeds, installs them with the status, and
changes no other context. -/
theorem Laws.restore_eq (laws : port.Laws size here word status resting)
    {value : τ} (valueRests : resting value) {words : List ω}
    (complete : words.length = size) {state : σ}
    (rest : resting (status state here)) :
    ∃ final, port.restore (value, words) state = some final ∧
      status final here = value ∧
      (∀ index, index < size → words[index]? = some (word final here index)) ∧
      ∀ context, context ≠ here →
        status final context = status state context ∧
          ∀ index, index < size →
            word final context index = word state context index := by
  obtain ⟨written, wrote, installed, othersKept, statusKept⟩ :=
    laws.writeWords_eq complete state
  have writtenRest : resting (status written here) := by
    rwa [statusKept here]
  obtain ⟨final, stored, statusHere, statusOthers, wordsKept⟩ :=
    laws.writeStatus_eq valueRests written writtenRest
  refine ⟨final, ?_, statusHere, ?_, ?_⟩
  · simp only [restore, wrote, Option.bind_eq_bind, Option.bind_some, stored]
  · intro index inside
    rw [wordsKept here index inside]
    exact installed index inside
  · intro context different
    constructor
    · rw [statusOthers context different, statusKept]
    · intro index inside
      rw [wordsKept context index inside,
        othersKept context different index inside]

end ContextPort
