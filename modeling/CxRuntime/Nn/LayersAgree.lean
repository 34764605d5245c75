import CxRuntime.Nn.OneLayer

/-!
# The layers agree

The chain of layers in `run_nn` computes the same matrix with each of the three
implementations.
-/

namespace CxRuntime.Nn

/-! ## The chain of layers -/

section Chain

variable {τ : Type} {size : Nat}

/-- `B` after a number of layers: each layer is passed on to the next. -/
def chained (size : Nat) (value : Words → Words) (B : Words) : Nat → Words
  | 0 => B
  | count + 1 => memcpy size (chained size value B count)
      (value (chained size value B count))

theorem memcpy_inside (destination source : Words) {address : Nat}
    (inside : address < size) :
    memcpy size destination source address = source address := by
  have copied : memcpy size destination source (0 + address) =
      source address := Cells.overwrite_inside destination inside source
  rwa [Nat.zero_add] at copied

private theorem memcpy_congr (destination : Words) {left right : Words}
    (same : ∀ address < size, left address = right address) :
    memcpy size destination left = memcpy size destination right := by
  funext address
  by_cases inside : address < size
  · rw [memcpy_inside _ _ inside, memcpy_inside _ _ inside,
      same address inside]
  · have outside : address < 0 ∨ 0 + size ≤ address := by omega
    rw [memcpy, memcpy, Cells.overwrite_outside _ outside,
      Cells.overwrite_outside _ outside]

private theorem memsetZero_inside (destination : Words) {address : Nat}
    (inside : address < size) : memsetZero size destination address = 0 :=
  memcpy_inside destination (fun _ => 0) inside

/-- A layer that computes `value B` into a matrix it is ready for, whatever
else it runs on, leaves the chained value after the last turn. -/
theorem runLayers_eq (value : Words → Words) (ready : Words → Prop)
    (cleared : ∀ C, ready (memsetZero size C))
    (layer : Words → Words × τ → Option (Words × τ))
    (computes : ∀ B C rest, ready C → ∃ after, layer B (C, rest) =
      some (Cells.overwrite C 0 size (value B), after))
    {nLayers : Nat} (some_layer : 0 < nLayers) (B : Words) {C : Words}
    (initially : ready C) (rest : τ) :
    ∃ final, runLayers size nLayers layer B C rest = some final ∧
      ∀ address < size,
        final.2.1 address = chained size value B nLayers address := by
  obtain ⟨final, ran, -, last⟩ := Loop.forUpTo_total
    (layerTurn size nLayers layer) (B, C, rest)
    (fun i state =>
      (i < nLayers → state.1 = chained size value B i ∧ ready state.2.1) ∧
      (i = nLayers → ∀ address < size,
        state.2.1 address = chained size value B nLayers address))
    ⟨fun _ => ⟨rfl, initially⟩, by omega⟩ nLayers
    (by
      intro i state below invariant
      obtain ⟨sameB, isReady⟩ := invariant.1 below
      obtain ⟨after, ran⟩ := computes state.1 state.2.1 state.2.2 isReady
      have computed : ∀ address < size,
          Cells.overwrite state.2.1 0 size (value state.1) address =
            value state.1 address := fun _ inside =>
        memcpy_inside state.2.1 (value state.1) inside
      simp only [layerTurn, ran, Option.bind_eq_bind, Option.bind_some]
      by_cases isLast : i = nLayers - 1
      · refine ⟨_, if_pos isLast, by omega, ?_⟩
        intro isEnd address inside
        rw [← isEnd, chained, memcpy_inside _ _ inside, ← sameB]
        exact computed address inside
      · refine ⟨_, if_neg isLast, ?_, by omega⟩
        intro _
        refine ⟨?_, cleared _⟩
        rw [chained, ← sameB]
        exact memcpy_congr state.1 computed)
  exact ⟨final, ran, last rfl⟩

end Chain

/-- `run_nn` on `nn_layer_scalar`. -/
def runScalar (n nLayers : Nat) (A B C : Words) :
    Option (Words × Words × Unit) :=
  runLayers (n * n) nLayers
    (fun B state => (nnLayerScalar (n * n) A B state.1 n n).map
      fun C => (C, state.2))
    B C ()

def runMacRelu (platform : Platform ZooStatics) (macSel maxSel : Word)
    (n nLayers : Nat) (A B C : Words) (machine : Machine ZooStatics) :
    Option (Words × Words × Machine ZooStatics) :=
  runLayers (n * n) nLayers
    (fun B => nnLayerMacRelu platform (n * n) A B n macSel maxSel) B C machine

def runNnAcc (platform : Platform ZooStatics) (nnSel : Word)
    (n nLayers : Nat) (A B C : Words) (machine : Machine ZooStatics) :
    Option (Words × Words × Machine ZooStatics) :=
  runLayers (n * n) nLayers
    (fun B => nnLayerNnAcc platform (n * n) A B n nnSel) B C machine

/-- No access is outside the `n * n` words, and the three chains leave the same
matrix, whatever the accelerators hold at first. -/
theorem nn_layers_agree {platform : Platform ZooStatics}
    (applies : AppliesFuncs platform) {macSel maxSel nnSel : Word}
    {macContext : Mulacc.Context} {nnContext : NnAcc.Context}
    (macLocated : Mulacc.contextOf (.ofIdx macSel) = some macContext)
    (isMax : (CxSelidx.ofIdx maxSel).cxId.toNat = 6)
    (nnLocated : NnAcc.contextOf (.ofIdx nnSel) = some nnContext) {n : Nat}
    (divides : unrollFactor ∣ n) (intSized : n * n < 2147483648)
    (nLayers : Nat) (A B C macC nnC : Words)
    (zero : ∀ address < n * n, C address = 0)
    (unlayered : nLayers = 0 → ∀ address < n * n,
      macC address = 0 ∧ nnC address = 0)
    (macMachine nnMachine : Machine ZooStatics) :
    ∃ scalar mac nn,
      runScalar n nLayers A B C = some scalar ∧
      runMacRelu platform macSel maxSel n nLayers A B macC macMachine =
        some mac ∧
      runNnAcc platform nnSel n nLayers A B nnC nnMachine = some nn ∧
      ∀ address < n * n,
        mac.2.1 address = scalar.2.1 address ∧
        nn.2.1 address = scalar.2.1 address := by
  rcases Nat.eq_zero_or_pos nLayers with none | some_layer
  · subst none
    refine ⟨_, _, _, rfl, rfl, rfl, ?_⟩
    intro address inside
    obtain ⟨macZero, nnZero⟩ := unlayered rfl address inside
    exact ⟨macZero.trans (zero address inside).symm,
      nnZero.trans (zero address inside).symm⟩
  · obtain ⟨scalar, ranScalar, scalarEq⟩ := runLayers_eq (layerValue A n)
      (fun C => ∀ address < n * n, C address = 0)
      (fun C _ inside => memsetZero_inside C inside)
      (fun B state => (nnLayerScalar (n * n) A B state.1 n n).map
        fun C => (C, state.2))
      (by
        intro B C rest isZero
        rw [nnLayerScalar_eq A B C intSized divides isZero]
        exact ⟨rest, rfl⟩)
      some_layer B zero ()
    obtain ⟨mac, ranMac, macEq⟩ := runLayers_eq (layerValue A n)
      (fun _ => True) (fun _ => trivial)
      (fun B => nnLayerMacRelu platform (n * n) A B n macSel maxSel)
      (fun B C machine _ => nnLayerMacRelu_eq A B C applies intSized divides
        macLocated isMax machine)
      some_layer B (C := macC) trivial macMachine
    obtain ⟨nn, ranNn, nnEq⟩ := runLayers_eq (layerValue A n)
      (fun _ => True) (fun _ => trivial)
      (fun B => nnLayerNnAcc platform (n * n) A B n nnSel)
      (fun B C machine _ => nnLayerNnAcc_eq A B C applies intSized divides
        nnLocated machine)
      some_layer B (C := nnC) trivial nnMachine
    refine ⟨scalar, mac, nn, ranScalar, ranMac, ranNn, ?_⟩
    intro address inside
    rw [scalarEq address inside, macEq address inside, nnEq address inside]
    exact ⟨rfl, rfl⟩

private theorem runScalar_ones :
    (runScalar 4 2 (fun _ => 1) (fun _ => 1) (fun _ => 0)).map
      (fun left => left.2.1 5) = some 16 := by
  rfl

/-- Two layers on 4 x 4 matrices of ones leave 16, from the initial
accelerators. -/
theorem nn_layers_agree_ones :
    ∃ scalar mac nn,
      runScalar 4 2 (fun _ => 1) (fun _ => 1) (fun _ => 0) = some scalar ∧
      runMacRelu zooPlatform 0x10000002 0x10000006 4 2 (fun _ => 1)
        (fun _ => 1) (fun _ => 7) (cxInit sourceConfig cxInitFuncs) =
        some mac ∧
      runNnAcc zooPlatform 0x10000007 4 2 (fun _ => 1) (fun _ => 1)
        (fun _ => 7) (cxInit sourceConfig cxInitFuncs) = some nn ∧
      scalar.2.1 5 = 16 ∧ mac.2.1 5 = 16 ∧ nn.2.1 5 = 16 := by
  obtain ⟨scalar, mac, nn, ranScalar, ranMac, ranNn, agree⟩ :=
    @nn_layers_agree zooPlatform zooPlatform_appliesFuncs 0x10000002 0x10000006
      0x10000007 _ _ Mulacc.firstSel_located rfl rfl 4 (Nat.dvd_refl 4)
      (by decide) 2 (fun _ => 1) (fun _ => 1) (fun _ => 0)
      (fun _ => 7) (fun _ => 7) (fun _ _ => rfl)
      (fun isZero => absurd isZero (by decide))
      (cxInit sourceConfig cxInitFuncs) (cxInit sourceConfig cxInitFuncs)
  have element := runScalar_ones
  rw [ranScalar] at element
  have sixteen : scalar.2.1 5 = 16 := Option.some.inj element
  obtain ⟨macSame, nnSame⟩ := agree 5 (by decide)
  exact ⟨scalar, mac, nn, ranScalar, ranMac, ranNn, sixteen,
    macSame.trans sixteen, nnSame.trans sixteen⟩

end CxRuntime.Nn
