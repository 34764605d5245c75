import CxRuntime.Runtime.Allocation
import CxRuntime.Runtime.Reachability

/-!
# Opening unregistered guids

The slots of `cx_map` that `cx_init` does not populate keep guid 0 and no
states, and the search of `cx_open` runs over them as well.  So every
unregistered guid is refused except 0, which finds a blank slot.
-/

namespace CxRuntime

variable {σ : Type} {platform : Platform σ} {config : CxConfig}
  {machine : Machine σ} {cxGuid : Word}

/-- `cx_open` returns `-1` and changes nothing. -/
def Refuses (platform : Platform σ) (cxGuid : Word) (machine : Machine σ) :
    Prop :=
  ∀ cxShare userCxSel,
    cxOpen platform cxGuid cxShare userCxSel machine = some (-1, machine)

/-- `cx_init` stores the guid in some slot. -/
def CxConfig.Registers (config : CxConfig) (cxGuid : Word) : Prop :=
  cxGuid ≠ 0 ∧ ∃ cxId, config.cxGuid cxId = cxGuid

private theorem refuses_of_nonzero (has : machine.cxMap.HasConfig config)
    (unregistered : ¬config.Registers cxGuid) (nonzero : cxGuid ≠ 0) :
    Refuses platform cxGuid machine := by
  have absent : findCxId machine.cxMap cxGuid = none := by
    rw [findCxId_eq_none_iff]
    intro cxId same
    rw [(has cxId).1] at same
    exact unregistered ⟨nonzero, cxId, same⟩
  intro cxShare userCxSel
  exact cxOpen_iff.mpr (.unknown absent)

/-- Guid 0 opens the last blank slot as a CX without states. -/
theorem blank_opens (has : machine.cxMap.HasConfig config) {cxId : Fin numCx}
    (blank : config.cxGuid cxId = 0) (cxShare userCxSel : Word) :
    ∃ last, config.cxGuid last = 0 ∧
      cxOpen platform 0 cxShare userCxSel machine =
        some (slotSel last 0, machine) := by
  cases found : findCxId machine.cxMap 0 with
  | none =>
      have differs := findCxId_eq_none_iff.mp found cxId
      rw [(has cxId).1] at differs
      exact absurd blank differs
  | some last =>
      have isBlank : config.cxGuid last = 0 :=
        (has last).1.symm.trans (cxGuid_of_findCxId found)
      have stateless : (machine.cxMap last).numStates = 0 :=
        (has last).2.trans (config.blank last isBlank)
      exact ⟨last, isBlank,
        cxOpen_stateless cxShare userCxSel found stateless⟩

private theorem not_refuses_zero (has : machine.cxMap.HasConfig config)
    {cxId : Fin numCx} (blank : config.cxGuid cxId = 0) :
    ¬Refuses platform 0 machine := by
  intro refuses
  obtain ⟨last, _, opened⟩ := @blank_opens _ platform _ _ has _ blank 0 0
  have same := (refuses 0 0).symm.trans opened
  have results : (-1 : Word) = slotSel last 0 :=
    congrArg Prod.fst (Option.some.inj same)
  exact slotSel_ne_neg_one last 0 results.symm

private theorem sourceConfig_registers :
    sourceConfig.Registers cxGuid ↔
      cxGuid ∈
        [cxGuidMuldiv, cxGuidAddsub, Mulacc.cxGuidMulacc, cxGuidPext] := by
  constructor
  · intro registers
    obtain ⟨nonzero, cxId, rfl⟩ := registers
    simp only [List.mem_cons, List.not_mem_nil, or_false]
    revert nonzero
    simp only [sourceConfig]
    split
    · exact fun _ => Or.inl rfl
    · exact fun _ => Or.inr (Or.inl rfl)
    · exact fun _ => Or.inr (Or.inr (Or.inl rfl))
    · exact fun _ => Or.inr (Or.inr (Or.inr rfl))
    · exact fun nonzero => absurd rfl nonzero
  · intro member
    simp only [List.mem_cons, List.not_mem_nil, or_false] at member
    rcases member with rfl | rfl | rfl | rfl
    · exact ⟨by decide, 0, rfl⟩
    · exact ⟨by decide, 1, rfl⟩
    · exact ⟨by decide, 2, rfl⟩
    · exact ⟨by decide, 3, rfl⟩

/-- In every reachable machine, an unregistered guid is refused exactly if it is
not 0. -/
theorem refuses_iff_nonzero {cxus : σ}
    (reachable : RuntimeReachable platform sourceConfig cxus machine)
    (unregistered : cxGuid ∉
      [cxGuidMuldiv, cxGuidAddsub, Mulacc.cxGuidMulacc, cxGuidPext]) :
    Refuses platform cxGuid machine ↔ cxGuid ≠ 0 := by
  have has := hasConfig_of_reachable reachable
  constructor
  · intro refuses isZero
    subst isZero
    have blank : sourceConfig.cxGuid 7 = 0 := rfl
    exact not_refuses_zero has blank refuses
  · apply refuses_of_nonzero has
    rwa [sourceConfig_registers]

theorem refuses_iff_nonzero_max :
    Refuses oneWordPlatform 56 (cxInit sourceConfig ()) ↔ (56 : Word) ≠ 0 :=
  refuses_iff_nonzero .refl (by decide)

theorem guid_zero_opens :
    (0 : Word) ∉
        [cxGuidMuldiv, cxGuidAddsub, Mulacc.cxGuidMulacc, cxGuidPext] ∧
      cxOpen oneWordPlatform 0 0 (-1) (cxInit sourceConfig ()) =
        some (0x10000007, cxInit sourceConfig ()) ∧
      ¬Refuses oneWordPlatform 0 (cxInit sourceConfig ()) := by
  have opened : cxOpen oneWordPlatform 0 0 (-1) (cxInit sourceConfig ()) =
      some (0x10000007, cxInit sourceConfig ()) := rfl
  refine ⟨by decide, opened, ?_⟩
  intro refuses
  have same := opened.symm.trans (refuses 0 (-1))
  have results : (0x10000007 : Word) = -1 :=
    congrArg Prod.fst (Option.some.inj same)
  exact absurd results (by decide)

end CxRuntime
