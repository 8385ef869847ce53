import KanariEvm.Gas
import KanariEvm.Lib.FeeStep

namespace KanariEvm.Gas

def gasTarget : ℕ := blockGasLimit.toNat / 2

/-- The EIP-1559 step in the unbounded integers, floored at the minimum fee. -/
def exactNextFee (parentFee gasUsed : ℕ) : ℕ := max (FeeStep.next gasTarget 8 parentFee gasUsed) 1

def nextBaseFee (parentFeeWei gasUsed : U128) : U128 :=
  calcNextBaseFee parentFeeWei gasUsed (blockGasLimit.setWidth 128)

theorem delta_toNat {parentFee distance : U128}
    (h : parentFee.toNat * distance.toNat < 2 ^ 128) :
    (saturatingMul parentFee distance / 15000000#128 / baseFeeMaxChangeDenominator).toNat =
      FeeStep.delta gasTarget 8 parentFee.toNat distance.toNat := by
  have htarget : (15000000#128).toNat = gasTarget := rfl
  have hdenominator : baseFeeMaxChangeDenominator.toNat = 8 := rfl
  rw [BitVec.toNat_udiv, BitVec.toNat_udiv, saturatingMul_toNat_of_lt h, htarget, hdenominator]
  rfl

section Step

-- gas amounts and fees of blocks have 64 bits each, the arithmetic of the step has 128
variable {parentFee gasUsed : U128} (hfee : parentFee.toNat < 2 ^ 64)
  (hgas : gasUsed.toNat < 2 ^ 64)

include hfee hgas

theorem step_fits :
    parentFee.toNat * (gasUsed.toNat - gasTarget) < 2 ^ 128 ∧
      parentFee.toNat * (gasTarget - gasUsed.toNat) < 2 ^ 128 ∧
      parentFee.toNat + max
        (FeeStep.delta gasTarget 8 parentFee.toNat (gasUsed.toNat - gasTarget)) 1 < 2 ^ 128 ∧
      FeeStep.delta gasTarget 8 parentFee.toNat (gasTarget - gasUsed.toNat) ≤ parentFee.toNat := by
  have htarget : gasTarget = 15000000 := rfl
  have hproduct : ∀ d < 2 ^ 64, parentFee.toNat * d < 2 ^ 128 := by
    intro d hd
    calc parentFee.toNat * d < 2 ^ 64 * 2 ^ 64 := Nat.mul_lt_mul'' hfee hd
      _ = 2 ^ 128 := by decide
  have hup := hproduct (gasUsed.toNat - gasTarget) (by omega)
  have hdelta :
      FeeStep.delta gasTarget 8 parentFee.toNat (gasUsed.toNat - gasTarget) < 2 ^ 127 := by
    rw [htarget] at hup ⊢
    unfold FeeStep.delta
    omega
  have hdown : FeeStep.delta gasTarget 8 parentFee.toNat (gasTarget - gasUsed.toNat) ≤
      parentFee.toNat / 8 := FeeStep.delta_le (by decide) (Nat.sub_le _ _)
  exact ⟨hup, hproduct _ (by omega), by omega, hdown.trans (Nat.div_le_self _ _)⟩

/-- On 64-bit fees and gas amounts the step is the exact formula. -/
theorem nextBaseFee_toNat :
    (nextBaseFee parentFee gasUsed).toNat = exactNextFee parentFee.toNat gasUsed.toNat := by
  obtain ⟨hup, hdown, hsum, -⟩ := step_fits hfee hgas
  have htarget : blockGasLimit.setWidth 128 / gasTargetDivisor = 15000000#128 := by decide
  have htargetNat : (15000000#128).toNat = gasTarget := rfl
  have hfloor : minBaseFeeWei.toNat = 1 := rfl
  unfold nextBaseFee calcNextBaseFee exactNextFee FeeStep.next
  simp only [htarget]
  rw [if_neg (by decide)]
  by_cases heq : gasUsed = 15000000#128
  · have hnat : gasUsed.toNat = gasTarget := by rw [heq, htargetNat]
    rw [if_pos heq, if_pos hnat, umax_toNat, hfloor]
  · have hnat : gasUsed.toNat ≠ gasTarget := fun h => heq (BitVec.eq_of_toNat_eq h)
    rw [if_neg heq, if_neg hnat]
    by_cases hover : gasUsed > 15000000#128
    · have hlt : gasTarget < gasUsed.toNat := hover
      have hsub : (gasUsed - 15000000#128).toNat = gasUsed.toNat - gasTarget :=
        BitVec.toNat_sub_of_le (BitVec.le_of_lt hover)
      rw [← hsub] at hup
      have hdelta := delta_toNat hup
      rw [hsub] at hdelta
      have hone : (1 : U128).toNat = 1 := rfl
      rw [if_pos hover, if_pos hlt, umax_toNat, hfloor, saturatingAdd_toNat_of_lt, umax_toNat,
        hdelta, hone]
      rw [umax_toNat, hdelta, hone]
      exact hsum
    · have hge : ¬gasTarget < gasUsed.toNat := hover
      have hle : gasUsed ≤ 15000000#128 := Nat.le_of_not_lt hover
      have hsub : (15000000#128 - gasUsed).toNat = gasTarget - gasUsed.toNat :=
        BitVec.toNat_sub_of_le hle
      rw [← hsub] at hdown
      have hdelta := delta_toNat hdown
      rw [hsub] at hdelta
      have hnot : (saturatingSub parentFee (saturatingMul parentFee (15000000#128 - gasUsed) /
          15000000#128 / baseFeeMaxChangeDenominator)).toNat = parentFee.toNat -
            FeeStep.delta gasTarget 8 parentFee.toNat (gasTarget - gasUsed.toNat) := by
        rw [saturatingSub, BitVec.toNat_ofNat, hdelta]
        exact Nat.mod_eq_of_lt (by omega)
      rw [if_neg hover, if_neg hge, umax_toNat, hfloor, hnot]

end Step

/-- The EIP-1559 fee step: it never saturates, and is exact, floored at one, bounded by one part in
eight, and monotone in the gas used and in the parent fee. -/
theorem nextBaseFee_eip1559 (parentFee gasUsed : U128) (hfee : parentFee.toNat < 2 ^ 64)
    (hgas : gasUsed.toNat ≤ blockGasLimit.toNat) :
    (parentFee.toNat * (gasUsed.toNat - gasTarget) < 2 ^ 128 ∧
      parentFee.toNat * (gasTarget - gasUsed.toNat) < 2 ^ 128 ∧
      parentFee.toNat + max
        (FeeStep.delta gasTarget 8 parentFee.toNat (gasUsed.toNat - gasTarget)) 1 < 2 ^ 128 ∧
      FeeStep.delta gasTarget 8 parentFee.toNat (gasTarget - gasUsed.toNat) ≤ parentFee.toNat) ∧
    (nextBaseFee parentFee gasUsed).toNat = exactNextFee parentFee.toNat gasUsed.toNat ∧
    1 ≤ (nextBaseFee parentFee gasUsed).toNat ∧
    ((nextBaseFee parentFee gasUsed).toNat ≤
        max parentFee.toNat 1 + max 1 (parentFee.toNat / 8) ∧
      max parentFee.toNat 1 ≤
        (nextBaseFee parentFee gasUsed).toNat + max 1 (parentFee.toNat / 8)) ∧
    (gasTarget < gasUsed.toNat → parentFee.toNat < (nextBaseFee parentFee gasUsed).toNat) ∧
    (gasUsed.toNat ≤ gasTarget →
      (nextBaseFee parentFee gasUsed).toNat ≤ max parentFee.toNat 1) ∧
    (∀ gasUsed' : U128, gasUsed.toNat ≤ gasUsed'.toNat → gasUsed'.toNat ≤ blockGasLimit.toNat →
      (nextBaseFee parentFee gasUsed).toNat ≤ (nextBaseFee parentFee gasUsed').toNat) ∧
    ∀ parentFee' : U128, parentFee.toNat ≤ parentFee'.toNat → parentFee'.toNat < 2 ^ 64 →
      (nextBaseFee parentFee gasUsed).toNat ≤ (nextBaseFee parentFee' gasUsed).toNat := by
  have hgas64 : ∀ {g : U128}, g.toNat ≤ blockGasLimit.toNat → g.toNat < 2 ^ 64 := fun hg =>
    hg.trans_lt (by decide)
  have hexact := nextBaseFee_toNat hfee (hgas64 hgas)
  have htarget : 0 < gasTarget := by decide
  have hlimit : gasUsed.toNat ≤ 2 * gasTarget := hgas
  obtain ⟨hrise, hfall⟩ : FeeStep.next gasTarget 8 parentFee.toNat gasUsed.toNat ≤
        parentFee.toNat + max 1 (parentFee.toNat / 8) ∧
      parentFee.toNat ≤ FeeStep.next gasTarget 8 parentFee.toNat gasUsed.toNat +
        parentFee.toNat / 8 := FeeStep.next_near htarget hlimit
  refine ⟨step_fits hfee (hgas64 hgas), hexact, ?_, ⟨?_, ?_⟩, fun hover => ?_, fun hunder => ?_,
    fun gasUsed' hle hgas' => ?_, fun parentFee' hle hfee' => ?_⟩
  · rw [hexact]
    exact le_max_right _ _
  · rw [hexact, exactNextFee]
    omega
  · rw [hexact, exactNextFee]
    omega
  · rw [hexact]
    exact (FeeStep.lt_next hover).trans_le (le_max_left _ _)
  · rw [hexact]
    exact max_le_max_right 1 (FeeStep.next_le hunder)
  · rw [hexact, nextBaseFee_toNat hfee (hgas64 hgas')]
    exact max_le_max_right 1 (FeeStep.next_mono_used _ hle)
  · rw [hexact, nextBaseFee_toNat hfee' (hgas64 hgas)]
    exact max_le_max_right 1 (FeeStep.next_mono_price htarget (by decide) hle _)

theorem nextBaseFee_eip1559_gwei :
    (nextBaseFee genesisBaseFeeWei (blockGasLimit.setWidth 128)).toNat = 1125000000 ∧
      (nextBaseFee genesisBaseFeeWei (blockGasLimit.setWidth 128)).toNat ≤
        (nextBaseFee 2000000000 (blockGasLimit.setWidth 128)).toNat := by
  obtain ⟨-, hexact, -, -, -, -, -, hprice⟩ := nextBaseFee_eip1559 genesisBaseFeeWei
    (blockGasLimit.setWidth 128) (by decide) (by decide)
  refine ⟨by rw [hexact]; decide, hprice 2000000000 (by decide) (by decide)⟩

end KanariEvm.Gas
