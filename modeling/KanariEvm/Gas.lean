import KanariEvm.Primitives

namespace KanariEvm.Gas

def blockGasLimit : U64 := 30000000

def genesisBaseFeeWei : U128 := 1000000000

def minBaseFeeWei : U128 := 1

def baseFeeMaxChangeDenominator : U128 := 8

def gasTargetDivisor : U128 := 2

/-- Next-block base fee from EIP-1559 dynamics around the gas target. -/
def calcNextBaseFee (parentFeeWei gasUsed gasLimit : U128) : U128 :=
  let gasTarget := gasLimit / gasTargetDivisor
  if gasTarget = 0 then umax parentFeeWei minBaseFeeWei
  else if gasUsed = gasTarget then umax parentFeeWei minBaseFeeWei
  else if gasUsed > gasTarget then
    let delta := saturatingMul parentFeeWei (gasUsed - gasTarget) / gasTarget /
      baseFeeMaxChangeDenominator
    umax (saturatingAdd parentFeeWei (umax delta 1)) minBaseFeeWei
  else
    let delta := saturatingMul parentFeeWei (gasTarget - gasUsed) / gasTarget /
      baseFeeMaxChangeDenominator
    umax (saturatingSub parentFeeWei delta) minBaseFeeWei

/-- The sender's cap, or base + priority when that is cheaper. -/
def effectiveGasPrice (maxFeePerGas baseFeeWei maxPriorityFeePerGas : U128) : U128 :=
  umin maxFeePerGas (saturatingAdd baseFeeWei maxPriorityFeePerGas)

/-- What vanilla EIP-1559 destroys and Kanari redirects to the block beneficiary. -/
def baseFeeShare (gasUsed : U64) (baseFeeWei : U128) : U256 :=
  saturatingMul (gasUsed.setWidth 256) (baseFeeWei.setWidth 256)

/-- A 64-bit gas amount times a 64-bit base fee stays far below 2^256, so the share is exact. -/
theorem baseFeeShare_toNat (gasUsed baseFee : U64) :
    (baseFeeShare gasUsed (baseFee.setWidth 128)).toNat = gasUsed.toNat * baseFee.toNat := by
  have hg := gasUsed.isLt
  have hb := baseFee.isLt
  have hlt : gasUsed.toNat * baseFee.toNat < 2 ^ 64 * 2 ^ 64 := Nat.mul_lt_mul'' hg hb
  have hg' : (gasUsed.setWidth 256).toNat = gasUsed.toNat := by
    rw [BitVec.toNat_setWidth]
    omega
  have hb' : ((baseFee.setWidth 128).setWidth 256).toNat = baseFee.toNat := by
    rw [BitVec.toNat_setWidth, BitVec.toNat_setWidth]
    omega
  rw [baseFeeShare, saturatingMul_toNat, hg', hb']
  omega

theorem baseFeeShare_eq_zero_iff (gasUsed baseFee : U64) :
    baseFeeShare gasUsed (baseFee.setWidth 128) = 0 ↔ gasUsed = 0 ∨ baseFee = 0 := by
  rw [← BitVec.toNat_inj, baseFeeShare_toNat]
  simp only [BitVec.ofNat_eq_ofNat, BitVec.toNat_ofNat, Nat.zero_mod, Nat.mul_eq_zero]
  rw [← BitVec.toNat_inj, ← BitVec.toNat_inj]
  simp

end KanariEvm.Gas
