import KanariEvm.DevWallet
import KanariEvm.Fork
import KanariEvm.Genesis
import KanariEvm.Start

namespace KanariEvm

open LastWrite

def kanariEvmMaxSupplyEth : U128 := 11000000

/-- Circulating supply and protocol max supply, in wei. -/
def KanariNode.supply (node : KanariNode) : U256 × U256 :=
  (node.spec.genesisAlloc.foldl (fun acc e => saturatingAdd acc e.2) 0,
    saturatingMul (kanariEvmMaxSupplyEth.setWidth 256) (weiInEth.setWidth 256))

def forkFaucetEth : U128 := 1000000

/-- The options that `run_fork` starts the node with, from what it fetched (nothing but the chain
id on a reopen) and the faucet account it chose. -/
def forkStartOptions (dataDir : String) (fresh : Bool) (forked : ForkedGenesis)
    (faucet : Address × B256) : StartOptions where
  network := .devnet
  dataDir := dataDir
  faucets := [(faucet.1, forkFaucetEth)]
  faucetKey := some faucet.2
  logLevel := .info
  chainIdOverride := some forked.chainId
  genesisExtra := {
    alloc := if fresh then
        forked.alloc ++ [(faucet.1, (saturatingMul forkFaucetEth weiInEth).setWidth 256)]
      else forked.alloc
    code := forked.code
    storage := forked.storage }

theorem foldl_saturatingAdd_toNat {w : ℕ} (alloc : List (Address × BitVec w)) (acc : BitVec w) :
    (alloc.foldl (fun acc e => saturatingAdd acc e.2) acc).toNat =
      min (acc.toNat + (alloc.map fun e => e.2.toNat).sum) (2 ^ w - 1) := by
  induction alloc generalizing acc with
  | nil =>
    have := acc.isLt
    simp only [List.foldl_nil, List.map_nil, List.sum_nil]
    omega
  | cons e alloc ih =>
    rw [List.foldl_cons, ih, saturatingAdd_toNat, List.map_cons, List.sum_cons]
    omega

/-- What genesis puts into circulation: the last allocation of each address. -/
theorem totalBalance_applyGenesis {P : Platform} (hR : P.toRevm.CacheLaws)
    (spec : KanariChainSpec) :
    (spec.applyGenesis P .empty).totalBalance =
      ∑ a ∈ (spec.genesisAlloc.map (·.1)).toFinset,
        ((last (under a) spec.genesisAlloc).map (·.toNat)).getD 0 := by
  set db := spec.applyGenesis P .empty with hdb
  set listed := (spec.genesisAlloc.map (·.1)).toFinset
  have hbalance : ∀ a, (db.logical a).balance.toNat =
      ((last (under a) spec.genesisAlloc).map (·.toNat)).getD 0 := by
    intro a
    rw [hdb, spec.applyGenesis_balance a hR]
    cases last (under a) spec.genesisAlloc <;> rfl
  have hkeys : db.accounts.keys ⊆ db.accounts.keys ∪ listed := Finset.subset_union_left
  rw [InMemoryDB.totalBalance_eq_sum hkeys]
  simp only [hbalance]
  symm
  apply Finset.sum_subset Finset.subset_union_right
  intro a _ ha
  rw [last_under_of_notMem]
  · rfl
  · intro balance hmem
    exact ha (List.mem_toFinset.mpr (List.mem_map.mpr ⟨_, hmem, rfl⟩))

theorem supply_toNat {P : Platform} (hR : P.toRevm.CacheLaws) (spec : KanariChainSpec) :
    (KanariNode.created P spec).supply.1.toNat =
      min ((spec.applyGenesis P .empty).totalBalance +
        ((overwritten spec.genesisAlloc).map (·.toNat)).sum) (2 ^ 256 - 1) := by
  have hspec : (KanariNode.created P spec).spec = spec := rfl
  have hsum := sum_last_add_overwritten (fun balance : U256 => balance.toNat) spec.genesisAlloc
  rw [KanariNode.supply, hspec, foldl_saturatingAdd_toNat, totalBalance_applyGenesis hR, hsum]
  simp

theorem sum_overwritten_eq_zero_iff (alloc : List (Address × U256)) :
    ((overwritten alloc).map (·.toNat)).sum = 0 ↔
      ∀ before a balance after, alloc = before ++ (a, balance) :: after →
        a ∈ after.map (·.1) → balance = 0 := by
  rw [List.sum_eq_zero_iff]
  constructor
  · intro h before a balance after heq hmem
    have hover := mem_overwritten.mpr ⟨before, a, after, heq, hmem⟩
    have hzero := h balance.toNat (List.mem_map.mpr ⟨balance, hover, rfl⟩)
    exact BitVec.eq_of_toNat_eq hzero
  · intro h n hn
    obtain ⟨balance, hover, rfl⟩ := List.mem_map.mp hn
    obtain ⟨before, a, after, heq, hmem⟩ := mem_overwritten.mp hover
    rw [h before a balance after heq hmem]
    rfl

/-- The reported supply is the sum of all balances after genesis exactly when no allocation that
counts is overwritten by a later one of the same address, or the balances fill the width of the
sum. -/
theorem supply_is_real_iff {P : Platform} (hR : P.toRevm.CacheLaws) (spec : KanariChainSpec)
    (hlt : (spec.applyGenesis P .empty).totalBalance < 2 ^ 256) :
    (spec.applyGenesis P .empty).totalBalance = (KanariNode.created P spec).supply.1.toNat ↔
      (∀ before a balance after, spec.genesisAlloc = before ++ (a, balance) :: after →
        a ∈ after.map (·.1) → balance = 0) ∨
      (spec.applyGenesis P .empty).totalBalance = 2 ^ 256 - 1 := by
  rw [supply_toNat hR, ← sum_overwritten_eq_zero_iff]
  omega

theorem supply_is_real_devnet :
    (KanariChainSpec.devnet.applyGenesis Reference.platform .empty).totalBalance =
      (KanariNode.created Reference.platform .devnet).supply.1.toNat := by
  have htotal := totalBalance_applyGenesis Reference.cacheLaws .devnet
  have hlt : (KanariChainSpec.devnet.applyGenesis Reference.platform .empty).totalBalance <
      2 ^ 256 := by
    rw [htotal]
    decide +kernel
  rw [supply_is_real_iff Reference.cacheLaws .devnet hlt]
  refine .inl fun before a balance after heq hmem => ?_
  have hover := mem_overwritten.mpr ⟨before, a, after, heq, hmem⟩
  cases hover

/-- A start whose `--faucet` repeats an address reports what it minted to it twice. So would a fresh
fork, which hands its faucet over twice. -/
theorem supply_counts_overwritten :
    let twice := StartOptions.spec
      { StartOptions.localhost with faucets := [(0xdead, 100), (0xdead, 100)] } true
    let fork := (forkStartOptions "./.kanari-evm-fork" true ⟨1, [], [], []⟩
      (Reference.funded, DevWallet.key)).spec true
    (twice.applyGenesis Reference.platform .empty).totalBalance = 11000100000000000000000000 ∧
      (KanariNode.created Reference.platform twice).supply.1 = 11000200000000000000000000 ∧
      fork.genesisAlloc = [(devFundedAccount, 11000000000000000000000000),
        (Reference.funded, 1000000000000000000000000),
        (Reference.funded, 1000000000000000000000000)] ∧
      (fork.applyGenesis Reference.platform .empty).totalBalance =
        12000000000000000000000000 ∧
      (KanariNode.created Reference.platform fork).supply.1 = 13000000000000000000000000 := by
  refine ⟨?_, by decide +kernel, by decide +kernel, ?_, by decide +kernel⟩
  · rw [totalBalance_applyGenesis Reference.cacheLaws]
    decide +kernel
  · rw [totalBalance_applyGenesis Reference.cacheLaws]
    decide +kernel

end KanariEvm
