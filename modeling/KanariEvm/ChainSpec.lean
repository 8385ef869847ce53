import KanariEvm.Platform
import KanariEvm.Gas

namespace KanariEvm

/-- Minimal chain spec: id + active hardfork + genesis allocations. -/
structure KanariChainSpec where
  chainId : U64
  specId : SpecId
  genesisAlloc : List (Address × U256)
  genesisCode : List (Address × Bytes)
  genesisStorage : List (Address × U256 × U256)
  baseFeeWei : U128
deriving DecidableEq

def kanariEvmDevChainId : U64 := 19088

/-- Hardfork active at genesis on a fresh Kanari chain: `AMSTERDAM`. -/
def kanariEvmGenesisSpec : SpecId := 14

def devFundedAccount : Address := 0xc88c539aa6f67daedaea7aff75fe1f8848d6cec2

def devFundedBalance : U128 := 11000000000000000000000000

namespace KanariChainSpec

def devnet : KanariChainSpec where
  chainId := kanariEvmDevChainId
  specId := kanariEvmGenesisSpec
  genesisAlloc := [(devFundedAccount, devFundedBalance.setWidth 256)]
  genesisCode := []
  genesisStorage := []
  baseFeeWei := Gas.genesisBaseFeeWei

def withAlloc (chainId : U64) (specId : SpecId) (genesisAlloc : List (Address × U256)) :
    KanariChainSpec :=
  ⟨chainId, specId, genesisAlloc, [], [], Gas.genesisBaseFeeWei⟩

/-- Override the genesis base fee (builder style). -/
def withBaseFee (spec : KanariChainSpec) (baseFeeWei : U128) : KanariChainSpec :=
  { spec with baseFeeWei := umax baseFeeWei 1 }

variable (P : Platform) (spec : KanariChainSpec)

/-- One turn of the allocation loop: the balance, with the code listed for the address if any. -/
def insertAlloc (db : InMemoryDB) (entry : Address × U256) : InMemoryDB :=
  -- an empty code entry counts as none
  let code := ((spec.genesisCode.find? fun c => c.1 = entry.1).map (·.2)).filter (· ≠ [])
  P.insertAccountInfo db entry.1 {
    balance := entry.2
    nonce := 0
    codeHash := match code with
      | some bc => P.hashSlow bc
      | none => keccakEmpty
    code := code }

/-- One turn of the code loop: contracts with no balance entry. -/
def insertCode (db : InMemoryDB) (entry : Address × Bytes) : InMemoryDB :=
  if entry.2 = [] ∨ spec.genesisAlloc.any (fun a => a.1 = entry.1) then db
  else P.insertAccountInfo db entry.1 {
    balance := 0
    nonce := 0
    codeHash := P.hashSlow entry.2
    code := some entry.2 }

def applyGenesis (db : InMemoryDB) : InMemoryDB :=
  let db := spec.genesisAlloc.foldl (spec.insertAlloc P) db
  let db := spec.genesisCode.foldl (spec.insertCode P) db
  spec.genesisStorage.foldl (fun db s => P.insertAccountStorage db s.1 s.2.1 s.2.2) db

end KanariChainSpec

end KanariEvm
