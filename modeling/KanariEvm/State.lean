import KanariEvm.Node

namespace KanariEvm

variable (P : Platform)

def smtDomain : Bytes := ascii "kanari-evm-smt-v1".toList

def addressBytes (a : Address) : Bytes := toBeBytes 20 a.toNat

def smtAccountKey (a : Address) : Bytes := P.blake3 (smtDomain ++ 0x00 :: addressBytes a)

def smtStorageKey (a : Address) (slot : U256) : Bytes :=
  P.blake3 (smtDomain ++ 0x01 :: (addressBytes a ++ toBeBytes 32 slot.toNat))

/-- SMT value for an account: `balance_be32 || nonce_be8 || code_hash`. -/
def encodeAccount (info : AccountInfo) : Bytes :=
  toBeBytes 32 info.balance.toNat ++ toBeBytes 8 info.nonce.toNat ++ info.codeHash.asSlice

/-- The filter of `rebuild_smt`: accounts without balance, nonce and code are left out. -/
def AccountInfo.Blank (info : AccountInfo) : Prop :=
  info.balance = 0 ∧ info.nonce = 0 ∧ info.codeHash = keccakEmpty

instance (info : AccountInfo) : Decidable info.Blank := by unfold AccountInfo.Blank; infer_instance

/-- The entries one cached account contributes: itself and every slot its cache holds. -/
def accountEntries (a : Address) (account : DbAccount) : Finset (Bytes × Bytes) :=
  if account.info.Blank then ∅
  else insert (smtAccountKey P a, encodeAccount account.info)
    (account.storage.entries.map fun slot =>
      (smtStorageKey P a slot.1, toBeBytes 32 slot.2.toNat)).toFinset

def smtEntries (db : InMemoryDB) : Finset (Bytes × Bytes) :=
  (db.accounts.entries.bind fun e => (accountEntries P e.1 e.2).val).toFinset

/-- A backend fault of `smt.rebuild`: its message and the tree it leaves behind. -/
abbrev SmtFault := Option (String × SparseMerkleTree)

structure SmtProof where
  root : B256
  key : B256
  value : Option Bytes
  isMember : Bool
  leaf : B256
  siblings : List B256
deriving DecidableEq

structure CallRequest where
  fromAddr : Option Address := none
  toAddr : Option Address := none
  data : Option Bytes := none
  value : Option U256 := none
  gas : Option U64 := none
  gasPrice : Option U128 := none
  nonce : Option U64 := none
deriving DecidableEq

def defaultCallGas : U64 := 15000000

structure CallResult where
  success : Bool
  gasUsed : U64
  output : Bytes
deriving DecidableEq

def CallResult.fromOutput : ExecutionResult → CallResult
  | .success gas _ output => ⟨true, gas, output.intoData⟩
  | .revert gas output => ⟨false, gas, output⟩
  | .halt gas => ⟨false, gas, []⟩

namespace KanariNode

variable (node : KanariNode)

/-! The error type of `InMemoryDB` is `Infallible`, so the `map_err` of these reads never fires. -/

def balanceOf (a : Address) : KanariNode × U256 :=
  let (info, db) := P.basic node.db a
  ({ node with db := db }, (info.map (·.balance)).getD 0)

def nonceOf (a : Address) : KanariNode × U64 :=
  let (info, db) := P.basic node.db a
  ({ node with db := db }, (info.map (·.nonce)).getD 0)

def codeOf (a : Address) : KanariNode × Bytes :=
  let (info, db) := P.basic node.db a
  ({ node with db := db }, db.codeOfInfo info)

def storageOf (a : Address) (slot : U256) : KanariNode × U256 :=
  let (value, db) := P.storage node.db a slot
  ({ node with db := db }, value)

def stateRoot : B256 := P.smtRoot node.smt.entries

def smtProof (a : Address) (slot : Option U256) : SmtProof :=
  let key := match slot with
    | some s => smtStorageKey P a s
    | none => smtAccountKey P a
  let (isMember, leaf, siblings) := P.smtProof node.smt.entries key
  ⟨node.stateRoot P, BitVec.ofNat 256 (fromLeBytes key.reverse), P.smtGet node.smt.entries key,
    isMember, leaf, siblings⟩

def rebuilt : KanariNode := { node with smt := ⟨smtEntries P node.db⟩ }

/-- Rebuild the SMT state commitment from the full live revm cache. -/
def rebuildSmt (fault : SmtFault) : KanariNode × Except NodeError B256 :=
  match fault with
  | some (msg, tree) => ({ node with smt := tree }, .error (.storage msg))
  | none => (node.rebuilt P, .ok ((node.rebuilt P).stateRoot P))

def evmParams (spec : KanariChainSpec) (number timestamp basefee : U64) : KanariEvmParams where
  chainId := spec.chainId
  spec := spec.specId
  number := number
  timestamp := timestamp
  basefee := basefee
  gasLimit := Gas.blockGasLimit
  beneficiary := blockBeneficiary

/-- The message of a call request, with the node after its nonce lookup. -/
def callTx (call : CallRequest) : KanariNode × TxEnv :=
  let caller := call.fromAddr.getD 0
  let (node, nonce) := match call.nonce with
    | some n => (node, n)
    | none => node.nonceOf P caller
  (node, {
    caller := caller
    gasLimit := call.gas.getD defaultCallGas
    gasPrice := call.gasPrice.getD (node.pendingBaseFee P)
    kind := match call.toAddr with
      | some addr => .call addr
      | none => .create
    value := call.value.getD 0
    data := call.data.getD []
    nonce := nonce
    chainId := some node.spec.chainId
    gasPriorityFee := none
    accessList := [] })

def headParams (now : U64) : KanariEvmParams :=
  evmParams node.spec node.blockNumber now ((node.pendingBaseFee P).setWidth 64)

def call (request : CallRequest) (now : U64) : KanariNode × Except NodeError CallResult :=
  let (node, tx) := node.callTx P request
  let (db, out) := P.transact node.db (node.headParams P now) tx
  ({ node with db := db }, match out with
    | .error e => .error (.execution e)
    | .ok (result, _) => .ok (CallResult.fromOutput result))

end KanariNode

end KanariEvm
