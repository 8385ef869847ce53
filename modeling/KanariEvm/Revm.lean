import KanariEvm.Json
import Mathlib.Algebra.BigOperators.Group.Finset.Basic

namespace KanariEvm

/-- The hash of the empty byte string, revm's marker of an account without code. -/
def keccakEmpty : B256 := 0xc5d2460186f7233c927e7db2dcc703c0e500b653ca82273b7bfad8045d85a470

/-- Account information; bytecode is kept as its original bytes. -/
structure AccountInfo where
  balance : U256
  nonce : U64
  codeHash : B256
  code : Option Bytes
deriving DecidableEq

def AccountInfo.empty : AccountInfo := ⟨0, 0, keccakEmpty, some []⟩

inductive AccountState
  | notExisting
  | touched
  | storageCleared
  | none
deriving DecidableEq

structure DbAccount where
  info : AccountInfo
  accountState : AccountState
  storage : Map U256 U256
deriving DecidableEq

/-- The entry cached for an account that the exterior (empty) database does not know. -/
def DbAccount.newNotExisting : DbAccount := ⟨.empty, .notExisting, ∅⟩

structure InMemoryDB where
  accounts : Map Address DbAccount
  contracts : Map B256 Bytes
deriving DecidableEq

def InMemoryDB.empty : InMemoryDB := ⟨∅, ∅⟩

def DbAccount.visibleInfo (acc : DbAccount) : Option AccountInfo :=
  if acc.accountState = .notExisting then none else some acc.info

/-- The cache entry of an address. An address that is not cached reads as one that does not
exist, which is also what the first read of it caches. -/
def InMemoryDB.entry (db : InMemoryDB) (a : Address) : DbAccount :=
  (db.accounts.lookup a).getD .newNotExisting

def InMemoryDB.codeOfInfo (db : InMemoryDB) : Option AccountInfo → Bytes
  | none => []
  | some info =>
    if info.codeHash = keccakEmpty then []
    else match info.code with
      | some code => code
      | none => (db.contracts.lookup info.codeHash).getD []

/-- An account as the EVM sees it, whatever the cache looks like. -/
@[ext] structure LogicalAccount where
  balance : U256
  nonce : U64
  code : Bytes
  storage : U256 → U256

def InMemoryDB.logical (db : InMemoryDB) (a : Address) : LogicalAccount where
  balance := ((db.entry a).visibleInfo.map (·.balance)).getD 0
  nonce := ((db.entry a).visibleInfo.map (·.nonce)).getD 0
  code := db.codeOfInfo (db.entry a).visibleInfo
  storage := fun s => ((db.entry a).storage.lookup s).getD 0

def InMemoryDB.totalBalance (db : InMemoryDB) : ℕ :=
  ∑ a ∈ db.accounts.keys, (db.logical a).balance.toNat

inductive TxKind
  | call (addr : Address)
  | create
deriving DecidableEq

structure SignedAuthorization where
  chainId : U256
  address : Address
  nonce : U64
  yParity : U8
  r : U256
  s : U256
deriving DecidableEq

abbrev AccessList := List (Address × List B256)

/-- revm's transaction environment. The defaults are those of `TxEnv::default()` for the fields
the repository leaves to `..Default::default()`. -/
structure TxEnv where
  txType : U8 := 0
  caller : Address
  gasLimit : U64
  gasPrice : U128
  kind : TxKind
  value : U256
  data : Bytes
  nonce : U64
  chainId : Option U64
  accessList : AccessList
  gasPriorityFee : Option U128
  blobHashes : List B256 := []
  maxFeePerBlobGas : U128 := 0
  authorizationList : List SignedAuthorization := []
deriving DecidableEq

abbrev SpecId := U8

structure KanariEvmParams where
  chainId : U64
  spec : SpecId
  number : U64
  timestamp : U64
  basefee : U64
  gasLimit : U64
  beneficiary : Address
deriving DecidableEq

inductive Output
  | call (data : Bytes)
  | create (data : Bytes) (address : Option Address)
deriving DecidableEq

def Output.intoData : Output → Bytes
  | .call data => data
  | .create data _ => data

structure Log where
  address : Address
  topics : List B256
  data : Bytes
deriving DecidableEq

inductive ExecutionResult
  | success (gas : U64) (logs : List Log) (output : Output)
  | revert (gas : U64) (output : Bytes)
  | halt (gas : U64)
deriving DecidableEq

def ExecutionResult.gasUsed : ExecutionResult → U64
  | .success gas _ _ => gas
  | .revert gas _ => gas
  | .halt gas => gas

/-- What an execution leaves for `commit` at one address; `storage` holds present values. -/
structure AccountChange where
  info : AccountInfo
  touched : Bool
  created : Bool
  selfdestructed : Bool
  storage : Map U256 U256
deriving DecidableEq

abbrev EvmState := Map Address AccountChange

/-- A request the interpreter makes of its database. Requests for code by hash are answered from
`contracts` and leave the account cache alone. -/
inductive DbRead
  | basic (a : Address)
  | storage (a : Address) (s : U256)
deriving DecidableEq

/-- What the repository uses of revm. The interpreter is generic in its database, so a run of it
is an outcome together with the requests it made, in order. -/
structure Revm where
  hashSlow : Bytes → B256
  basic : InMemoryDB → Address → Option AccountInfo × InMemoryDB
  storage : InMemoryDB → Address → U256 → U256 × InMemoryDB
  insertAccountInfo : InMemoryDB → Address → AccountInfo → InMemoryDB
  insertAccountStorage : InMemoryDB → Address → U256 → U256 → InMemoryDB
  commit : InMemoryDB → EvmState → InMemoryDB
  outcome : InMemoryDB → KanariEvmParams → TxEnv → Except String (ExecutionResult × EvmState)
  reads : InMemoryDB → KanariEvmParams → TxEnv → List DbRead
  inspect : InMemoryDB → KanariEvmParams → TxEnv →
    Except String (ExecutionResult × Except String (List Json))
  gasPriceCharged : TxEnv → U128 → U128

namespace Revm

variable (R : Revm)

def read (db : InMemoryDB) : DbRead → InMemoryDB
  | .basic a => (R.basic db a).2
  | .storage a s => (R.storage db a s).2

def readAll (db : InMemoryDB) (reads : List DbRead) : InMemoryDB := reads.foldl R.read db

def transact (db : InMemoryDB) (params : KanariEvmParams) (tx : TxEnv) :
    InMemoryDB × Except String (ExecutionResult × EvmState) :=
  (R.readAll db (R.reads db params tx), R.outcome db params tx)

end Revm

end KanariEvm
