import KanariEvm.Primitives

namespace KanariEvm

structure SealedBlock where
  number : U64
  timestamp : U64
  hash : B256
  parentHash : B256
  txs : List Bytes
  stateRoot : Option B256
  baseFee : U64
deriving DecidableEq

structure StoredLog where
  address : Address
  topics : List B256
  data : Bytes
deriving DecidableEq

structure StoredReceipt where
  txHash : B256
  blockNumber : U64
  blockHash : B256
  gasUsed : U64
  success : Bool
  fromAddr : Address
  toAddr : Option Address
  contractAddress : Option Address
  logs : List StoredLog
deriving DecidableEq

/-- What a key of the database holds: raw bytes, or a JSON document, which is kept as the value
it denotes because serialisation round-trips. -/
inductive StoreValue
  | bytes (b : Bytes)
  | block (b : SealedBlock)
  | receipt (r : StoredReceipt)
  | alloc (a : List (Address × U256))
deriving DecidableEq

inductive StoreError
  | backend (msg : String)
  | chainMismatch (stored wanted : U64)
deriving DecidableEq

namespace Keys

def metaChainId : Bytes := ascii "m:chain_id".toList
def metaGenesis : Bytes := ascii "m:genesis".toList
def metaHeight : Bytes := ascii "m:height".toList
def metaFaucetKey : Bytes := ascii "m:faucet_key".toList

/-- `b:{number:016x}`: fixed-width hex keeps byte order. -/
def blockKey (number : U64) : Bytes := ascii ('b' :: ':' :: hexFixed 16 number.toNat)

def receiptKey (hash : B256) : Bytes := ascii ('r' :: ':' :: hexEncode hash.asSlice)

def txIndexKey (hash : B256) : Bytes := ascii ('t' :: ':' :: hexEncode hash.asSlice)

theorem blockKey_injective : Function.Injective blockKey := by
  intro a b h
  have hd := (List.cons.inj (List.cons.inj h).2).2
  apply BitVec.eq_of_toNat_eq
  exact ascii_hexFixed_injective (by simpa using a.isLt) (by simpa using b.isLt) hd

theorem receiptKey_injective : Function.Injective receiptKey := by
  intro a b h
  have hd := (List.cons.inj (List.cons.inj h).2).2
  exact B256.asSlice_injective (ascii_hexEncode_injective hd)

theorem txIndexKey_injective : Function.Injective txIndexKey := by
  intro a b h
  have hd := (List.cons.inj (List.cons.inj h).2).2
  exact B256.asSlice_injective (ascii_hexEncode_injective hd)

def table (key : Bytes) : Option U8 := key.head?

@[simp] theorem table_blockKey (n : U64) : table (blockKey n) = some 0x62 := rfl
@[simp] theorem table_receiptKey (h : B256) : table (receiptKey h) = some 0x72 := rfl
@[simp] theorem table_txIndexKey (h : B256) : table (txIndexKey h) = some 0x74 := rfl
@[simp] theorem table_metaChainId : table metaChainId = some 0x6d := by decide
@[simp] theorem table_metaGenesis : table metaGenesis = some 0x6d := by decide
@[simp] theorem table_metaHeight : table metaHeight = some 0x6d := by decide
@[simp] theorem table_metaFaucetKey : table metaFaucetKey = some 0x6d := by decide

theorem ne_of_table {a b : Bytes} (h : table a ≠ table b) : a ≠ b := fun e => h (congrArg table e)

end Keys

/-- Chain data store: the key space of one RocksDB, less the keys of the SMT layer. -/
structure ChainStore where
  db : Map Bytes StoreValue
deriving DecidableEq

abbrev WriteBatch := List (Bytes × StoreValue)

namespace ChainStore

def empty : ChainStore := ⟨∅⟩

def write (s : ChainStore) (batch : WriteBatch) : ChainStore :=
  ⟨batch.foldl (fun db put => db.insert put.1 put.2) s.db⟩

def u64Value (n : U64) : StoreValue := .bytes (toLeBytes 8 n.toNat)

def getU64 (s : ChainStore) (key : Bytes) : Except StoreError (Option U64) :=
  match s.db.lookup key with
  | none => .ok none
  | some (.bytes b) =>
    if b.length = 8 then .ok (some (BitVec.ofNat 64 (fromLeBytes b)))
    else .error (.backend "corrupt meta entry")
  | some _ => .error (.backend "corrupt meta entry")

/-- The puts of `save_block`: block, receipts with their index entries, then the height. -/
def sealBatch (block : SealedBlock) (receipts : List (B256 × StoredReceipt)) : WriteBatch :=
  (Keys.blockKey block.number, .block block) ::
    (receipts.flatMap fun r =>
      [(Keys.receiptKey r.1, .receipt r.2), (Keys.txIndexKey r.1, u64Value block.number)]) ++
    [(Keys.metaHeight, u64Value block.number)]

/-- Seal a block atomically: block + receipts + tx index + height. A backend that refuses the
batch writes nothing. -/
def saveBlock (s : ChainStore) (block : SealedBlock) (receipts : List (B256 × StoredReceipt))
    (fault : Option String) : Except StoreError ChainStore :=
  match fault with
  | some msg => .error (.backend msg)
  | none => .ok (s.write (sealBatch block receipts))

def loadBlock (s : ChainStore) (number : U64) : Except StoreError (Option SealedBlock) :=
  match s.db.lookup (Keys.blockKey number) with
  | none => .ok none
  | some (.block b) => .ok (some b)
  | some _ => .error (.backend "malformed block record")

/-- The records found for a list of numbers; absent ones are skipped. -/
def loadNumbers (s : ChainStore) : List ℕ → Except StoreError (List SealedBlock)
  | [] => .ok []
  | n :: ns => do
    let found ← s.loadBlock (BitVec.ofNat 64 n)
    let rest ← s.loadNumbers ns
    return found.toList ++ rest

def height (s : ChainStore) : Except StoreError U64 := do
  return (← s.getU64 Keys.metaHeight).getD 0

def loadBlocks (s : ChainStore) : Except StoreError (List SealedBlock) := do
  let height := (← s.getU64 Keys.metaHeight).getD 0
  s.loadNumbers ((List.range height.toNat).map (· + 1))

def loadReceipt (s : ChainStore) (hash : B256) : Except StoreError (Option StoredReceipt) :=
  match s.db.lookup (Keys.receiptKey hash) with
  | none => .ok none
  | some (.receipt r) => .ok (some r)
  | some _ => .error (.backend "malformed receipt record")

def blockNumberForTx (s : ChainStore) (hash : B256) : Except StoreError (Option U64) :=
  match s.db.lookup (Keys.txIndexKey hash) with
  | none => .ok none
  | some (.bytes b) =>
    if b.length = 8 then .ok (some (BitVec.ofNat 64 (fromLeBytes b)))
    else .error (.backend "corrupt tx index entry")
  | some _ => .error (.backend "corrupt tx index entry")

def initMeta (s : ChainStore) (chainId : U64) (genesisAlloc : List (Address × U256)) :
    ChainStore :=
  s.write [(Keys.metaChainId, u64Value chainId), (Keys.metaGenesis, .alloc genesisAlloc)]

def storedChainId (s : ChainStore) : Except StoreError (Option U64) := s.getU64 Keys.metaChainId

def storedGenesisAlloc (s : ChainStore) : Except StoreError (List (Address × U256)) :=
  match s.db.lookup Keys.metaGenesis with
  | none => .ok []
  | some (.alloc a) => .ok a
  | some _ => .error (.backend "malformed genesis allocation")

def setFaucetKey (s : ChainStore) (secret : B256) : ChainStore :=
  s.write [(Keys.metaFaucetKey, .bytes secret.asSlice)]

def loadFaucetKey (s : ChainStore) : Except StoreError (Option B256) :=
  match s.db.lookup Keys.metaFaucetKey with
  | none => .ok none
  | some (.bytes b) =>
    if b.length = 32 then .ok (some (BitVec.ofNat 256 (fromLeBytes b.reverse)))
    else .error (.backend "corrupt faucet key")
  | some _ => .error (.backend "corrupt faucet key")

end ChainStore

end KanariEvm
