import KanariEvm.HexDecode
import KanariEvm.Seal

namespace KanariEvm

/-- Legacy JSON journal format (pre-RocksDB). -/
structure Journal where
  chainId : U64
  genesisAlloc : List (Address × U256)
  blocks : List SealedBlock
deriving DecidableEq

/-- What survives the process: the chain database (chain store and tree share one RocksDB), the
file at the state base, the file it is renamed to and the legacy faucet sidecar. A file at the
state base that is no journal is `some none`. -/
structure DataDir where
  chain : ChainStore
  smt : SparseMerkleTree
  stateFile : Option (Option Journal)
  migratedFile : Option (Option Journal)
  faucetSidecar : Option (List Char)
deriving DecidableEq

def DataDir.fresh : DataDir := ⟨.empty, ⟨∅⟩, none, none, none⟩

def parseFaucetHexFile (text : List Char) : Except NodeError B256 :=
  match hexDecode32 text with
  | .ok bytes => .ok (BitVec.ofNat 256 (fromLeBytes bytes.reverse))
  | .error _ => .error (.storage "malformed faucet key file")

variable (P : Platform)

namespace KanariNode

def blank (spec : KanariChainSpec) (dir : DataDir) : KanariNode where
  spec := spec
  db := .empty
  blocks := []
  receipts := ∅
  store := dir.chain
  smt := dir.smt
  genesisRoot := 0
  faucetKey := none
  dagSender := none

/-- `apply_genesis` on the node's database, then `genesis_root = rebuild_smt()`. -/
def genesis (node : KanariNode) : KanariNode :=
  let node := { node with db := node.spec.applyGenesis P node.db }.rebuilt P
  { node with genesisRoot := node.stateRoot P }

def dataDir (node : KanariNode) (dir : DataDir) : DataDir :=
  { dir with chain := node.store, smt := node.smt }

def pickUpFaucetKey (node : KanariNode) : Except NodeError KanariNode :=
  match node.store.loadFaucetKey with
  | .error e => .error (.ofStore e)
  | .ok none => .ok node
  | .ok (some secret) => .ok { node with faucetKey := some secret }

/-- The end of `open`: the replayed node and its verdict, then the faucet key. -/
def finishOpen (dir : DataDir) (replayed : KanariNode × Except NodeError Unit) :
    DataDir × Except NodeError KanariNode :=
  match replayed with
  | (node, .error e) => (node.dataDir dir, .error e)
  | (node, .ok ()) => (node.dataDir dir, node.pickUpFaucetKey)

/-- One-time migration of a legacy JSON journal: verify it, persist metadata and faucet sidecar,
rename the legacy file aside. Returns the directory, the node and the legacy blocks. -/
def migrateLegacyJournal (node : KanariNode) (dir : DataDir) (file : Option Journal) :
    Except NodeError (DataDir × KanariNode × List SealedBlock) :=
  match file with
  | none => .error (.storage "malformed journal")
  | some journal =>
    if journal.chainId ≠ node.spec.chainId then
      .error (.storage ("legacy journal chain id " ++ toString journal.chainId.toNat ++
        " does not match node chain id " ++ toString node.spec.chainId.toNat))
    else
      let spec := if journal.genesisAlloc ≠ [] then
          { node.spec with genesisAlloc := journal.genesisAlloc }
        else node.spec
      let store := node.store.initMeta spec.chainId spec.genesisAlloc
      -- a sidecar that does not parse is passed over
      let secret := dir.faucetSidecar.bind fun text => (parseFaucetHexFile text).toOption
      let store := match secret with
        | some s => store.setFaucetKey s
        | none => store
      let node := { node with spec := spec, store := store, faucetKey := secret }
      .ok ({ node.dataDir dir with
          stateFile := none
          migratedFile := dir.stateFile
          faucetSidecar := none }, node, journal.blocks)

def openFresh (spec : KanariChainSpec) (dir : DataDir) : DataDir × Except NodeError KanariNode :=
  let node := blank spec dir
  match dir.stateFile with
  | some file =>
    match node.migrateLegacyJournal dir file with
    | .error e => (dir, .error e)
    | .ok (dir, node, pending) => finishOpen dir (replayBlocks P (node.genesis P) pending)
  | none =>
    let node := { node with store := node.store.initMeta spec.chainId spec.genesisAlloc }
    finishOpen dir (node.genesis P, .ok ())

/-- The spec a stored chain is reopened under: the stored allocation, unless it is empty. -/
def reopenSpec (spec : KanariChainSpec) (alloc : List (Address × U256)) : KanariChainSpec :=
  if alloc ≠ [] then { spec with genesisAlloc := alloc } else spec

def openStored (spec : KanariChainSpec) (dir : DataDir) (storedChain : U64) :
    DataDir × Except NodeError KanariNode :=
  if storedChain ≠ spec.chainId then
    (dir, .error (.storage ("stored chain id " ++ toString storedChain.toNat ++
      " does not match node chain id " ++ toString spec.chainId.toNat)))
  else
    match dir.chain.storedGenesisAlloc with
    | .error e => (dir, .error (.ofStore e))
    | .ok alloc =>
      let node := (blank (reopenSpec spec alloc) dir).genesis P
      match node.store.loadBlocks with
      | .error e => (node.dataDir dir, .error (.ofStore e))
      | .ok blocks => finishOpen dir (replayBlocks P node blocks)

/-- Open (or create) a node: the directory afterwards, and the node or the error. -/
def «open» (spec : KanariChainSpec) (dir : DataDir) : DataDir × Except NodeError KanariNode :=
  match dir.chain.storedChainId with
  | .error e => (dir, .error (.ofStore e))
  | .ok none => openFresh P spec dir
  | .ok (some storedChain) => openStored P spec dir storedChain

end KanariNode

end KanariEvm
