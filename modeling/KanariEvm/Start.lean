import KanariEvm.Faucet
import KanariEvm.Migration

namespace KanariEvm

inductive NetworkMode
  | devnet
  | testnet
  | mainnet
deriving DecidableEq

def NetworkMode.asStr : NetworkMode → String
  | .devnet => "devnet"
  | .testnet => "testnet"
  | .mainnet => "mainnet"

inductive LogLevel
  | trace
  | debug
  | info
  | warn
  | error
deriving DecidableEq

def LogLevel.asStr : LogLevel → String
  | .trace => "trace"
  | .debug => "debug"
  | .info => "info"
  | .warn => "warn"
  | .error => "error"

/-- Fork-imported genesis pieces beyond the faucet-style alloc list. -/
structure ForkGenesisExtra where
  alloc : List (Address × U256)
  code : List (Address × Bytes)
  storage : List (Address × U256 × U256)

/-- What `run` reads of its options. The path of the data directory is for messages: its contents
are the directory that `run` is given. -/
structure StartOptions where
  network : NetworkMode
  dataDir : String
  faucets : List (Address × U128)
  faucetKey : Option B256
  logLevel : LogLevel
  chainIdOverride : Option U64
  genesisExtra : ForkGenesisExtra

def StartOptions.localhost : StartOptions where
  network := .devnet
  dataDir := "./.kanari-evm-local"
  faucets := []
  faucetKey := none
  logLevel := .info
  chainIdOverride := none
  genesisExtra := ⟨[], [], []⟩

/-- What the machine decides of a start: the errors of setting up logs and of creating the
directory, the account that `generate_faucet_key` draws, and the error of writing its key. -/
structure StartIo where
  initLogging : String → Option String
  createDirAll : Option String
  generated : Address × B256
  setFaucetKey : Option String

/-- How a start ends before it serves: with a message, with the error of a step, or in a panic. -/
inductive Fatal
  | message (text : String)
  | failedTo (what : String) (e : NodeError)
  | panicked (expected : String)
deriving DecidableEq

namespace StartOptions

variable (W : Wallet) (opts : StartOptions) (io : StartIo) (fresh : Bool)

/-- The faucet account that a start brings along: the one given, or a new one on fresh state. -/
def faucetSecret : Except Fatal (Option (Address × B256)) :=
  match opts.faucetKey with
  | some secret =>
    match W.address secret with
    | .error _ => .error (.message "invalid --faucet-key secret")
    | .ok addr => .ok (some (addr, secret))
  | none => .ok (if fresh then some io.generated else none)

def baseSpec : KanariChainSpec :=
  if opts.faucets = [] then .devnet
  else
    let funded := (devFundedAccount, devFundedBalance.setWidth 256)
    let extra := opts.faucets.map fun f => (f.1, (saturatingMul f.2 weiInEth).setWidth 256)
    .withAlloc kanariEvmDevChainId kanariEvmGenesisSpec (funded :: if fresh then extra else [])

def spec : KanariChainSpec :=
  let spec := opts.baseSpec fresh
  if fresh then
    { spec with
      chainId := opts.chainIdOverride.getD spec.chainId
      genesisAlloc := spec.genesisAlloc ++ opts.genesisExtra.alloc
      genesisCode := opts.genesisExtra.code
      genesisStorage := opts.genesisExtra.storage }
  else spec

end StartOptions

namespace KanariNode

variable (P : Platform) (W : Wallet) (node : KanariNode)

def faucetAddress : Except NodeError (Option Address) :=
  match node.faucetKey with
  | none => .ok none
  | some secret =>
    match W.address secret with
    | .error e => .error (.storage s!"bad faucet key: {e}")
    | .ok addr => .ok (some addr)

def enableFaucet (addr : Address) (secret : B256) (fault : Option String) :
    KanariNode × Except Fatal Unit :=
  match node.setFaucetKey secret fault with
  | (node, .error e) => (node, .error (.failedTo "store faucet key" e))
  | (node, .ok ()) => ((node.balanceOf P addr).1, .ok ())

def restoreFaucet : KanariNode × Except Fatal Unit :=
  match node.loadFaucetKey with
  | (node, .error e) => (node, .error (.failedTo "load faucet key" e))
  | (node, .ok false) => (node, .ok ())
  | (node, .ok true) =>
    match node.faucetAddress W with
    | .error _ => (node, .error (.panicked "key just loaded"))
    | .ok none => (node, .error (.panicked "address derivable"))
    | .ok (some _) => (node, .ok ())

end KanariNode

section Run

variable (P : Platform) (W : Wallet) (opts : StartOptions) (io : StartIo)

/-- `run` up to the point where it serves: the directory, and the node or the reason why not.
Whether the state is fresh is read off the state file. -/
def run (dir : DataDir) : DataDir × Except Fatal KanariNode :=
  match io.initLogging opts.logLevel.asStr with
  | some e => (dir, .error (.message e))
  | none =>
    if opts.network ≠ .devnet then
      (dir, .error (.message
        ("--network " ++ opts.network.asStr ++ " has no EVM chain spec yet; use devnet")))
    else
      match io.createDirAll with
      | some e =>
        (dir, .error (.message ("cannot create data dir " ++ opts.dataDir ++ ": " ++ e)))
      | none =>
        let fresh := dir.stateFile.isNone
        match opts.faucetSecret W io fresh with
        | .error e => (dir, .error e)
        | .ok faucetSecret =>
          match KanariNode.open P (opts.spec fresh) dir with
          | (dir, .error e) => (dir, .error (.failedTo "open node" e))
          | (dir, .ok node) =>
            let (node, result) := match faucetSecret with
              | some (addr, secret) => node.enableFaucet P addr secret io.setFaucetKey
              | none => node.restoreFaucet W
            (node.dataDir dir, result.map fun _ => node)

end Run

inductive Served
  | op (op : Op)
  | faucet (toAddr : Address) (amountWei : U256) (now : U64) (io : SealIo)
deriving DecidableEq

/-- One start of the process on a directory. It may run: then it ends in `run`, or serves until it
ends, with the tree possibly ahead of the chain. Or it is killed while `open` works: on a new state
base after a step of the migration, on a stored chain after some blocks of the replay. -/
inductive Start
  | ran (opts : StartOptions) (io : StartIo) (requests : List Served) (tree : SparseMerkleTree)
  | killed (opts : StartOptions) (step : MigrationStep) (replayed : ℕ) (tree : SparseMerkleTree)

def Start.options : Start → StartOptions
  | .ran opts _ _ _ => opts
  | .killed opts _ _ _ => opts

section Starts

variable (P : Platform) (W : Wallet)

def KanariNode.handle (node : KanariNode) : Served → KanariNode
  | .op op => node.perform P op
  | .faucet toAddr amountWei now io => (node.faucet P W toAddr amountWei now io).1

def KanariNode.handleAll (node : KanariNode) (requests : List Served) : KanariNode :=
  requests.foldl (KanariNode.handle P W) node

def killedOpen (spec : KanariChainSpec) (dir : DataDir) (step : MigrationStep) (replayed : ℕ)
    (tree : SparseMerkleTree) : DataDir :=
  match dir.chain.storedChainId with
  | .error _ => dir
  | .ok (some stored) =>
    if stored = spec.chainId then KanariNode.crashedOpen P spec dir replayed tree else dir
  | .ok none =>
    match dir.stateFile with
    | some (some journal) =>
      if journal.chainId = spec.chainId then dir.afterStep P spec journal tree step else dir
    | some none => dir
    -- without a journal there is one durable step
    | none =>
      if step = .untouched then { dir with smt := tree }
      else { dir with chain := dir.chain.initMeta spec.chainId spec.genesisAlloc, smt := tree }

def started (dir : DataDir) : Start → DataDir
  | .ran opts io requests tree =>
    match run P W opts io dir with
    | (dir, .error _) => dir
    | (dir, .ok node) => { (node.handleAll P W requests).dataDir dir with smt := tree }
  | .killed opts step replayed tree =>
    if opts.network = .devnet then
      killedOpen P (opts.spec dir.stateFile.isNone) dir step replayed tree
    else dir

def afterStarts (dir : DataDir) (starts : List Start) (i : ℕ) : DataDir :=
  (starts.take i).foldl (started P W) dir

def Start.Serves (dir : DataDir) (start : Start) (node : KanariNode) : Prop :=
  ∃ opts io requests tree first n, start = .ran opts io requests tree ∧
    (run P W opts io dir).2 = .ok first ∧ node = first.handleAll P W (requests.take n)

end Starts

end KanariEvm
