import KanariEvm.DevWallet
import KanariEvm.Drips
import KanariEvm.Start
import KanariEvm.Tables

namespace KanariEvm

open DataDir

namespace ChainStore

theorem loadFaucetKey_setFaucetKey (s : ChainStore) (secret : B256) :
    (s.setFaucetKey secret).loadFaucetKey = .ok (some secret) :=
  loadFaucetKey_of_lookup (by rw [lookup_setFaucetKey, if_pos rfl]; rfl)

theorem storedChainId_setFaucetKey (s : ChainStore) (secret : B256) :
    (s.setFaucetKey secret).storedChainId = s.storedChainId := by
  have hsame : SameMeta s (s.perform (.setFaucetKey secret)) :=
    SameMeta.perform s fun chainId alloc h => by cases h
  exact hsame.chainId

theorem storedChainId_initMeta (s : ChainStore) (chainId : U64) (alloc : List (Address × U256)) :
    (s.initMeta chainId alloc).storedChainId = .ok (some chainId) := by
  apply getU64_of_lookup
  have hne : Keys.metaChainId ≠ Keys.metaGenesis := by decide
  simp only [initMeta, write, List.foldl_cons, List.foldl_nil, Map.lookup_insert_ite, if_neg hne,
    if_pos]

end ChainStore

def DataDir.Stores (dir : DataDir) (secret : B256) : Prop :=
  dir.chain.loadFaucetKey = .ok (some secret)

def DataDir.Initialised (dir : DataDir) : Prop :=
  ∃ chainId, dir.chain.storedChainId = .ok (some chainId)

/-- No key without a chain: what holds of every directory that starts have worked on. -/
def DataDir.KeyHasChain (dir : DataDir) : Prop :=
  dir.chain.loadFaucetKey = .ok none ∨ dir.Initialised

/-- What work on a directory, short of installing a drawn key, can do to it: no state file is
created, and the key changes only where there was no chain yet. -/
structure DataDir.Worked (dir dir' : DataDir) : Prop where
  stateFile : dir'.stateFile = dir.stateFile ∨ dir'.stateFile = none
  chain : dir'.Initialised ∨ dir'.chain.storedChainId = dir.chain.storedChainId ∧
    dir'.chain.loadFaucetKey = dir.chain.loadFaucetKey
  key : dir.chain.storedChainId = .ok none ∨ dir'.chain.loadFaucetKey = dir.chain.loadFaucetKey

structure DataDir.Alike (dir dir' : DataDir) : Prop where
  stateFile : dir'.stateFile = dir.stateFile
  chainId : dir'.chain.storedChainId = dir.chain.storedChainId
  key : dir'.chain.loadFaucetKey = dir.chain.loadFaucetKey

namespace DataDir

variable {dir dir' : DataDir}

theorem Alike.worked (h : dir.Alike dir') : dir.Worked dir' :=
  ⟨.inl h.stateFile, .inr ⟨h.chainId, h.key⟩, .inr h.key⟩

theorem Worked.alike {dir'' : DataDir} (h : dir.Worked dir') (h' : dir'.Alike dir'') :
    dir.Worked dir'' where
  stateFile := by rw [h'.stateFile]; exact h.stateFile
  chain := by rw [Initialised, h'.chainId, h'.key]; exact h.chain
  key := by rw [h'.key]; exact h.key

theorem Worked.of_new (hnew : dir.chain.storedChainId = .ok none)
    (hfile : dir'.stateFile = dir.stateFile ∨ dir'.stateFile = none) (hid : dir'.Initialised) :
    dir.Worked dir' :=
  ⟨hfile, .inl hid, .inl hnew⟩

theorem Worked.keyHasChain (h : dir.Worked dir') (hdir : dir.KeyHasChain) : dir'.KeyHasChain := by
  rcases h.chain with hid | ⟨hid, hkey⟩
  · exact .inr hid
  · rcases hdir with hnone | ⟨chainId, hstored⟩
    · exact .inl (hkey.trans hnone)
    · exact .inr ⟨chainId, hid.trans hstored⟩

theorem Worked.stores (h : dir.Worked dir') (hdir : dir.KeyHasChain) {secret : B256}
    (hstored : dir.Stores secret) : dir'.Stores secret := by
  rcases h.key with hnew | hkey
  · -- a directory with a key has a chain
    rcases hdir with hnone | ⟨chainId, hid⟩
    · rw [Stores, hnone] at hstored
      cases hstored
    · rw [hnew] at hid
      cases hid
  · exact hkey.trans hstored

end DataDir

namespace KanariNode

variable {P : Platform}

theorem finishOpen_fst (dir : DataDir) (replayed : KanariNode × Except NodeError Unit) :
    (finishOpen dir replayed).1 = replayed.1.dataDir dir := by
  obtain ⟨node, e | u⟩ := replayed
  · rfl
  · rfl

theorem finishOpen_dataDir {dir : DataDir} {replayed : KanariNode × Except NodeError Unit}
    {node : KanariNode} (h : (finishOpen dir replayed).2 = .ok node) :
    node.dataDir (finishOpen dir replayed).1 = (finishOpen dir replayed).1 := by
  obtain ⟨faucet, -, rfl⟩ := finishOpen_ok h
  rw [finishOpen_fst]
  rfl

theorem migrateLegacyJournal_marks {node start : KanariNode} {dir dir' : DataDir}
    {file : Option Journal} {pending : List SealedBlock}
    (h : node.migrateLegacyJournal dir file = .ok (dir', start, pending)) :
    (∃ chainId, start.store.storedChainId = .ok (some chainId)) ∧ dir'.stateFile = none := by
  cases file with
  | none => simp [migrateLegacyJournal] at h
  | some journal =>
    simp only [migrateLegacyJournal] at h
    split_ifs at h
    all_goals
      cases h
      refine ⟨?_, rfl⟩
      dsimp only
      split
      · exact ⟨_, by rw [ChainStore.storedChainId_setFaucetKey, ChainStore.storedChainId_initMeta]⟩
      · exact ⟨_, by rw [ChainStore.storedChainId_initMeta]⟩

/-- An `open` refuses the directory untouched, or replays on a node with a chain id in its store.
On a stored chain the key and the files are those it found. -/
theorem open_cases (spec : KanariChainSpec) (dir : DataDir) :
    (∃ e, «open» P spec dir = (dir, .error e)) ∨
      ∃ found node result, «open» P spec dir = finishOpen found (node, result) ∧
        dir.Worked (node.dataDir found) ∧ (node.dataDir found).Initialised := by
  simp only [KanariNode.open]
  split
  · exact .inl ⟨_, rfl⟩
  · rename_i hnone
    rw [openFresh]
    split
    · rename_i file hfile
      cases hmigrate : (blank spec dir).migrateLegacyJournal dir file with
      | error e => exact .inl ⟨e, rfl⟩
      | ok migrated =>
        obtain ⟨found, start, pending⟩ := migrated
        obtain ⟨⟨chainId, hid⟩, hgone⟩ := migrateLegacyJournal_marks hmigrate
        have hsetup := SameSetup.replayBlocks (P := P) (start.genesis P) pending
        have hmarked := hsetup.chainId.trans hid
        exact .inr ⟨found, _, _, rfl, .of_new hnone (.inr hgone) ⟨chainId, hmarked⟩,
          ⟨chainId, hmarked⟩⟩
    · have hmarked := ChainStore.storedChainId_initMeta dir.chain spec.chainId spec.genesisAlloc
      exact .inr ⟨dir, _, _, rfl, .of_new hnone (.inl rfl) ⟨_, hmarked⟩, ⟨_, hmarked⟩⟩
  · rename_i stored hstored
    rw [openStored]
    split_ifs
    · exact .inl ⟨_, rfl⟩
    · split
      · exact .inl ⟨_, rfl⟩
      · rename_i alloc _
        dsimp only
        split
        · exact .inr ⟨dir, _, .error _, rfl, Alike.worked ⟨rfl, rfl, rfl⟩, ⟨stored, hstored⟩⟩
        · rename_i blocks _
          have hsetup := SameSetup.replayBlocks (P := P)
            ((blank (reopenSpec spec alloc) dir).genesis P) blocks
          exact .inr ⟨dir, _, _, rfl, Alike.worked ⟨rfl, hsetup.chainId, hsetup.storedFaucet⟩,
            ⟨stored, hsetup.chainId.trans hstored⟩⟩

theorem open_worked (spec : KanariChainSpec) (dir : DataDir) :
    dir.Worked («open» P spec dir).1 := by
  rcases open_cases (P := P) spec dir with ⟨e, hrefused⟩ | ⟨found, start, result, hopen, hworked, -⟩
  · rw [hrefused]
    exact Alike.worked ⟨rfl, rfl, rfl⟩
  · rw [hopen, finishOpen_fst]
    exact hworked

theorem open_ok_key {spec : KanariChainSpec} {dir : DataDir} {node : KanariNode}
    (h : («open» P spec dir).2 = .ok node) :
    node.dataDir («open» P spec dir).1 = («open» P spec dir).1 ∧
      («open» P spec dir).1.Initialised := by
  rcases open_cases (P := P) spec dir with ⟨e, hrefused⟩ | ⟨found, start, result, hopen, -, hid⟩
  · rw [hrefused] at h
    cases h
  · rw [hopen] at h ⊢
    refine ⟨finishOpen_dataDir h, ?_⟩
    rw [finishOpen_fst]
    exact hid

theorem crashedOpen_worked (spec : KanariChainSpec) (dir : DataDir) (replayed : ℕ)
    (tree : SparseMerkleTree) : dir.Worked (crashedOpen P spec dir replayed tree) := by
  unfold crashedOpen
  split
  · rename_i alloc blocks _ _
    have hsetup := SameSetup.replayBlocks (P := P) ((blank (reopenSpec spec alloc) dir).genesis P)
      (blocks.take replayed)
    exact Alike.worked ⟨rfl, hsetup.chainId, hsetup.storedFaucet⟩
  · exact Alike.worked ⟨rfl, rfl, rfl⟩

theorem afterStep_worked (spec : KanariChainSpec) {dir : DataDir} (journal : Journal)
    (hnew : dir.chain.storedChainId = .ok none) (tree : SparseMerkleTree) (step : MigrationStep) :
    dir.Worked (dir.afterStep P spec journal tree step) := by
  have hmeta : ∃ chainId, (dir.withMeta spec journal).storedChainId = .ok (some chainId) :=
    ⟨_, ChainStore.storedChainId_initMeta _ _ _⟩
  have hmigrated : ∃ chainId, (dir.migratedChain spec journal).storedChainId =
      .ok (some chainId) := by
    unfold DataDir.migratedChain
    split
    · obtain ⟨chainId, hid⟩ := hmeta
      exact ⟨chainId, by rw [ChainStore.storedChainId_setFaucetKey, hid]⟩
    · exact hmeta
  cases step with
  | untouched => exact Alike.worked ⟨rfl, rfl, rfl⟩
  | initMeta => exact .of_new hnew (.inl rfl) hmeta
  | setFaucetKey => exact .of_new hnew (.inl rfl) hmigrated
  | rename => exact .of_new hnew (.inr rfl) hmigrated
  | removeSidecar => exact .of_new hnew (.inr rfl) hmigrated
  | saveBlock count =>
    have hsetup := SameSetup.replayBlocks (P := P) (dir.migrationStart P spec journal)
      ((unrolled journal.blocks).take count)
    obtain ⟨chainId, hid⟩ := hmigrated
    exact .of_new hnew (.inr rfl) ⟨chainId, hsetup.chainId.trans hid⟩

theorem killedOpen_worked (spec : KanariChainSpec) (dir : DataDir) (step : MigrationStep)
    (replayed : ℕ) (tree : SparseMerkleTree) :
    dir.Worked (killedOpen P spec dir step replayed tree) := by
  unfold killedOpen
  split
  · exact Alike.worked ⟨rfl, rfl, rfl⟩
  · split_ifs
    · exact crashedOpen_worked spec dir replayed tree
    · exact Alike.worked ⟨rfl, rfl, rfl⟩
  · rename_i hnew
    split
    · split_ifs
      · exact afterStep_worked spec _ hnew tree step
      · exact Alike.worked ⟨rfl, rfl, rfl⟩
    · exact Alike.worked ⟨rfl, rfl, rfl⟩
    · split_ifs
      · exact Alike.worked ⟨rfl, rfl, rfl⟩
      · exact .of_new hnew (.inl rfl) ⟨_, ChainStore.storedChainId_initMeta _ _ _⟩

theorem enableFaucet_ok (node : KanariNode) (addr : Address) (secret : B256) :
    ∃ db, node.enableFaucet P addr secret none =
      ({ node with
        db := db
        store := node.store.setFaucetKey secret
        faucetKey := some secret }, .ok ()) := ⟨_, rfl⟩

theorem restoreFaucet_fst (W : Wallet) (node : KanariNode) :
    ∃ key, (node.restoreFaucet W).1 = { node with faucetKey := key } ∧
      ∀ secret, node.store.loadFaucetKey = .ok (some secret) → key = some secret := by
  rcases hload : node.store.loadFaucetKey with e | found | secret
  · refine ⟨node.faucetKey, ?_, fun secret h => by cases h⟩
    simp only [restoreFaucet, loadFaucetKey, hload]
  · refine ⟨node.faucetKey, ?_, fun secret h => by cases h⟩
    simp only [restoreFaucet, loadFaucetKey, hload]
  · refine ⟨some secret, ?_, fun secret' h => by cases h; rfl⟩
    simp only [restoreFaucet, loadFaucetKey, hload]
    split <;> rfl

theorem handle_setup (W : Wallet) (node : KanariNode) (request : Served) :
    SameSetup (node.handle P W request) node := by
  cases request with
  | op op => exact (node.perform_setup op).1
  | faucet toAddr amountWei now io =>
    obtain ⟨db, hdb⟩ := node.drip_fst (P := P) (W := W) toAddr amountWei
    rw [handle, KanariNode.faucet]
    rcases hdrip : node.drip P W toAddr amountWei with ⟨asked, e | drip⟩
    · rw [hdrip] at hdb
      rw [show asked = _ from hdb]
      exact (SameSetup.refl node).withDb db
    · rw [hdrip] at hdb
      -- the drip goes in as any submission does
      obtain ⟨hsent, -⟩ := asked.perform_setup (P := P) (.attempt (.send drip.raw now) io)
      rw [show asked = _ from hdb] at hsent ⊢
      exact hsent.trans ((SameSetup.refl node).withDb db)

theorem handleAll_setup (W : Wallet) (node : KanariNode) (requests : List Served) :
    SameSetup (node.handleAll P W requests) node := by
  induction requests generalizing node with
  | nil => exact SameSetup.refl node
  | cons request rest ih => exact (ih (node.handle P W request)).trans (node.handle_setup W request)

end KanariNode

section Run

variable {P : Platform} {W : Wallet} {opts : StartOptions} {io : StartIo}

structure Installs (P : Platform) (opts : StartOptions) (io : StartIo) (dir : DataDir) : Prop where
  initLogging : io.initLogging opts.logLevel.asStr = none
  network : opts.network = .devnet
  createDirAll : io.createDirAll = none
  stateFile : dir.stateFile = none
  opens : (KanariNode.open P (opts.spec true) dir).2.isOk = true
  setFaucetKey : io.setFaucetKey = none

section Opening

variable (hkeyless : opts.faucetKey = none) (hlog : io.initLogging opts.logLevel.asStr = none)
  (hnetwork : opts.network = .devnet) (hcreate : io.createDirAll = none) {dir opened : DataDir}

include hkeyless hlog hnetwork hcreate

theorem run_of_refused {e : NodeError}
    (hopen : KanariNode.open P (opts.spec dir.stateFile.isNone) dir = (opened, .error e)) :
    run P W opts io dir = (opened, .error (.failedTo "open node" e)) := by
  simp only [run, hlog, if_neg (not_not.mpr hnetwork), hcreate, StartOptions.faucetSecret, hkeyless,
    hopen]

theorem run_of_fresh {node : KanariNode} (hfile : dir.stateFile = none)
    (hopen : KanariNode.open P (opts.spec true) dir = (opened, .ok node)) :
    run P W opts io dir =
      ((node.enableFaucet P io.generated.1 io.generated.2 io.setFaucetKey).1.dataDir opened,
        (node.enableFaucet P io.generated.1 io.generated.2 io.setFaucetKey).2.map fun _ =>
          (node.enableFaucet P io.generated.1 io.generated.2 io.setFaucetKey).1) := by
  simp only [run, hlog, if_neg (not_not.mpr hnetwork), hcreate, StartOptions.faucetSecret, hkeyless,
    hfile, Option.isNone_none, if_true, hopen]

theorem run_of_stateFile {node : KanariNode} {file : Option Journal}
    (hfile : dir.stateFile = some file)
    (hopen : KanariNode.open P (opts.spec false) dir = (opened, .ok node)) :
    run P W opts io dir = ((node.restoreFaucet W).1.dataDir opened,
      (node.restoreFaucet W).2.map fun _ => (node.restoreFaucet W).1) := by
  simp only [run, hlog, if_neg (not_not.mpr hnetwork), hcreate, StartOptions.faucetSecret, hkeyless,
    hfile, Option.isNone_some, Bool.false_eq_true, if_false, hopen]

end Opening

/-- A start that did not replace the key: whatever it has done, it did in `open`. -/
def LeavesKey (P : Platform) (W : Wallet) (opts : StartOptions) (io : StartIo) (dir : DataDir) :
    Prop :=
  ∃ spec, (run P W opts io dir).1 = (KanariNode.open P spec dir).1 ∧
    ∀ node, (run P W opts io dir).2 = .ok node →
      node.store = (run P W opts io dir).1.chain ∧
      ∀ secret, node.store.loadFaucetKey = .ok (some secret) → node.faucetKey = some secret

/-- A start that did: the store and the node have the key that was drawn. -/
def DrawsKey (P : Platform) (W : Wallet) (opts : StartOptions) (io : StartIo) (dir : DataDir) :
    Prop :=
  ∃ spec node, (run P W opts io dir).2 = .ok node ∧ node.faucetKey = some io.generated.2 ∧
    node.store = (run P W opts io dir).1.chain ∧ (KanariNode.open P spec dir).1.Initialised ∧
    (run P W opts io dir).1.chain =
      (KanariNode.open P spec dir).1.chain.setFaucetKey io.generated.2 ∧
    (run P W opts io dir).1.stateFile = (KanariNode.open P spec dir).1.stateFile

theorem LeavesKey.of_error {dir : DataDir} (spec : KanariChainSpec) (e : Fatal)
    (h : run P W opts io dir = ((KanariNode.open P spec dir).1, .error e)) :
    LeavesKey P W opts io dir := by
  refine ⟨spec, by rw [h], fun node hnode => ?_⟩
  rw [h] at hnode
  cases hnode

section Cases

variable (W) (hkeyless : opts.faucetKey = none) (hlog : io.initLogging opts.logLevel.asStr = none)
  (hnetwork : opts.network = .devnet) (hcreate : io.createDirAll = none) {dir opened : DataDir}
  {node : KanariNode}

include hkeyless hlog hnetwork hcreate

theorem run_fresh_cases (hfile : dir.stateFile = none)
    (hopen : KanariNode.open P (opts.spec true) dir = (opened, .ok node)) :
    (¬Installs P opts io dir ∧ LeavesKey P W opts io dir) ∨
      Installs P opts io dir ∧ DrawsKey P W opts io dir := by
  have hok : (KanariNode.open P (opts.spec true) dir).2 = .ok node := by rw [hopen]
  obtain ⟨hsame, hid⟩ := KanariNode.open_ok_key hok
  rw [hopen] at hsame
  have hrun := run_of_fresh (W := W) hkeyless hlog hnetwork hcreate hfile hopen
  cases hset : io.setFaucetKey with
  | none =>
    obtain ⟨db, henable⟩ := node.enableFaucet_ok (P := P) io.generated.1 io.generated.2
    rw [hset, henable] at hrun
    refine .inr ⟨⟨hlog, hnetwork, hcreate, hfile, by rw [hopen]; rfl, hset⟩, opts.spec true, _,
      congrArg (·.2) hrun, rfl, by rw [hrun]; rfl, hid, ?_, by rw [hrun, hopen]; rfl⟩
    rw [hrun, hopen, ← show node.store = opened.chain from congrArg (·.chain) hsame]
    rfl
  | some msg =>
    refine .inl ⟨fun h => ?_, .of_error (opts.spec true)
      (.failedTo "store faucet key" (.ofStore (.backend msg))) ?_⟩
    · have hnone := h.setFaucetKey
      rw [hset] at hnone
      cases hnone
    · rw [hrun, hset, hopen]
      exact Prod.ext hsame rfl

theorem run_stateFile_leaves {file : Option Journal} (hfile : dir.stateFile = some file)
    (hopen : KanariNode.open P (opts.spec false) dir = (opened, .ok node)) :
    LeavesKey P W opts io dir := by
  have hok : (KanariNode.open P (opts.spec false) dir).2 = .ok node := by rw [hopen]
  have hsame := (KanariNode.open_ok_key hok).1
  rw [hopen] at hsame
  have hrun := run_of_stateFile (W := W) hkeyless hlog hnetwork hcreate hfile hopen
  obtain ⟨key, hrestored, hkept⟩ := node.restoreFaucet_fst W
  have hfst : (run P W opts io dir).1 = opened := by
    rw [hrun, hrestored]
    exact hsame
  refine ⟨opts.spec false, by rw [hfst, hopen], fun served hserved => ?_⟩
  rw [hfst]
  rw [hrun, hrestored] at hserved
  obtain ⟨-, -, rfl⟩ := map_eq_ok hserved
  exact ⟨congrArg (·.chain) hsame, hkept⟩

end Cases

theorem run_cases (W : Wallet) (io : StartIo) (hkeyless : opts.faucetKey = none) (dir : DataDir) :
    (¬Installs P opts io dir ∧ ∃ e, run P W opts io dir = (dir, .error e)) ∨
      (¬Installs P opts io dir ∧ LeavesKey P W opts io dir) ∨
      Installs P opts io dir ∧ DrawsKey P W opts io dir := by
  by_cases hlog : io.initLogging opts.logLevel.asStr = none
  swap
  · obtain ⟨e, he⟩ := Option.ne_none_iff_exists'.mp hlog
    exact .inl ⟨fun h => hlog h.initLogging, _, by rw [run, he]⟩
  by_cases hnetwork : opts.network = .devnet
  swap
  · exact .inl ⟨fun h => hnetwork h.network, _, by rw [run, hlog, if_pos hnetwork]⟩
  by_cases hcreate : io.createDirAll = none
  swap
  · obtain ⟨e, he⟩ := Option.ne_none_iff_exists'.mp hcreate
    exact .inl ⟨fun h => hcreate h.createDirAll, _,
      by rw [run, hlog, if_neg (not_not.mpr hnetwork), he]⟩
  right
  rcases hopen : KanariNode.open P (opts.spec dir.stateFile.isNone) dir with ⟨opened, e | node⟩
  · refine .inl ⟨fun h => ?_, .of_error (opts.spec dir.stateFile.isNone)
      (.failedTo "open node" e) ?_⟩
    · have hopens := h.opens
      rw [h.stateFile] at hopen
      rw [show KanariNode.open P (opts.spec true) dir = _ from hopen] at hopens
      cases hopens
    · rw [hopen]
      exact run_of_refused hkeyless hlog hnetwork hcreate hopen
  · cases hfile : dir.stateFile with
    | none =>
      rw [hfile] at hopen
      exact run_fresh_cases W hkeyless hlog hnetwork hcreate hfile hopen
    | some file =>
      rw [hfile] at hopen
      refine .inl ⟨fun h => ?_, run_stateFile_leaves W hkeyless hlog hnetwork hcreate hfile hopen⟩
      have hnone := h.stateFile
      rw [hfile] at hnone
      cases hnone

theorem LeavesKey.worked {dir : DataDir} (h : LeavesKey P W opts io dir) :
    dir.Worked (run P W opts io dir).1 := by
  obtain ⟨spec, hrun, -⟩ := h
  rw [hrun]
  exact KanariNode.open_worked spec dir

theorem run_ok_key (hkeyless : opts.faucetKey = none) {dir : DataDir} {node : KanariNode}
    (h : (run P W opts io dir).2 = .ok node) :
    node.store = (run P W opts io dir).1.chain ∧
      ∀ secret, (run P W opts io dir).1.Stores secret → node.faucetKey = some secret := by
  rcases run_cases (P := P) W io hkeyless dir with
    ⟨-, e, hrefused⟩ | ⟨-, spec, -, hleft⟩ | ⟨-, spec, drawn, hok, hkey, hstore, -, hchain, -⟩
  · rw [hrefused] at h
    cases h
  · obtain ⟨hstore, hkey⟩ := hleft node h
    exact ⟨hstore, fun secret hsecret => hkey secret (by rw [hstore]; exact hsecret)⟩
  · rw [hok] at h
    cases h
    refine ⟨hstore, fun secret hsecret => ?_⟩
    rw [Stores, hchain, ChainStore.loadFaucetKey_setFaucetKey] at hsecret
    rw [hkey]
    exact Except.ok.inj hsecret

end Run

section Starts

variable (P : Platform) (W : Wallet)

/-- The start puts another key in the place of this one: it finds no state file, gets through
`open`, and has drawn a different key. -/
def Start.Replaces (dir : DataDir) (start : Start) (secret : B256) : Prop :=
  ∃ opts io requests tree, start = .ran opts io requests tree ∧ Installs P opts io dir ∧
    io.generated.2 ≠ secret

/-- Once a key is stored, every later start serves it and leaves it stored. No start creates a
state file. -/
structure KeySurvives (dir : DataDir) (starts : List Start) : Prop where
  serves : ∀ i j secret start node, i ≤ j → (afterStarts P W dir starts i).Stores secret →
    starts[j]? = some start → start.Serves P W (afterStarts P W dir starts j) node →
    node.faucetKey = some secret
  keeps : ∀ i j secret, i ≤ j → (afterStarts P W dir starts i).Stores secret →
    (afterStarts P W dir starts j).Stores secret
  stateFile : ∀ i file, (afterStarts P W dir starts (i + 1)).stateFile = some file →
    (afterStarts P W dir starts i).stateFile = some file

variable {P W} {dir : DataDir} {start : Start}

theorem started_ran {opts : StartOptions} (hkeyless : opts.faucetKey = none) (io : StartIo)
    (requests : List Served) (tree : SparseMerkleTree) (dir : DataDir) :
    (run P W opts io dir).1.Alike (started P W dir (.ran opts io requests tree)) := by
  have hstore : ∀ node, (run P W opts io dir).2 = .ok node →
      node.store = (run P W opts io dir).1.chain := fun node hok => (run_ok_key hkeyless hok).1
  rcases hrun : run P W opts io dir with ⟨left, e | node⟩
  · simp only [started, hrun]
    exact ⟨rfl, rfl, rfl⟩
  · rw [hrun] at hstore
    have hsetup := node.handleAll_setup (P := P) W requests
    have hid := hsetup.chainId
    have hkey := hsetup.storedFaucet
    rw [hstore node rfl] at hid hkey
    simp only [started, hrun]
    exact ⟨rfl, hid, hkey⟩

theorem Start.Serves.key (hkeyless : start.options.faucetKey = none) {node : KanariNode}
    (h : start.Serves P W dir node) {secret : B256}
    (hstored : (started P W dir start).Stores secret) : node.faucetKey = some secret := by
  obtain ⟨opts, io, requests, tree, first, n, rfl, hok, rfl⟩ := h
  have hserved := started_ran (P := P) (W := W) hkeyless io requests tree dir
  rw [(first.handleAll_setup W (requests.take n)).faucetKey]
  exact (run_ok_key hkeyless hok).2 secret (hserved.key.symm.trans hstored)

/-- All that a start does to a directory: work on it, or install the key it has drawn. -/
theorem started_cases (W : Wallet) (hkeyless : start.options.faucetKey = none) (dir : DataDir) :
    (dir.Worked (started P W dir start) ∧ ∀ opts io requests tree,
        start = .ran opts io requests tree → ¬Installs P opts io dir) ∨
      ∃ opts io requests tree, start = .ran opts io requests tree ∧ Installs P opts io dir ∧
        (started P W dir start).Stores io.generated.2 ∧ (started P W dir start).Initialised ∧
        (started P W dir start).stateFile = none := by
  cases start with
  | killed opts step replayed tree =>
    refine .inl ⟨?_, fun opts io requests tree h => by cases h⟩
    rw [started]
    split_ifs
    · exact KanariNode.killedOpen_worked _ dir step replayed tree
    · exact Alike.worked ⟨rfl, rfl, rfl⟩
  | ran opts io requests tree =>
    have hnone : opts.faucetKey = none := hkeyless
    have hserved := started_ran (P := P) (W := W) hnone io requests tree dir
    rcases run_cases (P := P) W io hnone dir with
      ⟨hnot, e, hrefused⟩ | ⟨hnot, hleft⟩ |
      ⟨hinstalls, spec, node, -, -, -, ⟨chainId, hid⟩, hchain, hfile⟩
    · rw [hrefused] at hserved
      exact .inl ⟨hserved.worked, fun opts' io' requests' tree' h => by cases h; exact hnot⟩
    · exact .inl ⟨hleft.worked.alike hserved,
        fun opts' io' requests' tree' h => by cases h; exact hnot⟩
    · refine .inr ⟨opts, io, requests, tree, rfl, hinstalls, ?_, ⟨chainId, ?_⟩, ?_⟩
      · rw [Stores, hserved.key, hchain, ChainStore.loadFaucetKey_setFaucetKey]
      · rw [hserved.chainId, hchain, ChainStore.storedChainId_setFaucetKey, hid]
      · -- there was none, and `open` makes none
        rw [hserved.stateFile, hfile]
        rcases (KanariNode.open_worked (P := P) spec dir).stateFile with hsame | hgone
        · rw [hsame, hinstalls.stateFile]
        · exact hgone

theorem started_keyHasChain (hkeyless : start.options.faucetKey = none) (hdir : dir.KeyHasChain) :
    (started P W dir start).KeyHasChain := by
  rcases started_cases (P := P) W hkeyless dir with ⟨hworked, -⟩ | ⟨_, _, _, _, -, -, -, hid, -⟩
  · exact hworked.keyHasChain hdir
  · exact .inr hid

theorem started_stateFile (hkeyless : start.options.faucetKey = none) {file : Option Journal}
    (h : (started P W dir start).stateFile = some file) : dir.stateFile = some file := by
  rcases started_cases (P := P) W hkeyless dir with ⟨hworked, -⟩ | ⟨_, _, _, _, -, -, -, -, hgone⟩
  · rcases hworked.stateFile with hsame | hgone
    · rw [← hsame, h]
    · rw [hgone] at h
      cases h
  · rw [hgone] at h
    cases h

theorem started_stores_iff (hkeyless : start.options.faucetKey = none) (hdir : dir.KeyHasChain)
    {secret : B256} (hstored : dir.Stores secret) :
    (started P W dir start).Stores secret ↔ ¬start.Replaces P dir secret := by
  rcases started_cases (P := P) W hkeyless dir with
    ⟨hworked, hnot⟩ | ⟨opts, io, requests, tree, hstart, hinstalls, hdrawn, -, -⟩
  · refine ⟨fun _ => ?_, fun _ => hworked.stores hdir hstored⟩
    rintro ⟨opts, io, requests, tree, hstart, hinstalls, -⟩
    exact hnot opts io requests tree hstart hinstalls
  · constructor
    · rintro hkept ⟨opts', io', requests', tree', hstart', -, hne⟩
      rw [hstart] at hstart'
      cases hstart'
      rw [Stores, hdrawn] at hkept
      exact hne (Option.some.inj (Except.ok.inj hkept))
    · intro hsame
      by_cases hne : io.generated.2 = secret
      · rw [← hne]
        exact hdrawn
      · exact absurd ⟨opts, io, requests, tree, hstart, hinstalls, hne⟩ hsame

theorem afterStarts_succ {starts : List Start} {i : ℕ} (h : starts[i]? = some start) :
    afterStarts P W dir starts (i + 1) = started P W (afterStarts P W dir starts i) start := by
  rw [afterStarts, afterStarts, List.take_add_one, h, Option.toList_some, List.foldl_append]
  rfl

theorem afterStarts_end {starts : List Start} {i : ℕ} (h : starts[i]? = none) :
    afterStarts P W dir starts (i + 1) = afterStarts P W dir starts i := by
  rw [afterStarts, afterStarts, List.take_add_one, h, Option.toList_none, List.append_nil]

/-- A directory in which no node was opened yet: an empty one, or one with a legacy journal and a
faucet sidecar that parses. -/
def DataDir.Unopened (dir : DataDir) : Prop :=
  dir = .fresh ∨ ∃ journal secret, dir.Legacy journal ∧ dir.sidecarSecret = some secret

theorem DataDir.Unopened.keyHasChain (h : dir.Unopened) : dir.KeyHasChain := by
  have hempty : dir.chain = .empty := by
    rcases h with rfl | ⟨journal, secret, hlegacy, -⟩
    · rfl
    · exact hlegacy.chain
  left
  rw [hempty]
  decide

section Keyless

variable {starts : List Start} (hkeyless : ∀ start ∈ starts, start.options.faucetKey = none)

include hkeyless

theorem afterStarts_keyHasChain (hdir : dir.Unopened) (i : ℕ) :
    (afterStarts P W dir starts i).KeyHasChain := by
  induction i with
  | zero => exact hdir.keyHasChain
  | succ i ih =>
    rcases hstart : starts[i]? with - | start
    · rw [afterStarts_end hstart]
      exact ih
    · rw [afterStarts_succ hstart]
      exact started_keyHasChain (hkeyless start (List.mem_of_getElem? hstart)) ih

/-- Over any number of starts without a given key, in a directory that was empty or held a legacy
journal with a sidecar, a stored key survives exactly if no start replaces it. -/
theorem faucetKey_survives_iff (hdir : dir.Unopened) :
    KeySurvives P W dir starts ↔ ∀ i start secret, starts[i]? = some start →
      (afterStarts P W dir starts i).Stores secret →
      ¬start.Replaces P (afterStarts P W dir starts i) secret := by
  have hchain := afterStarts_keyHasChain (P := P) (W := W) hkeyless hdir
  constructor
  · intro hsurvives i start secret hstart hstored
    have hkept := hsurvives.keeps i (i + 1) secret (by omega) hstored
    rw [afterStarts_succ hstart] at hkept
    exact (started_stores_iff (hkeyless start (List.mem_of_getElem? hstart)) (hchain i)
      hstored).mp hkept
  · intro hnone
    have hkeeps : ∀ i j secret, i ≤ j → (afterStarts P W dir starts i).Stores secret →
        (afterStarts P W dir starts j).Stores secret := by
      intro i j secret hij hstored
      induction j, hij using Nat.le_induction with
      | base => exact hstored
      | succ j _ ih =>
        rcases hstart : starts[j]? with - | start
        · rw [afterStarts_end hstart]
          exact ih
        · rw [afterStarts_succ hstart]
          exact (started_stores_iff (hkeyless start (List.mem_of_getElem? hstart)) (hchain j)
            ih).mpr (hnone j start secret hstart ih)
    refine ⟨?_, hkeeps, ?_⟩
    · intro i j secret start node hij hstored hstart hserves
      have hkept := hkeeps i (j + 1) secret (by omega) hstored
      rw [afterStarts_succ hstart] at hkept
      exact hserves.key (hkeyless start (List.mem_of_getElem? hstart)) hkept
    · intro i file hfile
      rcases hstart : starts[i]? with - | start
      · rw [afterStarts_end hstart] at hfile
        exact hfile
      · rw [afterStarts_succ hstart] at hfile
        exact started_stateFile (hkeyless start (List.mem_of_getElem? hstart)) hfile

end Keyless

end Starts

def plainStart (addr : Address) (secret : B256) : Start :=
  .ran .localhost ⟨fun _ => none, none, (addr, secret), none⟩ [] ⟨∅⟩

def secondAccount : Address := 0x70997970c51812dc3a010c7d01b50e0d17dc79c8

def secondKey : B256 := 0x59c6995e998f97a5a0044966f0945389dc9e86dae88c7a8412f4603b6b78690d

def sidecarDir : DataDir :=
  { KanariNode.legacyDir ⟨kanariEvmDevChainId, [], []⟩ with
    faucetSidecar := some (hexEncode DevWallet.key.asSlice) }

/-- A migration killed before it renames the journal: the state file stays, and with it the key. -/
theorem faucetKey_survives_iff_killed :
    KeySurvives Reference.platform DevWallet.wallet sidecarDir
        [.killed .localhost .setFaucetKey 0 ⟨∅⟩, plainStart secondAccount secondKey] ∧
      (afterStarts Reference.platform DevWallet.wallet sidecarDir
        [.killed .localhost .setFaucetKey 0 ⟨∅⟩, plainStart secondAccount secondKey] 2).Stores
          DevWallet.key := by
  have hdir : sidecarDir.Unopened := by
    refine .inr ⟨⟨kanariEvmDevChainId, [], []⟩, DevWallet.key, ⟨rfl, rfl⟩, ?_⟩
    decide +kernel
  have hkeyless : ∀ start ∈ [Start.killed .localhost .setFaucetKey 0 ⟨∅⟩,
      plainStart secondAccount secondKey], start.options.faucetKey = none := by
    simp [Start.options, plainStart, StartOptions.localhost]
  refine ⟨(faucetKey_survives_iff hkeyless hdir).mpr ?_, by unfold Stores; decide +kernel⟩
  rintro (- | - | i) start secret hstart hstored hreplaces
  · have hnone : sidecarDir.chain.loadFaucetKey = .ok none := by decide +kernel
    exact absurd (hnone.symm.trans hstored) (by simp)
  · obtain ⟨opts, io, requests, tree, -, hinstalls, -⟩ := hreplaces
    exact absurd hinstalls.stateFile (by decide +kernel)
  · simp at hstart

/-- On an empty directory the second start draws a key of its own, and the first one is gone. -/
theorem second_start_replaces_key :
    DataDir.fresh.Unopened ∧
      (∀ start ∈ [plainStart Reference.funded DevWallet.key, plainStart secondAccount secondKey],
        start.options.faucetKey = none) ∧
      ¬KeySurvives Reference.platform DevWallet.wallet .fresh
        [plainStart Reference.funded DevWallet.key, plainStart secondAccount secondKey] := by
  refine ⟨.inl rfl, by simp [Start.options, plainStart, StartOptions.localhost], fun h => ?_⟩
  have hkept := h.keeps 1 2 DevWallet.key (by omega) (by unfold Stores; decide +kernel)
  exact absurd hkept (by unfold Stores; decide +kernel)

end KanariEvm
