import KanariEvm.CrashedOpen
import KanariEvm.Reopening

namespace KanariEvm

open InMemoryDB Journaled

namespace KanariNode

variable {P : Platform}

/-- The stored transactions as blocks of one transaction each, which is how replay seals them. -/
def unrolled (blocks : List SealedBlock) : List SealedBlock :=
  (storedTxs blocks).map fun stored => { stored.1 with txs := [stored.2] }

theorem replayBlocks_append (node : KanariNode) (before after : List SealedBlock) :
    replayBlocks P node (before ++ after) =
      match replayBlocks P node before with
      | (node, .error e) => (node, .error e)
      | (node, .ok ()) => replayBlocks P node after := by
  induction before generalizing node with
  | nil => rfl
  | cons block rest ih =>
    rw [List.cons_append, replayBlocks, replayBlocks]
    rcases replayTxs P block node block.txs with ⟨mid, e | u⟩
    · rfl
    · exact ih mid

theorem unrolled_of_single {blocks : List SealedBlock}
    (h : ∀ block ∈ blocks, ∃ raw, block.txs = [raw]) : unrolled blocks = blocks := by
  rw [unrolled, storedTxs_of_single h, List.map_map]
  conv_rhs => rw [← List.map_id blocks]
  apply List.map_congr_left
  intro block hmem
  obtain ⟨raw, hraw⟩ := h block hmem
  obtain ⟨number, timestamp, hash, parentHash, txs, stateRoot, baseFee⟩ := block
  obtain rfl : txs = [raw] := hraw
  rfl

/-- What replaying `blocks` on `node` has sealed, whether it went through or not: the store carries
it, a node that agrees can replay it, and after a failure it is no restored journal. -/
structure ReplayLeaves (P : Platform) (chainId : U64) (alloc : List (Address × U256))
    (node twin : KanariNode) (blocks fresh : List SealedBlock) : Prop where
  appended : (replayBlocks P node blocks).1.blocks = node.blocks ++ fresh
  store : (replayBlocks P node blocks).1.store.Carries chainId alloc (node.blocks ++ fresh)
  again : ∃ replayed, replayBlocks P twin fresh = (replayed, .ok ()) ∧
    replayed.blocks = twin.blocks ++ fresh
  failed : (replayBlocks P node blocks).2.isOk = false →
    ∀ more, ¬List.Forall₂ SealedBlock.Restores fresh (blocks ++ more)

theorem replayTxs_single_cases (node : KanariNode) {block : SealedBlock} {raw : Bytes}
    (hraw : block.txs = [raw]) :
    (∃ db e, replayTxs P block node block.txs = ({ node with db := db }, .error e)) ∨
      ∃ db prepared result, executeRaw P node.db node.spec raw block.number block.timestamp
          block.baseFee = (db, .ok (prepared, result)) ∧
        ∃ out, replayTxs P block node block.txs = (node.afterSeal P raw block.number
            block.timestamp block.baseFee db prepared result, out) ∧
          (out = .ok () ∨ (∃ e, out = .error e) ∧ ¬(node.newBlock P raw block.number
            block.timestamp block.baseFee db result).Restores block) := by
  have htxs : replayTxs P block node block.txs = node.replayTx P block raw := by
    rw [hraw, replayTxs]
    rcases node.replayTx P block raw with ⟨mid, e | u⟩ <;> rfl
  rw [htxs, replayTx_eq]
  rcases node.sealRawWithFee_healthy_cases P raw block.number block.timestamp block.baseFee with
    ⟨db, e, -, hs⟩ | ⟨db, prepared, result, hex, hs⟩
  · exact .inl ⟨db, e, by rw [hs]⟩
  · refine .inr ⟨db, prepared, result, hex, ?_⟩
    rw [hs]
    have hlast : (node.afterSeal P raw block.number block.timestamp block.baseFee db prepared
        result).blocks.getLast? =
        some (node.newBlock P raw block.number block.timestamp block.baseFee db result) := by
      simp [afterSeal]
    refine ⟨_, rfl, ?_⟩
    simp only [hlast, replayVerdict]
    split_ifs with hhash hroot
    · exact .inr ⟨⟨_, rfl⟩, fun h => hhash h.hash⟩
    · obtain ⟨root, hstored⟩ := Option.isSome_iff_exists.mp hroot.1
      exact .inr ⟨⟨_, rfl⟩, fun h => hroot.2 ((h.root root hstored).trans hstored.symm)⟩
    · exact .inl rfl

section Leaves

variable {chainId : U64} {alloc : List (Address × U256)} {node twin : KanariNode}
  {block sealed : SealedBlock} {rest : List SealedBlock}

theorem ReplayLeaves.nil (hstore : node.store.Carries chainId alloc node.blocks) :
    ReplayLeaves P chainId alloc node twin [] [] where
  appended := (List.append_nil _).symm
  store := by rwa [List.append_nil]
  again := ⟨twin, rfl, (List.append_nil _).symm⟩
  failed := nofun

theorem ReplayLeaves.refused (hstore : node.store.Carries chainId alloc node.blocks)
    {db : InMemoryDB} {e : NodeError}
    (h : replayTxs P block node block.txs = ({ node with db := db }, .error e)) :
    ReplayLeaves P chainId alloc node twin (block :: rest) [] := by
  have hreplay : replayBlocks P node (block :: rest) = ({ node with db := db }, .error e) := by
    rw [replayBlocks, h]
  refine ⟨?_, ?_, ⟨twin, rfl, (List.append_nil _).symm⟩, ?_⟩
  · rw [hreplay, List.append_nil]
  · rw [hreplay, List.append_nil]
    exact hstore
  · intro _ more hall
    cases hall

variable {after twin' : KanariNode} (hblocks : after.blocks = node.blocks ++ [sealed])
  (htwin : twin'.blocks = twin.blocks ++ [sealed])
  (hagain : ∀ more, replayBlocks P twin (sealed :: more) = replayBlocks P twin' more)

include hblocks htwin hagain

theorem ReplayLeaves.cons (h : replayTxs P block node block.txs = (after, .ok ()))
    {fresh : List SealedBlock} (hrest : ReplayLeaves P chainId alloc after twin' rest fresh) :
    ReplayLeaves P chainId alloc node twin (block :: rest) (sealed :: fresh) := by
  have hreplay : replayBlocks P node (block :: rest) = replayBlocks P after rest := by
    rw [replayBlocks, h]
  have happend : ∀ before : List SealedBlock,
      before ++ sealed :: fresh = before ++ [sealed] ++ fresh := fun before => by
    rw [List.append_assoc, List.singleton_append]
  refine ⟨?_, ?_, ?_, fun hfail more hall => ?_⟩
  · rw [hreplay, hrest.appended, hblocks, happend]
  · rw [hreplay, happend, ← hblocks]
    exact hrest.store
  · obtain ⟨replayed, hr, hb⟩ := hrest.again
    refine ⟨replayed, (hagain fresh).trans hr, ?_⟩
    rw [hb, htwin, happend]
  · rw [hreplay] at hfail
    exact hrest.failed hfail more (List.forall₂_cons.mp hall).2

theorem ReplayLeaves.diverged {e : NodeError}
    (h : replayTxs P block node block.txs = (after, .error e)) (hdiffers : ¬sealed.Restores block)
    (hstore : after.store.Carries chainId alloc after.blocks) :
    ReplayLeaves P chainId alloc node twin (block :: rest) [sealed] := by
  have hreplay : replayBlocks P node (block :: rest) = (after, .error e) := by
    rw [replayBlocks, h]
  refine ⟨?_, ?_, ⟨twin', hagain [], htwin⟩, fun _ more hall => ?_⟩
  · rw [hreplay]
    exact hblocks
  · rw [hreplay, ← hblocks]
    exact hstore
  · exact hdiffers (List.forall₂_cons.mp hall).1

end Leaves

section Laws

variable (hR : P.toRevm.CacheLaws) (hdet : P.toRevm.Deterministic)

include hR hdet

theorem Agree.replay_newBlock {node twin : KanariNode} (hagree : Agree node twin) {raw : Bytes}
    {number timestamp baseFee : U64} {db : InMemoryDB} {prepared : PreparedTx}
    {result : ExecutionResult}
    (hex : executeRaw P node.db node.spec raw number timestamp baseFee =
      (db, .ok (prepared, result))) :
    ∃ twin', Agree (node.afterSeal P raw number timestamp baseFee db prepared result) twin' ∧
      ∀ more, replayBlocks P twin (node.newBlock P raw number timestamp baseFee db result ::
        more) = replayBlocks P twin' more := by
  obtain ⟨twin', htwin, hagree'⟩ := hagree.replayBlock hR hdet (replayBlock_newBlock hex)
  refine ⟨twin', hagree', fun more => ?_⟩
  have hone : replayBlocks P twin [node.newBlock P raw number timestamp baseFee db result] =
      (twin', .ok ()) := replayBlocks_of_foldlM (by rw [List.foldlM_cons, htwin]; rfl)
  rw [← List.singleton_append, replayBlocks_append, hone]

theorem replayLeaves {chainId : U64} {alloc : List (Address × U256)} {blocks : List SealedBlock}
    (hsingle : ∀ block ∈ blocks, ∃ raw, block.txs = [raw]) {node twin : KanariNode}
    (hagree : Agree node twin) (hstore : node.store.Carries chainId alloc node.blocks)
    (hnumbers : ∀ i (hi : i < blocks.length),
      blocks[i].number.toNat = node.blocks.length + i + 1) :
    ∃ fresh, ReplayLeaves P chainId alloc node twin blocks fresh := by
  induction blocks generalizing node twin with
  | nil => exact ⟨[], .nil hstore⟩
  | cons block rest ih =>
    obtain ⟨raw, hraw⟩ := hsingle block List.mem_cons_self
    rcases replayTxs_single_cases (P := P) node hraw with
      ⟨db, e, hrefused⟩ | ⟨db, prepared, result, hex, out, hsealed, hout⟩
    · exact ⟨[], .refused hstore hrefused⟩
    · set sealed := node.newBlock P raw block.number block.timestamp block.baseFee db result
      set after := node.afterSeal P raw block.number block.timestamp block.baseFee db prepared
        result
      obtain ⟨twin', hagree', hagain⟩ := hagree.replay_newBlock hR hdet hex
      have hblocks : after.blocks = node.blocks ++ [sealed] := rfl
      have htwin : twin'.blocks = twin.blocks ++ [sealed] := by
        rw [← hagree'.blocks, ← hagree.blocks]
        exact hblocks
      have hnumber : sealed.number.toNat = node.blocks.length + 1 :=
        hnumbers 0 (Nat.zero_lt_succ _)
      have hstore' : after.store.Carries chainId alloc after.blocks :=
        hstore.write_sealBatch hnumber _ _
      rcases hout with rfl | ⟨⟨e, rfl⟩, hdiffers⟩
      · have hnumbers' : ∀ i (hi : i < rest.length),
            rest[i].number.toNat = after.blocks.length + i + 1 := by
          intro i hi
          have hi' := hnumbers (i + 1) (Nat.succ_lt_succ hi)
          rw [List.getElem_cons_succ] at hi'
          rw [hblocks, List.length_append, List.length_singleton]
          omega
        obtain ⟨fresh, hrest⟩ := ih (fun b hb => hsingle b (List.mem_cons_of_mem _ hb)) hagree'
          hstore' hnumbers'
        exact ⟨sealed :: fresh, .cons hblocks htwin hagain hsealed hrest⟩
      · exact ⟨[sealed], .diverged hblocks htwin hagain hsealed hdiffers hstore'⟩

end Laws

end KanariNode

structure DataDir.Legacy (dir : DataDir) (journal : Journal) : Prop where
  chain : dir.chain = .empty
  file : dir.stateFile = some (some journal)

/-- The journal is a chain: its blocks count up from one, hold one transaction each and name the
block before them. -/
structure Journal.Chained (P : Platform) (journal : Journal) : Prop where
  numbers : ∀ i (hi : i < journal.blocks.length), journal.blocks[i].number.toNat = i + 1
  single : ∀ block ∈ journal.blocks, ∃ raw, block.txs = [raw]
  parents : ∀ i (hi : i < journal.blocks.length),
    journal.blocks[i].parentHash = nextParentHash P (journal.blocks.take i)

/-- The last durable step that a migrating `open` has made; `saveBlock` counts its transactions. -/
inductive MigrationStep
  | untouched
  | initMeta
  | setFaucetKey
  | rename
  | removeSidecar
  | saveBlock (count : ℕ)
deriving DecidableEq

namespace DataDir

variable (P : Platform) (spec : KanariChainSpec) (dir : DataDir) (journal : Journal)

def sidecarSecret : Option B256 :=
  dir.faucetSidecar.bind fun text => (parseFaucetHexFile text).toOption

def withMeta : ChainStore :=
  let spec := KanariNode.reopenSpec spec journal.genesisAlloc
  dir.chain.initMeta spec.chainId spec.genesisAlloc

def migratedChain : ChainStore :=
  match dir.sidecarSecret with
  | some secret => (dir.withMeta spec journal).setFaucetKey secret
  | none => dir.withMeta spec journal

def migrated : DataDir :=
  { dir with
    chain := dir.migratedChain spec journal
    stateFile := none
    migratedFile := dir.stateFile
    faucetSidecar := none }

def migrationStart : KanariNode :=
  { KanariNode.blank (KanariNode.reopenSpec spec journal.genesisAlloc) dir with
    store := dir.migratedChain spec journal
    faucetKey := dir.sidecarSecret }.genesis P

/-- What the process leaves behind if it ends after a step. The tree is written ahead of every
batch, so it may hold anything. -/
def afterStep (tree : SparseMerkleTree) : MigrationStep → DataDir
  | .untouched => { dir with smt := tree }
  | .initMeta => { dir with chain := dir.withMeta spec journal, smt := tree }
  | .setFaucetKey => { dir with chain := dir.migratedChain spec journal, smt := tree }
  | .rename => { dir.migrated spec journal with faucetSidecar := dir.faucetSidecar, smt := tree }
  | .removeSidecar => { dir.migrated spec journal with smt := tree }
  | .saveBlock count =>
    { (KanariNode.replayBlocks P (dir.migrationStart P spec journal)
        ((KanariNode.unrolled journal.blocks).take count)).1.dataDir
          (dir.migrated spec journal) with smt := tree }

end DataDir

namespace KanariNode

variable {spec : KanariChainSpec} {dir : DataDir} {journal : Journal}

/-- The whole of `open` on a legacy state base. -/
theorem open_legacy (h : dir.Legacy journal) (hid : journal.chainId = spec.chainId) :
    «open» P spec dir = finishOpen (dir.migrated spec journal)
      (replayBlocks P (dir.migrationStart P spec journal) journal.blocks) := by
  have hnone : dir.chain.storedChainId = .ok none := by
    rw [h.chain]
    decide
  have hsame : ¬journal.chainId ≠ (blank spec dir).spec.chainId := not_not.mpr hid
  have hmigrate : (blank spec dir).migrateLegacyJournal dir (some journal) =
      .ok (dir.migrated spec journal, { blank (reopenSpec spec journal.genesisAlloc) dir with
        store := dir.migratedChain spec journal
        faucetKey := dir.sidecarSecret }, journal.blocks) := by
    rw [migrateLegacyJournal, if_neg hsame]
    rfl
  rw [KanariNode.open, hnone]
  simp only [openFresh, h.file, hmigrate]
  rfl

theorem reopenSpec_reopenSpec (spec : KanariChainSpec) (alloc : List (Address × U256)) :
    reopenSpec spec (reopenSpec spec alloc).genesisAlloc = reopenSpec spec alloc := by
  by_cases halloc : alloc = []
  · simp [reopenSpec, halloc]
  · simp [reopenSpec, halloc]

theorem withMeta_carries (h : dir.Legacy journal) :
    (dir.withMeta spec journal).Carries spec.chainId
      (reopenSpec spec journal.genesisAlloc).genesisAlloc [] := by
  have hchain : (reopenSpec spec journal.genesisAlloc).chainId = spec.chainId := by
    unfold reopenSpec
    split_ifs <;> rfl
  rw [DataDir.withMeta, h.chain, ← hchain]
  exact (ChainStore.mirrors_initMeta _ _).carries

theorem migratedChain_carries (h : dir.Legacy journal) :
    (dir.migratedChain spec journal).Carries spec.chainId
      (reopenSpec spec journal.genesisAlloc).genesisAlloc [] := by
  unfold DataDir.migratedChain
  cases dir.sidecarSecret with
  | none => exact withMeta_carries h
  | some secret => exact (withMeta_carries h).setFaucetKey secret

theorem open_carried {d : DataDir} {blocks : List SealedBlock} {replayed : KanariNode}
    (hd : d.chain.Carries spec.chainId (reopenSpec spec journal.genesisAlloc).genesisAlloc blocks)
    (hr : replayBlocks P ((blank (reopenSpec spec journal.genesisAlloc) d).genesis P) blocks =
      (replayed, .ok ())) :
    ∃ node, («open» P spec d).2 = .ok node ∧ node.blocks = replayed.blocks := by
  have hsetup := SameSetup.replayBlocks (P := P)
    ((blank (reopenSpec spec journal.genesisAlloc) d).genesis P) blocks
  rw [hr] at hsetup
  have hfaucet : replayed.store.loadFaucetKey.isOk = true := by
    rw [hsetup.storedFaucet]
    exact hd.faucet
  rw [open_of_carries hd, reopenSpec_reopenSpec, hr]
  simp only [finishOpen, pickUpFaucetKey]
  cases hf : replayed.store.loadFaucetKey with
  | error e =>
    rw [hf] at hfaucet
    exact absurd hfaucet Bool.false_ne_true
  | ok found =>
    cases found with
    | none => exact ⟨replayed, rfl, rfl⟩
    | some secret => exact ⟨_, rfl, rfl⟩

def RestoresJournal (P : Platform) (spec : KanariChainSpec) (journal : Journal) (d : DataDir) :
    Prop :=
  ∀ node, («open» P spec d).2 = .ok node →
    List.Forall₂ SealedBlock.Restores node.blocks journal.blocks

/-- The directories that later opens find: what the first one left, and what any number of further
ones left, run to the end or killed on the way. -/
inductive Found (P : Platform) (spec : KanariChainSpec) (dir : DataDir) (journal : Journal) :
    DataDir → Prop
  | first (step : MigrationStep) (tree : SparseMerkleTree) :
      Found P spec dir journal (dir.afterStep P spec journal tree step)
  | opened {d : DataDir} (tree : SparseMerkleTree) (before : Found P spec dir journal d) :
      Found P spec dir journal { («open» P spec d).1 with smt := tree }
  | killed {d : DataDir} (count : ℕ) (tree : SparseMerkleTree)
      (before : Found P spec dir journal d) :
      Found P spec dir journal (crashedOpen P spec d count tree)

/-- Whatever happened to the first open, no later one succeeds with less than the journal. -/
def MigratesWhole (P : Platform) (spec : KanariChainSpec) (dir : DataDir) (journal : Journal) :
    Prop :=
  ∀ d, Found P spec dir journal d → RestoresJournal P spec journal d

theorem restoresJournal_of_carries {d : DataDir} {blocks : List SealedBlock}
    {replayed : KanariNode}
    (hd : d.chain.Carries spec.chainId (reopenSpec spec journal.genesisAlloc).genesisAlloc blocks)
    (hr : replayBlocks P ((blank (reopenSpec spec journal.genesisAlloc) d).genesis P) blocks =
      (replayed, .ok ())) (hblocks : replayed.blocks = blocks) :
    RestoresJournal P spec journal d ↔
      List.Forall₂ SealedBlock.Restores blocks journal.blocks := by
  obtain ⟨node, hopen, hnode⟩ := open_carried hd hr
  rw [hblocks] at hnode
  constructor
  · intro hall
    rw [← hnode]
    exact hall node hopen
  · intro hall n hn
    obtain rfl : node = n := Except.ok.inj (hopen.symm.trans hn)
    rwa [hnode]

theorem restoresJournal_of_nil {d : DataDir}
    (hd : d.chain.Carries spec.chainId (reopenSpec spec journal.genesisAlloc).genesisAlloc []) :
    RestoresJournal P spec journal d ↔ journal.blocks = [] := by
  rw [restoresJournal_of_carries hd rfl rfl]
  exact List.forall₂_nil_left_iff

theorem found_of_nil (h : dir.Legacy journal) (hid : journal.chainId = spec.chainId)
    (hnil : journal.blocks = []) {d : DataDir} (hd : Found P spec dir journal d) :
    d.Legacy journal ∨
      d.chain.Carries spec.chainId (reopenSpec spec journal.genesisAlloc).genesisAlloc [] := by
  induction hd with
  | first step tree =>
    cases step with
    | untouched => exact .inl ⟨h.chain, h.file⟩
    | initMeta => exact .inr (withMeta_carries h)
    | setFaucetKey => exact .inr (migratedChain_carries h)
    | rename => exact .inr (migratedChain_carries h)
    | removeSidecar => exact .inr (migratedChain_carries h)
    | saveBlock count =>
      right
      simp only [DataDir.afterStep, hnil, unrolled, storedTxs, List.flatMap_nil, List.map_nil,
        List.take_nil, replayBlocks]
      exact migratedChain_carries h
  | opened tree _ ih =>
    right
    rcases ih with hlegacy | hcarries
    · rw [open_legacy hlegacy hid, hnil]
      exact migratedChain_carries hlegacy
    · rw [open_of_carries hcarries]
      exact hcarries
  | killed count tree _ ih =>
    rcases ih with hlegacy | hcarries
    · left
      have halloc : (ChainStore.empty).storedGenesisAlloc = .ok [] := by decide
      have hload : (ChainStore.empty).loadBlocks = .ok [] := by decide
      simp only [crashedOpen, hlegacy.chain, halloc, hload, List.take_nil, replayBlocks]
      exact ⟨hlegacy.chain, hlegacy.file⟩
    · right
      simp only [crashedOpen, hcarries.alloc, hcarries.loadBlocks, List.take_nil, replayBlocks]
      exact hcarries

/-- An untouched journal that is a chain is restored whole by the open that succeeds on it. -/
theorem restoresJournal_of_legacy (h : dir.Legacy journal) (hid : journal.chainId = spec.chainId)
    (hsingle : ∀ block ∈ journal.blocks, ∃ raw, block.txs = [raw])
    (hparents : ∀ i (hi : i < journal.blocks.length),
      journal.blocks[i].parentHash = nextParentHash P (journal.blocks.take i)) :
    RestoresJournal P spec journal dir := by
  intro node hopen
  rw [open_legacy h hid] at hopen
  obtain ⟨faucet, hok, rfl⟩ := finishOpen_ok hopen
  obtain ⟨fresh, hfresh, hresealed⟩ := replayBlocks_resealed (Prod.ext rfl hok)
  have hlinked : Linked P (replayBlocks P (dir.migrationStart P spec journal)
      journal.blocks).1.blocks := linked_replayBlocks Linked.nil journal.blocks
  have hblocks : (replayBlocks P (dir.migrationStart P spec journal) journal.blocks).1.blocks =
      fresh := hfresh
  change List.Forall₂ _ (replayBlocks P (dir.migrationStart P spec journal)
    journal.blocks).1.blocks _
  rw [hblocks] at hlinked ⊢
  exact restores_of_resealed hlinked hsingle hparents hresealed

theorem ReplayLeaves.restores_iff {chainId : U64} {alloc : List (Address × U256)}
    {start twin : KanariNode} {fresh : List SealedBlock} {count : ℕ}
    (h : ReplayLeaves P chainId alloc start twin (journal.blocks.take count) fresh)
    (hstart : start.blocks = []) (hchained : journal.Chained P) :
    List.Forall₂ SealedBlock.Restores fresh journal.blocks ↔
      journal.blocks.length ≤ count ∧ (replayBlocks P start journal.blocks).2 = .ok () := by
  have happended := h.appended
  rw [hstart, List.nil_append] at happended
  constructor
  · intro hall
    have hok : (replayBlocks P start (journal.blocks.take count)).2 = .ok () := by
      cases hout : (replayBlocks P start (journal.blocks.take count)).2 with
      | ok u => rfl
      | error e =>
        have hnot := h.failed (by rw [hout]; rfl) (journal.blocks.drop count)
        rw [List.take_append_drop] at hnot
        exact absurd hall hnot
    obtain ⟨sealed, hsealed, hresealed⟩ := replayBlocks_resealed (Prod.ext rfl hok)
    rw [happended, hstart, List.nil_append] at hsealed
    have hlen := hresealed.length_eq
    rw [storedTxs_of_single fun block hmem => hchained.single block (List.mem_of_mem_take hmem),
      List.length_map, List.length_take, ← hsealed, hall.length_eq] at hlen
    have hle : journal.blocks.length ≤ count := by omega
    rw [List.take_of_length_le hle] at hok
    exact ⟨hle, hok⟩
  · rintro ⟨hle, hok⟩
    rw [List.take_of_length_le hle] at happended
    obtain ⟨sealed, hsealed, hresealed⟩ := replayBlocks_resealed (Prod.ext rfl hok)
    rw [happended, hstart, List.nil_append] at hsealed
    have hlinked : Linked P (replayBlocks P start journal.blocks).1.blocks :=
      linked_replayBlocks (hstart ▸ Linked.nil) journal.blocks
    rw [happended] at hlinked
    exact restores_of_resealed hlinked hchained.single hchained.parents (hsealed ▸ hresealed)

/-- After some of the transactions were saved, the next open restores the whole journal exactly if
all of them had been saved and had passed the checks. -/
theorem restoresJournal_saveBlock (hR : P.toRevm.CacheLaws) (hdet : P.toRevm.Deterministic)
    (h : dir.Legacy journal) (hchained : journal.Chained P) (count : ℕ)
    (tree : SparseMerkleTree) :
    RestoresJournal P spec journal (dir.afterStep P spec journal tree (.saveBlock count)) ↔
      journal.blocks.length ≤ count ∧
        (replayBlocks P (dir.migrationStart P spec journal) journal.blocks).2 = .ok () := by
  set start := dir.migrationStart P spec journal
  set d := dir.afterStep P spec journal tree (.saveBlock count)
  have hstart : start.store.Carries spec.chainId
      (reopenSpec spec journal.genesisAlloc).genesisAlloc start.blocks := migratedChain_carries h
  have hagree : Agree start ((blank (reopenSpec spec journal.genesisAlloc) d).genesis P) :=
    ⟨rfl, SameCache.refl _, rfl, rfl⟩
  have hnumbers : ∀ i (hi : i < (journal.blocks.take count).length),
      (journal.blocks.take count)[i].number.toNat = start.blocks.length + i + 1 := by
    intro i hi
    have hi' := hchained.numbers i (Nat.lt_of_lt_of_le hi (List.length_take_le' _ _))
    rw [List.getElem_take, hi']
    exact congrArg (· + 1) (Nat.zero_add i).symm
  obtain ⟨fresh, hleaves⟩ := replayLeaves hR hdet
    (fun block hmem => hchained.single block (List.mem_of_mem_take hmem)) hagree hstart hnumbers
  have hd : d.chain.Carries spec.chainId (reopenSpec spec journal.genesisAlloc).genesisAlloc
      fresh := by
    have hs := hleaves.store
    change (replayBlocks P start ((unrolled journal.blocks).take count)).1.store.Carries _ _ _
    rwa [unrolled_of_single hchained.single]
  obtain ⟨replayed, hr, hblocks⟩ := hleaves.again
  rw [restoresJournal_of_carries hd hr hblocks]
  exact hleaves.restores_iff rfl hchained

/-- The migration of a journal is all or nothing exactly if the journal has no blocks. For a journal
that is a chain, what the first open left is safe exactly if it died before it wrote the metadata,
or had saved and checked every block. -/
theorem migration_all_or_nothing_iff (hR : P.toRevm.CacheLaws) (hdet : P.toRevm.Deterministic)
    (h : dir.Legacy journal) (hid : journal.chainId = spec.chainId) :
    (MigratesWhole P spec dir journal ↔ journal.blocks = []) ∧
      (journal.Chained P → ∀ step tree,
        RestoresJournal P spec journal (dir.afterStep P spec journal tree step) ↔
          journal.blocks = [] ∨ step = .untouched ∨ ∃ count, step = .saveBlock count ∧
            journal.blocks.length ≤ count ∧
            (replayBlocks P (dir.migrationStart P spec journal) journal.blocks).2 = .ok ()) := by
  refine ⟨⟨fun hwhole => ?_, fun hnil d hd => ?_⟩, fun hchained step tree => ?_⟩
  · have hmeta := hwhole _ (.first .initMeta ⟨∅⟩)
    exact (restoresJournal_of_nil (withMeta_carries h)).mp hmeta
  · rcases found_of_nil h hid hnil hd with hlegacy | hcarries
    · apply restoresJournal_of_legacy hlegacy hid
      · rw [hnil]
        exact fun block hmem => absurd hmem List.not_mem_nil
      · rw [hnil]
        exact fun i hi => absurd hi (Nat.not_lt_zero i)
    · exact (restoresJournal_of_nil hcarries).mpr hnil
  · have hearly : ∀ d : DataDir, d.chain.Carries spec.chainId
        (reopenSpec spec journal.genesisAlloc).genesisAlloc [] → step ≠ .untouched →
        (∀ count, step ≠ .saveBlock count) → (RestoresJournal P spec journal d ↔
          journal.blocks = [] ∨ step = .untouched ∨ ∃ count, step = .saveBlock count ∧
            journal.blocks.length ≤ count ∧
            (replayBlocks P (dir.migrationStart P spec journal) journal.blocks).2 = .ok ()) := by
      intro d hd huntouched hsave
      rw [restoresJournal_of_nil hd]
      constructor
      · exact .inl
      · rintro (hnil | hstep | ⟨count, hstep, -⟩)
        · exact hnil
        · exact absurd hstep huntouched
        · exact absurd hstep (hsave count)
    cases step with
    | untouched =>
      refine ⟨fun _ => .inr (.inl rfl), fun _ => ?_⟩
      have hsame : (dir.afterStep P spec journal tree .untouched).Legacy journal :=
        ⟨h.chain, h.file⟩
      exact restoresJournal_of_legacy hsame hid hchained.single hchained.parents
    | initMeta => exact hearly _ (withMeta_carries h) nofun nofun
    | setFaucetKey => exact hearly _ (migratedChain_carries h) nofun nofun
    | rename => exact hearly _ (migratedChain_carries h) nofun nofun
    | removeSidecar => exact hearly _ (migratedChain_carries h) nofun nofun
    | saveBlock count =>
      rw [restoresJournal_saveBlock hR hdet h hchained count tree]
      constructor
      · exact fun hall => .inr (.inr ⟨count, rfl, hall⟩)
      · rintro (hnil | hstep | ⟨count', hstep, hall⟩)
        · rw [hnil]
          exact ⟨Nat.zero_le _, rfl⟩
        · exact absurd hstep nofun
        · rwa [MigrationStep.saveBlock.inj hstep]

def transfersJournal : Journal where
  chainId := Reference.spec.chainId
  genesisAlloc := Reference.spec.genesisAlloc
  blocks := (live Reference.platform Reference.spec
    [.committed Reference.transfer0 5, .committed Reference.transfer1 5]).blocks

def legacyDir (journal : Journal) : DataDir :=
  { DataDir.fresh with stateFile := some (some journal) }

theorem migration_all_or_nothing_iff_transfers :
    ¬MigratesWhole Reference.platform Reference.spec (legacyDir transfersJournal)
        transfersJournal ∧
      RestoresJournal Reference.platform Reference.spec transfersJournal
        ((legacyDir transfersJournal).afterStep Reference.platform Reference.spec transfersJournal
          ⟨∅⟩ (.saveBlock 2)) := by
  have hrecorded := live_recorded Reference.platform Reference.spec
    [.committed Reference.transfer0 5, .committed Reference.transfer1 5]
  have hlinked := live_linked (P := Reference.platform) Reference.spec
    [.committed Reference.transfer0 5, .committed Reference.transfer1 5]
  have hchained : transfersJournal.Chained Reference.platform :=
    ⟨hrecorded.numbers, hrecorded.single, fun i hi => (hlinked i hi).parent⟩
  have hlegacy : (legacyDir transfersJournal).Legacy transfersJournal := ⟨rfl, rfl⟩
  have hid : transfersJournal.chainId = Reference.spec.chainId := rfl
  obtain ⟨hwhole, hstep⟩ := migration_all_or_nothing_iff Reference.cacheLaws
    Reference.deterministic hlegacy hid
  refine ⟨fun hall => absurd (hwhole.mp hall) (by decide +kernel), ?_⟩
  exact (hstep hchained _ _).mpr (.inr (.inr ⟨2, rfl, by decide +kernel, by decide +kernel⟩))

def repeatedJournal : Journal :=
  { transfersJournal with
    blocks := transfersJournal.blocks.map fun block => { block with txs := [Reference.transfer0] } }

/-- A migration killed once the journal is renamed drops both blocks; one that fails at the second
block returns its error once, and the next open goes on with the first. -/
theorem interrupted_migration_drops_blocks :
    transfersJournal.blocks.length = 2 ∧
      («open» Reference.platform Reference.spec ((legacyDir transfersJournal).afterStep
        Reference.platform Reference.spec transfersJournal ⟨∅⟩ .rename)).2.toOption.map
          (·.blocks) = some [] ∧
      ¬MigratesWhole Reference.platform Reference.spec (legacyDir transfersJournal)
        transfersJournal ∧
      («open» Reference.platform Reference.spec (legacyDir repeatedJournal)).2.isOk = false ∧
      («open» Reference.platform Reference.spec («open» Reference.platform Reference.spec
        (legacyDir repeatedJournal)).1).2.toOption.map (·.blocks) =
          some (repeatedJournal.blocks.take 1) := by
  have hlen : transfersJournal.blocks.length = 2 := by decide +kernel
  have hopen : («open» Reference.platform Reference.spec ((legacyDir transfersJournal).afterStep
      Reference.platform Reference.spec transfersJournal ⟨∅⟩ .rename)).2.toOption.map
        (·.blocks) = some [] := by decide +kernel
  refine ⟨hlen, hopen, fun hwhole => ?_, by decide +kernel, by decide +kernel⟩
  obtain ⟨node, hnode, hnil⟩ := Option.map_eq_some_iff.mp hopen
  have hall := hwhole _ (.first .rename ⟨∅⟩) node (eq_ok_of_toOption hnode)
  rw [hnil, List.forall₂_nil_left_iff] at hall
  rw [hall] at hlen
  exact absurd hlen (by decide)

end KanariNode

end KanariEvm
