import KanariEvm.Replay

namespace KanariEvm

open InMemoryDB Journaled

namespace KanariNode

variable {P : Platform}

theorem sealRawWithFee_healthy_cases (P : Platform) (node : KanariNode) (raw : Bytes)
    (number timestamp baseFee : U64) :
    (∃ db e, executeRaw P node.db node.spec raw number timestamp baseFee = (db, .error e) ∧
        node.sealRawWithFee P raw number timestamp baseFee .healthy =
          ({ node with db := db }, .error e)) ∨
      ∃ db prepared result, executeRaw P node.db node.spec raw number timestamp baseFee =
          (db, .ok (prepared, result)) ∧
        node.sealRawWithFee P raw number timestamp baseFee .healthy =
          (node.afterSeal P raw number timestamp baseFee db prepared result,
            .ok (P.keccak256 raw)) := by
  rcases hex : executeRaw P node.db node.spec raw number timestamp baseFee with
    ⟨db, e | ⟨prepared, result⟩⟩
  · exact .inl ⟨db, e, rfl, sealRawWithFee_of_error hex⟩
  · exact .inr ⟨db, prepared, result, rfl, sealRawWithFee_of_ok hex .healthy⟩

/-- The parts of a node that no seal changes. -/
structure SameSetup (m n : KanariNode) : Prop where
  spec : m.spec = n.spec
  genesisRoot : m.genesisRoot = n.genesisRoot
  faucetKey : m.faucetKey = n.faucetKey
  chainId : m.store.storedChainId = n.store.storedChainId
  alloc : m.store.storedGenesisAlloc = n.store.storedGenesisAlloc
  storedFaucet : m.store.loadFaucetKey = n.store.loadFaucetKey

theorem SameSetup.refl (node : KanariNode) : SameSetup node node := ⟨rfl, rfl, rfl, rfl, rfl, rfl⟩

theorem SameSetup.trans {l m n : KanariNode} (h : SameSetup l m) (h' : SameSetup m n) :
    SameSetup l n :=
  ⟨h.spec.trans h'.spec, h.genesisRoot.trans h'.genesisRoot, h.faucetKey.trans h'.faucetKey,
    h.chainId.trans h'.chainId, h.alloc.trans h'.alloc, h.storedFaucet.trans h'.storedFaucet⟩

theorem SameSetup.withDb {m n : KanariNode} (h : SameSetup m n) (db : InMemoryDB) :
    SameSetup { m with db := db } n :=
  ⟨h.spec, h.genesisRoot, h.faucetKey, h.chainId, h.alloc, h.storedFaucet⟩

theorem SameSetup.afterSeal {m n : KanariNode} (h : SameSetup m n) (raw : Bytes)
    (number timestamp baseFee : U64) (db : InMemoryDB) (prepared : PreparedTx)
    (result : ExecutionResult) :
    SameSetup (m.afterSeal P raw number timestamp baseFee db prepared result) n where
  spec := h.spec
  genesisRoot := h.genesisRoot
  faucetKey := h.faucetKey
  chainId := (ChainStore.storedChainId_sealBatch _ _ _ _).trans h.chainId
  alloc := (ChainStore.storedGenesisAlloc_sealBatch _ _ _ _).trans h.alloc
  storedFaucet := (ChainStore.loadFaucetKey_sealBatch _ _ _ _).trans h.storedFaucet

theorem SameSetup.replayBlocks (node : KanariNode) (blocks : List SealedBlock) :
    SameSetup (KanariNode.replayBlocks P node blocks).1 node := by
  apply replayBlocks_induction (p := fun m => SameSetup m node)
  · intro n raw number timestamp baseFee hn
    rcases n.sealRawWithFee_healthy_cases P raw number timestamp baseFee with
      ⟨db, e, -, hs⟩ | ⟨db, prepared, result, -, hs⟩
    · rw [hs]
      exact hn.withDb db
    · rw [hs]
      exact hn.afterSeal raw number timestamp baseFee db prepared result
  · exact SameSetup.refl node

theorem SameSetup.run (node : KanariNode) (steps : List SealStep) :
    SameSetup ((sealMachine P).final node steps) node := by
  apply (sealMachine P).final_induction (p := fun m => SameSetup m node)
  · intro n step hn
    rcases sealMachine_cases P n step with
      ⟨sender, hs⟩ | ⟨db, e, hs, -⟩ | ⟨number, db, prepared, result, -, -, hs⟩
    · rw [hs]
      exact ⟨hn.spec, hn.genesisRoot, hn.faucetKey, hn.chainId, hn.alloc, hn.storedFaucet⟩
    · rw [hs]
      exact hn.withDb db
    · rw [hs]
      exact hn.afterSeal _ _ _ _ _ _ _
  · exact SameSetup.refl node

def Committed (P : Platform) (node : KanariNode) : Prop := node.smt.entries = smtEntries P node.db

theorem Committed.of_sameCache {node : KanariNode} (h : node.Committed P) {db : InMemoryDB}
    (hdb : SameCache db node.db) : ({ node with db := db } : KanariNode).Committed P :=
  h.trans (hdb.smtEntries P).symm

theorem Committed.afterSeal (node : KanariNode) (raw : Bytes) (number timestamp baseFee : U64)
    (db : InMemoryDB) (prepared : PreparedTx) (result : ExecutionResult) :
    (node.afterSeal P raw number timestamp baseFee db prepared result).Committed P := rfl

theorem Committed.stateRoot_eq {m n : KanariNode} (hm : m.Committed P) (hn : n.Committed P)
    (h : SameCache m.db n.db) : m.stateRoot P = n.stateRoot P := by
  rw [stateRoot, stateRoot, hm, hn, h.smtEntries P]

section Laws

variable (hR : P.toRevm.CacheLaws) (hq : P.toRevm.RejectsQuietly)

include hR hq

theorem Committed.replayBlocks (node : KanariNode) (h : node.Committed P)
    (blocks : List SealedBlock) : (KanariNode.replayBlocks P node blocks).1.Committed P := by
  apply replayBlocks_induction (p := fun m => m.Committed P) _ h
  intro n raw number timestamp baseFee hn
  rcases n.sealRawWithFee_healthy_cases P raw number timestamp baseFee with
    ⟨db, e, hex, hs⟩ | ⟨db, prepared, result, -, hs⟩
  · rw [hs]
    exact hn.of_sameCache (executeRaw_error_sameCache hR hq hex)
  · rw [hs]
    exact Committed.afterSeal _ _ _ _ _ _ _ _

theorem Committed.run {node : KanariNode} (h : node.Committed P) (steps : List SealStep) :
    ((sealMachine P).final node steps).Committed P := by
  apply (sealMachine P).final_induction (p := fun m => m.Committed P) _ h
  intro n step hn
  rcases sealMachine_cases P n step with
    ⟨sender, hs⟩ | ⟨db, e, hs, hdb⟩ | ⟨number, db, prepared, result, -, -, hs⟩
  · rw [hs]
    exact hn
  · rw [hs]
    rcases hdb with rfl | ⟨number, hex⟩
    · exact hn
    · exact hn.of_sameCache (executeRaw_error_sameCache hR hq hex)
  · rw [hs]
    exact Committed.afterSeal _ _ _ _ _ _ _ _

end Laws

def created (P : Platform) (spec : KanariChainSpec) : KanariNode :=
  { blank spec .fresh with
    store := ChainStore.empty.initMeta spec.chainId spec.genesisAlloc }.genesis P

theorem open_fresh (spec : KanariChainSpec) :
    («open» P spec .fresh).2 = .ok (created P spec) := by
  have hid : DataDir.fresh.chain.storedChainId = .ok none := by decide
  have hfaucet : (created P spec).store.loadFaucetKey = .ok none :=
    (ChainStore.mirrors_initMeta spec.chainId spec.genesisAlloc).faucet
  have hopen : «open» P spec .fresh = finishOpen .fresh (created P spec, .ok ()) := by
    rw [KanariNode.open, hid]
    rfl
  rw [hopen, finishOpen, pickUpFaucetKey, hfaucet]

theorem created_recorded (spec : KanariChainSpec) : (created P spec).Recorded spec :=
  ⟨rfl, ChainStore.mirrors_initMeta spec.chainId spec.genesisAlloc,
    fun i hi => absurd hi (Nat.not_lt_zero i), fun _ hb => absurd hb List.not_mem_nil,
    ChainStore.loadReceipt_initMeta spec.chainId spec.genesisAlloc⟩

theorem created_committed (spec : KanariChainSpec) : (created P spec).Committed P := rfl

theorem reopenSpec_self (spec : KanariChainSpec) : reopenSpec spec spec.genesisAlloc = spec := by
  unfold reopenSpec
  split_ifs <;> rfl

/-- On a stored chain `open` is a replay of its records. -/
theorem open_of_carries {spec : KanariChainSpec} {dir : DataDir} {alloc : List (Address × U256)}
    {blocks : List SealedBlock} (hm : dir.chain.Carries spec.chainId alloc blocks) :
    «open» P spec dir = finishOpen dir
      (replayBlocks P ((blank (reopenSpec spec alloc) dir).genesis P) blocks) := by
  have hload : ((blank (reopenSpec spec alloc) dir).genesis P).store.loadBlocks = .ok blocks :=
    hm.loadBlocks
  simp only [KanariNode.open, hm.chainId, openStored, ne_eq, not_true_eq_false, if_false, hm.alloc,
    hload]

theorem open_of_replay {spec : KanariChainSpec} {dir : DataDir} {alloc : List (Address × U256)}
    {blocks : List SealedBlock} (hm : dir.chain.Mirrors spec.chainId alloc blocks)
    {node : KanariNode}
    (hr : replayBlocks P ((blank (reopenSpec spec alloc) dir).genesis P) blocks =
      (node, .ok ())) :
    «open» P spec dir = (node.dataDir dir, .ok node) := by
  have hsetup := SameSetup.replayBlocks (P := P) ((blank (reopenSpec spec alloc) dir).genesis P)
    blocks
  have hfaucet : node.store.loadFaucetKey = .ok none := by
    rw [hr] at hsetup
    exact hsetup.storedFaucet.trans hm.faucet
  rw [open_of_carries hm.carries, hr, finishOpen, pickUpFaucetKey, hfaucet]

/-- The node after a run of seal attempts that began in a fresh directory. -/
def live (P : Platform) (spec : KanariChainSpec) (steps : List SealStep) : KanariNode :=
  (sealMachine P).final (created P spec) steps

theorem live_recorded (P : Platform) (spec : KanariChainSpec) (steps : List SealStep) :
    (live P spec steps).Recorded spec := (created_recorded spec).run steps

theorem live_blocks (P : Platform) (spec : KanariChainSpec) (steps : List SealStep) :
    (live P spec steps).blocks = (sealMachine P).journal (created P spec) steps :=
  (sealMachine P).log_final KanariNode.blocks sealMachine_blocks (created P spec) steps

/-- The blocks of a run from a fresh directory, replayed on the genesis of any directory with the
same spec, rebuild a node that agrees with the live one. -/
theorem replay_run (hR : P.toRevm.CacheLaws) (hdet : P.toRevm.Deterministic)
    (hq : P.toRevm.RejectsQuietly) (spec : KanariChainSpec) (steps : List SealStep)
    (dir : DataDir) :
    ∃ node, replayBlocks P ((blank spec dir).genesis P) (live P spec steps).blocks =
        (node, .ok ()) ∧ Agree (live P spec steps) node := by
  have hstart : Agree (created P spec) ((blank spec dir).genesis P) :=
    ⟨rfl, SameCache.refl _, rfl, rfl⟩
  obtain ⟨node, hfold, hagree⟩ :=
    (sealMachine_replays hR hdet hq).journal Agree.equivalence hstart steps
  refine ⟨node, ?_, hagree⟩
  rw [live_blocks]
  exact replayBlocks_of_foldlM hfold

end KanariNode

end KanariEvm
