import KanariEvm.Reference
import KanariEvm.ReplayFailure
import KanariEvm.Restart

namespace KanariEvm

namespace KanariNode

variable {P : Platform}

structure SameRecords (s s' : ChainStore) : Prop where
  height : s'.height = s.height
  block : ∀ n, s'.loadBlock n = s.loadBlock n
  receipt : ∀ hash, s'.loadReceipt hash = s.loadReceipt hash

theorem Damaged.not_sameRecords {s store : ChainStore} {blocks : List SealedBlock}
    (hkeyed : s.WellKeyed) (hload : s.loadBlocks = .ok blocks) (h : Damaged store blocks) :
    ¬SameRecords s store := by
  intro hsame
  obtain ⟨block, hmem, hd⟩ := h
  obtain ⟨hrecord, hheight⟩ := (ChainStore.loadBlocks_spec hkeyed hload).2 block hmem
  rcases hd with ⟨b, hb, hne⟩ | ⟨height, hh, hlow⟩
  · rw [hsame.block, hrecord] at hb
    exact hne (Option.some.inj (Except.ok.inj hb)).symm
  · have hstored : s.height = .ok height := by
      rw [← hsame.height, ChainStore.height_eq_getD, hh]
      rfl
    have := hheight height hstored
    omega

/-- The node from which `open` replays a stored chain. -/
def replayStart (P : Platform) (spec : KanariChainSpec) (dir : DataDir)
    (alloc : List (Address × U256)) : KanariNode :=
  (blank (reopenSpec spec alloc) dir).genesis P

theorem replayStart_congr {spec : KanariChainSpec} {dir dir' : DataDir}
    {alloc : List (Address × U256)} (h : dir'.chain = dir.chain) :
    replayStart P spec dir' alloc = replayStart P spec dir alloc := by
  simp only [replayStart, genesis, rebuilt, blank, h, stateRoot]

section StoredChain

variable {spec : KanariChainSpec} {dir : DataDir} {alloc : List (Address × U256)}
  {blocks : List SealedBlock} {e : NodeError}
  (hid : dir.chain.storedChainId = .ok (some spec.chainId))
  (halloc : dir.chain.storedGenesisAlloc = .ok alloc) (hload : dir.chain.loadBlocks = .ok blocks)

include hid halloc hload

theorem open_of_failed_replay {node : KanariNode}
    (hr : replayBlocks P (replayStart P spec dir alloc) blocks = (node, .error e)) :
    «open» P spec dir = (node.dataDir dir, .error e) := by
  have hstart : ((blank (reopenSpec spec alloc) dir).genesis P).store.loadBlocks = .ok blocks :=
    hload
  have hr' : replayBlocks P ((blank (reopenSpec spec alloc) dir).genesis P) blocks =
    (node, .error e) := hr
  simp only [KanariNode.open, hid, openStored, ne_eq, not_true_eq_false, if_false, halloc, hstart,
    hr', finishOpen]

/-- A replay failure leaves the stored chain as it was, and failing for the next open too, exactly
when the transaction it failed at is the very first one stored. -/
theorem failed_open_loses_nothing_iff (hkeyed : dir.chain.WellKeyed)
    (hfail : (replayBlocks P (replayStart P spec dir alloc) blocks).2 = .error e) :
    (SameRecords dir.chain («open» P spec dir).1.chain ∧
        ∃ e', («open» P spec («open» P spec dir).1).2 = .error e') ↔
      FirstTxRejected P (replayStart P spec dir alloc) blocks := by
  rcases hr : replayBlocks P (replayStart P spec dir alloc) blocks with ⟨node, out⟩
  obtain rfl : out = .error e := by rw [← hfail, hr]
  have hopen := open_of_failed_replay hid halloc hload hr
  rw [hopen]
  constructor
  · rintro ⟨hsame, -⟩
    have hsorted := (ChainStore.loadBlocks_spec hkeyed hload).1
    rcases replayBlocks_error hsorted hr with ⟨-, hfirst⟩ | hdamaged
    · exact hfirst
    · exact absurd hsame (hdamaged.not_sameRecords hkeyed hload)
  · intro hfirst
    obtain ⟨db, e', hreplay⟩ := replayBlocks_of_firstTxRejected hfirst
    have hnode : node = { replayStart P spec dir alloc with db := db } := by
      rw [hr] at hreplay
      exact congrArg Prod.fst hreplay
    -- nothing was written, so the second open replays what the first one did
    have hchain : (node.dataDir dir).chain = dir.chain := by
      rw [hnode]
      rfl
    have hagain : replayBlocks P (replayStart P spec (node.dataDir dir) alloc) blocks =
        (node, .error e) := by
      rw [replayStart_congr hchain, hr]
    refine ⟨?_, e, ?_⟩
    · rw [hchain]
      exact ⟨rfl, fun _ => rfl, fun _ => rfl⟩
    · rw [open_of_failed_replay (hchain.symm ▸ hid) (hchain.symm ▸ halloc) (hchain.symm ▸ hload)
        hagain]

end StoredChain

def skippedNonce : SealedBlock where
  number := 1
  timestamp := 5
  hash := Reference.hashBlock1
  parentHash := Reference.hashGenesis
  txs := [Reference.transfer1]
  stateRoot := none
  baseFee := 1000000000

def skippedNonceReceipt : StoredReceipt where
  txHash := Reference.hash1
  blockNumber := 1
  blockHash := Reference.hashBlock1
  gasUsed := 21000
  success := true
  fromAddr := Reference.funded
  toAddr := some Reference.recipient
  contractAddress := none
  logs := []

def skippedNonceDir : DataDir :=
  { DataDir.fresh with
    chain := (ChainStore.empty.initMeta 19088 Reference.spec.genesisAlloc).write
      (ChainStore.sealBatch skippedNonce [(Reference.hash1, skippedNonceReceipt)]) }

theorem skippedNonceDir_wellKeyed : skippedNonceDir.chain.WellKeyed := by
  apply ChainStore.WellKeyed.write_sealBatch
  intro n b hb
  have h₁ : Keys.blockKey n ≠ Keys.metaGenesis := Keys.ne_of_table (by simp)
  have h₂ : Keys.blockKey n ≠ Keys.metaChainId := Keys.ne_of_table (by simp)
  simp [ChainStore.loadBlock, ChainStore.lookup_initMeta, h₁, h₂] at hb

/-- The refused chain is still there after the failed open, and still refused. -/
theorem failed_open_loses_nothing_iff_skippedNonce :
    SameRecords skippedNonceDir.chain
        («open» Reference.platform Reference.spec skippedNonceDir).1.chain ∧
      ∃ e, («open» Reference.platform Reference.spec
        («open» Reference.platform Reference.spec skippedNonceDir).1).2 = .error e := by
  have hid : skippedNonceDir.chain.storedChainId = .ok (some Reference.spec.chainId) := by
    decide +kernel
  have halloc : skippedNonceDir.chain.storedGenesisAlloc = .ok Reference.spec.genesisAlloc := by
    decide +kernel
  have hload : skippedNonceDir.chain.loadBlocks = .ok [skippedNonce] := by decide +kernel
  have hfail : (replayBlocks Reference.platform (replayStart Reference.platform Reference.spec
      skippedNonceDir Reference.spec.genesisAlloc) [skippedNonce]).2 =
        .error (.execution "nonce too high") := by decide +kernel
  exact (failed_open_loses_nothing_iff hid halloc hload skippedNonceDir_wellKeyed hfail).mpr
    ⟨skippedNonce, Reference.transfer1, rfl, .execution "nonce too high", by decide +kernel⟩

def spoiltDir : DataDir :=
  let closed := live Reference.platform Reference.spec
    [.committed Reference.transfer0 5, .committed Reference.transfer1 5]
  { closed.dataDir .fresh with
    chain := closed.store.write ((closed.blockByNumber 1).toList.map fun b =>
      (Keys.blockKey 1, .block { b with stateRoot := some 0 })) }

/-- The spoilt chain of two blocks fails to open once; the failed open has put a root of its own
in place and lowered the height, so that the second open succeeds on one block. -/
theorem failed_open_rewrites_chain :
    («open» Reference.platform Reference.spec spoiltDir).2 =
        .error (.storage "state root mismatch at block 1") ∧
      spoiltDir.chain.height = .ok 2 ∧
      («open» Reference.platform Reference.spec spoiltDir).1.chain.height = .ok 1 ∧
      («open» Reference.platform Reference.spec
        («open» Reference.platform Reference.spec spoiltDir).1).2.isOk = true := by
  decide +kernel

end KanariNode

end KanariEvm
