import KanariEvm.Reference
import KanariEvm.Opening

namespace KanariEvm

open InMemoryDB Journaled

namespace KanariNode

/-- The directory a run leaves when its process dies. The chain data is what the last batch left;
the tree may hold anything, since it is written ahead of the batch. -/
def crashDir (node : KanariNode) (tree : SparseMerkleTree) : DataDir :=
  { node.dataDir .fresh with smt := tree }

section Reopen

variable {P : Platform} (hR : P.toRevm.CacheLaws) (hdet : P.toRevm.Deterministic)
  (hq : P.toRevm.RejectsQuietly)

include hR hdet hq

theorem open_of_run (spec : KanariChainSpec) (steps : List SealStep) (dir : DataDir)
    (hm : dir.chain.Mirrors spec.chainId spec.genesisAlloc (live P spec steps).blocks) :
    ∃ node, («open» P spec dir) = (node.dataDir dir, .ok node) ∧ Agree (live P spec steps) node ∧
      node.Committed P ∧ node.genesisRoot = (created P spec).genesisRoot := by
  obtain ⟨node, hreplay, hagree⟩ := replay_run hR hdet hq spec steps dir
  have hself := reopenSpec_self spec
  have hcommitted := Committed.replayBlocks hR hq ((blank spec dir).genesis P) rfl
    (live P spec steps).blocks
  have hsetup := SameSetup.replayBlocks (P := P) ((blank spec dir).genesis P)
    (live P spec steps).blocks
  rw [hreplay] at hcommitted hsetup
  refine ⟨node, open_of_replay hm ?_, hagree, hcommitted, hsetup.genesisRoot⟩
  rw [hself]
  exact hreplay

/-- Whatever seal attempts a run made and wherever its process died, reopening the directory
yields the durable chain: its blocks, receipts, account state, root, head and pending fee. -/
theorem reopen_reproduces_chain (spec : KanariChainSpec) (steps : List SealStep)
    (tree : SparseMerkleTree) :
    ∃ node, («open» P spec ((live P spec steps).crashDir tree)).2 = .ok node ∧
      (live P spec steps).store.loadBlocks = .ok node.blocks ∧
      node.blocks = (live P spec steps).blocks ∧
      (∀ hash, (live P spec steps).store.loadReceipt hash = .ok (node.receipts.lookup hash)) ∧
      node.receipts = (live P spec steps).receipts ∧
      SameLogical node.db (live P spec steps).db ∧
      node.stateRoot P = (live P spec steps).stateRoot P ∧
      node.blockNumber = (live P spec steps).blockNumber ∧
      node.pendingBaseFee P = (live P spec steps).pendingBaseFee P := by
  have hrec := live_recorded P spec steps
  obtain ⟨node, hopen, hagree, hcommitted, -⟩ :=
    open_of_run hR hdet hq spec steps ((live P spec steps).crashDir tree) hrec.store
  have hlive : (live P spec steps).Committed P :=
    Committed.run hR hq (created_committed spec) steps
  refine ⟨node, by rw [hopen], ?_, hagree.blocks.symm, ?_, hagree.receipts.symm,
    hagree.symm.db.sameLogical, hcommitted.stateRoot_eq hlive hagree.symm.db,
    hagree.blockNumber.symm, (hagree.pendingBaseFee P).symm⟩
  · rw [hrec.store.loadBlocks, hagree.blocks]
  · intro hash
    rw [hrec.receipts, hagree.receipts]

end Reopen

theorem reopen_reproduces_chain_transfer :
    ∃ node, («open» Reference.platform Reference.spec ((live Reference.platform Reference.spec
        [.committed Reference.transfer1 5, .committed Reference.transfer0 5]).crashDir ⟨∅⟩)).2 =
          .ok node ∧ node.blocks.length = 1 := by
  obtain ⟨node, hopen, -, hblocks, -⟩ := reopen_reproduces_chain Reference.cacheLaws
    Reference.deterministic Reference.rejectsQuietly Reference.spec
    [.committed Reference.transfer1 5, .committed Reference.transfer0 5] ⟨∅⟩
  refine ⟨node, hopen, ?_⟩
  rw [hblocks]
  decide +kernel

end KanariNode

end KanariEvm
