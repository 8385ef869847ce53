import KanariEvm.Acceptance
import KanariEvm.CrashedOpen
import KanariEvm.History
import KanariEvm.Sessions

namespace KanariEvm

open InMemoryDB Journaled

namespace KanariNode

variable {P : Platform} {node : KanariNode} {spec : KanariChainSpec}

/-- The receipt map names the blocks, and misses no sealed transaction. -/
structure Receipted (P : Platform) (node : KanariNode) : Prop where
  named : ∀ hash receipt, node.receipts.lookup hash = some receipt →
    receipt.txHash = hash ∧ ∃ block ∈ node.blocks, ∃ raw, block.txs = [raw] ∧
      P.keccak256 raw = hash ∧ receipt.blockNumber = block.number ∧ receipt.blockHash = block.hash
  covered : ∀ block ∈ node.blocks, ∀ raw ∈ block.txs,
    (node.receipts.lookup (P.keccak256 raw)).isSome

theorem Receipted.afterSeal (h : node.Receipted P) (raw : Bytes) (number timestamp baseFee : U64)
    (db : InMemoryDB) (prepared : PreparedTx) (result : ExecutionResult) :
    (node.afterSeal P raw number timestamp baseFee db prepared result).Receipted P := by
  constructor
  · intro hash receipt hlookup
    simp only [KanariNode.afterSeal, Map.lookup_insert_ite] at hlookup ⊢
    split_ifs at hlookup with heq
    · subst heq
      rw [← Option.some.inj hlookup]
      exact ⟨rfl, _, List.mem_append_right _ (List.mem_singleton_self _), raw, rfl, rfl, rfl, rfl⟩
    · obtain ⟨hhash, block, hmem, hnamed⟩ := h.named hash receipt hlookup
      exact ⟨hhash, block, List.mem_append_left _ hmem, hnamed⟩
  · intro block hmem raw' hraw
    simp only [KanariNode.afterSeal, Map.lookup_insert_ite] at hmem ⊢
    split_ifs with heq
    · rfl
    · rcases List.mem_append.mp hmem with hold | hnew
      · exact h.covered block hold raw' hraw
      · rw [List.mem_singleton.mp hnew] at hraw
        exact absurd (congrArg P.keccak256 (List.mem_singleton.mp hraw)) heq

theorem Receipted.of_empty (hblocks : node.blocks = []) (hreceipts : node.receipts = ∅) :
    node.Receipted P := by
  constructor
  · intro hash receipt hlookup
    rw [hreceipts, Finmap.lookup_empty] at hlookup
    exact absurd hlookup nofun
  · intro block hmem
    rw [hblocks] at hmem
    exact absurd hmem List.not_mem_nil

theorem Receipted.replayBlocks (h : node.Receipted P) (blocks : List SealedBlock) :
    (replayBlocks P node blocks).1.Receipted P := by
  apply replayBlocks_induction (p := fun n => n.Receipted P) _ h
  intro n raw number timestamp baseFee hn
  rcases n.sealRawWithFee_healthy_cases P raw number timestamp baseFee with
    ⟨db, e, -, hs⟩ | ⟨db, prepared, result, -, hs⟩
  · rw [hs]
    exact ⟨hn.named, hn.covered⟩
  · rw [hs]
    exact hn.afterSeal raw number timestamp baseFee db prepared result

/-- The store returns the receipts in memory, and elsewhere what it returned before. -/
structure Filed (before : ChainStore) (node : KanariNode) : Prop where
  found : ∀ hash receipt, node.receipts.lookup hash = some receipt →
    node.store.loadReceipt hash = .ok (some receipt) ∧
      node.store.blockNumberForTx hash = .ok (some receipt.blockNumber)
  missing : ∀ hash, node.receipts.lookup hash = none →
    node.store.loadReceipt hash = before.loadReceipt hash ∧
      node.store.blockNumberForTx hash = before.blockNumberForTx hash

theorem Filed.afterSeal {before : ChainStore} (h : node.Filed before) (raw : Bytes)
    (number timestamp baseFee : U64) (db : InMemoryDB) (prepared : PreparedTx)
    (result : ExecutionResult) :
    (node.afterSeal P raw number timestamp baseFee db prepared result).Filed before := by
  constructor
  · intro hash receipt hlookup
    simp only [KanariNode.afterSeal, Map.lookup_insert_ite, ChainStore.loadReceipt_sealBatch,
      ChainStore.blockNumberForTx_sealBatch] at hlookup ⊢
    split_ifs at hlookup ⊢
    · rw [← Option.some.inj hlookup]
      exact ⟨rfl, rfl⟩
    · exact h.found hash receipt hlookup
  · intro hash hlookup
    simp only [KanariNode.afterSeal, Map.lookup_insert_ite, ChainStore.loadReceipt_sealBatch,
      ChainStore.blockNumberForTx_sealBatch] at hlookup ⊢
    split_ifs at hlookup ⊢
    exact h.missing hash hlookup

theorem Filed.replayBlocks (hreceipts : node.receipts = ∅) (blocks : List SealedBlock) :
    (replayBlocks P node blocks).1.Filed node.store := by
  apply replayBlocks_induction (p := fun n => n.Filed node.store)
  · intro n raw number timestamp baseFee hn
    rcases n.sealRawWithFee_healthy_cases P raw number timestamp baseFee with
      ⟨db, e, -, hs⟩ | ⟨db, prepared, result, -, hs⟩
    · rw [hs]
      exact ⟨hn.found, hn.missing⟩
    · rw [hs]
      exact hn.afterSeal raw number timestamp baseFee db prepared result
  · refine ⟨fun hash receipt hlookup => ?_, fun _ _ => ⟨rfl, rfl⟩⟩
    rw [hreceipts, Finmap.lookup_empty] at hlookup
    exact absurd hlookup nofun

/-- Blocks, receipts and the tables of the store describe one linked chain. -/
structure Coherent (P : Platform) (spec : KanariChainSpec) (node : KanariNode) : Prop where
  recorded : node.Recorded spec
  linked : Linked P node.blocks
  receipted : node.Receipted P
  index : ∀ hash, node.store.blockNumberForTx hash =
    .ok ((node.receipts.lookup hash).map (·.blockNumber))

namespace Coherent

theorem created (P : Platform) (spec : KanariChainSpec) :
    (KanariNode.created P spec).Coherent P spec :=
  ⟨created_recorded spec, Linked.nil, Receipted.of_empty rfl rfl,
    ChainStore.blockNumberForTx_initMeta spec.chainId spec.genesisAlloc⟩

theorem spawned (h : node.Coherent P spec) : (ValidatorNode.spawn node).node.Coherent P spec :=
  ⟨⟨h.recorded.sameSpec, h.recorded.store, h.recorded.numbers, h.recorded.single,
    h.recorded.receipts⟩, h.linked, ⟨h.receipted.named, h.receipted.covered⟩, h.index⟩

theorem perform (hR : P.toRevm.CacheLaws) (h : node.Coherent P spec) (op : Op) :
    (node.perform P op).Coherent P spec := by
  have hrecorded := h.recorded.perform hR op
  rcases perform_cases hR node op with
    hsame | ⟨step, io, x, tree, -, -, -, hp⟩ | ⟨step, x, -, -, hp⟩
  · refine ⟨hrecorded, ?_, ⟨?_, ?_⟩, ?_⟩
    · rw [hsame.blocks]
      exact h.linked
    · rw [hsame.blocks, hsame.receipts]
      exact h.receipted.named
    · rw [hsame.blocks, hsame.receipts]
      exact h.receipted.covered
    · rw [hsame.store, hsame.receipts]
      exact h.index
  · rw [hp] at hrecorded ⊢
    exact ⟨hrecorded, h.linked, ⟨h.receipted.named, h.receipted.covered⟩, h.index⟩
  · rw [hp] at hrecorded ⊢
    refine ⟨hrecorded, h.linked.concat (newBlock_follows node _ _ _ _ _ _),
      h.receipted.afterSeal _ _ _ _ _ _ _, fun hash => ?_⟩
    simp only [sealedNode, KanariNode.afterSeal, ChainStore.blockNumberForTx_sealBatch,
      Map.lookup_insert_ite, h.index]
    split_ifs <;> rfl

end Coherent

theorem Coherent.replayed_blocks (h : node.Coherent P spec) {start replayed : KanariNode}
    (hempty : start.blocks = [])
    (hreplay : replayBlocks P start node.blocks = (replayed, .ok ())) :
    replayed.blocks = node.blocks := by
  obtain ⟨fresh, hfresh, hresealed⟩ := replayBlocks_resealed hreplay
  rw [hempty, List.nil_append] at hfresh
  have hlinked : Linked P fresh := by
    have hl : Linked P (replayBlocks P start node.blocks).1.blocks :=
      linked_replayBlocks (hempty ▸ Linked.nil) node.blocks
    rwa [hreplay, hfresh] at hl
  have hrestores := restores_of_resealed hlinked h.recorded.single
    (fun i hi => (h.linked i hi).parent) hresealed
  obtain ⟨hlen, hget⟩ := List.forall₂_iff_get.mp hrestores
  rw [hfresh]
  apply List.ext_getElem hlen
  intro i hi hi'
  exact (hget i hi hi').eq (h.linked i hi').root

theorem Coherent.lookup_of_missing (h : node.Coherent P spec) {replayed : KanariNode}
    (hreceipted : replayed.Receipted P) (hblocks : replayed.blocks = node.blocks) {hash : B256}
    (hmissing : replayed.receipts.lookup hash = none) : node.receipts.lookup hash = none := by
  cases hold : node.receipts.lookup hash with
  | none => rfl
  | some receipt =>
    obtain ⟨-, block, hmem, raw, htxs, rfl, -⟩ := h.receipted.named hash receipt hold
    have hsome := hreceipted.covered block (hblocks ▸ hmem) raw (htxs ▸ List.mem_singleton_self _)
    rw [hmissing] at hsome
    cases hsome

theorem Coherent.refiled (h : node.Coherent P spec) {replayed : KanariNode}
    (hreceipted : replayed.Receipted P) (hfiled : replayed.Filed node.store)
    (hblocks : replayed.blocks = node.blocks) (hash : B256) :
    replayed.store.loadReceipt hash = .ok (replayed.receipts.lookup hash) ∧
      replayed.store.blockNumberForTx hash =
        .ok ((replayed.receipts.lookup hash).map (·.blockNumber)) := by
  cases hlookup : replayed.receipts.lookup hash with
  | some receipt => exact hfiled.found hash receipt hlookup
  | none =>
    obtain ⟨hreceipt, hindex⟩ := hfiled.missing hash hlookup
    have hold := h.lookup_of_missing hreceipted hblocks hlookup
    have hreceipt' := h.recorded.receipts hash
    have hindex' := h.index hash
    rw [hold] at hreceipt' hindex'
    exact ⟨hreceipt.trans hreceipt', hindex.trans hindex'⟩

/-- A successful reopen holds the same blocks, and memory and store are in step again. -/
theorem Coherent.reopened (h : node.Coherent P spec) {tree : SparseMerkleTree}
    {node' : KanariNode} (hopen : («open» P spec (node.crashDir tree)).2 = .ok node') :
    node'.blocks = node.blocks ∧ node'.Coherent P spec := by
  have hstore := h.recorded.store
  obtain ⟨alloc, records, replayed, faucet, halloc, hload, hreplay, -, rfl⟩ :=
    open_stored_ok (hstore.chainId : (node.crashDir tree).chain.storedChainId = _) hopen
  obtain rfl : alloc = spec.genesisAlloc := Except.ok.inj (halloc.symm.trans hstore.alloc)
  obtain rfl : records = node.blocks := Except.ok.inj (hload.symm.trans hstore.loadBlocks)
  rw [reopenSpec_self] at hreplay
  set start := (blank spec (node.crashDir tree)).genesis P
  have hempty : start.blocks = [] := rfl
  have hforgotten : start.receipts = ∅ := rfl
  have hblocks := h.replayed_blocks hempty hreplay
  have hstart : start.store.Mirrors spec.chainId spec.genesisAlloc node.blocks := hstore
  have hmirrors := mirrors_replayed hstart (List.prefix_refl _) id h.recorded.numbers
    h.recorded.single hreplay hblocks
  have hsetup := SameSetup.replayBlocks (P := P) start node.blocks
  have hlinked : Linked P (replayBlocks P start node.blocks).1.blocks :=
    linked_replayBlocks Linked.nil node.blocks
  have hreceipted := (Receipted.of_empty (P := P) hempty hforgotten).replayBlocks node.blocks
  have hfiled := Filed.replayBlocks (P := P) hforgotten node.blocks
  rw [hreplay] at hsetup hlinked hreceipted hfiled
  have hreceipts := h.refiled hreceipted hfiled hblocks
  refine ⟨hblocks, ⟨hsetup.spec, ?_, ?_, ?_, fun hash => (hreceipts hash).1⟩, hlinked,
    ⟨hreceipted.named, hreceipted.covered⟩, fun hash => (hreceipts hash).2⟩
  · change replayed.store.Mirrors _ _ replayed.blocks
    rw [hblocks]
    exact hmirrors
  · simpa only [hblocks] using h.recorded.numbers
  · simpa only [hblocks] using h.recorded.single

section Session

variable {ρ : Type} [DecidableEq ρ] (hR : P.toRevm.CacheLaws)

include hR

/-- In every reachable state of a session, memory and store are in step. -/
theorem Coherent.session {v v' : ValidatorNode} (h : v.node.Coherent P spec)
    {events : List (Event ρ)} (hrun : Session.run P spec v events = some v') :
    v'.node.Coherent P spec :=
  Session.run_induction (p := fun n => n.Coherent P spec) (fun _ op hn => hn.perform hR op)
    (fun _ hn => hn.spawned) (fun _ _ _ hn hopen => (hn.reopened hopen).2) h hrun

theorem Coherent.life {first v : ValidatorNode}
    (hfirst : first = ⟨KanariNode.created P spec, 0, []⟩ ∨
      first = ValidatorNode.spawn (KanariNode.created P spec))
    {events : List (Event ρ)} (hrun : Session.run P spec first events = some v) :
    v.node.Coherent P spec := by
  have hstart : first.node.Coherent P spec := by
    rcases hfirst with rfl | rfl
    · exact Coherent.created P spec
    · exact (Coherent.created P spec).spawned
  exact hstart.session hR hrun

theorem Coherent.session_grows {v v' : ValidatorNode} (h : v.node.Coherent P spec)
    {events : List (Event ρ)} (hrun : Session.run P spec v events = some v') :
    v.node.blocks <+: v'.node.blocks := by
  have hboth := Session.run_induction
    (p := fun n => n.Coherent P spec ∧ v.node.blocks <+: n.blocks) ?_ ?_ ?_
    ⟨h, List.prefix_refl _⟩ hrun
  · exact hboth.2
  · exact fun n op hn => ⟨hn.1.perform hR op,
      hn.2.trans (blocks_final hR n [op])⟩
  · exact fun n hn => ⟨hn.1.spawned, hn.2⟩
  · intro n tree n' hn hopen
    obtain ⟨hblocks, hcoherent⟩ := hn.1.reopened hopen
    exact ⟨hcoherent, hblocks ▸ hn.2⟩

end Session

end KanariNode

end KanariEvm
