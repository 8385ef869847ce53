import KanariEvm.Once

namespace KanariEvm

open InMemoryDB Journaled

namespace KanariNode

variable {P : Platform} {node : KanariNode} {spec : KanariChainSpec}

def blockPreimage (block : SealedBlock) : Bytes :=
  block.parentHash.asSlice ++ toBeBytes 8 block.number.toNat ++ toBeBytes 8 block.timestamp.toNat

/-- Everything the chain of a node takes a hash of: its block headers and its transactions. -/
def hashInputs (node : KanariNode) : List Bytes :=
  node.blocks.map blockPreimage ++ node.sealedTxs

/-- Keccak tells the inputs of the chain apart. -/
def CollisionFree (P : Platform) (node : KanariNode) : Prop :=
  ∀ a ∈ node.hashInputs, ∀ b ∈ node.hashInputs, P.keccak256 a = P.keccak256 b → a = b

instance (P : Platform) (node : KanariNode) : Decidable (CollisionFree P node) := by
  unfold CollisionFree; infer_instance

theorem blockPreimage_number {block block' : SealedBlock}
    (h : blockPreimage block = blockPreimage block') : block.number = block'.number := by
  have hfront := (List.append_inj' h (by simp)).1
  have hnumber := (List.append_inj' hfront (by simp)).2
  apply BitVec.eq_of_toNat_eq
  exact toBeBytes_injective (by simpa using block.number.isLt) (by simpa using block'.number.isLt)
    hnumber

/-- One linked chain, in memory and on disk. -/
structure OneChain (P : Platform) (node : KanariNode) : Prop where
  numbers : ∀ i (hi : i < node.blocks.length), node.blocks[i].number.toNat = i + 1
  single : ∀ block ∈ node.blocks, ∃ raw, block.txs = [raw]
  first : ∀ block, node.blocks.head? = some block → block.parentHash = genesisHash P
  parent : ∀ i (hi : i + 1 < node.blocks.length),
    node.blocks[i + 1].parentHash = node.blocks[i].hash
  hash : ∀ block ∈ node.blocks,
    block.hash = blockHash P block.parentHash block.number block.timestamp
  distinct : (node.blocks.map (·.hash)).Nodup
  /-- One receipt for each sealed transaction, and no other. -/
  receiptCount : node.receipts.keys.card = node.blocks.length
  receiptKeys : ∀ hash, hash ∈ node.receipts ↔ ∃ raw ∈ node.sealedTxs, P.keccak256 raw = hash
  /-- It names the block, and the store returns the same receipt and number. -/
  receipt : ∀ block ∈ node.blocks, ∀ raw ∈ block.txs, ∃ receipt,
    node.receipts.lookup (P.keccak256 raw) = some receipt ∧
      receipt.txHash = P.keccak256 raw ∧ receipt.blockNumber = block.number ∧
      receipt.blockHash = block.hash ∧
      node.store.loadReceipt (P.keccak256 raw) = .ok (some receipt) ∧
      node.store.blockNumberForTx (P.keccak256 raw) = .ok (some block.number)
  height : node.store.height = .ok (BitVec.ofNat 64 node.blocks.length)
  heightFits : node.blocks.length < 2 ^ 64
  record : ∀ i (hi : i < node.blocks.length),
    node.store.loadBlock (BitVec.ofNat 64 (i + 1)) = .ok (some node.blocks[i])

section Assembled

variable (h : node.Coherent P spec) (hex : node.Exhausted P) (hfree : CollisionFree P node)

include h

theorem Coherent.hash_eq {block : SealedBlock} (hmem : block ∈ node.blocks) :
    block.hash = P.keccak256 (blockPreimage block) := by
  obtain ⟨i, hi, rfl⟩ := List.mem_iff_getElem.mp hmem
  exact (h.linked i hi).hash

theorem Coherent.hashes_distinct (hfree : CollisionFree P node) :
    (node.blocks.map (·.hash)).Nodup := by
  refine List.pairwise_map.mpr (List.pairwise_iff_getElem.mpr fun i j hi hj hlt heq => ?_)
  have hmem : ∀ k (hk : k < node.blocks.length), blockPreimage node.blocks[k] ∈ node.hashInputs :=
    fun k hk => List.mem_append_left _ (List.mem_map_of_mem (List.getElem_mem hk))
  rw [h.hash_eq (List.getElem_mem hi), h.hash_eq (List.getElem_mem hj)] at heq
  have hnumber := blockPreimage_number (hfree _ (hmem i hi) _ (hmem j hj) heq)
  have hi' := h.recorded.numbers i hi
  have hj' := h.recorded.numbers j hj
  rw [hnumber] at hi'
  omega

theorem Coherent.sealedTxs_length : node.sealedTxs.length = node.blocks.length := by
  rw [sealedTxs, List.length_flatMap]
  have hone : ∀ n ∈ node.blocks.map fun block => block.txs.length, n = 1 := by
    intro n hn
    obtain ⟨block, hmem, rfl⟩ := List.mem_map.mp hn
    obtain ⟨raw, hraw⟩ := h.recorded.single block hmem
    rw [hraw]
    rfl
  rw [List.eq_replicate_of_mem hone]
  simp

theorem Coherent.mem_receipts (hash : B256) :
    hash ∈ node.receipts ↔ ∃ raw ∈ node.sealedTxs, P.keccak256 raw = hash := by
  rw [← Finmap.lookup_isSome]
  constructor
  · intro hsome
    obtain ⟨receipt, hlookup⟩ := Option.isSome_iff_exists.mp hsome
    obtain ⟨-, block, hmem, raw, htxs, hhash, -⟩ := h.receipted.named hash receipt hlookup
    exact ⟨raw, List.mem_flatMap.mpr ⟨block, hmem, htxs ▸ List.mem_singleton_self _⟩, hhash⟩
  · rintro ⟨raw, hraw, rfl⟩
    obtain ⟨block, hmem, htxs⟩ := List.mem_flatMap.mp hraw
    exact h.receipted.covered block hmem raw htxs

include hex hfree

theorem Coherent.receipt_count : node.receipts.keys.card = node.blocks.length := by
  have hkeys : node.receipts.keys = (node.sealedTxs.map P.keccak256).toFinset := by
    ext hash
    rw [Finmap.mem_keys, h.mem_receipts, List.mem_toFinset, List.mem_map]
  have hnodup : (node.sealedTxs.map P.keccak256).Nodup := by
    apply hex.nodup.map_on
    intro a ha b hb heq
    exact hfree a (List.mem_append_right _ ha) b (List.mem_append_right _ hb) heq
  rw [hkeys, List.toFinset_card_of_nodup hnodup, List.length_map, h.sealedTxs_length]

theorem Coherent.receipt_names_block {block : SealedBlock} (hmem : block ∈ node.blocks)
    {raw : Bytes} (hraw : raw ∈ block.txs) : ∃ receipt,
      node.receipts.lookup (P.keccak256 raw) = some receipt ∧
        receipt.txHash = P.keccak256 raw ∧ receipt.blockNumber = block.number ∧
        receipt.blockHash = block.hash := by
  obtain ⟨receipt, hlookup⟩ := Option.isSome_iff_exists.mp (h.receipted.covered block hmem raw hraw)
  obtain ⟨htx, block', hmem', raw', htxs, hhash, hnumber, hblock⟩ :=
    h.receipted.named _ receipt hlookup
  have hsealed : ∀ {b r}, b ∈ node.blocks → r ∈ b.txs → r ∈ node.hashInputs := fun hb hr =>
    List.mem_append_right _ (List.mem_flatMap.mpr ⟨_, hb, hr⟩)
  have hraw' : raw' ∈ block'.txs := htxs ▸ List.mem_singleton_self _
  obtain rfl := hfree _ (hsealed hmem' hraw') _ (hsealed hmem hraw) hhash
  -- a transaction is in one block only
  have hsame : block' = block := by
    by_contra hne
    have hsymm : Std.Symm (Function.onFun List.Disjoint SealedBlock.txs) :=
      ⟨fun _ _ hd => List.Disjoint.symm hd⟩
    have hdisjoint := (List.nodup_flatMap.mp hex.nodup).2.forall hmem' hmem hne
    exact hdisjoint hraw' hraw
  subst hsame
  exact ⟨receipt, hlookup, htx, hnumber, hblock⟩

theorem Coherent.oneChain : node.OneChain P where
  numbers := h.recorded.numbers
  single := h.recorded.single
  first block hhead := by
    obtain ⟨rest, hblocks⟩ := List.head?_eq_some_iff.mp hhead
    have hlen : 0 < node.blocks.length := by rw [hblocks]; exact Nat.succ_pos _
    have hzero : node.blocks[0] = block := by simp only [hblocks, List.getElem_cons_zero]
    have hparent := (h.linked 0 hlen).parent
    rw [hzero] at hparent
    exact hparent
  parent i hi := by
    have hparent := (h.linked (i + 1) hi).parent
    rw [hparent, nextParentHash, List.getLast?_take]
    simp [List.getElem?_eq_getElem (Nat.lt_of_succ_lt hi)]
  hash block hmem := h.hash_eq hmem
  distinct := h.hashes_distinct hfree
  receiptCount := h.receipt_count hex hfree
  receiptKeys := h.mem_receipts
  receipt block hmem raw hraw := by
    obtain ⟨receipt, hlookup, htx, hnumber, hhash⟩ := h.receipt_names_block hex hfree hmem hraw
    refine ⟨receipt, hlookup, htx, hnumber, hhash, ?_, ?_⟩
    · rw [h.recorded.receipts, hlookup]
    · rw [h.index, hlookup, Option.map_some, hnumber]
  height := h.recorded.store.height
  heightFits := h.recorded.store.bound
  record := h.recorded.store.record

end Assembled

/-- In every state a session on a fresh directory can reach, memory and disk describe one linked
chain. -/
theorem session_oneChain {ρ : Type} [DecidableEq ρ] (hR : P.toRevm.CacheLaws)
    (hn : P.toRevm.CountsNonces) {first v : ValidatorNode}
    (hfirst : first = ⟨created P spec, 0, []⟩ ∨ first = ValidatorNode.spawn (created P spec))
    {events : List (Event ρ)} (hrun : Session.run P spec first events = some v)
    (hfree : CollisionFree P v.node) : v.node.OneChain P := by
  have hstart : first.node.Exhausted P := by
    rcases hfirst with rfl | rfl
    · exact Exhausted.of_nil rfl
    · exact Exhausted.of_nil rfl
  exact (Coherent.life hR hfirst hrun).oneChain (hstart.session hR hn hrun) hfree

theorem session_oneChain_redelivered :
    ∃ v, Session.run Reference.platform Reference.spec
        (ValidatorNode.spawn (created Reference.platform Reference.spec)) redelivered = some v ∧
      v.node.blocks.length = 2 ∧ v.node.OneChain Reference.platform := by
  have hlen : (Session.run Reference.platform Reference.spec
      (ValidatorNode.spawn (created Reference.platform Reference.spec)) redelivered).map
        (fun v => decide (v.node.blocks.length = 2 ∧ CollisionFree Reference.platform v.node)) =
      some true := by decide +kernel
  obtain ⟨v, hrun, hv⟩ := Option.map_eq_some_iff.mp hlen
  obtain ⟨htwo, hfree⟩ := of_decide_eq_true hv
  exact ⟨v, hrun, htwo, session_oneChain Reference.cacheLaws Reference.countsNonces (.inr rfl) hrun
    hfree⟩

end KanariNode

end KanariEvm
