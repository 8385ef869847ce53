import KanariEvm.Store

namespace KanariEvm.ChainStore

variable (s : ChainStore) (block : SealedBlock) (hash : B256) (receipt : StoredReceipt)

theorem u64_roundtrip (n : U64) : BitVec.ofNat 64 (fromLeBytes (toLeBytes 8 n.toNat)) = n := by
  rw [fromLeBytes_toLeBytes 8 n.toNat (by simpa using n.isLt)]
  simp

theorem getU64_of_lookup {s : ChainStore} {key : Bytes} {n : U64}
    (h : s.db.lookup key = some (u64Value n)) : s.getU64 key = .ok (some n) := by
  simp [getU64, h, u64Value, u64_roundtrip]

/-- The four puts of a block with one transaction, read back key by key. -/
theorem lookup_sealBatch (key : Bytes) :
    (s.write (sealBatch block [(hash, receipt)])).db.lookup key =
      if key = Keys.metaHeight then some (u64Value block.number)
      else if key = Keys.txIndexKey hash then some (u64Value block.number)
      else if key = Keys.receiptKey hash then some (.receipt receipt)
      else if key = Keys.blockKey block.number then some (.block block)
      else s.db.lookup key := by
  simp only [write, sealBatch, List.flatMap_cons, List.flatMap_nil, List.append_nil,
    List.cons_append, List.nil_append, List.foldl_cons, List.foldl_nil, Map.lookup_insert_ite]

theorem loadBlock_sealBatch (n : U64) :
    (s.write (sealBatch block [(hash, receipt)])).loadBlock n =
      if n = block.number then .ok (some block) else s.loadBlock n := by
  have h₁ : Keys.blockKey n ≠ Keys.metaHeight := Keys.ne_of_table (by simp)
  have h₂ : Keys.blockKey n ≠ Keys.txIndexKey hash := Keys.ne_of_table (by simp)
  have h₃ : Keys.blockKey n ≠ Keys.receiptKey hash := Keys.ne_of_table (by simp)
  simp only [loadBlock, lookup_sealBatch, h₁, h₂, h₃, if_false, Keys.blockKey_injective.eq_iff]
  split_ifs <;> rfl

theorem loadReceipt_sealBatch (x : B256) :
    (s.write (sealBatch block [(hash, receipt)])).loadReceipt x =
      if x = hash then .ok (some receipt) else s.loadReceipt x := by
  have h₁ : Keys.receiptKey x ≠ Keys.metaHeight := Keys.ne_of_table (by simp)
  have h₂ : Keys.receiptKey x ≠ Keys.txIndexKey hash := Keys.ne_of_table (by simp)
  have h₃ : Keys.receiptKey x ≠ Keys.blockKey block.number := Keys.ne_of_table (by simp)
  simp only [loadReceipt, lookup_sealBatch, h₁, h₂, h₃, if_false, Keys.receiptKey_injective.eq_iff]
  split_ifs <;> rfl

theorem blockNumberForTx_sealBatch (x : B256) :
    (s.write (sealBatch block [(hash, receipt)])).blockNumberForTx x =
      if x = hash then .ok (some block.number) else s.blockNumberForTx x := by
  have h₁ : Keys.txIndexKey x ≠ Keys.metaHeight := Keys.ne_of_table (by simp)
  have h₂ : Keys.txIndexKey x ≠ Keys.receiptKey hash := Keys.ne_of_table (by simp)
  have h₃ : Keys.txIndexKey x ≠ Keys.blockKey block.number := Keys.ne_of_table (by simp)
  simp only [blockNumberForTx, lookup_sealBatch, h₁, h₂, h₃, if_false,
    Keys.txIndexKey_injective.eq_iff]
  split_ifs
  · simp [u64Value, u64_roundtrip]
  · rfl

theorem height_sealBatch :
    (s.write (sealBatch block [(hash, receipt)])).getU64 Keys.metaHeight =
      .ok (some block.number) := by
  apply getU64_of_lookup
  rw [lookup_sealBatch, if_pos rfl]

theorem lookup_meta_sealBatch {key : Bytes} (hk : Keys.table key = some 0x6d)
    (hh : key ≠ Keys.metaHeight) :
    (s.write (sealBatch block [(hash, receipt)])).db.lookup key = s.db.lookup key := by
  have h₁ : key ≠ Keys.txIndexKey hash := Keys.ne_of_table (by simp [hk])
  have h₂ : key ≠ Keys.receiptKey hash := Keys.ne_of_table (by simp [hk])
  have h₃ : key ≠ Keys.blockKey block.number := Keys.ne_of_table (by simp [hk])
  rw [lookup_sealBatch, if_neg hh, if_neg h₁, if_neg h₂, if_neg h₃]

theorem storedChainId_sealBatch :
    (s.write (sealBatch block [(hash, receipt)])).storedChainId = s.storedChainId := by
  simp only [storedChainId, getU64,
    lookup_meta_sealBatch s block hash receipt Keys.table_metaChainId (by decide)]

theorem storedGenesisAlloc_sealBatch :
    (s.write (sealBatch block [(hash, receipt)])).storedGenesisAlloc = s.storedGenesisAlloc := by
  simp only [storedGenesisAlloc,
    lookup_meta_sealBatch s block hash receipt Keys.table_metaGenesis (by decide)]

theorem loadFaucetKey_sealBatch :
    (s.write (sealBatch block [(hash, receipt)])).loadFaucetKey = s.loadFaucetKey := by
  simp only [loadFaucetKey,
    lookup_meta_sealBatch s block hash receipt Keys.table_metaFaucetKey (by decide)]

/-- The store holds exactly this chain: its metadata, its height and its records `1..=h`. -/
structure Mirrors (s : ChainStore) (chainId : U64) (alloc : List (Address × U256))
    (blocks : List SealedBlock) : Prop where
  chainId : s.storedChainId = .ok (some chainId)
  alloc : s.storedGenesisAlloc = .ok alloc
  faucet : s.loadFaucetKey = .ok none
  height : s.height = .ok (BitVec.ofNat 64 blocks.length)
  bound : blocks.length < 2 ^ 64
  record : ∀ i (hi : i < blocks.length),
    s.loadBlock (BitVec.ofNat 64 (i + 1)) = .ok (some blocks[i])

/-- The store holds this chain, whatever it says of a faucet. -/
structure Carries (s : ChainStore) (chainId : U64) (alloc : List (Address × U256))
    (blocks : List SealedBlock) : Prop where
  chainId : s.storedChainId = .ok (some chainId)
  alloc : s.storedGenesisAlloc = .ok alloc
  faucet : s.loadFaucetKey.isOk = true
  height : s.height = .ok (BitVec.ofNat 64 blocks.length)
  bound : blocks.length < 2 ^ 64
  record : ∀ i (hi : i < blocks.length),
    s.loadBlock (BitVec.ofNat 64 (i + 1)) = .ok (some blocks[i])

theorem Mirrors.carries {s : ChainStore} {chainId : U64} {alloc : List (Address × U256)}
    {blocks : List SealedBlock} (h : s.Mirrors chainId alloc blocks) :
    s.Carries chainId alloc blocks :=
  ⟨h.chainId, h.alloc, by rw [h.faucet]; rfl, h.height, h.bound, h.record⟩

theorem height_eq_getD (s : ChainStore) :
    s.height = (s.getU64 Keys.metaHeight).map (·.getD 0) := by
  unfold height
  cases s.getU64 Keys.metaHeight <;> rfl

theorem loadBlocks_eq (s : ChainStore) :
    s.loadBlocks = s.height.bind fun h => s.loadNumbers ((List.range h.toNat).map (· + 1)) := by
  unfold loadBlocks height
  cases s.getU64 Keys.metaHeight <;> rfl

theorem loadNumbers_of_records {s : ChainStore} {ns : List ℕ} {blocks : List SealedBlock}
    (hlen : ns.length = blocks.length)
    (h : ∀ i (hi : i < ns.length), s.loadBlock (BitVec.ofNat 64 ns[i]) = .ok blocks[i]?) :
    s.loadNumbers ns = .ok blocks := by
  induction ns generalizing blocks with
  | nil => rw [List.eq_nil_of_length_eq_zero hlen.symm]; rfl
  | cons n ns ih =>
    cases blocks with
    | nil => simp at hlen
    | cons b bs =>
      have hb : s.loadBlock (BitVec.ofNat 64 n) = .ok (some b) := h 0 (by simp)
      have hbs : s.loadNumbers ns = .ok bs := by
        apply ih (by simpa using hlen)
        intro i hi
        exact h (i + 1) (by simpa using hi)
      simp [loadNumbers, hb, hbs, bind, Except.bind, pure, Except.pure]

theorem loadBlocks_of_records {s : ChainStore} {blocks : List SealedBlock}
    (hb : blocks.length < 2 ^ 64) (hh : s.height = .ok (BitVec.ofNat 64 blocks.length))
    (h : ∀ i (hi : i < blocks.length),
      s.loadBlock (BitVec.ofNat 64 (i + 1)) = .ok (some blocks[i])) :
    s.loadBlocks = .ok blocks := by
  have hlen : (BitVec.ofNat 64 blocks.length : U64).toNat = blocks.length := by
    rw [BitVec.toNat_ofNat]
    exact Nat.mod_eq_of_lt hb
  rw [loadBlocks_eq, hh]
  simp only [Except.bind, hlen]
  apply loadNumbers_of_records (by simp)
  intro i hi
  have hi' : i < blocks.length := by simpa using hi
  simpa [List.getElem?_eq_getElem hi'] using h i hi'

theorem Carries.loadBlocks {s : ChainStore} {chainId : U64} {alloc : List (Address × U256)}
    {blocks : List SealedBlock} (h : s.Carries chainId alloc blocks) :
    s.loadBlocks = .ok blocks :=
  loadBlocks_of_records h.bound h.height h.record

theorem Mirrors.loadBlocks {s : ChainStore} {chainId : U64} {alloc : List (Address × U256)}
    {blocks : List SealedBlock} (h : s.Mirrors chainId alloc blocks) :
    s.loadBlocks = .ok blocks := h.carries.loadBlocks

theorem lookup_initMeta (chainId : U64) (alloc : List (Address × U256)) (key : Bytes) :
    (empty.initMeta chainId alloc).db.lookup key =
      if key = Keys.metaGenesis then some (.alloc alloc)
      else if key = Keys.metaChainId then some (u64Value chainId) else none := by
  simp only [initMeta, write, empty, List.foldl_cons, List.foldl_nil, Map.lookup_insert_ite,
    Finmap.lookup_empty]

theorem mirrors_initMeta (chainId : U64) (alloc : List (Address × U256)) :
    (empty.initMeta chainId alloc).Mirrors chainId alloc [] := by
  refine ⟨getU64_of_lookup ?_, ?_, ?_, ?_, by simp, fun i hi => absurd hi (by simp)⟩
  · rw [lookup_initMeta, if_neg (by decide), if_pos rfl]
  · simp [storedGenesisAlloc, lookup_initMeta]
  · have h₁ : Keys.metaFaucetKey ≠ Keys.metaGenesis := by decide
    have h₂ : Keys.metaFaucetKey ≠ Keys.metaChainId := by decide
    simp [loadFaucetKey, lookup_initMeta, h₁, h₂]
  · have h₁ : Keys.metaHeight ≠ Keys.metaGenesis := by decide
    have h₂ : Keys.metaHeight ≠ Keys.metaChainId := by decide
    simp [height_eq_getD, getU64, lookup_initMeta, h₁, h₂, Except.map]

theorem loadReceipt_initMeta (chainId : U64) (alloc : List (Address × U256)) (hash : B256) :
    (empty.initMeta chainId alloc).loadReceipt hash = .ok none := by
  have h₁ : Keys.receiptKey hash ≠ Keys.metaGenesis := Keys.ne_of_table (by simp)
  have h₂ : Keys.receiptKey hash ≠ Keys.metaChainId := Keys.ne_of_table (by simp)
  simp [loadReceipt, lookup_initMeta, h₁, h₂]

theorem blockNumberForTx_initMeta (chainId : U64) (alloc : List (Address × U256)) (hash : B256) :
    (empty.initMeta chainId alloc).blockNumberForTx hash = .ok none := by
  have h₁ : Keys.txIndexKey hash ≠ Keys.metaGenesis := Keys.ne_of_table (by simp)
  have h₂ : Keys.txIndexKey hash ≠ Keys.metaChainId := Keys.ne_of_table (by simp)
  simp [blockNumberForTx, lookup_initMeta, h₁, h₂]

theorem lookup_setFaucetKey (s : ChainStore) (secret : B256) (key : Bytes) :
    (s.setFaucetKey secret).db.lookup key =
      if key = Keys.metaFaucetKey then some (.bytes secret.asSlice) else s.db.lookup key := by
  simp only [setFaucetKey, write, List.foldl_cons, List.foldl_nil, Map.lookup_insert_ite]

theorem Carries.setFaucetKey {s : ChainStore} {chainId : U64} {alloc : List (Address × U256)}
    {blocks : List SealedBlock} (h : s.Carries chainId alloc blocks) (secret : B256) :
    (s.setFaucetKey secret).Carries chainId alloc blocks := by
  have hother : ∀ key, key ≠ Keys.metaFaucetKey →
      (s.setFaucetKey secret).db.lookup key = s.db.lookup key := by
    intro key hkey
    rw [lookup_setFaucetKey, if_neg hkey]
  refine ⟨?_, ?_, ?_, ?_, h.bound, fun i hi => ?_⟩
  · rw [storedChainId, getU64, hother _ (by decide)]
    exact h.chainId
  · rw [storedGenesisAlloc, hother _ (by decide)]
    exact h.alloc
  · rw [loadFaucetKey, lookup_setFaucetKey, if_pos rfl]
    simp [B256.asSlice, Except.isOk, Except.toBool]
  · rw [height_eq_getD, getU64, hother _ (by decide)]
    exact (height_eq_getD s).symm.trans h.height
  · rw [loadBlock, hother _ (Keys.ne_of_table (by simp))]
    exact h.record i hi

theorem Carries.write_sealBatch {s : ChainStore} {chainId : U64} {alloc : List (Address × U256)}
    {blocks : List SealedBlock} (h : s.Carries chainId alloc blocks) {block : SealedBlock}
    (hn : block.number.toNat = blocks.length + 1) (hash : B256) (receipt : StoredReceipt) :
    (s.write (sealBatch block [(hash, receipt)])).Carries chainId alloc (blocks ++ [block]) := by
  have hlt := block.number.isLt
  have hnum : block.number = BitVec.ofNat 64 (blocks.length + 1) := by
    rw [← hn]
    simp
  refine ⟨?_, ?_, ?_, ?_, ?_, ?_⟩
  · rw [storedChainId_sealBatch, h.chainId]
  · rw [storedGenesisAlloc_sealBatch, h.alloc]
  · rw [loadFaucetKey_sealBatch]
    exact h.faucet
  · rw [height_eq_getD, height_sealBatch, hnum]
    simp [Except.map]
  · simp only [List.length_append, List.length_singleton]
    omega
  · intro i hi
    simp only [List.length_append, List.length_singleton] at hi
    have hi64 : i + 1 < 2 ^ 64 := by omega
    rw [loadBlock_sealBatch]
    rcases Nat.lt_or_ge i blocks.length with hlt' | hge
    · have hne : (BitVec.ofNat 64 (i + 1) : U64) ≠ block.number := by
        intro he
        have := congrArg BitVec.toNat he
        rw [BitVec.toNat_ofNat, Nat.mod_eq_of_lt hi64, hn] at this
        omega
      rw [if_neg hne, h.record i hlt', List.getElem_append_left hlt']
    · have hi' : i = blocks.length := by omega
      subst hi'
      rw [if_pos hnum.symm]
      simp

theorem Mirrors.write_sealBatch {s : ChainStore} {chainId : U64} {alloc : List (Address × U256)}
    {blocks : List SealedBlock} (h : s.Mirrors chainId alloc blocks) {block : SealedBlock}
    (hn : block.number.toNat = blocks.length + 1) (hash : B256) (receipt : StoredReceipt) :
    (s.write (sealBatch block [(hash, receipt)])).Mirrors chainId alloc (blocks ++ [block]) := by
  have hcarries := h.carries.write_sealBatch hn hash receipt
  exact ⟨hcarries.chainId, hcarries.alloc, (loadFaucetKey_sealBatch s block hash receipt).trans
    h.faucet, hcarries.height, hcarries.bound, hcarries.record⟩

end KanariEvm.ChainStore
