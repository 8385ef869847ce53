import KanariEvm.Opening

namespace KanariEvm

namespace ChainStore

/-- Every block record carries the number it is stored under. `save_block`, the only writer of
block records, keeps this. -/
def WellKeyed (s : ChainStore) : Prop := ∀ n b, s.loadBlock n = .ok (some b) → b.number = n

theorem WellKeyed.write_sealBatch {s : ChainStore} (h : s.WellKeyed) (block : SealedBlock)
    (hash : B256) (receipt : StoredReceipt) :
    (s.write (sealBatch block [(hash, receipt)])).WellKeyed := by
  intro n b hb
  rw [loadBlock_sealBatch] at hb
  split_ifs at hb with hn
  · rw [← Option.some.inj (Except.ok.inj hb), hn]
  · exact h n b hb

theorem loadNumbers_spec {s : ChainStore} (hk : s.WellKeyed) {ns : List ℕ}
    (hns : ns.Pairwise (· < ·)) (hlt : ∀ n ∈ ns, n < 2 ^ 64) {blocks : List SealedBlock}
    (h : s.loadNumbers ns = .ok blocks) :
    blocks.Pairwise (fun a b => a.number.toNat < b.number.toNat) ∧
      ∀ b ∈ blocks, b.number.toNat ∈ ns ∧ s.loadBlock b.number = .ok (some b) := by
  induction ns generalizing blocks with
  | nil =>
    obtain rfl : [] = blocks := Except.ok.inj h
    exact ⟨List.Pairwise.nil, fun b hb => absurd hb List.not_mem_nil⟩
  | cons n ns ih =>
    rw [List.pairwise_cons] at hns
    rw [loadNumbers] at h
    obtain ⟨found, hfound, h⟩ := bind_eq_ok h
    obtain ⟨rest, hrest, h⟩ := bind_eq_ok h
    obtain ⟨hsorted, hmem⟩ := ih hns.2 (fun m hm => hlt m (List.mem_cons_of_mem n hm)) hrest
    obtain rfl : found.toList ++ rest = blocks := Except.ok.inj h
    have hin : ∀ b ∈ rest, b.number.toNat ∈ n :: ns ∧ s.loadBlock b.number = .ok (some b) :=
      fun b hb => ⟨List.mem_cons_of_mem n (hmem b hb).1, (hmem b hb).2⟩
    cases found with
    | none => exact ⟨hsorted, hin⟩
    | some b =>
      have hnum := hk _ b hfound
      have hnat : b.number.toNat = n := by
        rw [hnum, BitVec.toNat_ofNat, Nat.mod_eq_of_lt (hlt n List.mem_cons_self)]
      refine ⟨?_, ?_⟩
      · apply List.pairwise_cons.mpr
        exact ⟨fun c hc => by rw [hnat]; exact hns.1 _ (hmem c hc).1, hsorted⟩
      · intro c hc
        rcases List.mem_cons.mp hc with rfl | hc
        · rw [hnat, hnum]
          exact ⟨List.mem_cons_self, hfound⟩
        · exact hin c hc

theorem loadBlocks_spec {s : ChainStore} (hk : s.WellKeyed) {blocks : List SealedBlock}
    (h : s.loadBlocks = .ok blocks) :
    blocks.Pairwise (fun a b => a.number.toNat < b.number.toNat) ∧
      ∀ b ∈ blocks, s.loadBlock b.number = .ok (some b) ∧
        ∀ height, s.height = .ok height → b.number.toNat ≤ height.toNat := by
  rw [loadBlocks_eq] at h
  obtain ⟨height, hheight, h⟩ := bind_eq_ok (x := s.height) h
  have hnumbers : ∀ n ∈ (List.range height.toNat).map (· + 1), n < 2 ^ 64 := by
    intro n hn
    obtain ⟨m, hm, rfl⟩ := List.mem_map.mp hn
    have hm' := List.mem_range.mp hm
    have hmax := height.isLt
    omega
  obtain ⟨hsorted, hmem⟩ := loadNumbers_spec hk
    (List.Pairwise.map _ (fun a b hab => Nat.succ_lt_succ hab) List.pairwise_lt_range) hnumbers h
  refine ⟨hsorted, fun b hb => ⟨(hmem b hb).2, fun height' hheight' => ?_⟩⟩
  obtain ⟨m, hm, hmb⟩ := List.mem_map.mp (hmem b hb).1
  have hlt := List.mem_range.mp hm
  have hsame := Except.ok.inj (hheight.symm.trans hheight')
  rw [← hsame]
  omega

end ChainStore

namespace KanariNode

variable {P : Platform}

def storedTxs (blocks : List SealedBlock) : List (SealedBlock × Bytes) :=
  blocks.flatMap fun b => b.txs.map fun raw => (b, raw)

/-- The very first stored transaction is refused by the node replay starts from. -/
def FirstTxRejected (P : Platform) (node : KanariNode) (blocks : List SealedBlock) : Prop :=
  ∃ block raw, (storedTxs blocks).head? = some (block, raw) ∧ ∃ e,
    (executeRaw P node.db node.spec raw block.number block.timestamp block.baseFee).2 = .error e

theorem replayTx_cases (node : KanariNode) (block : SealedBlock) (raw : Bytes) :
    (∃ db e, (executeRaw P node.db node.spec raw block.number block.timestamp
          block.baseFee).2 = .error e ∧
        node.replayTx P block raw = ({ node with db := db }, .error e)) ∨
      ∃ node' out resealed hash receipt, node.replayTx P block raw = (node', out) ∧
        (executeRaw P node.db node.spec raw block.number block.timestamp
          block.baseFee).2.isOk = true ∧
        resealed.number = block.number ∧ resealed.txs = [raw] ∧
        node'.store = node.store.write (ChainStore.sealBatch resealed [(hash, receipt)]) ∧
        (out = .ok () ∨ (∃ e, out = .error e) ∧ resealed ≠ block) := by
  rcases node.sealRawWithFee_healthy_cases P raw block.number block.timestamp block.baseFee with
    ⟨db, e, hex, hs⟩ | ⟨db, prepared, result, hex, hs⟩
  · exact .inl ⟨db, e, by rw [hex], by simp only [replayTx, hs]⟩
  · have hlast : (node.afterSeal P raw block.number block.timestamp block.baseFee db prepared
        result).blocks.getLast? =
        some (node.newBlock P raw block.number block.timestamp block.baseFee db result) := by
      simp [afterSeal]
    refine .inr ⟨node.afterSeal P raw block.number block.timestamp block.baseFee db prepared
      result, (node.replayTx P block raw).2, node.newBlock P raw block.number block.timestamp
      block.baseFee db result, P.keccak256 raw, node.sealedReceipt P raw prepared result
      block.number block.timestamp, ?_, by rw [hex]; rfl, rfl, rfl, rfl, ?_⟩
    · rw [← Prod.mk.eta (p := node.replayTx P block raw), replayTx_fst, hs]
    · simp only [replayTx_eq, hs, hlast, replayVerdict]
      split_ifs with hhash hroot
      · exact .inr ⟨⟨_, rfl⟩, fun heq => hhash (by rw [heq])⟩
      · exact .inr ⟨⟨_, rfl⟩, fun heq => hroot.2 (by rw [heq])⟩
      · exact .inl rfl

/-- Once one of several transactions of a block was sealed, its record names that one alone, and
no failure further on puts the stored record back. -/
theorem replayTxs_error_of_started {block : SealedBlock} (htwo : 2 ≤ block.txs.length)
    {raws : List Bytes} {node node' : KanariNode} {e : NodeError}
    (h : replayTxs P block node raws = (node', .error e))
    (hstart : ∃ b, node.store.loadBlock block.number = .ok (some b) ∧ b.txs.length = 1) :
    ∃ b, node'.store.loadBlock block.number = .ok (some b) ∧ b ≠ block := by
  induction raws generalizing node with
  | nil => simp [replayTxs] at h
  | cons raw rest ih =>
    rw [replayTxs] at h
    rcases replayTx_cases (P := P) node block raw with
      ⟨db, e', hex, htx⟩ | ⟨mid, out, resealed, hash, receipt, htx, -, hnum, htxs, hstore, hout⟩
    · simp only [htx, Prod.mk.injEq] at h
      obtain ⟨rfl, -⟩ := h
      -- refused: the record written before still stands, with one transaction instead of several
      obtain ⟨b, hb, hone⟩ := hstart
      refine ⟨b, hb, fun heq => ?_⟩
      rw [heq] at hone
      omega
    · have hload : mid.store.loadBlock block.number = .ok (some resealed) := by
        rw [hstore, ChainStore.loadBlock_sealBatch, if_pos hnum.symm]
      rcases hout with rfl | ⟨⟨e', rfl⟩, hne⟩
      · simp only [htx] at h
        exact ih h ⟨resealed, hload, by rw [htxs]; rfl⟩
      · simp only [htx, Prod.mk.injEq] at h
        obtain ⟨rfl, -⟩ := h
        exact ⟨resealed, hload, hne⟩

/-- A block whose replay fails was refused at its first transaction, before anything was written,
or its record has been replaced by another. -/
theorem replayTxs_error {block : SealedBlock} {node node' : KanariNode} {e : NodeError}
    (h : replayTxs P block node block.txs = (node', .error e)) :
    (node'.store = node.store ∧ ∃ raw, block.txs.head? = some raw ∧ ∃ e,
        (executeRaw P node.db node.spec raw block.number block.timestamp
          block.baseFee).2 = .error e) ∨
      ∃ b, node'.store.loadBlock block.number = .ok (some b) ∧ b ≠ block := by
  rcases hraws : block.txs with _ | ⟨raw, rest⟩
  · simp [hraws, replayTxs] at h
  · rw [hraws, replayTxs] at h
    rcases replayTx_cases (P := P) node block raw with
      ⟨db, e', hex, htx⟩ | ⟨mid, out, resealed, hash, receipt, htx, -, hnum, htxs, hstore, hout⟩
    · simp only [htx, Prod.mk.injEq] at h
      obtain ⟨rfl, -⟩ := h
      exact .inl ⟨rfl, raw, rfl, e', hex⟩
    · have hload : mid.store.loadBlock block.number = .ok (some resealed) := by
        rw [hstore, ChainStore.loadBlock_sealBatch, if_pos hnum.symm]
      rcases hout with rfl | ⟨⟨e', rfl⟩, hne⟩
      · simp only [htx] at h
        cases rest with
        | nil => simp [replayTxs] at h
        | cons raw' rest' =>
          exact .inr (replayTxs_error_of_started (by simp [hraws]) h
            ⟨resealed, hload, by rw [htxs]; rfl⟩)
      · simp only [htx, Prod.mk.injEq] at h
        obtain ⟨rfl, -⟩ := h
        exact .inr ⟨resealed, hload, hne⟩

theorem replayTxs_ok {block : SealedBlock} {raws : List Bytes} {node node' : KanariNode}
    (h : replayTxs P block node raws = (node', .ok ())) :
    (raws = [] ∧ node' = node) ∨
      node'.store.getU64 Keys.metaHeight = .ok (some block.number) := by
  induction raws generalizing node with
  | nil =>
    simp only [replayTxs, Prod.mk.injEq, and_true] at h
    exact .inl ⟨rfl, h.symm⟩
  | cons raw rest ih =>
    rw [replayTxs] at h
    rcases replayTx_cases (P := P) node block raw with
      ⟨db, e', hex, htx⟩ | ⟨mid, out, resealed, hash, receipt, htx, -, hnum, htxs, hstore, hout⟩
    · simp [htx] at h
    · have hheight : mid.store.getU64 Keys.metaHeight = .ok (some block.number) := by
        rw [hstore, ChainStore.height_sealBatch, hnum]
      rcases hout with rfl | ⟨⟨e', rfl⟩, -⟩
      · simp only [htx] at h
        rcases ih h with ⟨-, rfl⟩ | hh
        · exact .inr hheight
        · exact .inr hh
      · simp [htx] at h

/-- The store no longer holds these blocks: a record is replaced, or the height is too low. -/
def Damaged (store : ChainStore) (blocks : List SealedBlock) : Prop :=
  ∃ block ∈ blocks, (∃ b, store.loadBlock block.number = .ok (some b) ∧ b ≠ block) ∨
    ∃ height, store.getU64 Keys.metaHeight = .ok (some height) ∧
      height.toNat < block.number.toNat

theorem Damaged.cons {store : ChainStore} {blocks : List SealedBlock} (h : Damaged store blocks)
    (block : SealedBlock) : Damaged store (block :: blocks) := by
  obtain ⟨b, hb, hd⟩ := h
  exact ⟨b, List.mem_cons_of_mem block hb, hd⟩

theorem replayBlocks_error_of_started {blocks : List SealedBlock} {node node' : KanariNode}
    {e : NodeError} (hsorted : blocks.Pairwise fun a b => a.number.toNat < b.number.toNat)
    (h : replayBlocks P node blocks = (node', .error e))
    (hstart : ∃ height, node.store.getU64 Keys.metaHeight = .ok (some height) ∧
      ∀ b ∈ blocks, height.toNat < b.number.toNat) : Damaged node'.store blocks := by
  induction blocks generalizing node with
  | nil => simp [replayBlocks] at h
  | cons block rest ih =>
    obtain ⟨height, hheight, hlow⟩ := hstart
    rw [List.pairwise_cons] at hsorted
    rw [replayBlocks] at h
    rcases ht : replayTxs P block node block.txs with ⟨mid, e' | u⟩
    · simp only [ht, Prod.mk.injEq] at h
      obtain ⟨rfl, -⟩ := h
      refine ⟨block, List.mem_cons_self, ?_⟩
      -- a block refused at once wrote nothing, so the low height of its predecessor stands
      rcases replayTxs_error ht with ⟨hsame, -⟩ | hdirty
      · exact .inr ⟨height, by rw [hsame, hheight], hlow block List.mem_cons_self⟩
      · exact .inl hdirty
    · simp only [ht] at h
      refine (ih hsorted.2 h ?_).cons block
      rcases replayTxs_ok ht with ⟨-, rfl⟩ | hmoved
      · exact ⟨height, hheight, fun b hb => hlow b (List.mem_cons_of_mem block hb)⟩
      · exact ⟨block.number, hmoved, hsorted.1⟩

theorem storedTxs_cons_of_nil {block : SealedBlock} (h : block.txs = [])
    (blocks : List SealedBlock) : storedTxs (block :: blocks) = storedTxs blocks := by
  simp [storedTxs, h]

/-- Replay that fails was refused at the very first transaction and has written nothing, or it
has damaged the stored chain. -/
theorem replayBlocks_error {blocks : List SealedBlock} {node node' : KanariNode} {e : NodeError}
    (hsorted : blocks.Pairwise fun a b => a.number.toNat < b.number.toNat)
    (h : replayBlocks P node blocks = (node', .error e)) :
    (node'.store = node.store ∧ FirstTxRejected P node blocks) ∨ Damaged node'.store blocks := by
  induction blocks with
  | nil => simp [replayBlocks] at h
  | cons block rest ih =>
    rw [List.pairwise_cons] at hsorted
    rw [replayBlocks] at h
    rcases ht : replayTxs P block node block.txs with ⟨mid, e' | u⟩
    · simp only [ht, Prod.mk.injEq] at h
      obtain ⟨rfl, -⟩ := h
      rcases replayTxs_error ht with ⟨hsame, raw, hraw, hex⟩ | hdirty
      · refine .inl ⟨hsame, block, raw, ?_, hex⟩
        rcases List.head?_eq_some_iff.mp hraw with ⟨raws, hraws⟩
        simp [storedTxs, hraws]
      · exact .inr ⟨block, List.mem_cons_self, .inl hdirty⟩
    · simp only [ht] at h
      -- only empty blocks can have gone by without a write
      rcases replayTxs_ok ht with ⟨hempty, rfl⟩ | hmoved
      · rcases ih hsorted.2 h with ⟨hsame, hfirst⟩ | hdirty
        · refine .inl ⟨hsame, ?_⟩
          rwa [FirstTxRejected, storedTxs_cons_of_nil hempty]
        · exact .inr (hdirty.cons block)
      · exact .inr ((replayBlocks_error_of_started hsorted.2 h
          ⟨block.number, hmoved, hsorted.1⟩).cons block)

theorem replayBlocks_of_firstTxRejected {blocks : List SealedBlock} {node : KanariNode}
    (h : FirstTxRejected P node blocks) :
    ∃ db e, replayBlocks P node blocks = ({ node with db := db }, .error e) := by
  obtain ⟨block, raw, hhead, e, hex⟩ := h
  induction blocks with
  | nil => simp [storedTxs] at hhead
  | cons b rest ih =>
    rcases hraws : b.txs with _ | ⟨raw', raws⟩
    · rw [storedTxs_cons_of_nil hraws] at hhead
      rw [replayBlocks, hraws, replayTxs]
      exact ih hhead
    · simp only [storedTxs, List.flatMap_cons, hraws, List.map_cons, List.cons_append,
        List.head?_cons, Option.some.injEq, Prod.mk.injEq] at hhead
      obtain ⟨rfl, rfl⟩ := hhead
      rcases replayTx_cases (P := P) node b raw' with
        ⟨db, e', -, htx⟩ | ⟨mid, out, resealed, hash, receipt, -, hok, -⟩
      · exact ⟨db, e', by rw [replayBlocks, hraws, replayTxs, htx]⟩
      · rw [hex] at hok
        simp [Except.isOk, Except.toBool] at hok

end KanariNode

end KanariEvm
