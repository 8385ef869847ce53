import KanariEvm.Decoders
import KanariEvm.Logs
import KanariEvm.OneChain

namespace KanariEvm

open InMemoryDB Journaled

theorem Json.hash_injective {a b : B256} (h : Json.hash a = Json.hash b) : a = b := by
  have hdigits : hexEncode a.asSlice = hexEncode b.asSlice := by
    simpa only [Json.hash, hashString, hexPrefixed, Json.str.injEq, List.cons.injEq, true_and]
      using h
  exact B256.asSlice_injective (ascii_hexEncode_injective (congrArg ascii hdigits))

namespace KanariNode

variable {P : Platform} {node : KanariNode} {spec : KanariChainSpec}

/-- Every receipt is of a sealed transaction, and names its sender and recipient. -/
def Attributed (P : Platform) (node : KanariNode) : Prop :=
  ∀ hash receipt, node.receipts.lookup hash = some receipt → ∃ raw ∈ node.sealedTxs, ∃ prepared,
    P.keccak256 raw = hash ∧ PreparedTx.decode P raw node.spec.chainId = .ok prepared ∧
      receipt.fromAddr = prepared.sender ∧ receipt.toAddr = prepared.toAddr

theorem Attributed.of_empty (h : node.receipts = ∅) : node.Attributed P := by
  intro hash receipt hlookup
  rw [h, Finmap.lookup_empty] at hlookup
  cases hlookup

theorem Attributed.sealRawWithFee (h : node.Attributed P) (raw : Bytes)
    (number timestamp baseFee : U64) (io : SealIo) :
    (node.sealRawWithFee P raw number timestamp baseFee io).1.Attributed P := by
  rcases hex : executeRaw P node.db node.spec raw number timestamp baseFee with
    ⟨db, e | ⟨prepared, result⟩⟩
  · rw [sealRawWithFee_of_error hex]
    exact h
  · rw [sealRawWithFee_of_ok hex]
    obtain ⟨rebuild, save⟩ := io
    cases rebuild with
    | some fault => exact h
    | none =>
      cases save with
      | some msg => exact h
      | none =>
        intro hash receipt hlookup
        have hsealed : (node.afterSeal P raw number timestamp baseFee db prepared
            result).sealedTxs = node.sealedTxs ++ [raw] := by
          simp only [sealedTxs, KanariNode.afterSeal, List.flatMap_append, List.flatMap_singleton]
          rfl
        simp only [persist, KanariNode.afterSeal, Map.lookup_insert_ite] at hlookup
        split_ifs at hlookup with heq
        · rw [← Option.some.inj hlookup]
          refine ⟨raw, ?_, prepared, heq.symm, (executeRaw_ok_iff.mp hex).1, rfl, rfl⟩
          exact hsealed ▸ List.mem_append_right _ (List.mem_singleton_self raw)
        · obtain ⟨raw', hraw', hof⟩ := h hash receipt hlookup
          exact ⟨raw', hsealed ▸ List.mem_append_left _ hraw', hof⟩

theorem Attributed.perform (h : node.Attributed P) (op : Op) :
    (node.perform P op).Attributed P := by
  cases op with
  | read request =>
    rw [KanariNode.perform, serve_eq]
    exact h
  | attempt step io =>
    cases hnumber : node.sealNumber step with
    | none =>
      rcases node.sealStep_of_none P hnumber io with ⟨sender, hash, hs⟩ | ⟨e, hs⟩
      · rw [KanariNode.perform, hs]
        exact h
      · rw [KanariNode.perform, hs]
        exact h
    | some number =>
      rw [KanariNode.perform, node.sealStep_of_number P hnumber]
      exact h.sealRawWithFee _ _ _ _ _

theorem attributed_open {dir : DataDir} (hopen : («open» P spec dir).2 = .ok node) :
    node.Attributed P := by
  obtain ⟨alloc, origin, secret, records, replayed, faucet, hreplay, rfl⟩ := open_ok_genesis hopen
  have hstart : ({ (blank { spec with genesisAlloc := alloc } origin).genesis P with
      faucetKey := secret } : KanariNode).Attributed P := Attributed.of_empty rfl
  have hreplayed := replayBlocks_induction (p := fun n => n.Attributed P)
    (fun n raw number timestamp baseFee hn => hn.sealRawWithFee raw number timestamp baseFee
      .healthy) hstart records
  rw [hreplay] at hreplayed
  exact hreplayed

theorem Attributed.session {ρ : Type} [DecidableEq ρ] {v v' : ValidatorNode}
    (h : v.node.Attributed P) {events : List (Event ρ)}
    (hrun : Session.run P spec v events = some v') : v'.node.Attributed P :=
  Session.run_induction (p := fun n => n.Attributed P) (fun _ op hn => hn.perform op)
    (fun _ hn => hn) (fun _ _ _ _ hopen => attributed_open hopen) h hrun

def AllShow (shown : List (Json × String)) (value : Json) : Prop :=
  ∀ s ∈ shown, s.1.get s.2 = some value

theorem blockView_of_block {number : U64} {block : SealedBlock}
    (h : node.blockByNumber number = some block) (fullTxs : Bool) :
    ∃ view, node.blockView P number fullTxs = some view ∧
      view.get "number" = some (.quantity block.number) ∧
      view.get "hash" = some (.hash block.hash) ∧
      view.get "gasUsed" = some (.quantity (node.txsGasUsed P block.txs)) ∧
      view.get "transactions" = some (.arr (block.txs.map fun raw =>
        if fullTxs then (node.txView P (P.keccak256 raw)).getD .null
        else .hash (P.keccak256 raw))) := by
  have hgenesis : ¬(number = 0 ∧ (node.blockByNumber 0).isNone) := by
    rintro ⟨rfl, hnone⟩
    rw [h] at hnone
    cases hnone
  simp only [blockView, if_neg hgenesis, h, Option.bind_eq_bind, Option.bind_some]
  exact ⟨_, rfl, rfl, rfl, rfl, rfl⟩

theorem blockView_zero (h : node.blockByNumber 0 = none) (fullTxs : Bool) :
    node.blockView P 0 fullTxs = some (node.genesisView P) := by
  rw [blockView, if_pos ⟨rfl, by rw [h]; rfl⟩]

theorem genesisView_hash : (node.genesisView P).get "hash" = some (.hash (genesisHash P)) := rfl

theorem blockView_none {number : U64} (hne : number ≠ 0) (h : node.blockByNumber number = none)
    (fullTxs : Bool) : node.blockView P number fullTxs = none := by
  rw [blockView, if_neg fun hzero => hne hzero.1, h]
  rfl

/-- The story of a sealed transaction: its five views are there and agree. -/
structure OneStory (P : Platform) (node : KanariNode) (block : SealedBlock) (hash : B256)
    (tx receipt listing full : Json) : Prop where
  txFound : node.txView P hash = some tx
  receiptFound : node.receiptView P hash = some receipt
  listingFound : node.blockView P block.number false = some listing
  fullFound : node.blockView P block.number true = some full
  listingByHash : node.blockViewByHash P block.hash false = some listing
  fullByHash : node.blockViewByHash P block.hash true = some full
  txHash : AllShow [(tx, "hash"), (receipt, "transactionHash")] (.hash hash)
  blockNumber : AllShow [(tx, "blockNumber"), (receipt, "blockNumber"), (listing, "number"),
    (full, "number")] (.quantity block.number)
  blockHash : AllShow [(tx, "blockHash"), (receipt, "blockHash"), (listing, "hash"),
    (full, "hash")] (.hash block.hash)
  sender : ∃ a, AllShow [(tx, "from"), (receipt, "from")] (.address P a)
  recipient : ∃ a, AllShow [(tx, "to"), (receipt, "to")] (.addressOrNull P a)
  gasUsed : ∃ gas : U64, AllShow [(receipt, "gasUsed"), (listing, "gasUsed"), (full, "gasUsed")]
    (.quantity gas)
  gasPrice : ∃ price : U256, AllShow [(tx, "gasPrice"), (receipt, "effectiveGasPrice")]
    (.quantity price)
  txType : ∃ type : U64, AllShow [(tx, "type"), (receipt, "type")] (.quantity type)
  listed : listing.get "transactions" = some (.arr [.hash hash])
  spelledOut : full.get "transactions" = some (.arr [tx])
  logs : receipt.get "logs" = some (.arr ((node.logsInRange P block.number block.number).map
    (renderSealedLog P)))

/-- Every sealed transaction has one story, and a block view by hash is the view of the one block,
or of the synthetic genesis, that has the hash. -/
structure TellsOneStory (P : Platform) (node : KanariNode) : Prop where
  story : ∀ block ∈ node.blocks, ∀ raw ∈ block.txs, ∃ tx receipt listing full,
    node.OneStory P block (P.keccak256 raw) tx receipt listing full
  byHash : ∀ hash fullTxs view, node.blockViewByHash P hash fullTxs = some view ↔
    ∃ number, node.blockView P number fullTxs = some view ∧ view.get "hash" = some (.hash hash)
  oneNumber : ∀ number number' fullTxs fullTxs' view view',
    node.blockView P number fullTxs = some view →
    node.blockView P number' fullTxs' = some view' → view.get "hash" = view'.get "hash" →
    number = number'

def genesisPreimage : Bytes := ascii "kanari-evm-genesis".toList

def HashesApart (P : Platform) (node : KanariNode) : Prop :=
  ∀ a ∈ genesisPreimage :: node.hashInputs, ∀ b ∈ genesisPreimage :: node.hashInputs,
    P.keccak256 a = P.keccak256 b → a = b

instance (P : Platform) (node : KanariNode) : Decidable (HashesApart P node) := by
  unfold HashesApart; infer_instance

theorem HashesApart.collisionFree (h : HashesApart P node) : CollisionFree P node :=
  fun a ha b hb => h a (List.mem_cons_of_mem _ ha) b (List.mem_cons_of_mem _ hb)

theorem Coherent.blockByNumber_zero (h : node.Coherent P spec) : node.blockByNumber 0 = none := by
  rw [blockByNumber, List.find?_eq_none]
  intro block hmem
  obtain ⟨i, hi, rfl⟩ := List.mem_iff_getElem.mp hmem
  have hnumber := h.recorded.numbers i hi
  rw [decide_eq_true_iff]
  intro hzero
  rw [hzero] at hnumber
  cases hnumber

/-- No block has the hash of the genesis: its header is longer. -/
theorem Coherent.hash_ne_genesis (h : node.Coherent P spec) (hfree : HashesApart P node)
    {block : SealedBlock} (hmem : block ∈ node.blocks) : block.hash ≠ genesisHash P := by
  intro heq
  rw [h.hash_eq hmem] at heq
  have hsame : blockPreimage block = genesisPreimage :=
    hfree _ (List.mem_cons_of_mem _ (List.mem_append_left _ (List.mem_map_of_mem hmem))) _
      List.mem_cons_self heq
  have hlength := congrArg List.length hsame
  have hheader : (blockPreimage block).length = 48 := by simp [blockPreimage, B256.asSlice]
  rw [hheader] at hlength
  revert hlength
  decide

theorem Coherent.blockByHash_of_mem (h : node.Coherent P spec) (hfree : HashesApart P node)
    {block : SealedBlock} (hmem : block ∈ node.blocks) :
    node.blockByHash block.hash = some block := by
  cases hfind : node.blockByHash block.hash with
  | none =>
    rw [blockByHash, List.find?_eq_none] at hfind
    exact absurd (decide_eq_true rfl) (hfind block hmem)
  | some found =>
    have hfound : found ∈ node.blocks := List.mem_of_find?_eq_some hfind
    have hhash : found.hash = block.hash := by simpa using List.find?_some hfind
    rw [List.inj_on_of_nodup_map (h.hashes_distinct hfree.collisionFree) hfound hmem hhash]

theorem Coherent.blockViewByHash_of_mem (h : node.Coherent P spec) (hfree : HashesApart P node)
    {block : SealedBlock} (hmem : block ∈ node.blocks) (fullTxs : Bool) :
    node.blockViewByHash P block.hash fullTxs = node.blockView P block.number fullTxs := by
  rw [blockViewByHash, if_neg fun hgenesis => h.hash_ne_genesis hfree hmem hgenesis.1,
    h.blockByHash_of_mem hfree hmem]
  rfl

theorem Coherent.blockViewByHash_genesis (h : node.Coherent P spec) (fullTxs : Bool) :
    node.blockViewByHash P (genesisHash P) fullTxs = some (node.genesisView P) := by
  rw [blockViewByHash, if_pos ⟨rfl, by rw [h.blockByNumber_zero]; rfl⟩]

/-- Everything a block view can be: the genesis under number 0, or a block under its own. -/
theorem Coherent.blockView_cases (h : node.Coherent P spec) {number : U64} {fullTxs : Bool}
    {view : Json} (hview : node.blockView P number fullTxs = some view) :
    (number = 0 ∧ view = node.genesisView P) ∨ ∃ block ∈ node.blocks, block.number = number ∧
      view.get "hash" = some (.hash block.hash) := by
  by_cases hzero : number = 0
  · subst hzero
    rw [blockView_zero h.blockByNumber_zero] at hview
    exact .inl ⟨rfl, (Option.some.inj hview).symm⟩
  · cases hfind : node.blockByNumber number with
    | none =>
      rw [blockView_none hzero hfind] at hview
      cases hview
    | some block =>
      have hnumber : block.number = number := by simpa using List.find?_some hfind
      obtain ⟨view', hview', -, hhash, -⟩ := blockView_of_block (P := P) hfind fullTxs
      rw [hview] at hview'
      cases hview'
      exact .inr ⟨block, List.mem_of_find?_eq_some hfind, hnumber, hhash⟩

theorem Coherent.byHash_iff (h : node.Coherent P spec) (hfree : HashesApart P node) (hash : B256)
    (fullTxs : Bool) (view : Json) : node.blockViewByHash P hash fullTxs = some view ↔
      ∃ number, node.blockView P number fullTxs = some view ∧
        view.get "hash" = some (.hash hash) := by
  constructor
  · intro hview
    by_cases hgenesis : hash = genesisHash P
    · subst hgenesis
      rw [h.blockViewByHash_genesis] at hview
      cases hview
      exact ⟨0, blockView_zero h.blockByNumber_zero fullTxs, genesisView_hash⟩
    · rw [blockViewByHash, if_neg fun hg => hgenesis hg.1] at hview
      obtain ⟨block, hfind, hview⟩ := Option.bind_eq_some_iff.mp hview
      have hmem : block ∈ node.blocks := List.mem_of_find?_eq_some hfind
      have hhash : block.hash = hash := by simpa using List.find?_some hfind
      obtain ⟨view', hview', -, hshown, -⟩ :=
        blockView_of_block (P := P) (h.recorded.blockByNumber_of_mem hmem) fullTxs
      rw [hview] at hview'
      cases hview'
      exact ⟨block.number, hview, hhash ▸ hshown⟩
  · rintro ⟨number, hview, hshown⟩
    rcases h.blockView_cases hview with ⟨rfl, rfl⟩ | ⟨block, hmem, rfl, hhash⟩
    · rw [genesisView_hash, Option.some.injEq] at hshown
      rw [← Json.hash_injective hshown]
      exact h.blockViewByHash_genesis fullTxs
    · rw [hhash, Option.some.injEq] at hshown
      rw [← Json.hash_injective hshown, h.blockViewByHash_of_mem hfree hmem]
      exact hview

theorem Coherent.one_number (h : node.Coherent P spec) (hfree : HashesApart P node)
    {number number' : U64} {fullTxs fullTxs' : Bool} {view view' : Json}
    (hview : node.blockView P number fullTxs = some view)
    (hview' : node.blockView P number' fullTxs' = some view')
    (hhash : view.get "hash" = view'.get "hash") : number = number' := by
  rcases h.blockView_cases hview with ⟨rfl, rfl⟩ | ⟨block, hmem, rfl, hshown⟩
  · rcases h.blockView_cases hview' with ⟨rfl, -⟩ | ⟨block', hmem', -, hshown'⟩
    · rfl
    · rw [genesisView_hash, hshown', Option.some.injEq] at hhash
      exact absurd (Json.hash_injective hhash).symm (h.hash_ne_genesis hfree hmem')
  · rcases h.blockView_cases hview' with ⟨rfl, rfl⟩ | ⟨block', hmem', rfl, hshown'⟩
    · rw [genesisView_hash, hshown, Option.some.injEq] at hhash
      exact absurd (Json.hash_injective hhash) (h.hash_ne_genesis hfree hmem)
    · rw [hshown, hshown', Option.some.injEq] at hhash
      rw [List.inj_on_of_nodup_map (h.hashes_distinct hfree.collisionFree) hmem hmem'
        (Json.hash_injective hhash)]

section Story

variable {block : SealedBlock} {raw : Bytes} {receipt : StoredReceipt} {view : TxView}
  (hlookup : node.receipts.lookup (P.keccak256 raw) = some receipt)
  (hrecord : node.txRecord P (P.keccak256 raw) = some (receipt.fromAddr, raw))
  (hdecode : decodeTxView P raw (node.receiptBaseFee receipt) = some view)

include hlookup hrecord hdecode

theorem txView_fields : ∃ tx, node.txView P (P.keccak256 raw) = some tx ∧
    tx.get "hash" = some (.hash (P.keccak256 raw)) ∧
    tx.get "blockNumber" = some (.quantity receipt.blockNumber) ∧
    tx.get "blockHash" = some (.hash receipt.blockHash) ∧
    tx.get "from" = some (.address P receipt.fromAddr) ∧
    tx.get "to" = some (.addressOrNull P view.toAddr) ∧
    tx.get "gasPrice" = some (.quantity view.effectiveGasPrice) ∧
    tx.get "type" = some (.quantity (view.txType.setWidth 64)) := by
  simp only [txView, hlookup, hrecord, hdecode, Option.bind_eq_bind, Option.bind_some]
  exact ⟨_, rfl, rfl, rfl, rfl, rfl, rfl, rfl, rfl⟩

theorem receiptView_fields : ∃ shown, node.receiptView P (P.keccak256 raw) = some shown ∧
    shown.get "transactionHash" = some (.hash receipt.txHash) ∧
    shown.get "blockNumber" = some (.quantity receipt.blockNumber) ∧
    shown.get "blockHash" = some (.hash receipt.blockHash) ∧
    shown.get "from" = some (.address P receipt.fromAddr) ∧
    shown.get "to" = some (.addressOrNull P receipt.toAddr) ∧
    shown.get "gasUsed" = some (.quantity receipt.gasUsed) ∧
    shown.get "effectiveGasPrice" = some (.quantity view.effectiveGasPrice) ∧
    shown.get "type" = some (.quantity (view.txType.setWidth 64)) ∧
    shown.get "logs" = some (.arr ((receiptLogs receipt receipt.blockNumber receipt.blockHash
      receipt.txHash).map (renderSealedLog P))) := by
  simp only [receiptView, hlookup, hrecord, hdecode, Option.bind_eq_bind, Option.bind_some,
    Option.map_some, Option.getD_some]
  exact ⟨_, rfl, rfl, rfl, rfl, rfl, rfl, rfl, rfl, rfl, rfl⟩

end Story

theorem txsGasUsed_single {raw : Bytes} {receipt : StoredReceipt}
    (h : node.receipts.lookup (P.keccak256 raw) = some receipt) :
    node.txsGasUsed P [raw] = receipt.gasUsed := by
  simp [txsGasUsed, h]

theorem logsInRange_block {block : SealedBlock} {raw : Bytes} {receipt : StoredReceipt}
    (hblock : node.blockByNumber block.number = some block) (htxs : block.txs = [raw])
    (h : node.receipts.lookup (P.keccak256 raw) = some receipt) :
    node.logsInRange P block.number block.number =
      receiptLogs receipt block.number block.hash (P.keccak256 raw) := by
  have hone : block.number.toNat + 1 - block.number.toNat = 1 := by omega
  simp only [logsInRange, hone, List.range'_one, List.flatMap_singleton, BitVec.ofNat_toNat,
    BitVec.setWidth_eq, hblock, htxs, h]

theorem txRecord_of_block {block : SealedBlock} {raw : Bytes} {receipt : StoredReceipt}
    (hblock : node.blockByNumber block.number = some block) (htxs : block.txs = [raw])
    (h : node.receipts.lookup (P.keccak256 raw) = some receipt)
    (hnumber : receipt.blockNumber = block.number) :
    node.txRecord P (P.keccak256 raw) = some (receipt.fromAddr, raw) := by
  simp only [txRecord, h, Option.bind_eq_bind, Option.bind_some, hnumber, hblock, htxs,
    List.find?_cons, decide_true, Option.pure_def]

theorem Attributed.shown (h : node.Attributed P) (hfree : HashesApart P node) {raw : Bytes}
    (hraw : raw ∈ node.sealedTxs) {receipt : StoredReceipt}
    (hlookup : node.receipts.lookup (P.keccak256 raw) = some receipt) (baseFee : U128) :
    ∃ view, decodeTxView P raw baseFee = some view ∧ view.toAddr = receipt.toAddr := by
  obtain ⟨raw', hraw', prepared, hhash, hdecode, -, hto⟩ := h _ receipt hlookup
  obtain rfl : raw' = raw := hfree.collisionFree _ (List.mem_append_right _ hraw') _
    (List.mem_append_right _ hraw) hhash
  obtain ⟨envelope, he, -, htx, htoAddr⟩ := PreparedTx.decode_ok_iff.mp hdecode
  obtain ⟨view, hview, hfields, -, -⟩ := viewOf_of_txEnvOf htx baseFee
  refine ⟨view, ?_, ?_⟩
  · simp only [decodeTxView, he, Except.toOption, Option.bind_some, hview]
  · rw [hto, htoAddr, ← hfields.recipient]
    rfl

theorem allShow_two {a b : Json} {k l : String} {value : Json} (ha : a.get k = some value)
    (hb : b.get l = some value) : AllShow [(a, k), (b, l)] value := by
  intro s hs
  simp only [List.mem_cons, List.not_mem_nil, or_false] at hs
  rcases hs with rfl | rfl
  · exact ha
  · exact hb

theorem AllShow.cons {a : Json} {k : String} {shown : List (Json × String)} {value : Json}
    (h : AllShow shown value) (ha : a.get k = some value) : AllShow ((a, k) :: shown) value := by
  intro s hs
  rcases List.mem_cons.mp hs with rfl | hs
  · exact ha
  · exact h s hs

/-- On one coherent chain of used-up nonces, every transaction has one story. -/
theorem Coherent.story (h : node.Coherent P spec) (hex : node.Exhausted P)
    (hattributed : node.Attributed P) (hfree : HashesApart P node) {block : SealedBlock}
    (hmem : block ∈ node.blocks) {raw : Bytes} (hraw : raw ∈ block.txs) :
    ∃ tx receipt listing full, node.OneStory P block (P.keccak256 raw) tx receipt listing full := by
  obtain ⟨receipt, hlookup, htxHash, hnumber, hhash⟩ :=
    h.receipt_names_block hex hfree.collisionFree hmem hraw
  have htxs : block.txs = [raw] := by
    obtain ⟨raw', htxs⟩ := h.recorded.single block hmem
    rw [htxs, List.mem_singleton] at hraw
    rw [htxs, hraw]
  have hblock := h.recorded.blockByNumber_of_mem hmem
  have hrecord := txRecord_of_block hblock htxs hlookup hnumber
  obtain ⟨view, hview, hto⟩ := hattributed.shown hfree
    (List.mem_flatMap.mpr ⟨block, hmem, hraw⟩) hlookup (node.receiptBaseFee receipt)
  obtain ⟨tx, htx, tHash, tNumber, tBlock, tFrom, tTo, tPrice, tType⟩ :=
    txView_fields hlookup hrecord hview
  obtain ⟨shown, hshown, rHash, rNumber, rBlock, rFrom, rTo, rGas, rPrice, rType, rLogs⟩ :=
    receiptView_fields hlookup hrecord hview
  obtain ⟨listing, hlisting, lNumber, lHash, lGas, lTxs⟩ := blockView_of_block hblock false
  obtain ⟨full, hfull, fNumber, fHash, fGas, fTxs⟩ := blockView_of_block hblock true
  rw [htxs, txsGasUsed_single hlookup] at lGas fGas
  rw [hnumber] at tNumber rNumber
  rw [hhash] at tBlock rBlock
  rw [htxHash] at rHash
  rw [hto] at tTo
  refine ⟨tx, shown, listing, full, {
    txFound := htx
    receiptFound := hshown
    listingFound := hlisting
    fullFound := hfull
    listingByHash := (h.blockViewByHash_of_mem hfree hmem false).trans hlisting
    fullByHash := (h.blockViewByHash_of_mem hfree hmem true).trans hfull
    txHash := allShow_two tHash rHash
    blockNumber := ((allShow_two lNumber fNumber).cons rNumber).cons tNumber
    blockHash := ((allShow_two lHash fHash).cons rBlock).cons tBlock
    sender := ⟨_, allShow_two tFrom rFrom⟩
    recipient := ⟨_, allShow_two tTo rTo⟩
    gasUsed := ⟨_, (allShow_two lGas fGas).cons rGas⟩
    gasPrice := ⟨_, allShow_two tPrice rPrice⟩
    txType := ⟨_, allShow_two tType rType⟩
    listed := ?_
    spelledOut := ?_
    logs := ?_ }⟩
  · rw [lTxs, htxs]
    rfl
  · rw [fTxs, htxs, List.map_singleton, if_pos rfl, htx]
    rfl
  · rw [rLogs, logsInRange_block hblock htxs hlookup, hnumber, hhash, htxHash]

/-- In every state of a node's life, the five views of a sealed transaction tell one story. -/
theorem session_tells_one_story {ρ : Type} [DecidableEq ρ] (hR : P.toRevm.CacheLaws)
    (hn : P.toRevm.CountsNonces) {first v : ValidatorNode}
    (hfirst : first = ⟨created P spec, 0, []⟩ ∨ first = ValidatorNode.spawn (created P spec))
    {events : List (Event ρ)} (hrun : Session.run P spec first events = some v)
    (hfree : HashesApart P v.node) : v.node.TellsOneStory P := by
  have hcoherent := Coherent.life hR hfirst hrun
  have hstart : first.node.Exhausted P ∧ first.node.Attributed P := by
    rcases hfirst with rfl | rfl
    · exact ⟨Exhausted.of_nil rfl, Attributed.of_empty rfl⟩
    · exact ⟨Exhausted.of_nil rfl, Attributed.of_empty rfl⟩
  exact {
    story := fun block hmem raw hraw => hcoherent.story (hstart.1.session hR hn hrun)
      (hstart.2.session hrun) hfree hmem hraw
    byHash := hcoherent.byHash_iff hfree
    oneNumber := fun _ _ _ _ _ _ hview hview' => hcoherent.one_number hfree hview hview' }

def reemitted : List (Event ℕ) := emitted ++ .restart ⟨∅⟩ :: emitted

theorem session_tells_one_story_reemitted :
    ∃ v, Session.run Emission.platform Reference.spec
        (ValidatorNode.spawn (created Emission.platform Reference.spec)) reemitted = some v ∧
      v.node.blocks.length = 1 ∧ (v.node.sealedLogs Emission.platform 1).length = 1 ∧
      v.node.TellsOneStory Emission.platform := by
  have hlen : (Session.run Emission.platform Reference.spec
      (ValidatorNode.spawn (created Emission.platform Reference.spec)) reemitted).map
        (fun v => decide (v.node.blocks.length = 1 ∧
          (v.node.sealedLogs Emission.platform 1).length = 1 ∧
          HashesApart Emission.platform v.node)) = some true := by decide +kernel
  obtain ⟨v, hrun, hv⟩ := Option.map_eq_some_iff.mp hlen
  obtain ⟨hone, hlog, hfree⟩ := of_decide_eq_true hv
  exact ⟨v, hrun, hone, hlog, session_tells_one_story Emission.cacheLaws Emission.countsNonces
    (.inr rfl) hrun hfree⟩

end KanariNode

end KanariEvm
