import KanariEvm.Links
import KanariEvm.Reference

namespace KanariEvm

open InMemoryDB Journaled

/-- The block in memory is the stored record, with a state root of its own if none was stored. -/
structure SealedBlock.Restores (block record : SealedBlock) : Prop where
  number : block.number = record.number
  timestamp : block.timestamp = record.timestamp
  hash : block.hash = record.hash
  parentHash : block.parentHash = record.parentHash
  txs : block.txs = record.txs
  baseFee : block.baseFee = record.baseFee
  root : ∀ root, record.stateRoot = some root → block.stateRoot = some root

theorem SealedBlock.Restores.eq {block record : SealedBlock} (h : block.Restores record)
    (hroot : record.stateRoot.isSome = true) : block = record := by
  obtain ⟨root, hr⟩ := Option.isSome_iff_exists.mp hroot
  have hb := h.root root hr
  obtain ⟨number, timestamp, hash, parentHash, txs, stateRoot, baseFee⟩ := block
  obtain ⟨rfl, rfl, rfl, rfl, rfl, rfl, -⟩ := h
  simp only at hb
  simp [hb, ← hr]

/-- A record exists under every number up to the height, and carries it. -/
structure ChainStore.HoldsRecords (s : ChainStore) (records : List SealedBlock) : Prop where
  height : s.height = .ok (BitVec.ofNat 64 records.length)
  bound : records.length < 2 ^ 64
  record : ∀ i (hi : i < records.length),
    s.loadBlock (BitVec.ofNat 64 (i + 1)) = .ok (some records[i])
  numbers : ∀ i (hi : i < records.length), records[i].number.toNat = i + 1

/-- The stored records form a linked chain of blocks with one transaction each. -/
structure ChainStore.Intact (P : Platform) (s : ChainStore) (records : List SealedBlock) :
    Prop where
  holds : s.HoldsRecords records
  single : ∀ record ∈ records, ∃ raw, record.txs = [raw]
  parents : ∀ i (hi : i < records.length),
    records[i].parentHash = nextParentHash P (records.take i)

namespace KanariNode

variable {P : Platform}

theorem open_stored_ok {spec : KanariChainSpec} {dir : DataDir} {node : KanariNode}
    (hid : dir.chain.storedChainId = .ok (some spec.chainId))
    (hopen : («open» P spec dir).2 = .ok node) :
    ∃ alloc records replayed faucet, dir.chain.storedGenesisAlloc = .ok alloc ∧
      dir.chain.loadBlocks = .ok records ∧
      replayBlocks P ((blank (reopenSpec spec alloc) dir).genesis P) records =
        (replayed, .ok ()) ∧
      («open» P spec dir).1 = replayed.dataDir dir ∧
      node = { replayed with faucetKey := faucet } := by
  simp only [KanariNode.open, hid, openStored, ne_eq, not_true_eq_false, if_false] at hopen ⊢
  cases halloc : dir.chain.storedGenesisAlloc with
  | error e => simp [halloc] at hopen
  | ok alloc =>
    have hstore : ((blank (reopenSpec spec alloc) dir).genesis P).store = dir.chain := rfl
    simp only [halloc, hstore] at hopen ⊢
    cases hload : dir.chain.loadBlocks with
    | error e => simp [hload] at hopen
    | ok records =>
      simp only [hload] at hopen ⊢
      rcases hr : replayBlocks P ((blank (reopenSpec spec alloc) dir).genesis P) records with
        ⟨replayed, e | u⟩
      · simp [hr, finishOpen] at hopen
      · simp only [hr, finishOpen, pickUpFaucetKey] at hopen ⊢
        cases hf : replayed.store.loadFaucetKey with
        | error e => simp [hf] at hopen
        | ok found =>
          cases found with
          | none =>
            simp only [hf, Except.ok.injEq] at hopen
            exact ⟨alloc, records, replayed, replayed.faucetKey, rfl, rfl, hr, rfl, hopen.symm⟩
          | some secret =>
            simp only [hf, Except.ok.injEq] at hopen
            exact ⟨alloc, records, replayed, some secret, rfl, rfl, hr, rfl, hopen.symm⟩

theorem storedTxs_of_single {records : List SealedBlock}
    (h : ∀ record ∈ records, ∃ raw, record.txs = [raw]) :
    storedTxs records = records.map fun record => (record, record.txs.headD []) := by
  induction records with
  | nil => rfl
  | cons record rest ih =>
    obtain ⟨raw, hraw⟩ := h record List.mem_cons_self
    rw [storedTxs, List.flatMap_cons, List.map_cons, hraw]
    exact congrArg _ (ih fun r hr => h r (List.mem_cons_of_mem record hr))

theorem map_eq_of_forall₂ {α β γ : Type} {r : α → β → Prop} {f : α → γ} {g : β → γ}
    (hr : ∀ a b, r a b → f a = g b) {as : List α} {bs : List β} (h : List.Forall₂ r as bs) :
    as.map f = bs.map g := by
  induction h with
  | nil => rfl
  | cons hhead _ ih => rw [List.map_cons, List.map_cons, ih, hr _ _ hhead]

theorem restores_of_resealed {records blocks : List SealedBlock} (hlinked : Linked P blocks)
    (hsingle : ∀ record ∈ records, ∃ raw, record.txs = [raw])
    (hparents : ∀ i (hi : i < records.length),
      records[i].parentHash = nextParentHash P (records.take i))
    (h : List.Forall₂ Resealed (storedTxs records) blocks) :
    List.Forall₂ SealedBlock.Restores blocks records := by
  rw [storedTxs_of_single hsingle, List.forall₂_map_left_iff] at h
  have hhash : records.map (·.hash) = blocks.map (·.hash) :=
    map_eq_of_forall₂ (fun _ _ hr => hr.hash.symm) h
  rw [List.forall₂_iff_get] at h
  obtain ⟨hlen, hget⟩ := h
  refine List.forall₂_iff_get.mpr ⟨hlen.symm, fun i hi hi' => ?_⟩
  obtain ⟨raw, hraw⟩ := hsingle records[i] (List.getElem_mem hi')
  have hsealed : Resealed (records[i], records[i].txs.headD []) blocks[i] := hget i hi' hi
  have hparent : blocks[i].parentHash = records[i].parentHash := by
    rw [(hlinked i hi).parent, hparents i hi']
    apply nextParentHash_congr
    rw [List.map_take, List.map_take, hhash]
  have htxs : blocks[i].txs = records[i].txs := by
    rw [hsealed.txs, hraw]
    rfl
  exact ⟨hsealed.number, hsealed.timestamp, hsealed.hash, hparent, htxs, hsealed.baseFee,
    hsealed.root⟩

/-- The node holds the stored chain: the records `1..=h`, in order. -/
def HoldsStored (store : ChainStore) (node : KanariNode) : Prop :=
  ∃ records, store.HoldsRecords records ∧ List.Forall₂ SealedBlock.Restores node.blocks records

/-- An open that succeeds holds exactly the stored chain if and only if the store held a chain:
no record is missing or misnumbered, each has one transaction and the hash of the record before
it as its parent. -/
theorem open_accepts_stored_iff {spec : KanariChainSpec} {dir : DataDir} {node : KanariNode}
    (hid : dir.chain.storedChainId = .ok (some spec.chainId))
    (hopen : («open» P spec dir).2 = .ok node) :
    HoldsStored dir.chain node ↔ ∃ records, dir.chain.Intact P records := by
  obtain ⟨alloc, loaded, replayed, faucet, -, hload, hreplay, -, rfl⟩ := open_stored_ok hid hopen
  obtain ⟨fresh, hfresh, hresealed⟩ := replayBlocks_resealed hreplay
  have hblocks : replayed.blocks = fresh := hfresh
  have hlinked : Linked P fresh := by
    have h : Linked P (replayBlocks P ((blank (reopenSpec spec alloc) dir).genesis P)
        loaded).1.blocks := linked_replayBlocks Linked.nil loaded
    rw [hreplay] at h
    rwa [← hblocks]
  constructor
  · rintro ⟨records, hholds, hrestores⟩
    replace hrestores : List.Forall₂ SealedBlock.Restores fresh records := hblocks ▸ hrestores
    have hhash : fresh.map (·.hash) = records.map (·.hash) :=
      map_eq_of_forall₂ (fun _ _ hr => hr.hash) hrestores
    obtain ⟨hlen, hget⟩ := List.forall₂_iff_get.mp hrestores
    refine ⟨records, hholds, ?_, ?_⟩
    · intro record hmem
      obtain ⟨i, hi, rfl⟩ := List.mem_iff_getElem.mp hmem
      have hi' : i < fresh.length := by omega
      obtain ⟨raw, hraw⟩ := (hlinked i hi').single
      exact ⟨raw, (hget i hi' hi).txs.symm.trans hraw⟩
    · intro i hi
      have hi' : i < fresh.length := by omega
      have hparent : fresh[i].parentHash = records[i].parentHash := (hget i hi' hi).parentHash
      rw [← hparent, (hlinked i hi').parent]
      apply nextParentHash_congr
      rw [List.map_take, List.map_take, hhash]
  · rintro ⟨records, hintact⟩
    have hrecords := ChainStore.loadBlocks_of_records hintact.holds.bound hintact.holds.height
      hintact.holds.record
    obtain rfl : loaded = records := Except.ok.inj (hload.symm.trans hrecords)
    refine ⟨loaded, hintact.holds, ?_⟩
    change List.Forall₂ _ replayed.blocks loaded
    rw [hblocks]
    exact restores_of_resealed hlinked hintact.single hintact.parents hresealed

theorem Recorded.intact {spec : KanariChainSpec} {node : KanariNode} (h : node.Recorded spec)
    (hlinked : Linked P node.blocks) : node.store.Intact P node.blocks where
  holds := ⟨h.store.height, h.store.bound, h.store.record, h.numbers⟩
  single := h.single
  parents i hi := (hlinked i hi).parent

theorem open_accepts_stored_iff_transfers :
    ∃ node, («open» Reference.platform Reference.spec ((live Reference.platform Reference.spec
        [.committed Reference.transfer0 5, .committed Reference.transfer1 5]).dataDir
          .fresh)).2 = .ok node ∧
      HoldsStored (live Reference.platform Reference.spec
        [.committed Reference.transfer0 5, .committed Reference.transfer1 5]).store node := by
  have hrec := live_recorded Reference.platform Reference.spec
    [.committed Reference.transfer0 5, .committed Reference.transfer1 5]
  have hok : («open» Reference.platform Reference.spec ((live Reference.platform Reference.spec
      [.committed Reference.transfer0 5, .committed Reference.transfer1 5]).dataDir
        .fresh)).2.isOk = true := by decide +kernel
  cases hopen : («open» Reference.platform Reference.spec ((live Reference.platform Reference.spec
      [.committed Reference.transfer0 5, .committed Reference.transfer1 5]).dataDir .fresh)).2 with
  | error e =>
    rw [hopen] at hok
    simp [Except.isOk, Except.toBool] at hok
  | ok node =>
    exact ⟨node, rfl, (open_accepts_stored_iff hrec.store.chainId hopen).mpr
      ⟨_, hrec.intact (live_linked _ _)⟩⟩

def missingRecordDir : DataDir :=
  let closed := live Reference.platform Reference.spec
    [.committed Reference.transfer0 5, .committed Reference.transfer1 5]
  { closed.dataDir .fresh with chain := ⟨closed.store.db.erase (Keys.blockKey 2)⟩ }

/-- The height says two blocks, one record is there, and the open succeeds with one block. -/
theorem missing_record_is_accepted :
    missingRecordDir.chain.storedChainId = .ok (some Reference.spec.chainId) ∧
      ∃ node, («open» Reference.platform Reference.spec missingRecordDir).2 = .ok node ∧
        ¬HoldsStored missingRecordDir.chain node := by
  have hheight : missingRecordDir.chain.height = .ok 2 := by decide +kernel
  have hone : («open» Reference.platform Reference.spec missingRecordDir).2.toOption.map
      (fun n => n.blocks.length) = some 1 := by decide +kernel
  refine ⟨by decide +kernel, ?_⟩
  cases hopen : («open» Reference.platform Reference.spec missingRecordDir).2 with
  | error e =>
    rw [hopen] at hone
    simp [Except.toOption] at hone
  | ok node =>
    refine ⟨node, rfl, ?_⟩
    rintro ⟨records, hholds, hrestores⟩
    rw [hopen] at hone
    simp only [Except.toOption, Option.map_some, Option.some.injEq, hrestores.length_eq] at hone
    have htwo := hheight.symm.trans hholds.height
    rw [hone] at htwo
    exact absurd htwo (by decide)

end KanariNode

end KanariEvm
