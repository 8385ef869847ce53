import KanariEvm.StoreTables
import KanariEvm.Lib.LastWrite

namespace KanariEvm

open LastWrite

theorem append_singleton_lt {α : Type} [LT α] [Std.Irrefl (α := α) (· < ·)] {l l' : List α}
    (hlen : l.length = l'.length) (a b : α) :
    l ++ [a] < l' ++ [b] ↔ l < l' ∨ l = l' ∧ a < b := by
  induction l generalizing l' with
  | nil =>
    obtain rfl : l' = [] := List.eq_nil_of_length_eq_zero hlen.symm
    simp [List.cons_lt_cons_iff]
  | cons x l ih =>
    cases l' with
    | nil => simp at hlen
    | cons y l' =>
      have hl : l.length = l'.length := by simpa using hlen
      simp only [List.cons_append, List.cons_lt_cons_iff, ih hl, List.cons.injEq]
      constructor
      · rintro (h | ⟨rfl, h | ⟨rfl, h⟩⟩)
        · exact .inl (.inl h)
        · exact .inl (.inr ⟨rfl, h⟩)
        · exact .inr ⟨⟨rfl, rfl⟩, h⟩
      · rintro ((h | ⟨rfl, h⟩) | ⟨⟨rfl, rfl⟩, h⟩)
        · exact .inl h
        · exact .inr ⟨rfl, .inl h⟩
        · exact .inr ⟨rfl, .inr ⟨rfl, h⟩⟩

theorem hexDigit_byte_lt : ∀ d < 16, ∀ e < 16,
    (BitVec.ofNat 8 (hexDigit d).toNat : U8) < BitVec.ofNat 8 (hexDigit e).toNat ↔ d < e := by
  decide

theorem ascii_hexFixed_lt_iff {w m n : ℕ} (hm : m < 16 ^ w) (hn : n < 16 ^ w) :
    ascii (hexFixed w m) < ascii (hexFixed w n) ↔ m < n := by
  induction w generalizing m n with
  | zero =>
    have hm0 : m = 0 := by simpa using hm
    have hn0 : n = 0 := by simpa using hn
    simp [hm0, hn0, hexFixed, ascii]
  | succ w ih =>
    rw [pow_succ] at hm hn
    have hm' : m / 16 < 16 ^ w := by omega
    have hn' : n / 16 < 16 ^ w := by omega
    have hlen : (ascii (hexFixed w (m / 16))).length = (ascii (hexFixed w (n / 16))).length := by
      simp [ascii, hexFixed_length]
    have hsplit : ∀ k, ascii (hexFixed (w + 1) k) =
        ascii (hexFixed w (k / 16)) ++ [BitVec.ofNat 8 (hexDigit (k % 16)).toNat] := by
      intro k
      simp [ascii, hexFixed]
    have heq : ascii (hexFixed w (m / 16)) = ascii (hexFixed w (n / 16)) ↔ m / 16 = n / 16 :=
      ⟨ascii_hexFixed_injective hm' hn', fun h => by rw [h]⟩
    rw [hsplit, hsplit, append_singleton_lt hlen, ih hm' hn', heq,
      hexDigit_byte_lt _ (Nat.mod_lt m (by decide)) _ (Nat.mod_lt n (by decide))]
    omega

theorem Keys.blockKey_lt_iff (a b : U64) : blockKey a < blockKey b ↔ a < b := by
  have ha : a.toNat < 16 ^ 16 := by simpa using a.isLt
  have hb : b.toNat < 16 ^ 16 := by simpa using b.isLt
  have hsplit : ∀ n : U64, blockKey n = 0x62 :: 0x3a :: ascii (hexFixed 16 n.toNat) := fun _ => rfl
  rw [hsplit, hsplit, BitVec.lt_def, ← ascii_hexFixed_lt_iff ha hb]
  simp

inductive StoreOp
  | initMeta (chainId : U64) (genesisAlloc : List (Address × U256))
  | saveBlock (block : SealedBlock) (receipts : List (B256 × StoredReceipt))
  | setFaucetKey (secret : B256)
deriving DecidableEq

/-- What the store is for: one table per kind of data, each with the value last written to it. -/
structure Tables where
  block : U64 → Option SealedBlock
  receipt : B256 → Option StoredReceipt
  txBlock : B256 → Option U64
  height : Option U64
  chainId : Option U64
  genesisAlloc : Option (List (Address × U256))
  faucetKey : Option B256

namespace StoreOp

/-- What one write says of each table. -/
def writes (op : StoreOp) : Tables where
  block n := match op with
    | .saveBlock block _ => if block.number = n then some block else none
    | _ => none
  receipt hash := match op with
    | .saveBlock _ receipts => last (under hash) receipts
    | _ => none
  txBlock hash := match op with
    | .saveBlock block receipts => if hash ∈ receipts.map (·.1) then some block.number else none
    | _ => none
  height := match op with
    | .saveBlock block _ => some block.number
    | _ => none
  chainId := match op with
    | .initMeta chainId _ => some chainId
    | _ => none
  genesisAlloc := match op with
    | .initMeta _ alloc => some alloc
    | _ => none
  faucetKey := match op with
    | .setFaucetKey secret => some secret
    | _ => none

def puts : StoreOp → WriteBatch
  | .initMeta chainId alloc =>
    [(Keys.metaChainId, ChainStore.u64Value chainId), (Keys.metaGenesis, .alloc alloc)]
  | .saveBlock block receipts => ChainStore.sealBatch block receipts
  | .setFaucetKey secret => [(Keys.metaFaucetKey, .bytes secret.asSlice)]

end StoreOp

def Tables.after (ops : List StoreOp) : Tables where
  block n := last (fun op => op.writes.block n) ops
  receipt hash := last (fun op => op.writes.receipt hash) ops
  txBlock hash := last (fun op => op.writes.txBlock hash) ops
  height := last (fun op => op.writes.height) ops
  chainId := last (fun op => op.writes.chainId) ops
  genesisAlloc := last (fun op => op.writes.genesisAlloc) ops
  faucetKey := last (fun op => op.writes.faucetKey) ops

namespace ChainStore

def perform (s : ChainStore) : StoreOp → ChainStore
  | .initMeta chainId alloc => s.initMeta chainId alloc
  | .saveBlock block receipts => (s.saveBlock block receipts none).toOption.getD s
  | .setFaucetKey secret => s.setFaucetKey secret

/-- Every read of the store answers from its own table. -/
structure Refines (s : ChainStore) (t : Tables) : Prop where
  block : ∀ n, s.loadBlock n = .ok (t.block n)
  receipt : ∀ hash, s.loadReceipt hash = .ok (t.receipt hash)
  txBlock : ∀ hash, s.blockNumberForTx hash = .ok (t.txBlock hash)
  height : s.height = .ok (t.height.getD 0)
  chainId : s.storedChainId = .ok t.chainId
  genesisAlloc : s.storedGenesisAlloc = .ok (t.genesisAlloc.getD [])
  faucetKey : s.loadFaucetKey = .ok t.faucetKey

theorem perform_eq_write (s : ChainStore) (op : StoreOp) : s.perform op = s.write op.puts := by
  cases op <;> rfl

theorem lookup_perform (s : ChainStore) (op : StoreOp) (key : Bytes) :
    (s.perform op).db.lookup key = (last (under key) op.puts).or (s.db.lookup key) := by
  rw [perform_eq_write]
  exact lookup_foldl_insert op.puts s.db key

theorem lookup_run (ops : List StoreOp) (s : ChainStore) (key : Bytes) :
    (ops.foldl perform s).db.lookup key =
      (last (fun op => last (under key) op.puts) ops).or (s.db.lookup key) := by
  induction ops generalizing s with
  | nil => rfl
  | cons op ops ih => rw [List.foldl_cons, ih, lookup_perform, last_cons, Option.or_assoc]

/-- What the puts of a saved block say of a key, table by table. -/
theorem last_sealBatch (key : Bytes) (block : SealedBlock)
    (receipts : List (B256 × StoredReceipt)) :
    last (under key) (sealBatch block receipts) =
      (under key (Keys.metaHeight, u64Value block.number)).or
        ((last (fun r => (under key (Keys.txIndexKey r.1, u64Value block.number)).or
            (under key (Keys.receiptKey r.1, .receipt r.2))) receipts).or
          (under key (Keys.blockKey block.number, .block block))) := by
  simp only [sealBatch, List.cons_append, last_cons, last_append, last_flatMap, last_nil,
    Option.none_or, Option.or_assoc]

theorem under_of_table {key key' : Bytes} (h : ¬Keys.table key' = Keys.table key) (v : StoreValue) :
    under key (key', v) = none := if_neg (Keys.ne_of_table h)

theorem puts_blockKey (op : StoreOp) (n : U64) :
    last (under (Keys.blockKey n)) op.puts = (op.writes.block n).map .block := by
  cases op with
  | initMeta chainId alloc =>
    simp (disch := simp) only [StoreOp.puts, StoreOp.writes, last_cons, last_nil, under_of_table]
    rfl
  | setFaucetKey secret =>
    simp (disch := simp) only [StoreOp.puts, StoreOp.writes, last_singleton, under_of_table]
    rfl
  | saveBlock block receipts =>
    have hnone : last (fun _ : B256 × StoredReceipt => (none : Option StoreValue)) receipts =
        none := last_eq_none fun _ _ => rfl
    simp (disch := simp) only [StoreOp.puts, last_sealBatch, under_of_table, Option.none_or, hnone]
    simp only [under, Keys.blockKey_injective.eq_iff, StoreOp.writes]
    split_ifs <;> rfl

theorem puts_receiptKey (op : StoreOp) (hash : B256) :
    last (under (Keys.receiptKey hash)) op.puts = (op.writes.receipt hash).map .receipt := by
  cases op with
  | initMeta chainId alloc =>
    simp (disch := simp) only [StoreOp.puts, StoreOp.writes, last_cons, last_nil, under_of_table]
    rfl
  | setFaucetKey secret =>
    simp (disch := simp) only [StoreOp.puts, StoreOp.writes, last_singleton, under_of_table]
    rfl
  | saveBlock block receipts =>
    simp (disch := simp) only [StoreOp.puts, last_sealBatch, under_of_table, Option.none_or,
      Option.or_none, StoreOp.writes, ← last_map_option]
    apply last_congr
    intro r _
    simp only [under, Keys.receiptKey_injective.eq_iff]
    split_ifs <;> rfl

theorem puts_txIndexKey (op : StoreOp) (hash : B256) :
    last (under (Keys.txIndexKey hash)) op.puts = (op.writes.txBlock hash).map u64Value := by
  cases op with
  | initMeta chainId alloc =>
    simp (disch := simp) only [StoreOp.puts, StoreOp.writes, last_cons, last_nil, under_of_table]
    rfl
  | setFaucetKey secret =>
    simp (disch := simp) only [StoreOp.puts, StoreOp.writes, last_singleton, under_of_table]
    rfl
  | saveBlock block receipts =>
    simp (disch := simp) only [StoreOp.puts, last_sealBatch, under_of_table, Option.none_or,
      Option.or_none, StoreOp.writes]
    simp only [under, Keys.txIndexKey_injective.eq_iff, last_const]
    split_ifs <;> rfl

theorem last_sealBatch_meta {key : Bytes} (hkey : Keys.table key = some 0x6d) (block : SealedBlock)
    (receipts : List (B256 × StoredReceipt)) :
    last (under key) (sealBatch block receipts) =
      if Keys.metaHeight = key then some (u64Value block.number) else none := by
  have hnone : last (fun _ : B256 × StoredReceipt => (none : Option StoreValue)) receipts =
      none := last_eq_none fun _ _ => rfl
  simp (disch := simp [hkey]) only [last_sealBatch, under_of_table, hnone, Option.or_none]
  rfl

theorem puts_metaHeight (op : StoreOp) :
    last (under Keys.metaHeight) op.puts = op.writes.height.map u64Value := by
  cases op with
  | initMeta chainId alloc => rfl
  | setFaucetKey secret => rfl
  | saveBlock block receipts =>
    rw [StoreOp.puts, last_sealBatch_meta Keys.table_metaHeight, if_pos rfl]
    rfl

theorem puts_metaChainId (op : StoreOp) :
    last (under Keys.metaChainId) op.puts = op.writes.chainId.map u64Value := by
  cases op with
  | initMeta chainId alloc => rfl
  | setFaucetKey secret => rfl
  | saveBlock block receipts =>
    rw [StoreOp.puts, last_sealBatch_meta Keys.table_metaChainId, if_neg (by decide)]
    rfl

theorem puts_metaGenesis (op : StoreOp) :
    last (under Keys.metaGenesis) op.puts = op.writes.genesisAlloc.map .alloc := by
  cases op with
  | initMeta chainId alloc => rfl
  | setFaucetKey secret => rfl
  | saveBlock block receipts =>
    rw [StoreOp.puts, last_sealBatch_meta Keys.table_metaGenesis, if_neg (by decide)]
    rfl

theorem puts_metaFaucetKey (op : StoreOp) :
    last (under Keys.metaFaucetKey) op.puts =
      op.writes.faucetKey.map fun secret => .bytes secret.asSlice := by
  cases op with
  | initMeta chainId alloc => rfl
  | setFaucetKey secret => rfl
  | saveBlock block receipts =>
    rw [StoreOp.puts, last_sealBatch_meta Keys.table_metaFaucetKey, if_neg (by decide)]
    rfl

section Reads

variable {s : ChainStore}

theorem getU64_of_lookup_map {key : Bytes} {o : Option U64}
    (h : s.db.lookup key = o.map u64Value) : s.getU64 key = .ok o := by
  cases o with
  | none => simp [getU64, h]
  | some n => exact getU64_of_lookup h

theorem loadBlock_of_lookup {n : U64} {o : Option SealedBlock}
    (h : s.db.lookup (Keys.blockKey n) = o.map .block) : s.loadBlock n = .ok o := by
  cases o <;> simp [loadBlock, h]

theorem loadReceipt_of_lookup {hash : B256} {o : Option StoredReceipt}
    (h : s.db.lookup (Keys.receiptKey hash) = o.map .receipt) : s.loadReceipt hash = .ok o := by
  cases o <;> simp [loadReceipt, h]

theorem blockNumberForTx_of_lookup {hash : B256} {o : Option U64}
    (h : s.db.lookup (Keys.txIndexKey hash) = o.map u64Value) :
    s.blockNumberForTx hash = .ok o := by
  cases o with
  | none => simp [blockNumberForTx, h]
  | some n => simp [blockNumberForTx, h, u64Value, u64_roundtrip]

theorem storedGenesisAlloc_of_lookup {o : Option (List (Address × U256))}
    (h : s.db.lookup Keys.metaGenesis = o.map .alloc) :
    s.storedGenesisAlloc = .ok (o.getD []) := by
  cases o <;> simp [storedGenesisAlloc, h]

theorem loadFaucetKey_of_lookup {o : Option B256}
    (h : s.db.lookup Keys.metaFaucetKey = o.map fun secret => .bytes secret.asSlice) :
    s.loadFaucetKey = .ok o := by
  cases o with
  | none => simp [loadFaucetKey, h]
  | some secret =>
    have hback : (BitVec.ofNat 256 (fromLeBytes secret.asSlice.reverse) : B256) = secret := by
      rw [B256.asSlice, toBeBytes, List.reverse_reverse,
        fromLeBytes_toLeBytes 32 secret.toNat (by simpa using secret.isLt)]
      simp
    have hlen : secret.asSlice.length = 32 := by simp [B256.asSlice]
    simp [loadFaucetKey, h, hback, hlen]

end Reads

def afterOps (ops : List StoreOp) : ChainStore := ops.foldl perform .empty

theorem lookup_afterOps {β : Type} (ops : List StoreOp) (key : Bytes) (f : StoreOp → Option β)
    (g : β → StoreValue) (h : ∀ op : StoreOp, last (under key) op.puts = (f op).map g) :
    (afterOps ops).db.lookup key = (last f ops).map g := by
  rw [afterOps, lookup_run, last_congr fun op _ => h op, last_map_option]
  simp [empty]

theorem afterOps_refines (ops : List StoreOp) : (afterOps ops).Refines (.after ops) where
  block n := loadBlock_of_lookup (lookup_afterOps ops _ _ _ fun op => puts_blockKey op n)
  receipt hash := loadReceipt_of_lookup
    (lookup_afterOps ops _ _ _ fun op => puts_receiptKey op hash)
  txBlock hash := blockNumberForTx_of_lookup
    (lookup_afterOps ops _ _ _ fun op => puts_txIndexKey op hash)
  height := by
    rw [height_eq_getD, getU64_of_lookup_map (lookup_afterOps ops _ _ _ puts_metaHeight)]
    rfl
  chainId := getU64_of_lookup_map (lookup_afterOps ops _ _ _ puts_metaChainId)
  genesisAlloc := storedGenesisAlloc_of_lookup (lookup_afterOps ops _ _ _ puts_metaGenesis)
  faucetKey := loadFaucetKey_of_lookup (lookup_afterOps ops _ _ _ puts_metaFaucetKey)

structure SameBlocks (s s' : ChainStore) : Prop where
  block : ∀ n, s'.loadBlock n = s.loadBlock n
  receipt : ∀ hash, s'.loadReceipt hash = s.loadReceipt hash
  txBlock : ∀ hash, s'.blockNumberForTx hash = s.blockNumberForTx hash
  height : s'.height = s.height

structure SameMeta (s s' : ChainStore) : Prop where
  chainId : s'.storedChainId = s.storedChainId
  genesisAlloc : s'.storedGenesisAlloc = s.storedGenesisAlloc

theorem lookup_perform_of_silent (s : ChainStore) {β : Type} {op : StoreOp} {key : Bytes}
    {o : Option β} {g : β → StoreValue} (h : last (under key) op.puts = o.map g) (ho : o = none) :
    (s.perform op).db.lookup key = s.db.lookup key := by
  rw [lookup_perform, h, ho]
  rfl

theorem SameBlocks.perform (s : ChainStore) {op : StoreOp}
    (h : ∀ block receipts, op ≠ .saveBlock block receipts) : SameBlocks s (s.perform op) := by
  have hsilent : (∀ n, op.writes.block n = none) ∧ (∀ hash, op.writes.receipt hash = none) ∧
      (∀ hash, op.writes.txBlock hash = none) ∧ op.writes.height = none := by
    cases op with
    | saveBlock block receipts => exact absurd rfl (h block receipts)
    | initMeta chainId alloc => exact ⟨fun _ => rfl, fun _ => rfl, fun _ => rfl, rfl⟩
    | setFaucetKey secret => exact ⟨fun _ => rfl, fun _ => rfl, fun _ => rfl, rfl⟩
  obtain ⟨hblock, hreceipt, hindex, hheight⟩ := hsilent
  refine ⟨fun n => ?_, fun hash => ?_, fun hash => ?_, ?_⟩
  · simp only [loadBlock, lookup_perform_of_silent s (puts_blockKey op n) (hblock n)]
  · simp only [loadReceipt, lookup_perform_of_silent s (puts_receiptKey op hash) (hreceipt hash)]
  · simp only [blockNumberForTx,
      lookup_perform_of_silent s (puts_txIndexKey op hash) (hindex hash)]
  · simp only [height_eq_getD, getU64, lookup_perform_of_silent s (puts_metaHeight op) hheight]

theorem SameMeta.perform (s : ChainStore) {op : StoreOp}
    (h : ∀ chainId alloc, op ≠ .initMeta chainId alloc) : SameMeta s (s.perform op) := by
  have hsilent : op.writes.chainId = none ∧ op.writes.genesisAlloc = none := by
    cases op with
    | initMeta chainId alloc => exact absurd rfl (h chainId alloc)
    | saveBlock block receipts => exact ⟨rfl, rfl⟩
    | setFaucetKey secret => exact ⟨rfl, rfl⟩
  refine ⟨?_, ?_⟩
  · simp only [storedChainId, getU64,
      lookup_perform_of_silent s (puts_metaChainId op) hsilent.1]
  · simp only [storedGenesisAlloc, lookup_perform_of_silent s (puts_metaGenesis op) hsilent.2]

theorem loadFaucetKey_perform (s : ChainStore) {op : StoreOp}
    (h : ∀ secret, op ≠ .setFaucetKey secret) :
    (s.perform op).loadFaucetKey = s.loadFaucetKey := by
  have hsilent : op.writes.faucetKey = none := by
    cases op with
    | setFaucetKey secret => exact absurd rfl (h secret)
    | initMeta chainId alloc => rfl
    | saveBlock block receipts => rfl
  simp only [loadFaucetKey, lookup_perform_of_silent s (puts_metaFaucetKey op) hsilent]

/-- One flat key space behaves as separate tables: every read gives what was last written to its
table, a write to one table leaves the others alone, and block keys are ordered as numbers. -/
theorem store_refines_tables :
    (∀ ops, (afterOps ops).Refines (.after ops)) ∧
      (∀ ops chainId alloc,
        SameBlocks (afterOps ops) (afterOps (ops ++ [.initMeta chainId alloc])) ∧
        (afterOps (ops ++ [.initMeta chainId alloc])).loadFaucetKey =
          (afterOps ops).loadFaucetKey) ∧
      (∀ ops block receipts,
        SameMeta (afterOps ops) (afterOps (ops ++ [.saveBlock block receipts])) ∧
        (afterOps (ops ++ [.saveBlock block receipts])).loadFaucetKey =
          (afterOps ops).loadFaucetKey) ∧
      (∀ ops secret,
        SameBlocks (afterOps ops) (afterOps (ops ++ [.setFaucetKey secret])) ∧
        SameMeta (afterOps ops) (afterOps (ops ++ [.setFaucetKey secret]))) ∧
      ∀ a b, Keys.blockKey a < Keys.blockKey b ↔ a < b := by
  have hstep : ∀ ops op, afterOps (ops ++ [op]) = (afterOps ops).perform op := by
    intro ops op
    rw [afterOps, List.foldl_append]
    rfl
  simp only [hstep]
  refine ⟨afterOps_refines, ?_, ?_, ?_, Keys.blockKey_lt_iff⟩
  · exact fun ops chainId alloc => ⟨SameBlocks.perform _ nofun, loadFaucetKey_perform _ nofun⟩
  · exact fun ops block receipts => ⟨SameMeta.perform _ nofun, loadFaucetKey_perform _ nofun⟩
  · exact fun ops secret => ⟨SameBlocks.perform _ nofun, SameMeta.perform _ nofun⟩

end ChainStore

end KanariEvm
