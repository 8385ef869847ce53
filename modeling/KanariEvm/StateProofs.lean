import KanariEvm.CacheInvariants
import KanariEvm.Reference

namespace KanariEvm

/-- A slot reads as the commitment files it: under an account it leaves out the slot is not set,
and under any other no zero is cached. -/
def InMemoryDB.FilesSlot (db : InMemoryDB) (a : Address) (s : U256) : Prop :=
  if (db.entry a).info.Blank then ((db.entry a).storage.lookup s).getD 0 = 0
  else (db.entry a).storage.lookup s ≠ some 0

instance (db : InMemoryDB) (a : Address) (s : U256) : Decidable (db.FilesSlot a s) := by
  unfold InMemoryDB.FilesSlot; infer_instance

theorem InMemoryDB.Tidy.filesSlot {db : InMemoryDB} (h : db.Tidy) (a : Address) (s : U256) :
    db.FilesSlot a s := by
  unfold InMemoryDB.FilesSlot
  split_ifs with hblank
  · rw [(h a).blank hblank, Finmap.lookup_empty]
    rfl
  · exact (h a).slots s

namespace KanariNode

def codeHashOf (P : Platform) (node : KanariNode) (a : Address) : B256 :=
  ((P.basic node.db a).1.map (·.codeHash)).getD keccakEmpty

/-- The proof of an account shows it exactly if it holds anything, and then the bytes it proves are
the one encoding of its balance, nonce and code hash. -/
structure AccountProofAgrees (P : Platform) (node : KanariNode) (a : Address) : Prop where
  isMember : (node.smtProof P a none).isMember = true ↔
    (node.balanceOf P a).2 ≠ 0 ∨ (node.nonceOf P a).2 ≠ 0 ∨ (node.codeOf P a).2 ≠ []
  value : (node.smtProof P a none).isMember = true → ∃ bytes,
    (node.smtProof P a none).value = some bytes ∧ bytes.length = 72 ∧
      decodeAccount bytes =
        ((node.balanceOf P a).2, (node.nonceOf P a).2, node.codeHashOf P a) ∧
      ∀ info : AccountInfo, encodeAccount info = bytes →
        info.balance = (node.balanceOf P a).2 ∧ info.nonce = (node.nonceOf P a).2 ∧
          info.codeHash = node.codeHashOf P a
  absent : (node.smtProof P a none).isMember = false → (node.smtProof P a none).value = none

/-- The proof of a slot shows its value in 32 bytes, and shows no slot that reads zero. -/
def StorageProofAgrees (P : Platform) (node : KanariNode) (a : Address) (s : U256) : Prop :=
  let value := (node.storageOf P a s).2
  let proof := node.smtProof P a (some s)
  (value ≠ 0 → proof.isMember = true ∧ proof.value = some (toBeBytes 32 value.toNat)) ∧
    (value = 0 → proof.isMember = false)

instance (P : Platform) (node : KanariNode) (a : Address) (s : U256) :
    Decidable (node.StorageProofAgrees P a s) := by
  unfold StorageProofAgrees; infer_instance

variable {P : Platform} {node : KanariNode}

theorem smtProof_key (node : KanariNode) (a : Address) (slot : Option U256) :
    (node.smtProof P a slot).isMember = (P.smtProof node.smt.entries (Leaf.key P (a, slot))).1 ∧
      (node.smtProof P a slot).value = P.smtGet node.smt.entries (Leaf.key P (a, slot)) := by
  cases slot with
  | none => exact ⟨rfl, rfl⟩
  | some s => exact ⟨rfl, rfl⟩

section Laws

variable (hR : P.toRevm.CacheLaws) (hsmt : P.SmtExact) (hcommitted : node.Committed P)

include hsmt hcommitted

theorem Committed.smtProof {a : Address} {slot : Option U256}
    (hash : P.HashesApart (insert (a, slot) node.db.leaves)) :
    (node.smtProof P a slot).isMember = (node.db.leafValue (a, slot)).isSome ∧
      (node.smtProof P a slot).value = node.db.leafValue (a, slot) := by
  obtain ⟨hmember, hvalue⟩ := node.smtProof_key (P := P) a slot
  rw [hmember, hvalue, hcommitted]
  exact ⟨InMemoryDB.smtProof_isMember hash hsmt, InMemoryDB.smtGet_leaf hash hsmt⟩

include hR

theorem Committed.accountProofAgrees (hsound : node.db.Sound) {a : Address}
    (hash : P.HashesApart (insert (a, none) node.db.leaves)) : node.AccountProofAgrees P a := by
  obtain ⟨hmember, hvalue⟩ := hcommitted.smtProof hsmt hash
  have hbalance := node.balanceOf_snd hR a
  have hnonce := node.nonceOf_snd hR a
  have hcode := node.codeOf_snd hR a
  have hblank := hsound.blank_iff a
  rw [← hbalance, ← hnonce, ← hcode] at hblank
  by_cases hempty : (node.db.entry a).info.Blank
  · have hleaf : node.db.leafValue (a, none) = none := if_pos hempty
    rw [hleaf] at hmember hvalue
    refine ⟨?_, fun h => absurd (hmember.symm.trans h) Bool.false_ne_true,
      fun _ => hvalue⟩
    obtain ⟨hb, hn, hc⟩ := hblank.mp hempty
    simp [hmember, hb, hn, hc]
  · have hleaf : node.db.leafValue (a, none) = some (encodeAccount (node.db.entry a).info) :=
      if_neg hempty
    rw [hleaf] at hmember hvalue
    have hvisible : (node.db.entry a).visibleInfo = some (node.db.entry a).info :=
      if_neg fun hstate => hempty ((hsound a).absent hstate)
    have hdecode : decodeAccount (encodeAccount (node.db.entry a).info) =
        ((node.balanceOf P a).2, (node.nonceOf P a).2, node.codeHashOf P a) := by
      simp only [decodeAccount_encodeAccount, hbalance, hnonce, codeHashOf, hR.basic_answer,
        InMemoryDB.logical, hvisible, Option.map_some, Option.getD_some]
    refine ⟨⟨fun _ => ?_, fun _ => hmember⟩, fun _ => ?_,
      fun h => absurd (hmember.symm.trans h).symm Bool.false_ne_true⟩
    · rw [hblank, not_and_or, not_and_or] at hempty
      exact hempty
    · refine ⟨_, hvalue, encodeAccount_length _, hdecode, fun info hinfo => ?_⟩
      rw [← hinfo, decodeAccount_encodeAccount] at hdecode
      exact ⟨congrArg Prod.fst hdecode, congrArg (·.2.1) hdecode, congrArg (·.2.2) hdecode⟩

theorem Committed.storageProofAgrees_iff {a : Address} {s : U256}
    (hash : P.HashesApart (insert (a, some s) node.db.leaves)) :
    node.StorageProofAgrees P a s ↔ node.db.FilesSlot a s := by
  obtain ⟨hmember, hvalue⟩ := hcommitted.smtProof hsmt hash
  have hread : (node.storageOf P a s).2 = ((node.db.entry a).storage.lookup s).getD 0 :=
    hR.storage_answer node.db a s
  simp only [StorageProofAgrees, hmember, hvalue, hread, InMemoryDB.FilesSlot,
    InMemoryDB.leafValue]
  by_cases hblank : (node.db.entry a).info.Blank
  · simp [hblank]
  · simp only [if_neg hblank]
    cases hslot : (node.db.entry a).storage.lookup s with
    | none => simp
    | some v => simp

end Laws

section Runs

variable (hR : P.toRevm.CacheLaws) (hsmt : P.SmtExact) {spec : KanariChainSpec}

include hR hsmt

/-- Right after a seal, whatever happened before: account proofs agree with the reads, the keys of
accounts and slots are apart, and every proof is against the root in the head block. -/
theorem account_proofs_agree (hcode : P.toRevm.KeepsCode) {before after : KanariNode} {raw : Bytes}
    {number timestamp baseFee : U64} {io : SealIo} {hash : B256}
    (hreached : Reached P spec Unguarded before)
    (hseal : before.sealRawWithFee P raw number timestamp baseFee io = (after, .ok hash)) :
    (∀ a, P.HashesApart (insert (a, none) after.db.leaves) → after.AccountProofAgrees P a) ∧
      (∀ a b, P.HashesApart {(a, none), (b, none)} →
        smtAccountKey P a = smtAccountKey P b → a = b) ∧
      (∀ a b s, P.HashesApart {(a, none), (b, some s)} →
        smtAccountKey P a ≠ smtStorageKey P b s) ∧
      ∃ head, after.blocks.getLast? = some head ∧
        ∀ a slot, head.stateRoot = some (after.smtProof P a slot).root := by
  have hsettled : Settled P spec Unguarded after := .sealed hreached trivial hseal
  refine ⟨fun a hash => ?_, fun a b hash hkey => ?_, fun a b s hash hkey => ?_, ?_⟩
  · exact hsettled.committed.accountProofAgrees hR hsmt (hsettled.reached.sound hR hcode) hash
  · exact congrArg Prod.fst (hash.pair hkey)
  · exact absurd (congrArg Prod.snd (hash.pair hkey)) nofun
  · obtain ⟨db, prepared, result, -, rfl⟩ := sealRawWithFee_ok hseal
    exact ⟨_, List.getLast?_concat, fun a slot => rfl⟩

/-- Right after an open or a seal, storage proofs agree with storage reads exactly where the slot is
filed as it reads; from a tidy genesis, by steps that keep the cache tidy, they agree everywhere. -/
theorem storage_proofs_agree :
    (∀ node a s, (Settled P spec Unguarded node ∨ ∃ dir, («open» P spec dir).2 = .ok node) →
      P.HashesApart (insert (a, some s) node.db.leaves) →
      (node.StorageProofAgrees P a s ↔ node.db.FilesSlot a s)) ∧
    ((spec.applyGenesis P .empty).Tidy → ∀ node a s, Settled P spec (KeepsTidy P) node →
      P.HashesApart (insert (a, some s) node.db.leaves) → node.StorageProofAgrees P a s) := by
  constructor
  · rintro node a s (hsettled | ⟨dir, hopen⟩) hash
    · exact hsettled.committed.storageProofAgrees_iff hR hsmt hash
    · obtain ⟨alloc, hsettled⟩ := open_settled hopen
      exact hsettled.committed.storageProofAgrees_iff hR hsmt hash
  · intro hgenesis node a s hsettled hash
    have htidy := hsettled.reached.tidy hR hgenesis
    exact (hsettled.committed.storageProofAgrees_iff hR hsmt hash).mpr (htidy.filesSlot a s)

end Runs

theorem account_proofs_agree_transfer :
    ((created Reference.platform Reference.spec).touch Reference.platform
        (.sealRaw Reference.transfer0 1 5 100000000 .healthy)).AccountProofAgrees
          Reference.platform Reference.funded ∧
      ((created Reference.platform Reference.spec).touch Reference.platform
        (.sealRaw Reference.transfer0 1 5 100000000 .healthy)).AccountProofAgrees
          Reference.platform 0xbeef := by
  have hseal : (created Reference.platform Reference.spec).sealRawWithFee Reference.platform
      Reference.transfer0 1 5 100000000 .healthy =
        ((created Reference.platform Reference.spec).touch Reference.platform
          (.sealRaw Reference.transfer0 1 5 100000000 .healthy), .ok Reference.hash0) :=
    Prod.ext rfl (by decide +kernel)
  obtain ⟨hagree, -⟩ := account_proofs_agree Reference.cacheLaws Reference.smtExact
    Reference.keepsCode (.genesis { DataDir.fresh with
      chain := ChainStore.empty.initMeta Reference.spec.chainId Reference.spec.genesisAlloc }) hseal
  exact ⟨hagree _ (by decide +kernel), hagree _ (by decide +kernel)⟩

theorem transfer_tidy {db : InMemoryDB} (hsound : db.Sound) (htidy : db.Tidy)
    {params : KanariEvmParams} {tx : TxEnv} {result : ExecutionResult} {state : EvmState}
    (h : Transfer.outcome db params tx = .ok (result, state)) {a : Address}
    {change : AccountChange} (hchange : state.lookup a = some change) :
    change.Tidy Reference.keccak256 (db.entry a) := by
  obtain ⟨dest, ⟨-, -, ⟨-, hdest, hpayee⟩, -, ⟨-, hnonce⟩, htip⟩, -, rfl⟩ := Transfer.outcome_ok h
  -- a change that leaves its account blank was made to one that read as empty
  have hblank : ∀ balance nonce : ℕ, balance < 2 ^ 256 → nonce < 2 ^ 64 →
      ((Transfer.touched balance nonce).info.settle Reference.keccak256).Blank →
      balance = 0 ∧ nonce = 0 := by
    rintro balance nonce hb hn ⟨hzero, hfirst, -⟩
    have hzero' := congrArg BitVec.toNat hzero
    have hfirst' := congrArg BitVec.toNat hfirst
    simp only [AccountInfo.settle, Transfer.touched, BitVec.toNat_ofNat] at hzero' hfirst'
    rw [Nat.mod_eq_of_lt hb] at hzero'
    rw [Nat.mod_eq_of_lt hn] at hfirst'
    exact ⟨hzero', hfirst'⟩
  have hread : ∀ b, (db.logical b).balance.toNat = 0 → (db.logical b).nonce.toNat = 0 →
      (db.logical b).code = [] → (db.entry b).storage = ∅ := by
    intro b hbalance hsent hcode
    refine (htidy b).blank ((hsound.blank_iff b).mpr ⟨?_, ?_, hcode⟩)
    · exact BitVec.eq_of_toNat_eq hbalance
    · exact BitVec.eq_of_toNat_eq hsent
  obtain ⟨balance, nonce, rfl⟩ := Transfer.touched_of_changes hchange
  refine ⟨fun hempty => ⟨rfl, .inr ?_⟩, fun s hs => absurd hs.symm (Option.some_ne_none 0)⟩
  rw [Transfer.changes_lookup] at hchange
  split_ifs at hchange with hb hd hc
  · rw [← Option.some.inj hchange] at hempty
    obtain ⟨hbalance, hsent⟩ := hblank _ _ htip (BitVec.isLt _) hempty
    exact hb ▸ hread _ (by omega) hsent hpayee
  · rw [← Option.some.inj hchange] at hempty
    obtain ⟨hbalance, hsent⟩ := hblank _ _ (BitVec.isLt _) (BitVec.isLt _) hempty
    exact hd ▸ hread _ hbalance hsent hdest
  · rw [← Option.some.inj hchange] at hempty
    obtain ⟨-, hsent⟩ := hblank _ _
      (Nat.lt_of_le_of_lt (Nat.sub_le _ _) (BitVec.isLt (db.logical tx.caller).balance)) hnonce
      hempty
    omega

def slotSpec : KanariChainSpec :=
  { Reference.spec with genesisStorage := [(Reference.funded, 5, 7)] }

theorem storage_proofs_agree_transfer :
    ((created Reference.platform slotSpec).touch Reference.platform
        (.sealRaw Reference.transfer0 1 5 100000000 .healthy)).StorageProofAgrees
          Reference.platform Reference.funded 5 ∧
      ((created Reference.platform slotSpec).touch Reference.platform
        (.sealRaw Reference.transfer0 1 5 100000000 .healthy)).StorageProofAgrees
          Reference.platform Reference.funded 6 := by
  have hgenesis : (slotSpec.applyGenesis Reference.platform .empty).Tidy := by decide +kernel
  have hcreated : Reached Reference.platform slotSpec (KeepsTidy Reference.platform)
      (created Reference.platform slotSpec) :=
    .genesis { DataDir.fresh with
      chain := ChainStore.empty.initMeta slotSpec.chainId slotSpec.genesisAlloc }
  have hkeeps : KeepsTidy Reference.platform (created Reference.platform slotSpec)
      (.sealRaw Reference.transfer0 1 5 100000000 .healthy) := by
    intro prepared hd
    refine ⟨fun r hr => ?_, fun result state ho a change hchange _ _ => ?_⟩
    · obtain ⟨b, rfl⟩ := Transfer.reads_basic (created Reference.platform slotSpec).db
        (evmParams slotSpec 1 5 100000000) prepared.inner r hr
      trivial
    · exact transfer_tidy (hcreated.sound Reference.cacheLaws Reference.keepsCode)
        (hcreated.tidy Reference.cacheLaws hgenesis) ho hchange
  have hseal : (created Reference.platform slotSpec).sealRawWithFee Reference.platform
      Reference.transfer0 1 5 100000000 .healthy =
        ((created Reference.platform slotSpec).touch Reference.platform
          (.sealRaw Reference.transfer0 1 5 100000000 .healthy), .ok Reference.hash0) :=
    Prod.ext rfl (by decide +kernel)
  have hagree := (storage_proofs_agree Reference.cacheLaws Reference.smtExact).2 hgenesis
  exact ⟨hagree _ _ _ (.sealed hcreated hkeeps hseal) (by decide +kernel),
    hagree _ _ _ (.sealed hcreated hkeeps hseal) (by decide +kernel)⟩

def straySlotsSpec : KanariChainSpec :=
  { Reference.spec with genesisStorage := [(Reference.funded, 5, 0), (0xbeef, 5, 7)] }

/-- Right after opening, the zero is proved as a member and the stray slot is not; a slot that was
only read is proved as a member once a transfer is sealed. -/
theorem cached_zero_is_proved :
    («open» Reference.platform straySlotsSpec .fresh).2 =
        .ok (created Reference.platform straySlotsSpec) ∧
      Reference.platform.HashesApart (insert (Reference.funded, some 5)
        (created Reference.platform straySlotsSpec).db.leaves) ∧
      ¬(created Reference.platform straySlotsSpec).StorageProofAgrees Reference.platform
        Reference.funded 5 ∧
      Reference.platform.HashesApart (insert (0xbeef, some 5)
        (created Reference.platform straySlotsSpec).db.leaves) ∧
      ¬(created Reference.platform straySlotsSpec).StorageProofAgrees Reference.platform
        0xbeef 5 ∧
      ¬(((created Reference.platform Reference.spec).perform Reference.platform
          (.read (.storageOf Reference.funded 9))).perform Reference.platform
            (.attempt (.committed Reference.transfer0 5) .healthy)).StorageProofAgrees
              Reference.platform Reference.funded 9 :=
  ⟨open_fresh straySlotsSpec, by decide +kernel, by decide +kernel, by decide +kernel,
    by decide +kernel, by decide +kernel⟩

end KanariNode

end KanariEvm
