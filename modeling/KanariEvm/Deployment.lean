import KanariEvm.CacheInvariants
import KanariEvm.CodeLaws
import KanariEvm.Emission

namespace KanariEvm.Deployment

open InMemoryDB Contracts

/-! The reference platform with the life of one contract: the first transaction of the development
account creates a `SimpleStorage`, and messages set its word from 0 to 5 or read it. -/

def contract : Address := Emission.contract

def initCode : Bytes := deployHead 63 ++ simpleStorageRuntime

/-- 53000 for a creation, 940 for the data, 6 for the words of init code, 33 for running it, 12600
for the 63 bytes it leaves. -/
def creationGas : U64 := 66579

/-- 21000 for a message, 204 for the data, 22100 for the first write of a slot, 44 for the rest. -/
def setGas : U64 := 43348

/-- 21000 for a message, 64 for the data, 2100 for the first read of a slot, 72 for the rest. -/
def getGas : U64 := 23236

/-- The checks of revm, for a message of the fragment that uses this much gas. -/
def Pays (gas : U64) (db : InMemoryDB) (params : KanariEvmParams) (tx : TxEnv) : Prop :=
  (tx.txType = 0 ∧ tx.value = 0 ∧ tx.accessList = [] ∧ tx.authorizationList = [] ∧
    tx.chainId = some params.chainId) ∧
  (tx.caller ≠ params.beneficiary ∧ tx.caller ≠ contract ∧ params.beneficiary ≠ contract) ∧
  ((db.logical tx.caller).code = [] ∧ (db.logical params.beneficiary).code = []) ∧
  (gas.toNat ≤ tx.gasLimit.toNat ∧ params.basefee.toNat ≤ tx.gasPrice.toNat ∧
    tx.gasLimit.toNat * tx.gasPrice.toNat ≤ (db.logical tx.caller).balance.toNat) ∧
  ((db.logical tx.caller).nonce = tx.nonce ∧ tx.nonce.toNat + 1 < 2 ^ 64) ∧
  (db.logical params.beneficiary).balance.toNat +
    gas.toNat * (tx.gasPrice.toNat - params.basefee.toNat) < 2 ^ 256

instance (gas : U64) (db : InMemoryDB) (params : KanariEvmParams) (tx : TxEnv) :
    Decidable (Pays gas db params tx) := by unfold Pays; infer_instance

/-- The account holds the contract, under a hash of its code. -/
def Holds (db : InMemoryDB) : Prop :=
  (db.entry contract).accountState ≠ .notExisting ∧
    (db.entry contract).info.code = some simpleStorageRuntime ∧
    (db.entry contract).info.codeHash ≠ keccakEmpty ∧ (db.entry contract).info.codeHash ≠ 0

instance (db : InMemoryDB) : Decidable (Holds db) := by unfold Holds; infer_instance

/-- The changes of the two accounts that every message changes. -/
def paid (gas : U64) (db : InMemoryDB) (params : KanariEvmParams) (tx : TxEnv) : EvmState :=
  let sender := db.logical tx.caller
  let payee := db.logical params.beneficiary
  ((∅ : EvmState).insert tx.caller (Transfer.touched
    (sender.balance.toNat - gas.toNat * tx.gasPrice.toNat) (tx.nonce.toNat + 1))).insert
    params.beneficiary (Transfer.touched (payee.balance.toNat +
      gas.toNat * (tx.gasPrice.toNat - params.basefee.toNat)) payee.nonce.toNat)

def born (hashSlow : Bytes → B256) : AccountChange where
  info := ⟨0, 1, hashSlow simpleStorageRuntime, some simpleStorageRuntime⟩
  touched := true
  created := true
  selfdestructed := false
  storage := ∅

/-- The contract after a message that leaves `word` in its slot. -/
def called (db : InMemoryDB) (word : U256) : AccountChange where
  info := (db.entry contract).info
  touched := true
  created := false
  selfdestructed := false
  storage := (∅ : Map U256 U256).insert 0 word

def word (db : InMemoryDB) : U256 := (db.logical contract).storage 0

def outcome (hashSlow : Bytes → B256) (db : InMemoryDB) (params : KanariEvmParams) (tx : TxEnv) :
    Except String (ExecutionResult × EvmState) :=
  match tx.kind with
  | .create =>
    if tx.data = initCode ∧ (tx.caller = Reference.funded ∧ tx.nonce = 0) ∧
        (db.entry contract).visibleInfo = none ∧ Pays creationGas db params tx then
      .ok (.success creationGas [] (.create simpleStorageRuntime (some contract)),
        (paid creationGas db params tx).insert contract (born hashSlow))
    else .error "rejected"
  | .call dest =>
    if dest = contract ∧ Holds db ∧ tx.data = encodeSet 5 ∧ word db = 0 ∧
        Pays setGas db params tx then
      .ok (.success setGas [] (.call []),
        (paid setGas db params tx).insert contract (called db 5))
    else if dest = contract ∧ Holds db ∧ tx.data = encodeGet ∧ Pays getGas db params tx then
      .ok (.success getGas [] (.call (StackMachine.wordBytes (word db))),
        (paid getGas db params tx).insert contract (called db (word db)))
    else .error "rejected"

def reads (_ : InMemoryDB) (params : KanariEvmParams) (tx : TxEnv) : List DbRead :=
  match tx.kind with
  | .create => [.basic tx.caller, .basic contract, .basic params.beneficiary]
  | .call dest => [.basic tx.caller, .basic dest, .storage dest 0, .basic params.beneficiary]

/-- `commit` of the cache, which also keeps the code of a created contract by its hash. -/
def commit (hashSlow : Bytes → B256) (db : InMemoryDB) (state : EvmState) : InMemoryDB where
  accounts := (CacheDb.commit hashSlow db state).accounts
  contracts := match state.lookup contract with
    | none => db.contracts
    | some change => CacheDb.insertContract db.contracts (change.info.settle hashSlow)

def revm (hashSlow : Bytes → B256) : Revm :=
  { Transfer.revm hashSlow with
    commit := commit hashSlow
    outcome := outcome hashSlow
    reads := reads
    inspect := fun db params tx => (outcome hashSlow db params tx).map fun out =>
      (out.1, .ok [Transfer.summaryLine out.1]) }

variable (hashSlow : Bytes → B256)

theorem revm_cacheLaws : (revm hashSlow).CacheLaws :=
  { Transfer.revm_cacheLaws hashSlow with
    commit_entry := CacheDb.commit_entry hashSlow
    commit_contracts := fun db₁ db₂ state h => by
      change (commit hashSlow db₁ state).contracts = (commit hashSlow db₂ state).contracts
      simp only [commit, h] }

section Fragment

variable {hashSlow} {db : InMemoryDB} {params : KanariEvmParams} {tx : TxEnv}
  {result : ExecutionResult} {state : EvmState}

theorem outcome_call {dest : Address} (hkind : tx.kind = .call dest)
    (h : outcome hashSlow db params tx = .ok (result, state)) :
    dest = contract ∧ Holds db ∧ ∃ gas w, Pays gas db params tx ∧
      state = (paid gas db params tx).insert contract (called db w) ∧
      ((tx.data = encodeSet 5 ∧ w = 5 ∧ result = .success gas [] (.call [])) ∨
        (tx.data = encodeGet ∧ w = word db ∧
          result = .success gas [] (.call (StackMachine.wordBytes w)))) := by
  simp only [outcome, hkind] at h
  split_ifs at h with hset hget
  · simp only [Except.ok.injEq, Prod.mk.injEq] at h
    obtain ⟨hdest, hholds, hdata, -, hpays⟩ := hset
    exact ⟨hdest, hholds, _, _, hpays, h.2.symm, .inl ⟨hdata, rfl, h.1.symm⟩⟩
  · simp only [Except.ok.injEq, Prod.mk.injEq] at h
    obtain ⟨hdest, hholds, hdata, hpays⟩ := hget
    exact ⟨hdest, hholds, _, _, hpays, h.2.symm, .inr ⟨hdata, rfl, h.1.symm⟩⟩

theorem outcome_create (hkind : tx.kind = .create)
    (h : outcome hashSlow db params tx = .ok (result, state)) :
    tx.data = initCode ∧ (db.entry contract).visibleInfo = none ∧
      Pays creationGas db params tx ∧
      result = .success creationGas [] (.create simpleStorageRuntime (some contract)) ∧
      state = (paid creationGas db params tx).insert contract (born hashSlow) := by
  simp only [outcome, hkind] at h
  split_ifs at h with hcreates
  simp only [Except.ok.injEq, Prod.mk.injEq] at h
  obtain ⟨hdata, -, hnew, hpays⟩ := hcreates
  exact ⟨hdata, hnew, hpays, h.1.symm, h.2.symm⟩

theorem changes_lookup (gas : U64) (change : AccountChange) (a : Address) :
    ((paid gas db params tx).insert contract change).lookup a =
      if a = contract then some change
      else if a = params.beneficiary then some (Transfer.touched
        ((db.logical params.beneficiary).balance.toNat +
          gas.toNat * (tx.gasPrice.toNat - params.basefee.toNat))
        (db.logical params.beneficiary).nonce.toNat)
      else if a = tx.caller then some (Transfer.touched
        ((db.logical tx.caller).balance.toNat - gas.toNat * tx.gasPrice.toNat)
        (tx.nonce.toNat + 1))
      else none := by
  simp only [paid, Map.lookup_insert_ite, Finmap.lookup_empty]

theorem insertContract_lookup {contracts : Map B256 Bytes} {hash : B256} {code : Bytes}
    (h : contracts.lookup hash = some code) (info : AccountInfo) :
    (CacheDb.insertContract contracts info).lookup hash = some code := by
  unfold CacheDb.insertContract
  cases info.code with
  | none => exact h
  | some code' =>
    simp only
    split_ifs with hskip
    · exact h
    · have hne : hash ≠ info.codeHash := by
        rintro rfl
        exact hskip (.inr (by rw [h]; rfl))
      rw [Finmap.lookup_insert_of_ne _ hne, h]

/-- Code is never forgotten: `commit` only adds to the codes known by their hashes. -/
theorem commit_code (state : EvmState) {a : Address} (h : (commit hashSlow db state).entry a =
    db.entry a) (hcode : (db.logical a).code ≠ []) :
    ((commit hashSlow db state).logical a).code = (db.logical a).code := by
  simp only [logical, h] at hcode ⊢
  cases hinfo : (db.entry a).visibleInfo with
  | none => rfl
  | some info =>
    rw [hinfo] at hcode
    simp only [codeOfInfo] at hcode ⊢
    split_ifs at hcode ⊢ with hhash
    · rfl
    · cases hc : info.code with
      | some code => rfl
      | none =>
        simp only [hc] at hcode ⊢
        obtain ⟨code, hlookup⟩ : ∃ code, db.contracts.lookup info.codeHash = some code := by
          by_contra hnone
          rw [not_exists] at hnone
          rw [Option.eq_none_iff_forall_ne_some.mpr hnone] at hcode
          exact hcode rfl
        have hkept : (commit hashSlow db state).contracts.lookup info.codeHash = some code := by
          unfold commit
          cases state.lookup contract with
          | none => exact hlookup
          | some change => exact insertContract_lookup hlookup _
        rw [hlookup, hkept]

theorem touched_storage (acc : DbAccount) (balance nonce : ℕ) :
    (acc.committed hashSlow (Transfer.touched balance nonce)).storage = acc.storage := by
  simp only [DbAccount.committed, Transfer.touched, Bool.not_true, Bool.false_eq_true, if_false,
    Finmap.empty_union]

/-- The accounts besides the contract have no code or are left alone, and their storage stays. -/
theorem commit_elsewhere {gas : U64} {change : AccountChange} (hpays : Pays gas db params tx)
    (hstate : state = (paid gas db params tx).insert contract change) {a : Address}
    (ha : a ≠ contract) :
    ((db.logical a).code ≠ [] →
        ((commit hashSlow db state).logical a).code = (db.logical a).code) ∧
      ((commit hashSlow db state).logical a).storage = (db.logical a).storage := by
  obtain ⟨-, -, ⟨hsender, hpayee⟩, -⟩ := hpays
  have hentry : (commit hashSlow db state).entry a = _ := CacheDb.commit_entry hashSlow db state a
  rw [hstate, changes_lookup, if_neg ha, ← hstate] at hentry
  have hslots : ∀ balance nonce, (commit hashSlow db state).entry a =
      (db.entry a).committed hashSlow (Transfer.touched balance nonce) →
        ((commit hashSlow db state).logical a).storage = (db.logical a).storage := by
    intro balance nonce he
    simp only [logical, he, touched_storage]
  split_ifs at hentry with hb hc
  · exact ⟨fun hcode => absurd (by rw [hb, hpayee]) hcode, hslots _ _ hentry⟩
  · exact ⟨fun hcode => absurd (by rw [hc, hsender]) hcode, hslots _ _ hentry⟩
  · exact ⟨commit_code _ hentry, by simp only [logical, hentry]⟩

theorem commit_contract {gas : U64} {change : AccountChange}
    (hstate : state = (paid gas db params tx).insert contract change) :
    (commit hashSlow db state).entry contract =
      (db.entry contract).committed hashSlow change := by
  have hentry : (commit hashSlow db state).entry contract = _ :=
    CacheDb.commit_entry hashSlow db state contract
  rw [hstate, changes_lookup, if_pos rfl, ← hstate] at hentry
  exact hentry

theorem settle_of_hash {info : AccountInfo} (hempty : info.codeHash ≠ keccakEmpty)
    (hzero : info.codeHash ≠ 0) : info.settle hashSlow = info := by
  obtain ⟨balance, nonce, codeHash, code⟩ := info
  change codeHash ≠ keccakEmpty at hempty
  change codeHash ≠ 0 at hzero
  cases code with
  | none => simp only [AccountInfo.settle, if_neg hzero]
  | some code => simp only [AccountInfo.settle, hempty, and_false, if_false, if_neg hzero]

theorem committed_code {acc : DbAccount} {change : AccountChange} {code : Bytes}
    (htouched : change.touched = true) (halive : change.selfdestructed = false)
    (hcode : change.info.code = some code) (hempty : change.info.codeHash ≠ keccakEmpty)
    (hzero : change.info.codeHash ≠ 0) (hentry : (commit hashSlow db state).entry contract =
      acc.committed hashSlow change) :
    ((commit hashSlow db state).logical contract).code = code := by
  simp only [DbAccount.committed, htouched, halive, Bool.not_true, Bool.false_eq_true, if_false,
    settle_of_hash hempty hzero] at hentry
  have hvisible : ((commit hashSlow db state).entry contract).visibleInfo = some change.info := by
    rw [hentry]
    refine if_neg ?_
    by_cases hcleared : change.created = true ∨ acc.accountState = .storageCleared
    · rw [if_pos hcleared]
      exact AccountState.noConfusion
    · rw [if_neg hcleared]
      exact AccountState.noConfusion
  simp only [logical, hvisible, codeOfInfo, if_neg hempty, hcode]

theorem Holds.code (h : Holds db) : (db.logical contract).code = simpleStorageRuntime := by
  obtain ⟨hstate, hcode, hempty, -⟩ := h
  simp only [logical, DbAccount.visibleInfo, if_neg hstate, codeOfInfo, if_neg hempty, hcode]

theorem called_storage {gas : U64} {w : U256}
    (hstate : state = (paid gas db params tx).insert contract (called db w)) :
    ((commit hashSlow db state).logical contract).storage =
      fun k => if k = 0 then w else (db.logical contract).storage k := by
  simp only [logical, commit_contract hstate, DbAccount.committed, called, Bool.not_true,
    Bool.false_eq_true, if_false]
  funext k
  rw [Map.lookup_union, Map.lookup_insert_ite, Finmap.lookup_empty]
  split_ifs <;> rfl

end Fragment

theorem revm_keepsCode : (revm hashSlow).KeepsCode := by
  intro db params tx result state h _ a change hchange _
  have hcoded : ∀ gas new, new.info.Coded →
      ((paid gas db params tx).insert contract new).lookup a = some change →
        change.info.Coded := by
    intro gas new hnew hlookup
    rw [changes_lookup] at hlookup
    split_ifs at hlookup
    · rw [← Option.some.inj hlookup]
      exact hnew
    · rw [← Option.some.inj hlookup]
      exact fun hcode => absurd rfl hcode
    · rw [← Option.some.inj hlookup]
      exact fun hcode => absurd rfl hcode
  have hruntime : simpleStorageRuntime ≠ [] := List.cons_ne_nil _ _
  cases hkind : tx.kind with
  | create =>
    obtain ⟨-, -, -, -, rfl⟩ := outcome_create hkind h
    exact hcoded _ (born hashSlow) (fun _ => hruntime) hchange
  | call dest =>
    obtain ⟨-, hholds, gas, w, -, rfl, -⟩ := outcome_call hkind h
    refine hcoded _ (called db w) (fun _ => ?_) hchange
    rw [called, hholds.2.1]
    exact hruntime

theorem revm_runsCode (hempty : hashSlow simpleStorageRuntime ≠ keccakEmpty)
    (hzero : hashSlow simpleStorageRuntime ≠ 0) :
    (revm hashSlow).RunsCode fun _ _ => False where
  message {db params tx dest result state} hkind _ _ _ hout := by
    obtain ⟨rfl, hholds, gas, w, hpays, hstate, hanswer⟩ := outcome_call hkind hout
    have hafter : SameLogical _ (commit hashSlow db state) :=
      Revm.after_sameLogical (revm_cacheLaws hashSlow) db params tx state
    have hprogram : db.program contract = simpleStorageRuntime := by
      unfold InMemoryDB.program
      rw [hholds.code]
      rfl
    refine ⟨ℕ, .flat, 21, simpleStorage false tx.data (db.logical contract).storage, ?_,
      fun _ => ⟨?_, ?_, ?_, ?_⟩⟩
    · rw [hprogram]
      exact (StackMachine.execute_eq Nat.one_pos (StackMachine.affordable_flat _ _ _)
        (eval_simpleStorage false _ _) (le_refl _)).symm
    · rcases hanswer with ⟨hdata, -, rfl⟩ | ⟨hdata, rfl, rfl⟩
      · rw [hdata]
        rfl
      · rw [hdata]
        rfl
    · intro a hcode
      rw [hafter a]
      by_cases ha : a = contract
      · rw [ha, hholds.code]
        exact committed_code rfl rfl hholds.2.1 hholds.2.2.1 hholds.2.2.2 (commit_contract hstate)
      · exact (commit_elsewhere hpays hstate ha).1 hcode
    · rw [hafter contract, called_storage hstate]
      rcases hanswer with ⟨hdata, rfl, -⟩ | ⟨hdata, rfl, -⟩
      · rw [hdata]
        funext k
        have hword : StackMachine.wordAt (encodeSet 5) 4 = 5 := wordAt_encodeSet 5
        change _ = if k = 0 then StackMachine.wordAt (encodeSet 5) 4 else _
        rw [hword]
      · rw [hdata]
        funext k
        change _ = (db.logical contract).storage k
        split_ifs with hk
        · rw [hk, word]
        · rfl
    · intro a ha
      rw [hafter a]
      exact (commit_elsewhere hpays hstate ha).2
  creation {db params tx result state} hkind _ hout := by
    obtain ⟨hdata, hnew, hpays, hresult, hstate⟩ := outcome_create hkind hout
    have hafter : SameLogical _ (commit hashSlow db state) :=
      Revm.after_sameLogical (revm_cacheLaws hashSlow) db params tx state
    have hother : ∀ a, (db.logical a).code ≠ [] → a ≠ contract := by
      rintro a hcode rfl
      apply hcode
      rw [logical, hnew]
      rfl
    refine ⟨ℕ, .flat, 8, .success simpleStorageRuntime fun _ => 0, ?_, fun _ => ⟨?_, ?_, ?_⟩⟩
    · rw [hdata]
      exact (StackMachine.execute_eq Nat.one_pos (StackMachine.affordable_flat _ _ _)
        (eval_deployInit (show deployInit simpleStorageRuntime = .returned initCode from rfl) []
          false _) (le_refl _)).symm
    · intro a hcode
      rw [hafter a]
      exact (commit_elsewhere hpays hstate (hother a hcode)).1 hcode
    · intro a hcode
      rw [hafter a]
      exact (commit_elsewhere hpays hstate (hother a hcode)).2
    · intro gas logs output hsuccess
      rw [hresult, ExecutionResult.success.injEq] at hsuccess
      refine ⟨_, _, contract, rfl, hsuccess.2.2.symm, ?_, ?_⟩
      · rw [hafter contract]
        exact committed_code rfl rfl rfl hempty hzero (commit_contract hstate)
      · rw [hafter contract]
        simp only [logical, commit_contract hstate, DbAccount.committed, born, Bool.not_true,
          Bool.false_eq_true, if_false, if_true]
        rfl

/-- The creation as it goes over the wire. -/
def create0 : Bytes :=
  toBeBytes 16 0xf89f80843b9aca0083030d408080b84c ++ initCode ++
  toBeBytes 36 0x829543a02ed69d37d5c1f0edc87078346c23997f7873d9e7d2a1c039e7b9a902cef07e77 ++
  toBeBytes 33 0xa018e2c79868f3ab9a9e966f46ed8618051bf2021962548b9b7113bf02de57eca9

/-- The message `set(5)` as it goes over the wire. -/
def set1 : Bytes :=
  toBeBytes 35 0xf88a01843b9aca00830186a0945fbdb2315678afecb367f032d93f642f64180aa380a4 ++
  encodeSet 5 ++
  toBeBytes 36 0x829544a0ede676c56f94a0de9458363effa7d5a2fc0b448b99bc6cbf917ca4621f67aa49 ++
  toBeBytes 33 0xa031068f72e8de0f3bcb039e8b6a9180f1bf9f07281da152fea3b5aa7093f9e4e3

def envelopes : List (Bytes × TxEnvelope) :=
  [(create0, .legacy {
      chainId := some 19088
      nonce := 0
      gasPrice := 1000000000
      gasLimit := 200000
      toKind := .create
      value := 0
      input := initCode } {
      r := 0x2ed69d37d5c1f0edc87078346c23997f7873d9e7d2a1c039e7b9a902cef07e77
      s := 0x18e2c79868f3ab9a9e966f46ed8618051bf2021962548b9b7113bf02de57eca9
      oddYParity := false }),
    (set1, .legacy {
      chainId := some 19088
      nonce := 1
      gasPrice := 1000000000
      gasLimit := 100000
      toKind := .call contract
      value := 0
      input := encodeSet 5 } {
      r := 0xede676c56f94a0de9458363effa7d5a2fc0b448b99bc6cbf917ca4621f67aa49
      s := 0x31068f72e8de0f3bcb039e8b6a9180f1bf9f07281da152fea3b5aa7093f9e4e3
      oddYParity := true })]

def platform : Platform :=
  Reference.platformWith revm envelopes
    [(create0, 0x84abe3458a63c9c434f717e7950131997e27f979c5d01d3a0601ed702b3a328e),
      (set1, 0x45239b2dc312ce9737b94243196647fc56bbfcf8700e7df8e35c5cea06183b46),
      (simpleStorageRuntime, 0x84346ce77d40c5f60abc986dd9863732df805c1a80b26e2287a922b193d735bd)]

theorem cacheLaws : platform.toRevm.CacheLaws := revm_cacheLaws _

theorem keepsCode : platform.toRevm.KeepsCode := revm_keepsCode _

theorem runsCode : platform.toRevm.RunsCode fun _ _ => False :=
  revm_runsCode _ (by decide +kernel) (by decide +kernel)

open KanariNode

def started : KanariNode := created platform Reference.spec

theorem started_reached : Reached platform Reference.spec Unguarded started :=
  .genesis { DataDir.fresh with
    chain := ChainStore.empty.initMeta Reference.spec.chainId Reference.spec.genesisAlloc }

def deployed : KanariNode := started.perform platform (.attempt (.send create0 5) .healthy)

theorem deployed_reached : Reached platform Reference.spec Unguarded deployed :=
  started_reached.perform _

/-- The message of the development account in an envelope of the platform. -/
def sent (nonce gasLimit : U64) (kind : TxKind) (data : Bytes) : TxEnv where
  caller := Reference.funded
  gasLimit := gasLimit
  gasPrice := 1000000000
  kind := kind
  value := 0
  data := data
  nonce := nonce
  chainId := some 19088
  gasPriorityFee := none
  accessList := []

def ops : List Op :=
  [.attempt (.send set1 5) .healthy, .read (.codeOf contract)]

def question : CallRequest where
  fromAddr := some Reference.funded
  toAddr := some contract
  data := some encodeGet

end KanariEvm.Deployment
