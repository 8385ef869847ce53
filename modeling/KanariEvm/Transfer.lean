import KanariEvm.CacheDb

namespace KanariEvm.Transfer

open InMemoryDB

/-! The fragment of the EVM that the reference platform runs: a message without value and data to
an account without code. -/

def gas : U64 := 21000

def Accepts (db : InMemoryDB) (params : KanariEvmParams) (tx : TxEnv) (dest : Address) : Prop :=
  (tx.txType = 0 ∧ tx.value = 0 ∧ tx.data = [] ∧ tx.accessList = [] ∧
    tx.authorizationList = [] ∧ tx.chainId = some params.chainId) ∧
  (tx.caller ≠ dest ∧ tx.caller ≠ params.beneficiary ∧ dest ≠ params.beneficiary) ∧
  ((db.logical tx.caller).code = [] ∧ (db.logical dest).code = [] ∧
    (db.logical params.beneficiary).code = []) ∧
  (gas.toNat ≤ tx.gasLimit.toNat ∧ params.basefee.toNat ≤ tx.gasPrice.toNat ∧
    tx.gasLimit.toNat * tx.gasPrice.toNat ≤ (db.logical tx.caller).balance.toNat) ∧
  ((db.logical tx.caller).nonce = tx.nonce ∧ tx.nonce.toNat + 1 < 2 ^ 64) ∧
  (db.logical params.beneficiary).balance.toNat +
    gas.toNat * (tx.gasPrice.toNat - params.basefee.toNat) < 2 ^ 256

instance (db : InMemoryDB) (params : KanariEvmParams) (tx : TxEnv) (dest : Address) :
    Decidable (Accepts db params tx dest) := by unfold Accepts; infer_instance

def rejection (db : InMemoryDB) (tx : TxEnv) : String :=
  let nonce := (db.logical tx.caller).nonce
  if nonce.toNat < tx.nonce.toNat then "nonce too high"
  else if tx.nonce.toNat < nonce.toNat then "nonce too low"
  else "rejected"

/-- A touched account without code. -/
def touched (balance nonce : ℕ) : AccountChange where
  info := ⟨BitVec.ofNat 256 balance, BitVec.ofNat 64 nonce, keccakEmpty, none⟩
  touched := true
  created := false
  selfdestructed := false
  storage := ∅

def changes (db : InMemoryDB) (params : KanariEvmParams) (tx : TxEnv) (dest : Address) :
    EvmState :=
  let sender := db.logical tx.caller
  let target := db.logical dest
  let payee := db.logical params.beneficiary
  (((∅ : EvmState).insert tx.caller (touched (sender.balance.toNat - gas.toNat * tx.gasPrice.toNat)
    (tx.nonce.toNat + 1))).insert dest (touched target.balance.toNat target.nonce.toNat)).insert
    params.beneficiary (touched (payee.balance.toNat +
      gas.toNat * (tx.gasPrice.toNat - params.basefee.toNat)) payee.nonce.toNat)

def outcome (db : InMemoryDB) (params : KanariEvmParams) (tx : TxEnv) :
    Except String (ExecutionResult × EvmState) :=
  match tx.kind with
  | .create => .error "rejected"
  | .call dest =>
    if Accepts db params tx dest then
      .ok (.success gas [] (.call []), changes db params tx dest)
    else .error (rejection db tx)

def reads (_ : InMemoryDB) (params : KanariEvmParams) (tx : TxEnv) : List DbRead :=
  match tx.kind with
  | .create => [.basic tx.caller]
  | .call dest => [.basic tx.caller, .basic dest, .basic params.beneficiary]

theorem outcome_ok {db : InMemoryDB} {params : KanariEvmParams} {tx : TxEnv}
    {result : ExecutionResult} {state : EvmState} (h : outcome db params tx = .ok (result, state)) :
    ∃ dest, Accepts db params tx dest ∧ result = .success gas [] (.call []) ∧
      state = changes db params tx dest := by
  unfold outcome at h
  cases hk : tx.kind with
  | create => simp [hk] at h
  | call dest =>
    simp only [hk] at h
    split_ifs at h with ha
    simp only [Except.ok.injEq, Prod.mk.injEq] at h
    exact ⟨dest, ha, h.1.symm, h.2.symm⟩

theorem committed_touched (hashSlow : Bytes → B256) (acc : DbAccount) (balance nonce : ℕ) :
    (acc.committed hashSlow (touched balance nonce)).visibleInfo =
      some (touched balance nonce).info := by
  have hk : keccakEmpty ≠ 0 := by decide
  simp only [DbAccount.committed, touched, Bool.not_true, Bool.false_eq_true, if_false,
    DbAccount.visibleInfo, AccountInfo.settle, hk]
  split_ifs <;> simp_all

theorem changes_lookup (db : InMemoryDB) (params : KanariEvmParams) (tx : TxEnv)
    (dest a : Address) : (changes db params tx dest).lookup a =
      if a = params.beneficiary then some (touched ((db.logical params.beneficiary).balance.toNat +
          gas.toNat * (tx.gasPrice.toNat - params.basefee.toNat))
        (db.logical params.beneficiary).nonce.toNat)
      else if a = dest then
        some (touched (db.logical dest).balance.toNat (db.logical dest).nonce.toNat)
      else if a = tx.caller then
        some (touched ((db.logical tx.caller).balance.toNat - gas.toNat * tx.gasPrice.toNat)
          (tx.nonce.toNat + 1))
      else none := by
  simp only [changes, Map.lookup_insert_ite, Finmap.lookup_empty]

theorem touched_of_changes {db : InMemoryDB} {params : KanariEvmParams} {tx : TxEnv}
    {dest a : Address} {change : AccountChange}
    (h : (changes db params tx dest).lookup a = some change) :
    ∃ balance nonce, change = touched balance nonce := by
  rw [changes_lookup] at h
  split_ifs at h
  · exact ⟨_, _, (Option.some.inj h).symm⟩
  · exact ⟨_, _, (Option.some.inj h).symm⟩
  · exact ⟨_, _, (Option.some.inj h).symm⟩

theorem changes_lookup_caller (db : InMemoryDB) {params : KanariEvmParams} {tx : TxEnv}
    {dest : Address} (hd : tx.caller ≠ dest) (hb : tx.caller ≠ params.beneficiary) :
    (changes db params tx dest).lookup tx.caller =
      some (touched ((db.logical tx.caller).balance.toNat - gas.toNat * tx.gasPrice.toNat)
        (tx.nonce.toNat + 1)) := by
  rw [changes_lookup, if_neg hb, if_neg hd, if_pos rfl]

def summaryLine (result : ExecutionResult) : Json :=
  .obj [("output", .str ['0', 'x']), ("gasUsed", .str (quantity result.gasUsed)),
    ("pass", .bool true)]

def revm (hashSlow : Bytes → B256) : Revm where
  hashSlow := hashSlow
  basic := CacheDb.basic
  storage := CacheDb.storage
  insertAccountInfo := CacheDb.insertAccountInfo hashSlow
  insertAccountStorage := CacheDb.insertAccountStorage
  commit := CacheDb.commit hashSlow
  outcome := outcome
  reads := reads
  inspect db params tx :=
    (outcome db params tx).map fun out => (out.1, .ok [summaryLine out.1])
  gasPriceCharged tx baseFee :=
    if tx.txType = 0 ∨ tx.txType = 1 then tx.gasPrice
    else match tx.gasPriorityFee with
      | none => tx.gasPrice
      | some priority => umin tx.gasPrice (saturatingAdd baseFee priority)

variable (hashSlow : Bytes → B256)

theorem revm_cacheLaws : (revm hashSlow).CacheLaws :=
  CacheDb.cacheLaws rfl rfl rfl rfl rfl

theorem reads_basic (db : InMemoryDB) (params : KanariEvmParams) (tx : TxEnv) :
    ∀ r ∈ reads db params tx, ∃ a, r = .basic a := by
  intro r hr
  unfold reads at hr
  cases hk : tx.kind <;> simp only [hk, List.mem_cons, List.not_mem_nil, or_false] at hr
  · rcases hr with rfl | rfl | rfl <;> exact ⟨_, rfl⟩
  · exact ⟨_, hr⟩

theorem revm_rejectsQuietly : (revm hashSlow).RejectsQuietly :=
  fun db params tx _ _ => reads_basic db params tx

theorem revm_deterministic : (revm hashSlow).Deterministic where
  outcome params tx h := by
    simp only [revm, outcome, Accepts, changes, rejection, h _]
  reads _ _ _ := rfl
  inspect params tx h := by
    simp only [revm, outcome, Accepts, changes, rejection, h _]

theorem revm_tracesFaithfully : (revm hashSlow).TracesFaithfully := by
  intro db params tx result state h
  refine ⟨[summaryLine result], ?_⟩
  change (outcome db params tx).map _ = _
  rw [show outcome db params tx = .ok (result, state) from h]
  rfl

theorem revm_chargesEffectivePrice : (revm hashSlow).ChargesEffectivePrice := fun _ _ => rfl

section After

variable (db : InMemoryDB) (params : KanariEvmParams) (tx : TxEnv)

/-- A run that reads accounts only leaves the entries it does not change. -/
theorem after_entry_of_basic {R : Revm} (hR : R.CacheLaws)
    (hbasic : ∀ r ∈ R.reads db params tx, ∃ b, r = .basic b) (state : EvmState) (a : Address) :
    (R.after db params tx state).entry a = match state.lookup a with
    | none => db.entry a
    | some change => (db.entry a).committed R.hashSlow change := by
  have hquiet : ∀ r ∈ R.reads db params tx, r.Quiet db := by
    intro r hr
    obtain ⟨b, rfl⟩ := hbasic r hr
    trivial
  have hread := (Revm.readAll_sameCache_of_quiet hR hquiet).entry a
  have hcommit := hR.commit_entry (R.readAll db (R.reads db params tx)) state a
  rw [hread] at hcommit
  exact hcommit

theorem after_entry (state : EvmState) (a : Address) :
    ((revm hashSlow).after db params tx state).entry a = match state.lookup a with
    | none => db.entry a
    | some change => (db.entry a).committed hashSlow change :=
  after_entry_of_basic db params tx (revm_cacheLaws hashSlow) (reads_basic db params tx) state a

theorem after_contracts (state : EvmState) :
    ((revm hashSlow).after db params tx state).contracts = db.contracts :=
  (Revm.readAll_sameAccounts (revm_cacheLaws hashSlow) (reads db params tx) db).contracts

theorem after_logical_of_touched {state : EvmState} {a : Address} {balance nonce : ℕ}
    (h : state.lookup a = some (touched balance nonce)) :
    (((revm hashSlow).after db params tx state).logical a).balance = BitVec.ofNat 256 balance ∧
      (((revm hashSlow).after db params tx state).logical a).nonce = BitVec.ofNat 64 nonce ∧
      (((revm hashSlow).after db params tx state).logical a).code = [] := by
  have he := after_entry hashSlow db params tx state a
  rw [h] at he
  simp only [logical, he, committed_touched]
  exact ⟨rfl, rfl, by simp [codeOfInfo, touched]⟩

theorem after_external_of_touched {state : EvmState} {a : Address} {balance nonce : ℕ}
    (h : state.lookup a = some (touched balance nonce)) (hpos : 0 < nonce) (hlt : nonce < 2 ^ 64) :
    ((revm hashSlow).after db params tx state).External a := by
  have he := after_entry hashSlow db params tx state a
  rw [h] at he
  refine ⟨(touched balance nonce).info, by rw [he]; exact committed_touched _ _ _ _, ?_,
    .inl ⟨rfl, rfl⟩⟩
  rw [touched, BitVec.toNat_ofNat, Nat.mod_eq_of_lt hlt]
  exact hpos

theorem after_logical_of_untouched {state : EvmState} {a : Address}
    (h : state.lookup a = none) :
    ((revm hashSlow).after db params tx state).logical a = db.logical a := by
  have he := after_entry hashSlow db params tx state a
  rw [h] at he
  ext1 <;> simp only [logical, he, codeOfInfo, after_contracts]

end After

theorem revm_burnsBaseFee : (revm hashSlow).BurnsBaseFee := by
  intro db params tx result state h
  obtain ⟨dest, ha, rfl, rfl⟩ := outcome_ok h
  obtain ⟨-, ⟨hcd, hcb, hdb⟩, -, ⟨hlimit, hfee, hfunds⟩, -, hroom⟩ := ha
  have hpay : gas.toNat * tx.gasPrice.toNat ≤ (db.logical tx.caller).balance.toNat :=
    (Nat.mul_le_mul_right _ hlimit).trans hfunds
  have hsender := (after_logical_of_touched hashSlow db params tx
    (changes_lookup_caller db hcd hcb)).1
  have hpayee := (after_logical_of_touched hashSlow db params tx
    ((changes_lookup db params tx dest params.beneficiary).trans (if_pos rfl))).1
  have htarget := (after_logical_of_touched hashSlow db params tx
    ((changes_lookup db params tx dest dest).trans ((if_neg hdb).trans (if_pos rfl)))).1
  have hsame : ∀ a ∉ ({tx.caller, params.beneficiary} : Finset Address),
      (((revm hashSlow).after db params tx (changes db params tx dest)).logical a).balance =
        (db.logical a).balance := by
    intro a hmem
    simp only [Finset.mem_insert, Finset.mem_singleton, not_or] at hmem
    by_cases had : a = dest
    · subst had
      rw [htarget, BitVec.ofNat_toNat, BitVec.setWidth_eq]
    · rw [after_logical_of_untouched hashSlow db params tx
        (by rw [changes_lookup, if_neg hmem.2, if_neg had, if_neg hmem.1])]
  have hsum := totalBalance_add_sum _ hsame
  rw [Finset.sum_pair hcb, Finset.sum_pair hcb, hsender, hpayee, BitVec.toNat_ofNat,
    BitVec.toNat_ofNat, Nat.mod_eq_of_lt hroom,
    Nat.mod_eq_of_lt (lt_of_le_of_lt (Nat.sub_le _ _) (BitVec.isLt _))] at hsum
  have hmul : gas.toNat * (tx.gasPrice.toNat - params.basefee.toNat) +
      gas.toNat * params.basefee.toNat = gas.toNat * tx.gasPrice.toNat := by
    rw [← Nat.mul_add, Nat.sub_add_cancel hfee]
  simp only [ExecutionResult.gasUsed]
  omega

theorem revm_spendsGas : (revm hashSlow).SpendsGas := by
  intro db params tx result state h
  obtain ⟨dest, -, rfl, -⟩ := outcome_ok h
  decide

theorem revm_keepsCode : (revm hashSlow).KeepsCode := by
  intro db params tx result state h _ a change hchange _
  obtain ⟨dest, -, -, rfl⟩ := outcome_ok h
  obtain ⟨balance, nonce, rfl⟩ := touched_of_changes hchange
  intro hcode
  exact absurd rfl hcode

theorem revm_countsNonces : (revm hashSlow).CountsNonces where
  checked h := by
    obtain ⟨dest, ha, -, -⟩ := outcome_ok h
    exact ha.2.2.2.2.1.1
  raised {db params tx result state} h := by
    obtain ⟨dest, ⟨-, ⟨hcd, hcb, -⟩, -, -, ⟨hnonce, hmax⟩, -⟩, -, rfl⟩ := outcome_ok h
    have hafter := (after_logical_of_touched hashSlow db params tx
      (changes_lookup_caller db hcd hcb)).2.1
    rw [hafter, hnonce, BitVec.toNat_ofNat, Nat.mod_eq_of_lt hmax]
    exact Nat.lt_succ_self _
  kept {db params tx result state} a h := by
    obtain ⟨dest, ⟨-, -, -, -, ⟨hnonce, hmax⟩, -⟩, -, rfl⟩ := outcome_ok h
    have htouched : ∀ balance nonce, (changes db params tx dest).lookup a =
        some (touched balance nonce) → nonce < 2 ^ 64 → (db.logical a).nonce.toNat ≤ nonce →
        (db.logical a).nonce.toNat ≤ (((revm hashSlow).after db params tx
          (changes db params tx dest)).logical a).nonce.toNat := by
      intro balance nonce hl hlt hle
      have hafter := (after_logical_of_touched hashSlow db params tx hl).2.1
      rw [hafter, BitVec.toNat_ofNat, Nat.mod_eq_of_lt hlt]
      exact hle
    have hl := changes_lookup db params tx dest a
    split_ifs at hl with hb hd hc
    · subst hb
      exact htouched _ _ hl (BitVec.isLt _) (Nat.le_refl _)
    · subst hd
      exact htouched _ _ hl (BitVec.isLt _) (Nat.le_refl _)
    · subst hc
      exact htouched _ _ hl hmax (by rw [hnonce]; omega)
    · rw [after_logical_of_untouched hashSlow db params tx hl]

theorem revm_nonceLaws : (revm hashSlow).NonceLaws where
  checked := (revm_countsNonces hashSlow).checked
  raised := (revm_countsNonces hashSlow).raised
  sender {db params tx result state} h := by
    obtain ⟨dest, ⟨-, ⟨hcd, hcb, -⟩, -, -, ⟨-, hmax⟩, -⟩, -, rfl⟩ := outcome_ok h
    exact after_external_of_touched hashSlow db params tx (changes_lookup_caller db hcd hcb)
      (Nat.succ_pos _) hmax
  kept {db params tx result state} a h hext := by
    refine ⟨?_, (revm_countsNonces hashSlow).kept a h⟩
    obtain ⟨dest, ⟨-, -, -, -, ⟨-, hmax⟩, -⟩, -, rfl⟩ := outcome_ok h
    have hpos : 0 < (db.logical a).nonce.toNat := by
      obtain ⟨info, hinfo, hpos, -⟩ := hext
      simpa [logical, hinfo] using hpos
    have hl := changes_lookup db params tx dest a
    split_ifs at hl with hb hd hc
    · subst hb
      exact after_external_of_touched hashSlow db params tx hl hpos (BitVec.isLt _)
    · subst hd
      exact after_external_of_touched hashSlow db params tx hl hpos (BitVec.isLt _)
    · subst hc
      exact after_external_of_touched hashSlow db params tx hl (Nat.succ_pos _) hmax
    · have he := after_entry hashSlow db params tx (changes db params tx dest) a
      rw [hl] at he
      unfold InMemoryDB.External
      rw [he]
      exact hext

end KanariEvm.Transfer
