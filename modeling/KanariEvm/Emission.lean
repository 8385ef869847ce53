import KanariEvm.Reference

namespace KanariEvm.Emission

open InMemoryDB

/-! The reference platform with one more kind of message: the first transaction of the development
account creates a contract whose init code emits a log and leaves no code. -/

/-- `PUSH1 aa PUSH1 00 PUSH1 00 LOG1 STOP`: one topic, no data. -/
def initCode : Bytes := [0x60, 0xaa, 0x60, 0x00, 0x60, 0x00, 0xa1, 0x00]

/-- 53000 for a creation, 92 for the data, 2 for a word of init code, 759 for running it. -/
def gas : U64 := 53853

def contract : Address := 0x5fbdb2315678afecb367f032d93f642f64180aa3

def Accepts (db : InMemoryDB) (params : KanariEvmParams) (tx : TxEnv) : Prop :=
  (tx.txType = 0 ∧ tx.kind = .create ∧ tx.value = 0 ∧ tx.data = initCode ∧ tx.accessList = [] ∧
    tx.authorizationList = [] ∧ tx.chainId = some params.chainId) ∧
  (tx.caller = Reference.funded ∧ tx.nonce = 0 ∧ (db.logical tx.caller).nonce = 0) ∧
  (tx.caller ≠ params.beneficiary ∧ contract ≠ params.beneficiary) ∧
  ((db.logical tx.caller).code = [] ∧ (db.entry contract).visibleInfo = none) ∧
  (gas.toNat ≤ tx.gasLimit.toNat ∧ params.basefee.toNat ≤ tx.gasPrice.toNat ∧
    tx.gasLimit.toNat * tx.gasPrice.toNat ≤ (db.logical tx.caller).balance.toNat) ∧
  (db.logical params.beneficiary).balance.toNat +
    gas.toNat * (tx.gasPrice.toNat - params.basefee.toNat) < 2 ^ 256

instance (db : InMemoryDB) (params : KanariEvmParams) (tx : TxEnv) :
    Decidable (Accepts db params tx) := by unfold Accepts; infer_instance

def changes (db : InMemoryDB) (params : KanariEvmParams) (tx : TxEnv) : EvmState :=
  let sender := db.logical tx.caller
  let payee := db.logical params.beneficiary
  (((∅ : EvmState).insert tx.caller
    (Transfer.touched (sender.balance.toNat - gas.toNat * tx.gasPrice.toNat) 1)).insert contract
    { Transfer.touched 0 1 with created := true }).insert params.beneficiary
    (Transfer.touched (payee.balance.toNat +
      gas.toNat * (tx.gasPrice.toNat - params.basefee.toNat)) payee.nonce.toNat)

def outcome (db : InMemoryDB) (params : KanariEvmParams) (tx : TxEnv) :
    Except String (ExecutionResult × EvmState) :=
  if Accepts db params tx then
    .ok (.success gas [⟨contract, [0xaa], []⟩] (.create [] (some contract)), changes db params tx)
  else Transfer.outcome db params tx

def revm (hashSlow : Bytes → B256) : Revm :=
  { Transfer.revm hashSlow with
    outcome := outcome
    reads := fun db params tx =>
      match tx.kind with
      | .create => [.basic tx.caller, .basic contract, .basic params.beneficiary]
      | .call _ => Transfer.reads db params tx }

/-- The creation as it goes over the wire. -/
def create0 : Bytes :=
  toBeBytes 27 0xf85a80843b9aca00830186a080808860aa60006000a100829544a0 ++
  toBeBytes 32 0x99867ac7482db864cca635f9fe7ec94b618e6c4aee28a5a275cb20729283329d ++
  toBeBytes 33 0xa0223670a31a3e468d48a4d2c338e95ddb5a673805ccbf19f81052f95c88a60fa4

def envelope : TxEnvelope :=
  .legacy {
    chainId := some 19088
    nonce := 0
    gasPrice := 1000000000
    gasLimit := 100000
    toKind := .create
    value := 0
    input := initCode } {
    r := 0x99867ac7482db864cca635f9fe7ec94b618e6c4aee28a5a275cb20729283329d
    s := 0x223670a31a3e468d48a4d2c338e95ddb5a673805ccbf19f81052f95c88a60fa4
    oddYParity := true }

def platform : Platform :=
  Reference.platformWith revm [(create0, envelope)]
    [(create0, 0x783eb6e8755bffb57464c4ae7efdc7eebaeb968f1e19759b86dcd36325946400)]

theorem cacheLaws : platform.toRevm.CacheLaws := CacheDb.cacheLaws rfl rfl rfl rfl rfl

theorem outcome_ok {db : InMemoryDB} {params : KanariEvmParams} {tx : TxEnv}
    {result : ExecutionResult} {state : EvmState} (h : outcome db params tx = .ok (result, state)) :
    Accepts db params tx ∧ state = changes db params tx ∨
      Transfer.outcome db params tx = .ok (result, state) := by
  unfold outcome at h
  split_ifs at h with haccepts
  · simp only [Except.ok.injEq, Prod.mk.injEq] at h
    exact .inl ⟨haccepts, h.2.symm⟩
  · exact .inr h

section Nonces

variable (hashSlow : Bytes → B256) {db : InMemoryDB} {params : KanariEvmParams} {tx : TxEnv}

theorem after_transfer {result : ExecutionResult} {state : EvmState}
    (h : Transfer.outcome db params tx = .ok (result, state)) :
    (revm hashSlow).after db params tx state =
      (Transfer.revm hashSlow).after db params tx state := by
  obtain ⟨dest, hkind⟩ : ∃ dest, tx.kind = .call dest := by
    unfold Transfer.outcome at h
    cases hkind : tx.kind with
    | create => simp [hkind] at h
    | call dest => exact ⟨dest, rfl⟩
  simp only [Revm.after, Revm.readAll, revm, hkind]
  rfl

theorem committed_nonce (acc : DbAccount) {change : AccountChange} (htouched : change.touched)
    (hstays : change.selfdestructed = false) :
    ((acc.committed hashSlow change).visibleInfo.map (·.nonce)) = some change.info.nonce := by
  simp only [DbAccount.committed, htouched, hstays, Bool.not_true, Bool.false_eq_true, if_false,
    DbAccount.visibleInfo]
  split_ifs <;> simp_all [AccountInfo.settle]

theorem changes_lookup (a : Address) : (changes db params tx).lookup a =
    if a = params.beneficiary then some (Transfer.touched
        ((db.logical params.beneficiary).balance.toNat +
          gas.toNat * (tx.gasPrice.toNat - params.basefee.toNat))
        (db.logical params.beneficiary).nonce.toNat)
    else if a = contract then some { Transfer.touched 0 1 with created := true }
    else if a = tx.caller then some (Transfer.touched
      ((db.logical tx.caller).balance.toNat - gas.toNat * tx.gasPrice.toNat) 1)
    else none := by
  simp only [changes, Map.lookup_insert_ite, Finmap.lookup_empty]

/-- The nonce of an account that the creation changes, and of one that it leaves. -/
theorem after_nonce (haccepts : Accepts db params tx) (a : Address) :
    (((revm hashSlow).after db params tx (changes db params tx)).logical a).nonce =
      match (changes db params tx).lookup a with
      | none => (db.logical a).nonce
      | some change => change.info.nonce := by
  have hentry := Transfer.after_entry_of_basic db params tx
    (CacheDb.cacheLaws rfl rfl rfl rfl rfl : (revm hashSlow).CacheLaws) (fun r hr => by
      simp only [revm, haccepts.1.2.1, List.mem_cons, List.not_mem_nil, or_false] at hr
      rcases hr with rfl | rfl | rfl <;> exact ⟨_, rfl⟩) (changes db params tx) a
  cases hlookup : (changes db params tx).lookup a with
  | none =>
    rw [hlookup] at hentry
    simp only [logical, hentry]
  | some change =>
    obtain ⟨htouched, hstays⟩ : change.touched = true ∧ change.selfdestructed = false := by
      rw [changes_lookup] at hlookup
      split_ifs at hlookup <;> cases hlookup <;> exact ⟨rfl, rfl⟩
    rw [hlookup] at hentry
    simp only [logical, hentry]
    rw [committed_nonce _ _ htouched hstays]
    rfl

theorem revm_countsNonces : (revm hashSlow).CountsNonces where
  checked h := by
    obtain ⟨haccepts, -⟩ | htransfer := outcome_ok h
    · rw [haccepts.2.1.2.2, haccepts.2.1.2.1]
    · exact (Transfer.revm_countsNonces hashSlow).checked htransfer
  raised {db params tx result state} h := by
    obtain ⟨haccepts, rfl⟩ | htransfer := outcome_ok h
    · obtain ⟨-, ⟨hcaller, -, hzero⟩, ⟨hpayee, -⟩, -⟩ := id haccepts
      have hcontract : tx.caller ≠ contract := by
        rw [hcaller]
        decide
      rw [after_nonce hashSlow haccepts, changes_lookup, if_neg hpayee, if_neg hcontract,
        if_pos rfl, hzero]
      exact Nat.zero_lt_one
    · rw [after_transfer hashSlow htransfer]
      exact (Transfer.revm_countsNonces hashSlow).raised htransfer
  kept {db params tx result state} a h := by
    obtain ⟨haccepts, rfl⟩ | htransfer := outcome_ok h
    · obtain ⟨-, ⟨-, -, hzero⟩, -, ⟨-, hunused⟩, -⟩ := id haccepts
      rw [after_nonce hashSlow haccepts, changes_lookup]
      split_ifs with hpayee hcontract hcaller
      · rw [hpayee, Transfer.touched, BitVec.ofNat_toNat, BitVec.setWidth_eq]
      · have hnew : (db.logical a).nonce = 0 := by
          rw [hcontract, logical, hunused]
          rfl
        rw [hnew]
        exact Nat.zero_le _
      · rw [hcaller, hzero]
        exact Nat.zero_le _
      · exact Nat.le_refl _
    · rw [after_transfer hashSlow htransfer]
      exact (Transfer.revm_countsNonces hashSlow).kept a htransfer

end Nonces

theorem countsNonces : platform.toRevm.CountsNonces := revm_countsNonces _

end KanariEvm.Emission
