import KanariEvm.Reference

namespace KanariEvm.Payment

open InMemoryDB

/-! The reference platform with messages that carry value: to an account without code, or to one
whose program refuses every message. -/

/-- `PUSH1 00 PUSH1 00 REVERT`. -/
def refusal : Bytes := [0x60, 0x00, 0x60, 0x00, 0xfd]

def intrinsicGas : U64 := 21000

def refusalGas : U64 := 21006

/-- The checks of revm, for a message of the fragment. -/
def Accepts (db : InMemoryDB) (params : KanariEvmParams) (tx : TxEnv) (dest : Address) : Prop :=
  (tx.txType = 0 ∧ tx.data = [] ∧ tx.accessList = [] ∧ tx.authorizationList = [] ∧
    tx.chainId = some params.chainId) ∧
  (tx.caller ≠ dest ∧ tx.caller ≠ params.beneficiary ∧ dest ≠ params.beneficiary) ∧
  ((db.logical tx.caller).code = [] ∧ (db.logical params.beneficiary).code = [] ∧
    ((db.logical dest).code = [] ∨ (db.logical dest).code = refusal)) ∧
  (intrinsicGas.toNat ≤ tx.gasLimit.toNat ∧ params.basefee.toNat ≤ tx.gasPrice.toNat ∧
    tx.gasLimit.toNat * tx.gasPrice.toNat + tx.value.toNat ≤
      (db.logical tx.caller).balance.toNat) ∧
  ((db.logical tx.caller).nonce = tx.nonce ∧ tx.nonce.toNat + 1 < 2 ^ 64) ∧
  ((db.logical params.beneficiary).balance.toNat +
      tx.gasLimit.toNat * (tx.gasPrice.toNat - params.basefee.toNat) < 2 ^ 256 ∧
    (db.logical dest).balance.toNat + tx.value.toNat < 2 ^ 256)

instance (db : InMemoryDB) (params : KanariEvmParams) (tx : TxEnv) (dest : Address) :
    Decidable (Accepts db params tx dest) := by unfold Accepts; infer_instance

/-- An account without code takes the message; a refusing one reverts it, or runs out of gas on the
way there. -/
def result (db : InMemoryDB) (tx : TxEnv) (dest : Address) : ExecutionResult :=
  if (db.logical dest).code = [] then .success intrinsicGas [] (.call [])
  else if refusalGas.toNat ≤ tx.gasLimit.toNat then .revert refusalGas []
  else .halt tx.gasLimit

def changes (db : InMemoryDB) (params : KanariEvmParams) (tx : TxEnv) (dest : Address) :
    EvmState :=
  let sender := db.logical tx.caller
  let target := db.logical dest
  let payee := db.logical params.beneficiary
  let gas := (result db tx dest).gasUsed.toNat
  let paid := fun moved => ((∅ : EvmState).insert tx.caller (Transfer.touched
    (sender.balance.toNat - gas * tx.gasPrice.toNat - moved) (tx.nonce.toNat + 1))).insert
    params.beneficiary (Transfer.touched (payee.balance.toNat +
      gas * (tx.gasPrice.toNat - params.basefee.toNat)) payee.nonce.toNat)
  if target.code = [] then
    (paid tx.value.toNat).insert dest
      (Transfer.touched (target.balance.toNat + tx.value.toNat) target.nonce.toNat)
  else paid 0

def outcome (db : InMemoryDB) (params : KanariEvmParams) (tx : TxEnv) :
    Except String (ExecutionResult × EvmState) :=
  match tx.kind with
  | .create => .error "rejected"
  | .call dest =>
    if Accepts db params tx dest then .ok (result db tx dest, changes db params tx dest)
    else .error (Transfer.rejection db tx)

def revm (hashSlow : Bytes → B256) : Revm :=
  { Transfer.revm hashSlow with
    outcome := outcome
    inspect := fun db params tx => (outcome db params tx).map fun out =>
      (out.1, .ok [Transfer.summaryLine out.1]) }

theorem outcome_ok {db : InMemoryDB} {params : KanariEvmParams} {tx : TxEnv}
    {ran : ExecutionResult} {state : EvmState} (h : outcome db params tx = .ok (ran, state)) :
    ∃ dest, tx.kind = .call dest ∧ Accepts db params tx dest ∧ ran = result db tx dest ∧
      state = changes db params tx dest := by
  unfold outcome at h
  cases hk : tx.kind with
  | create => simp [hk] at h
  | call dest =>
    simp only [hk] at h
    split_ifs at h with ha
    simp only [Except.ok.injEq, Prod.mk.injEq] at h
    exact ⟨dest, rfl, ha, h.1.symm, h.2.symm⟩

theorem revm_cacheLaws (hashSlow : Bytes → B256) : (revm hashSlow).CacheLaws :=
  CacheDb.cacheLaws rfl rfl rfl rfl rfl

theorem revm_deterministic (hashSlow : Bytes → B256) : (revm hashSlow).Deterministic where
  outcome params tx h := by
    simp only [revm, outcome, Accepts, result, changes, Transfer.rejection, h _]
  reads _ _ _ := rfl
  inspect params tx h := by
    simp only [revm, outcome, Accepts, result, changes, Transfer.rejection, h _]

def vault : Address := 0xc0de

def platform : Platform := Reference.platformWith revm [] []

end KanariEvm.Payment
