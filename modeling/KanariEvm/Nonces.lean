import KanariEvm.Fees
import KanariEvm.Reads

namespace KanariEvm

open InMemoryDB Journaled

/-- The transaction can not execute again: its sender has moved past its nonce. -/
structure InMemoryDB.Spent (db : InMemoryDB) (tx : TxEnv) : Prop where
  external : db.External tx.caller
  passed : tx.nonce.toNat < (db.logical tx.caller).nonce.toNat

theorem InMemoryDB.SameAccounts.spent {db₁ db₂ : InMemoryDB} (h : SameAccounts db₁ db₂)
    {tx : TxEnv} (hs : db₂.Spent tx) : db₁.Spent tx := by
  refine ⟨?_, by rw [h.sameLogical]; exact hs.passed⟩
  unfold External
  rw [h.info]
  exact hs.external

/-- An account without code, or with code under its hash, passes through `insert_contract`. -/
theorem AccountInfo.External.settle {info : AccountInfo} (h : info.External)
    (hashSlow : Bytes → B256) : info.settle hashSlow = info := by
  have hk : keccakEmpty ≠ 0 := by decide
  obtain ⟨balance, nonce, codeHash, code⟩ := info
  obtain ⟨-, ⟨hempty, hcode⟩ | ⟨hne, hzero, -⟩⟩ := h
  · simp only at hempty hcode
    subst hempty
    cases code with
    | none => simp only [AccountInfo.settle, if_neg hk]
    | some code =>
      obtain rfl : code = [] := hcode
      simp only [AccountInfo.settle, ne_eq, not_true_eq_false, false_and, if_false, if_neg hk]
  · simp only at hne hzero
    cases code <;> simp only [AccountInfo.settle, hne, and_false, if_false, if_neg hzero]

section Laws

variable {P : Platform} (hR : P.toRevm.CacheLaws) (hn : P.toRevm.NonceLaws)

include hR

theorem creditBeneficiary_external {db : InMemoryDB} {a : Address} (h : db.External a)
    (amount : U256) : (creditBeneficiary P db amount).External a := by
  obtain ⟨info, hinfo, hext⟩ := h
  have hentry := creditBeneficiary_entry hR db amount a
  by_cases ha : a = blockBeneficiary
  -- the credited account is written back, through `insert_contract`
  · subst ha
    have hcredited : ({ info with balance := saturatingAdd info.balance amount } :
        AccountInfo).External := hext
    rw [if_pos rfl, hinfo, Option.getD_some, hcredited.settle] at hentry
    exact ⟨_, by rw [hentry, DbAccount.withInfo_visibleInfo], hcredited⟩
  · rw [if_neg ha] at hentry
    exact ⟨info, by rw [hentry, hinfo], hext⟩

theorem settleFees_spent {db : InMemoryDB} {tx : TxEnv} (h : db.Spent tx)
    (result : ExecutionResult) (baseFee : U64) :
    (KanariNode.settleFees P db result baseFee).Spent tx := by
  refine ⟨?_, by rw [settleFees_nonce hR]; exact h.passed⟩
  simp only [KanariNode.settleFees]
  split_ifs
  · exact h.external
  · exact creditBeneficiary_external hR h.external _

omit hR

include hn

theorem spent_of_transactRaw {db db' : InMemoryDB} {spec : KanariChainSpec} {prepared : PreparedTx}
    {number timestamp baseFee : U64} {result : ExecutionResult}
    (h : transactRaw P db spec prepared number timestamp baseFee = (db', .ok result)) :
    db'.Spent prepared.inner := by
  obtain ⟨state, hout, rfl⟩ := transactRaw_ok h
  exact ⟨hn.sender hout, by rw [← hn.checked hout]; exact hn.raised hout⟩

theorem InMemoryDB.Spent.transactRaw {db db' : InMemoryDB} {tx : TxEnv} (hs : db.Spent tx)
    {spec : KanariChainSpec} {prepared : PreparedTx} {number timestamp baseFee : U64}
    {result : ExecutionResult}
    (h : transactRaw P db spec prepared number timestamp baseFee = (db', .ok result)) :
    db'.Spent tx := by
  obtain ⟨state, hout, rfl⟩ := transactRaw_ok h
  obtain ⟨hext, hle⟩ := hn.kept tx.caller hout hs.external
  exact ⟨hext, Nat.lt_of_lt_of_le hs.passed hle⟩

theorem InMemoryDB.Spent.not_executed {db db' : InMemoryDB} {prepared : PreparedTx}
    (hs : db.Spent prepared.inner) {spec : KanariChainSpec} {number timestamp baseFee : U64}
    {result : ExecutionResult} :
    KanariEvm.transactRaw P db spec prepared number timestamp baseFee ≠ (db', .ok result) := by
  intro h
  obtain ⟨state, hout, -⟩ := transactRaw_ok h
  have hlt := hs.passed
  rw [hn.checked hout] at hlt
  exact Nat.lt_irrefl _ hlt

end Laws

end KanariEvm
