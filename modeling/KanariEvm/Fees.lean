import KanariEvm.Runs

namespace KanariEvm

open InMemoryDB

variable {P : Platform}

/-- An executed transaction leaves the reads of its run and the committed state. -/
theorem transactRaw_ok {db db' : InMemoryDB} {spec : KanariChainSpec} {prepared : PreparedTx}
    {number timestamp baseFee : U64} {result : ExecutionResult}
    (h : transactRaw P db spec prepared number timestamp baseFee = (db', .ok result)) :
    ∃ state, P.outcome db (KanariNode.evmParams spec number timestamp baseFee) prepared.inner =
        .ok (result, state) ∧
      db' = P.after db (KanariNode.evmParams spec number timestamp baseFee) prepared.inner
        state := by
  simp only [transactRaw, Revm.transact] at h
  cases ho : P.outcome db (KanariNode.evmParams spec number timestamp baseFee)
      prepared.inner with
  | error e => simp [ho] at h
  | ok out =>
    obtain ⟨r, state⟩ := out
    simp only [ho, Prod.mk.injEq, Except.ok.injEq] at h
    obtain ⟨hdb, rfl⟩ := h
    exact ⟨state, rfl, hdb.symm⟩

section Credit

variable (hR : P.toRevm.CacheLaws) (db : InMemoryDB) (amount : U256)

include hR

theorem creditBeneficiary_entry (a : Address) :
    (creditBeneficiary P db amount).entry a =
      if a = blockBeneficiary then
        (db.entry blockBeneficiary).withInfo (AccountInfo.settle P.hashSlow
          { (db.entry blockBeneficiary).visibleInfo.getD noAccount with
            balance := saturatingAdd
              ((db.entry blockBeneficiary).visibleInfo.getD noAccount).balance amount })
      else db.entry a := by
  simp only [creditBeneficiary, hR.insertAccountInfo_entry, hR.basic_entry, hR.basic_answer]

theorem creditBeneficiary_nonce (a : Address) :
    ((creditBeneficiary P db amount).logical a).nonce = (db.logical a).nonce := by
  simp only [logical, creditBeneficiary_entry hR]
  split_ifs with ha
  · subst ha
    rw [DbAccount.withInfo_visibleInfo]
    cases (db.entry blockBeneficiary).visibleInfo <;> rfl
  · rfl

theorem creditBeneficiary_balance_of_ne {a : Address} (ha : a ≠ blockBeneficiary) :
    ((creditBeneficiary P db amount).logical a).balance = (db.logical a).balance := by
  simp only [logical, creditBeneficiary_entry hR, if_neg ha]

theorem creditBeneficiary_balance :
    ((creditBeneficiary P db amount).logical blockBeneficiary).balance =
      saturatingAdd (db.logical blockBeneficiary).balance amount := by
  simp only [logical, creditBeneficiary_entry hR, if_true, DbAccount.withInfo_visibleInfo]
  cases (db.entry blockBeneficiary).visibleInfo <;> rfl

theorem creditBeneficiary_total
    (h : (db.logical blockBeneficiary).balance.toNat + amount.toNat < 2 ^ 256) :
    (creditBeneficiary P db amount).totalBalance = db.totalBalance + amount.toNat := by
  have hsame : ∀ a ∉ ({blockBeneficiary} : Finset Address),
      ((creditBeneficiary P db amount).logical a).balance = (db.logical a).balance := fun a ha =>
    creditBeneficiary_balance_of_ne hR db amount (Finset.notMem_singleton.mp ha)
  have hsum := totalBalance_add_sum _ hsame
  rw [Finset.sum_singleton, Finset.sum_singleton, creditBeneficiary_balance hR,
    saturatingAdd_toNat_of_lt h] at hsum
  omega

theorem settleFees_nonce (result : ExecutionResult) (baseFee : U64) (a : Address) :
    ((KanariNode.settleFees P db result baseFee).logical a).nonce = (db.logical a).nonce := by
  simp only [KanariNode.settleFees]
  split_ifs
  · rfl
  · exact creditBeneficiary_nonce hR db _ a

theorem creditBeneficiary_storage (a : Address) :
    ((creditBeneficiary P db amount).logical a).storage = (db.logical a).storage := by
  simp only [logical, creditBeneficiary_entry hR]
  split_ifs with ha
  · rw [ha]
    rfl
  · rfl

theorem settleFees_storage (result : ExecutionResult) (baseFee : U64) (a : Address) :
    ((KanariNode.settleFees P db result baseFee).logical a).storage = (db.logical a).storage := by
  simp only [KanariNode.settleFees]
  split_ifs
  · rfl
  · exact creditBeneficiary_storage hR db _ a

theorem settleFees_entry_of_ne (result : ExecutionResult) (baseFee : U64) {a : Address}
    (ha : a ≠ blockBeneficiary) :
    (KanariNode.settleFees P db result baseFee).entry a = db.entry a := by
  simp only [KanariNode.settleFees]
  split_ifs
  · rfl
  · rw [creditBeneficiary_entry hR, if_neg ha]

/-- Settling puts back into circulation what the execution burned. -/
theorem settleFees_total (result : ExecutionResult) (baseFee : U64)
    (h : db.totalBalance + result.gasUsed.toNat * baseFee.toNat < 2 ^ 256) :
    (KanariNode.settleFees P db result baseFee).totalBalance =
      db.totalBalance + result.gasUsed.toNat * baseFee.toNat := by
  have hshare := Gas.baseFeeShare_toNat result.gasUsed baseFee
  simp only [KanariNode.settleFees]
  split_ifs with hz
  · rw [hz] at hshare
    rw [← hshare]
    rfl
  · have hle := balance_le_totalBalance db blockBeneficiary
    rw [creditBeneficiary_total hR _ _ (by omega), hshare]

end Credit

end KanariEvm
