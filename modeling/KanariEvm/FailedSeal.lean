import KanariEvm.Fees
import KanariEvm.Opening
import KanariEvm.Reference

namespace KanariEvm

open InMemoryDB

namespace KanariNode

/-- Nothing happened: the same account state, state root, blocks, receipts and chain store. -/
structure Unchanged (P : Platform) (before after : KanariNode) : Prop where
  logical : SameLogical after.db before.db
  stateRoot : after.stateRoot P = before.stateRoot P
  blocks : after.blocks = before.blocks
  receipts : after.receipts = before.receipts
  store : after.store = before.store

/-- The step gets as far as executing its payload. -/
def Executes (P : Platform) (node : KanariNode) (step : SealStep) : Prop :=
  ∃ number db out, node.sealNumber step = some number ∧
    node.execute P step number = (db, .ok out)

variable {P : Platform} (hR : P.toRevm.CacheLaws)

include hR

/-- Once a payload has executed, the sender's nonce has moved, whatever happens next. -/
theorem persist_nonce (hn : P.toRevm.NonceLaws) {node : KanariNode} {step : SealStep}
    {number : U64} {db : InMemoryDB} {prepared : PreparedTx} {result : ExecutionResult}
    (hex : node.execute P step number = (db, .ok (prepared, result))) (io : SealIo) :
    (node.db.logical prepared.inner.caller).nonce.toNat <
      ((node.persist P step.raw number step.timestamp (node.sealFee P) db prepared result
        io).1.db.logical prepared.inner.caller).nonce.toNat := by
  obtain ⟨-, htx⟩ := executeRaw_ok_iff.mp hex
  obtain ⟨state, hout, hafter⟩ := transactRaw_ok htx
  have hraised := hn.raised hout
  have hdb : (node.persist P step.raw number step.timestamp (node.sealFee P) db prepared result
      io).1.db = settleFees P db result (node.sealFee P) := by
    obtain ⟨rebuild, save⟩ := io
    cases rebuild <;> cases save <;> rfl
  rw [hdb, settleFees_nonce hR, hafter]
  exact hraised

/-- A failed seal attempt changes nothing exactly when its payload was not executed; a backend
failure after the execution leaves the executed state behind. -/
theorem failed_seal_changes_nothing_iff (hn : P.toRevm.NonceLaws) (node : KanariNode)
    (step : SealStep) (io : SealIo) {e : NodeError}
    (herr : (node.sealStep P io step).2 = .error e) :
    Unchanged P node (node.sealStep P io step).1 ↔ ¬node.Executes P step := by
  rcases node.sealStep_cases P step io with
    ⟨sender, hash, hs⟩ | ⟨db, e', hs, hwhy⟩ | ⟨number, db, prepared, result, hnum, hex, hs⟩
  · rw [hs] at herr
    simp at herr
  · have hquiet : SameAccounts db node.db := by
      rcases hwhy with ⟨-, rfl⟩ | ⟨number, -, hex⟩
      · exact SameAccounts.refl _
      · exact executeRaw_error_sameAccounts hR hex
    rw [hs]
    refine iff_of_true ⟨hquiet.sameLogical, rfl, rfl, rfl, rfl⟩ ?_
    rintro ⟨number', db', out, hnum', hex'⟩
    rcases hwhy with ⟨hnone, -⟩ | ⟨number, hnum, hex⟩
    · rw [hnone] at hnum'
      exact absurd hnum' (by simp)
    · obtain rfl : number = number' := Option.some.inj (hnum.symm.trans hnum')
      rw [hex] at hex'
      simp at hex'
  · -- executed, then lost to the backend: the nonce of the sender has moved
    refine iff_of_false ?_ fun h => h ⟨number, db, _, hnum, hex⟩
    intro hsame
    have hraised := persist_nonce hR hn hex io
    rw [← hs, hsame.logical] at hraised
    exact lt_irrefl _ hraised

omit hR

theorem failed_seal_changes_nothing_iff_skipped_nonce :
    Unchanged Reference.platform (created Reference.platform Reference.spec)
      ((created Reference.platform Reference.spec).sealStep Reference.platform .healthy
        (.committed Reference.transfer1 5)).1 := by
  have herr : ((created Reference.platform Reference.spec).sealStep Reference.platform .healthy
      (.committed Reference.transfer1 5)).2 = .error (.execution "nonce too high") := by
    decide +kernel
  apply (failed_seal_changes_nothing_iff Reference.cacheLaws Reference.nonceLaws _ _ _ herr).mpr
  rintro ⟨number, db, out, hnum, hex⟩
  have hone : (created Reference.platform Reference.spec).sealNumber
      (.committed Reference.transfer1 5) = some 1 := by decide +kernel
  obtain rfl : number = 1 := Option.some.inj (hnum.symm.trans hone)
  have hfail : ((created Reference.platform Reference.spec).execute Reference.platform
      (.committed Reference.transfer1 5) 1).2.isOk = false := by decide +kernel
  rw [hex] at hfail
  simp [Except.isOk, Except.toBool] at hfail

/-- A transfer whose block cannot be saved fails, but its sender's nonce has moved. -/
theorem failed_save_keeps_executed_state :
    ((created Reference.platform Reference.spec).sealStep Reference.platform
        ⟨none, some "disk full"⟩ (.committed Reference.transfer0 5)).2.isOk = false ∧
      ¬Unchanged Reference.platform (created Reference.platform Reference.spec)
        ((created Reference.platform Reference.spec).sealStep Reference.platform
          ⟨none, some "disk full"⟩ (.committed Reference.transfer0 5)).1 := by
  refine ⟨by decide +kernel, fun h => ?_⟩
  have hnonce := congrArg LogicalAccount.nonce (h.logical Reference.funded)
  revert hnonce
  decide +kernel

end KanariNode

end KanariEvm
