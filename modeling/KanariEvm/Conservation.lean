import KanariEvm.Fees
import KanariEvm.Opening
import KanariEvm.Operations
import KanariEvm.Reference

namespace KanariEvm

open InMemoryDB

variable {P : Platform} (hR : P.toRevm.CacheLaws) (hburn : P.toRevm.BurnsBaseFee)

include hR hburn

/-- Execution burns the base fee and settling credits it back: the sum of balances stands. -/
theorem settled_total {node : KanariNode} {step : SealStep} {number : U64} {db : InMemoryDB}
    {prepared : PreparedTx} {result : ExecutionResult}
    (hex : node.execute P step number = (db, .ok (prepared, result)))
    (hlt : node.db.totalBalance < 2 ^ 256) :
    (KanariNode.settleFees P db result (node.sealFee P)).totalBalance = node.db.totalBalance := by
  obtain ⟨-, htx⟩ := KanariNode.executeRaw_ok_iff.mp hex
  obtain ⟨state, hout, hafter⟩ := transactRaw_ok htx
  have hburned := hburn _ _ _ _ _ hout
  rw [← hafter] at hburned
  change db.totalBalance + result.gasUsed.toNat * (node.sealFee P).toNat = _ at hburned
  rw [settleFees_total hR db result _ (by omega), hburned]

theorem perform_total {node : KanariNode} (hlt : node.db.totalBalance < 2 ^ 256) (op : Op) :
    (node.perform P op).db.totalBalance = node.db.totalBalance := by
  rcases KanariNode.perform_cases hR node op with
    hsame | ⟨step, io, x, tree, -, -, hruns, hp⟩ | ⟨step, x, -, hruns, hp⟩
  · exact hsame.db.sameLogical.totalBalance
  · rw [hp]
    exact settled_total hR hburn hruns.executed hlt
  · rw [hp]
    exact settled_total hR hburn hruns.executed hlt

theorem final_total {node : KanariNode} (hlt : node.db.totalBalance < 2 ^ 256) (ops : List Op) :
    ((nodeMachine P).final node ops).db.totalBalance = node.db.totalBalance := by
  apply (nodeMachine P).final_induction
    (p := fun n => n.db.totalBalance = node.db.totalBalance)
  · intro n op hn
    exact (perform_total hR hburn (hn ▸ hlt) op).trans hn
  · rfl

/-- No minting and no burning: after any run of accepted, refused and failed transactions, and of
reads, the sum of all balances is what genesis put there. -/
theorem supply_conserved (spec : KanariChainSpec)
    (hlt : (spec.applyGenesis P .empty).totalBalance < 2 ^ 256) (ops : List Op) :
    ((nodeMachine P).final (.created P spec) ops).db.totalBalance =
      (spec.applyGenesis P .empty).totalBalance := by
  have hgenesis : (KanariNode.created P spec).db = spec.applyGenesis P .empty := rfl
  rw [← hgenesis] at hlt ⊢
  exact final_total hR hburn hlt ops

omit hR hburn

theorem supply_conserved_transfers :
    ((nodeMachine Reference.platform).final (.created Reference.platform Reference.spec)
      [.attempt (.committed Reference.transfer0 5) .healthy,
        .attempt (.send Reference.transfer0 5) .healthy, .read (.call {} 6),
        .attempt (.committed Reference.transfer1 7) .healthy]).db.totalBalance =
      1000000000000000000 := by
  have htotal : (Reference.spec.applyGenesis Reference.platform .empty).totalBalance =
      1000000000000000000 := by decide +kernel
  rw [← htotal]
  exact supply_conserved Reference.cacheLaws Reference.burnsBaseFee Reference.spec
    (by rw [htotal]; decide) _

end KanariEvm
