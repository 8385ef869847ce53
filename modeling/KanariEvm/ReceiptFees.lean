import KanariEvm.History
import KanariEvm.Reference
import KanariEvm.Views

namespace KanariEvm

open Journaled

/-- Base fee and tip reach the cap of the payload, if it is an EIP-1559 transaction. -/
def TipReachesCap (P : Platform) (raw : Bytes) (baseFee : U64) : Prop :=
  match P.decode2718Exact raw with
  | .ok (.eip1559 tx _) =>
    tx.maxFeePerGas.toNat ≤ baseFee.toNat + tx.maxPriorityFeePerGas.toNat
  | _ => True

instance (P : Platform) (raw : Bytes) (baseFee : U64) :
    Decidable (TipReachesCap P raw baseFee) := by
  unfold TipReachesCap; split <;> infer_instance

theorem effectiveGasPrice_toNat (cap baseFee tip : U128) :
    (Gas.effectiveGasPrice cap baseFee tip).toNat =
      min cap.toNat (baseFee.toNat + tip.toNat) := by
  have hcap := cap.isLt
  rw [Gas.effectiveGasPrice, umin_toNat, saturatingAdd_toNat]
  omega

/-- The two decoders quote the same price unless a capped EIP-1559 payload pays its whole cap. -/
theorem viewOf_price_iff {P : Platform} (hprice : P.toRevm.ChargesEffectivePrice)
    {sender : Address} {envelope : TxEnvelope} {chainId : U64} {inner : TxEnv}
    (h : PreparedTx.txEnvOf sender envelope = .ok (chainId, inner)) (baseFee : U128) :
    ∃ view, viewOf baseFee envelope = some view ∧
      (view.effectiveGasPrice.toNat = (P.gasPriceCharged inner baseFee).toNat ↔
        ∀ tx sig, envelope = .eip1559 tx sig →
          tx.maxFeePerGas.toNat ≤ baseFee.toNat + tx.maxPriorityFeePerGas.toNat) := by
  have hw : 128 ≤ 256 := by decide
  cases envelope with
  | legacy tx sig =>
    cases hid : tx.chainId with
    | none => simp [PreparedTx.txEnvOf, hid] at h
    | some id =>
      simp only [PreparedTx.txEnvOf, hid, Except.ok.injEq, Prod.mk.injEq] at h
      obtain ⟨-, rfl⟩ := h
      simp only [viewOf, hid, Option.bind_eq_bind, Option.bind_some]
      exact ⟨_, rfl, by simp [hprice _ _, BitVec.toNat_setWidth_of_le hw]⟩
  | eip2930 tx sig =>
    simp only [PreparedTx.txEnvOf, Except.ok.injEq, Prod.mk.injEq] at h
    obtain ⟨-, rfl⟩ := h
    exact ⟨_, rfl, by simp [hprice _ _, BitVec.toNat_setWidth_of_le hw]⟩
  | eip1559 tx sig =>
    simp only [PreparedTx.txEnvOf, Except.ok.injEq, Prod.mk.injEq] at h
    obtain ⟨-, rfl⟩ := h
    refine ⟨_, rfl, ?_⟩
    -- charged as a legacy transaction, shown as what it is
    simp only [BitVec.toNat_setWidth_of_le hw, effectiveGasPrice_toNat, hprice _ _, true_or,
      if_true]
    constructor
    · rintro hmin tx' sig' heq
      cases heq
      omega
    · intro hcap
      have := hcap tx sig rfl
      omega
  | eip7702 tx sig =>
    simp only [PreparedTx.txEnvOf, Except.ok.injEq, Prod.mk.injEq] at h
    obtain ⟨-, rfl⟩ := h
    refine ⟨_, rfl, ?_⟩
    simp [hprice _ _, BitVec.toNat_setWidth_of_le hw, Gas.effectiveGasPrice]
  | eip4844 sig => simp [PreparedTx.txEnvOf] at h

namespace KanariNode

/-- What revm takes from the sender of an executed payload for its gas. -/
def feeDebited (P : Platform) (node : KanariNode) (x : Execution) : ℕ :=
  x.result.gasUsed.toNat *
    (P.gasPriceCharged x.prepared.inner ((node.sealFee P).setWidth 128)).toNat

/-- Receipt and transaction view are there, quote one price, and it is what was paid per gas. -/
def ReportsFee (P : Platform) (node : KanariNode) (hash : B256) (fee : ℕ) : Prop :=
  ∃ (receipt tx : Json) (gas : U64) (price : U256),
    node.receiptView P hash = some receipt ∧ node.txView P hash = some tx ∧
    receipt.get "gasUsed" = some (.quantity gas) ∧
    receipt.get "effectiveGasPrice" = some (.quantity price) ∧
    tx.get "gasPrice" = some (.quantity price) ∧ gas.toNat * price.toNat = fee

variable {P : Platform} {node : KanariNode}

section Fields

variable {hash : B256} {receipt : StoredReceipt} {sender : Address} {raw : Bytes} {view : TxView}
  (hr : node.receipts.lookup hash = some receipt)
  (ht : node.txRecord P hash = some (sender, raw))
  (hv : decodeTxView P raw (node.receiptBaseFee receipt) = some view)

include hr ht hv

theorem receiptView_price : ∃ json, node.receiptView P hash = some json ∧
    json.get "gasUsed" = some (.quantity receipt.gasUsed) ∧
    json.get "effectiveGasPrice" = some (.quantity view.effectiveGasPrice) := by
  simp only [receiptView, hr, ht, hv, Option.bind_eq_bind, Option.bind_some, Option.map_some,
    Option.getD_some]
  exact ⟨_, rfl, rfl, rfl⟩

theorem txView_price : ∃ json, node.txView P hash = some json ∧
    json.get "gasPrice" = some (.quantity view.effectiveGasPrice) := by
  simp only [txView, hr, ht, hv, Option.bind_eq_bind, Option.bind_some]
  exact ⟨_, rfl, rfl⟩

theorem reportsFee_iff (fee : ℕ) :
    node.ReportsFee P hash fee ↔
      receipt.gasUsed.toNat * view.effectiveGasPrice.toNat = fee := by
  obtain ⟨json, hjson, hgas, hprice⟩ := receiptView_price hr ht hv
  obtain ⟨txJson, htx, htxPrice⟩ := txView_price hr ht hv
  constructor
  · rintro ⟨json', -, gas, price, hjson', -, hgas', hprice', -, rfl⟩
    obtain rfl : json = json' := Option.some.inj (hjson.symm.trans hjson')
    rw [hgas, Option.some.injEq, Json.quantity, Json.quantity, Json.str.injEq] at hgas'
    rw [hprice, Option.some.injEq, Json.quantity, Json.quantity, Json.str.injEq] at hprice'
    rw [quantity_injective hgas', quantity_injective hprice']
  · intro hfee
    exact ⟨json, txJson, _, _, hjson, htx, hgas, hprice, htxPrice, hfee⟩

end Fields

theorem reportsFee_of_holds {chain : KanariNode} {spec : KanariChainSpec}
    (hrec : chain.Recorded spec) {step : SealStep} {x : Execution}
    (h : chain.Holds P step.raw x.prepared (node.blockOf P step x) (node.receiptOf P step x))
    {view : TxView}
    (hview : decodeTxView P step.raw ((node.sealFee P).setWidth 128) = some view) (fee : ℕ) :
    chain.ReportsFee P (P.keccak256 step.raw) fee ↔
      x.result.gasUsed.toNat * view.effectiveGasPrice.toNat = fee := by
  have hbase : chain.receiptBaseFee (node.receiptOf P step x) =
      (node.sealFee P).setWidth 128 := by
    rw [receiptBaseFee, receiptOf_blockNumber, h.blockByNumber hrec]
    rfl
  rw [reportsFee_iff h.receipt (h.txRecord hrec) (by rw [hbase]; exact hview),
    receiptOf_gasUsed]

variable (hR : P.toRevm.CacheLaws) (hn : P.toRevm.NonceLaws) (hgas : P.toRevm.SpendsGas)
  (hprice : P.toRevm.ChargesEffectivePrice)

include hR hn hgas hprice

/-- Whenever a transaction has been sealed, and at any later time: its views report the fee that
was taken from its sender exactly when it is not an EIP-1559 transaction with a cap above base
fee plus tip. -/
theorem views_report_fee_iff (spec : KanariChainSpec) (ops later : List Op) {step : SealStep}
    {x : Execution} (hruns : ((nodeMachine P).final (created P spec) ops).Runs P step x)
    (hlater : NoCollision P step.raw later) :
    ((nodeMachine P).final (created P spec)
        (ops ++ .attempt step .healthy :: later)).ReportsFee P (P.keccak256 step.raw)
          (((nodeMachine P).final (created P spec) ops).feeDebited P x) ↔
      TipReachesCap P step.raw (((nodeMachine P).final (created P spec) ops).sealFee P) := by
  have hrec := recorded_final hR spec (ops ++ .attempt step .healthy :: later)
  rw [(nodeMachine P).final_append] at hrec ⊢
  generalize (nodeMachine P).final (created P spec) ops = node at hruns hrec ⊢
  rw [hruns.final] at hrec ⊢
  have hholds := (hruns.holds hR hn).final hR hn hlater
  obtain ⟨hdecode, htx⟩ := executeRaw_ok_iff.mp hruns.executed
  obtain ⟨envelope, henvelope, -, henv, -⟩ := PreparedTx.decode_ok_iff.mp hdecode
  obtain ⟨view, hview, hviewPrice⟩ :=
    viewOf_price_iff hprice henv ((node.sealFee P).setWidth 128)
  have hdecoded : decodeTxView P step.raw ((node.sealFee P).setWidth 128) = some view := by
    rw [decodeTxView, henvelope]
    exact hview
  obtain ⟨state, hout, -⟩ := transactRaw_ok htx
  have hused : 0 < x.result.gasUsed.toNat := hgas _ _ _ _ _ hout
  rw [reportsFee_of_holds hrec hholds hdecoded, feeDebited, Nat.mul_right_inj hused.ne',
    hviewPrice, BitVec.toNat_setWidth_of_le (by decide), TipReachesCap, henvelope]
  cases envelope <;> simp

omit hR hn hgas hprice

theorem views_report_fee_iff_transfer :
    ((nodeMachine Reference.platform).final (created Reference.platform Reference.spec)
      [.attempt (.committed Reference.transfer0 5) .healthy,
        .attempt (.committed Reference.transfer1 7) .healthy]).ReportsFee Reference.platform
          (Reference.keccak256 Reference.transfer0) (21000 * 1000000000) := by
  have hruns : (created Reference.platform Reference.spec).Runs Reference.platform
      (.committed Reference.transfer0 5) _ :=
    Runs.of_eval 1 (Reference.prepared 0 1000000000 none) Reference.moved (by decide +kernel)
      (by decide +kernel)
  exact (views_report_fee_iff Reference.cacheLaws Reference.nonceLaws Reference.spendsGas
    Reference.chargesEffectivePrice Reference.spec [] [_] hruns (by decide +kernel)).mpr
    (by decide +kernel)

/-- An EIP-1559 transfer that caps its fee at 3 gwei and tips 1 gwei over a base fee of 1 gwei:
its sender pays 3 gwei per gas, its views say 2 gwei. -/
theorem capped_transfer_pays_more_than_reported :
    ((created Reference.platform Reference.spec).db.logical Reference.funded).balance.toNat =
      (((nodeMachine Reference.platform).final (created Reference.platform Reference.spec)
        [.attempt (.committed Reference.capped0 5) .healthy]).db.logical
          Reference.funded).balance.toNat + 21000 * 3000000000 ∧
    ((nodeMachine Reference.platform).final (created Reference.platform Reference.spec)
      [.attempt (.committed Reference.capped0 5) .healthy]).ReportsFee Reference.platform
        (Reference.keccak256 Reference.capped0) (21000 * 2000000000) ∧
    ¬((nodeMachine Reference.platform).final (created Reference.platform Reference.spec)
      [.attempt (.committed Reference.capped0 5) .healthy]).ReportsFee Reference.platform
        (Reference.keccak256 Reference.capped0) (21000 * 3000000000) := by
  have hruns : (created Reference.platform Reference.spec).Runs Reference.platform
      (.committed Reference.capped0 5) _ :=
    Runs.of_eval 1 (Reference.prepared 0 3000000000 (some 1000000000)) Reference.moved
      (by decide +kernel) (by decide +kernel)
  have hrec := recorded_final Reference.cacheLaws Reference.spec
    [.attempt (.committed Reference.capped0 5) .healthy]
  have hholds := hruns.holds Reference.cacheLaws Reference.nonceLaws
  rw [← hruns.perform_healthy] at hholds
  have hview : decodeTxView Reference.platform Reference.capped0
      (((created Reference.platform Reference.spec).sealFee Reference.platform).setWidth 128) =
        some ⟨0, 21000, 2000000000, some Reference.recipient, 0, [], 2, 19088⟩ := by
    decide +kernel
  have hreport := reportsFee_of_holds hrec hholds hview
  refine ⟨by decide +kernel, (hreport _).mpr rfl, fun h => absurd ((hreport _).mp h) (by decide)⟩

end KanariNode

end KanariEvm
