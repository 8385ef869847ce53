import KanariEvm.DevWallet
import KanariEvm.Estimate
import KanariEvm.Fees

namespace KanariEvm

open InMemoryDB

/-- The program a message to an account runs: its code, or that of the account it delegates to. -/
def InMemoryDB.program (db : InMemoryDB) (a : Address) : Bytes :=
  let code := (db.logical a).code
  if code.take 3 = [0xef, 0x01, 0x00] ∧ code.length = 23 then
    (db.logical (BitVec.ofNat 160 (fromLeBytes (code.drop 3).reverse))).code
  else code

/-- A recipient that a payment reaches without any gas: it is no precompile, its program is empty or
begins with `STOP`, and its balance has room. -/
structure TakesPayment (precompiled : SpecId → Address → Prop) (spec : SpecId) (db : InMemoryDB)
    (dest : Address) (value : U256) : Prop where
  account : ¬precompiled spec dest
  idle : (db.program dest).head?.getD 0x00 = 0x00
  room : (db.logical dest).balance.toNat + value.toNat < 2 ^ 256

structure TxEnv.Bare (tx : TxEnv) (dest : Address) : Prop where
  legacy : tx.txType = 0
  kind : tx.kind = .call dest
  data : tx.data = []
  accessList : tx.accessList = []
  authorizationList : tx.authorizationList = []
  gasLimit : tx.gasLimit = 21000
  other : tx.caller ≠ dest

def ExecutionResult.isSuccess : ExecutionResult → Bool
  | .success _ _ _ => true
  | .revert _ _ => false
  | .halt _ => false

/-- The code of a recipient runs with the gas that is left after the intrinsic gas, so a bare
message pays a recipient that needs none, with the tip on top if that is the beneficiary; at any
other one it runs out of gas, or overflows the balance, and fails. -/
structure Revm.PaysOut (R : Revm) (precompiled : SpecId → Address → Prop) : Prop where
  paid : ∀ {db params tx dest result state}, tx.Bare dest →
    R.outcome db params tx = .ok (result, state) →
    TakesPayment precompiled params.spec db dest tx.value → result.isSuccess = true ∧
      ∃ tip, ((R.after db params tx state).logical dest).balance.toNat =
          (db.logical dest).balance.toNat + tx.value.toNat + tip ∧
        tip ≤ result.gasUsed.toNat * (tx.gasPrice.toNat - params.basefee.toNat) ∧
        (dest ≠ params.beneficiary → tip = 0)
  starved : ∀ {db params tx dest result state}, tx.Bare dest →
    R.outcome db params tx = .ok (result, state) →
    ¬TakesPayment precompiled params.spec db dest tx.value → result.isSuccess = false

theorem executionSummary_success (result : ExecutionResult) :
    (executionSummary result).1 = result.isSuccess := by
  cases result <;> rfl

theorem executionSummary_gasUsed (result : ExecutionResult) :
    (executionSummary result).2.1 = result.gasUsed := by
  cases result <;> rfl

section Congruence

variable {db₁ db₂ : InMemoryDB} (h : SameLogical db₁ db₂)

include h

theorem InMemoryDB.SameLogical.program (a : Address) : db₁.program a = db₂.program a := by
  simp only [InMemoryDB.program, h _]

theorem InMemoryDB.SameLogical.takesPayment {precompiled : SpecId → Address → Prop} {spec : SpecId}
    {dest : Address} {value : U256} (ht : TakesPayment precompiled spec db₁ dest value) :
    TakesPayment precompiled spec db₂ dest value where
  account := ht.account
  idle := by
    rw [← h.program]
    exact ht.idle
  room := by
    rw [← h dest]
    exact ht.room

end Congruence

namespace KanariNode

/-- The errors of a request over the cap, without a key, and on an empty account. -/
def faucetRefusals : List NodeError :=
  [.invalidTransaction "faucet amount exceeds per-request cap of 10000 ETH", .noFaucetConfigured,
    .execution "faucet account is dry"]

/-- The word of the faucet: a hash stands for a payment that arrived, and a refusal for no block and
no change of a balance. The beneficiary gets the fees of the payment as well. -/
structure Delivers (P : Platform) (W : Wallet) (node : KanariNode) (toAddr : Address)
    (amountWei : U256) (now : U64) (io : SealIo) : Prop where
  arrived : ∀ {node' hash}, node.faucet P W toAddr amountWei now io = (node', .ok hash) →
    ∃ receipt, node'.receipts.lookup hash = some receipt ∧ receipt.success = true ∧
      ∃ credit, (node'.balanceOf P toAddr).2.toNat =
          (node.balanceOf P toAddr).2.toNat + amountWei.toNat + credit ∧
        credit ≤ receipt.gasUsed.toNat * (node.pendingBaseFee P).toNat ∧
        (toAddr ≠ blockBeneficiary → credit = 0)
  refused : ∀ {node' e}, node.faucet P W toAddr amountWei now io = (node', .error e) →
    e ∈ faucetRefusals → node'.blocks = node.blocks ∧
      ∀ a, (node'.balanceOf P a).2 = (node.balanceOf P a).2

/-- The request gets as far as a block: a drip can be drafted, revm admits it, and the backend is
healthy. -/
def Draws (P : Platform) (W : Wallet) (node : KanariNode) (toAddr : Address) (amountWei : U256)
    (now : U64) (io : SealIo) : Prop :=
  io = .healthy ∧ ∃ drip x, (node.drip P W toAddr amountWei).2 = .ok drip ∧
    node.Runs P (.send drip.raw now) x

variable {P : Platform} {W : Wallet} {node : KanariNode} {toAddr : Address} {amountWei : U256}
  {now : U64} {io : SealIo}

theorem drip_tx {drip : Drip} (h : (node.drip P W toAddr amountWei).2 = .ok drip) :
    drip.tx = {
      chainId := node.spec.chainId
      nonce := drip.tx.nonce
      gasLimit := 21000
      toKind := .call toAddr
      value := amountWei
      input := []
      accessList := []
      maxFeePerGas := node.pendingBaseFee P
      maxPriorityFeePerGas := node.pendingBaseFee P } := by
  rcases node.drip_cases (P := P) (W := W) toAddr amountWei with
    ⟨reads, e, hdrip, -⟩ | ⟨reads, secret, drip', sig, -, -, htx, -, -, hdrip⟩
  · rw [hdrip] at h
    cases h
  · rw [hdrip, Except.ok.injEq] at h
    rw [← h, htx]

theorem drip_decoded (hW : W.Faithful P) {drip : Drip} (hdraft : node.Drafts P W drip)
    (h : (node.drip P W toAddr amountWei).2 = .ok drip) {chainId : U64} {prepared : PreparedTx}
    (hdecode : PreparedTx.decode P drip.raw chainId = .ok prepared) :
    prepared.inner = {
      caller := drip.account
      gasLimit := 21000
      gasPrice := node.pendingBaseFee P
      kind := .call toAddr
      value := amountWei
      data := []
      nonce := drip.tx.nonce
      chainId := some node.spec.chainId
      gasPriorityFee := some (node.pendingBaseFee P)
      accessList := [] } := by
  obtain ⟨secret, sig, -, haddress, hsign, hraw⟩ := hdraft.signed
  obtain ⟨hwire, hsigner⟩ := hW secret drip.account drip.tx sig haddress hsign
  obtain ⟨envelope, henvelope, hsender, henv, -⟩ := PreparedTx.decode_ok_iff.mp hdecode
  rw [hraw, hwire, Except.ok.injEq] at henvelope
  rw [← henvelope] at hsender henv
  rw [hsigner, Except.ok.injEq] at hsender
  simp only [PreparedTx.txEnvOf, Except.ok.injEq, Prod.mk.injEq] at henv
  rw [← henv.2, ← hsender, drip_tx h]

/-- What a submission does in single-node mode: it is refused with accounts and blocks left alone,
or it is executed and persisted. -/
theorem send_cases (hR : P.toRevm.CacheLaws) (hmode : node.dagSender = none) (raw : Bytes)
    (now : U64) (io : SealIo) :
    (¬(∃ x, node.Runs P (.send raw now) x) ∧ ∃ db e, SameAccounts db node.db ∧
        node.sendRawTransaction P raw now io = ({ node with db := db }, .error e)) ∨
      ∃ x, node.Runs P (.send raw now) x ∧ node.sendRawTransaction P raw now io =
        node.persist P raw x.number now (node.sealFee P) x.db x.prepared x.result io := by
  have hnumber : node.sealNumber (.send raw now) = checkedSucc node.blockNumber := by
    simp [sealNumber, hmode]
  cases hsucc : checkedSucc node.blockNumber with
  | none =>
    rw [hsucc] at hnumber
    refine .inl ⟨?_, node.db, .overflow, SameAccounts.refl _, ?_⟩
    · rintro ⟨x, hruns⟩
      have hsome := hruns.number
      rw [hnumber] at hsome
      cases hsome
    · rw [node.sendRawTransaction_of_single P hmode]
      simp only [sealCommitted, hsucc]
  | some number =>
    rw [hsucc] at hnumber
    have hseal : node.sendRawTransaction P raw now io = _ := node.sealStep_of_number P hnumber io
    rcases hex : node.execute P (.send raw now) number with ⟨db, e | ⟨prepared, result⟩⟩
    · refine .inl ⟨?_, db, e, executeRaw_error_sameAccounts hR hex, ?_⟩
      · rintro ⟨x, hruns⟩
        have hsome := hruns.number
        rw [hnumber, Option.some.injEq] at hsome
        have hok := hruns.executed
        rw [← hsome, hex] at hok
        cases hok
      · exact hseal.trans (sealRawWithFee_of_error hex)
    · refine .inr ⟨⟨number, db, prepared, result⟩, ⟨hnumber, hex⟩, ?_⟩
      exact hseal.trans (sealRawWithFee_of_ok hex io)

theorem drip_run (hW : W.Faithful P)
    (hother : ∀ secret, node.faucetKey = some secret → W.address secret ≠ .ok toAddr)
    {drip : Drip} (hdrip : (node.drip P W toAddr amountWei).2 = .ok drip)
    (hdraft : node.Drafts P W drip) {asked : KanariNode}
    (hasked : asked = { node with db := asked.db }) {x : Execution}
    (hruns : asked.Runs P (.send drip.raw now) x) :
    ∃ tx state, tx.Bare toAddr ∧ tx.value = amountWei ∧ tx.gasPrice = node.pendingBaseFee P ∧
      P.outcome asked.db (evmParams node.spec x.number now (node.sealFee P)) tx =
        .ok (x.result, state) ∧
      x.db = P.after asked.db (evmParams node.spec x.number now (node.sealFee P)) tx state := by
  have hspec : asked.spec = node.spec := by rw [hasked]
  have hfee : asked.sealFee P = node.sealFee P := by
    rw [hasked]
    rfl
  have hexecuted := hruns.executed
  rw [execute, hspec, hfee] at hexecuted
  obtain ⟨hdecode, htransact⟩ := executeRaw_ok_iff.mp hexecuted
  obtain ⟨state, hout, hdb⟩ := transactRaw_ok htransact
  have hinner := drip_decoded hW hdraft hdrip hdecode
  refine ⟨x.prepared.inner, state, ?_, by rw [hinner], by rw [hinner], hout, hdb⟩
  rw [hinner]
  refine ⟨rfl, rfl, rfl, rfl, rfl, rfl, ?_⟩
  obtain ⟨secret, sig, hkey, haddress, -⟩ := hdraft.signed
  intro hself
  exact hother secret hkey (haddress.trans (congrArg Except.ok hself))

section Laws

variable (hR : P.toRevm.CacheLaws) (hdet : P.toRevm.Deterministic)

include hR hdet

theorem Runs.withDb {db : InMemoryDB} (hdb : SameAccounts node.db db) {step : SealStep}
    {x : Execution} (h : node.Runs P step x) : ∃ x', { node with db := db }.Runs P step x' := by
  obtain ⟨db', hex, -⟩ := executeRaw_congr (Revm.sameAccounts_congruence hR) hdet hdb h.executed
  exact ⟨⟨x.number, db', x.prepared, x.result⟩, h.number, hex⟩

theorem faucet_cases (hmode : node.dagSender = none) (toAddr : Address) (amountWei : U256)
    (now : U64) (io : SealIo) :
    (¬node.Draws P W toAddr amountWei now io ∧ ∃ db e, SameAccounts db node.db ∧
        node.faucet P W toAddr amountWei now io = ({ node with db := db }, .error e)) ∨
      ∃ (drip : Drip) (asked : KanariNode) (x : Execution),
        (node.drip P W toAddr amountWei).2 = .ok drip ∧ node.Drafts P W drip ∧
        SameAccounts asked.db node.db ∧ asked = { node with db := asked.db } ∧
        asked.Runs P (.send drip.raw now) x ∧
        node.faucet P W toAddr amountWei now io = asked.persist P drip.raw x.number now
          (asked.sealFee P) x.db x.prepared x.result io := by
  obtain ⟨db, hdb, hnode, hdraft⟩ := node.drip_spec hR (W := W) toAddr amountWei
  rcases hdrip : node.drip P W toAddr amountWei with ⟨asked, e | drip⟩
  · rw [hdrip] at hnode
    refine .inl ⟨?_, db, e, hdb, ?_⟩
    · rintro ⟨-, drip, x, hok, -⟩
      rw [hdrip] at hok
      cases hok
    · simp only [faucet, hdrip]
      rw [show asked = _ from hnode]
  · rw [hdrip] at hnode hdraft
    have hasked : asked = { node with db := db } := hnode
    have hfaucet : node.faucet P W toAddr amountWei now io =
        asked.sendRawTransaction P drip.raw now io := by simp only [faucet, hdrip]
    rcases asked.send_cases hR (by rw [hasked, hmode]) drip.raw now io with
      ⟨hstuck, db', e, hdb', hsend⟩ | ⟨x, hruns, hsend⟩
    · refine .inl ⟨?_, db', e, ?_, ?_⟩
      · -- a drip that the accounts before the lookups admit is admitted after them
        rintro ⟨-, drip', x, hok, hruns⟩
        rw [hdrip, Except.ok.injEq] at hok
        apply hstuck
        rw [hasked, hok]
        exact hruns.withDb hR hdet hdb.symm
      · rw [hasked] at hdb'
        exact hdb'.trans hdb
      · rw [hfaucet, hsend, hasked]
    · refine .inr ⟨drip, asked, x, rfl, hdraft drip rfl, ?_, ?_, hruns, hfaucet.trans hsend⟩
      · rw [hasked]
        exact hdb
      · rw [hasked]

omit hdet in
theorem settleFees_credit (db : InMemoryDB) (result : ExecutionResult) (baseFee : U64)
    (a : Address) : ∃ share, ((settleFees P db result baseFee).logical a).balance.toNat =
        (db.logical a).balance.toNat + share ∧
      share ≤ result.gasUsed.toNat * baseFee.toNat ∧ (a ≠ blockBeneficiary → share = 0) := by
  have hshare := Gas.baseFeeShare_toNat result.gasUsed baseFee
  simp only [settleFees]
  split_ifs with hz
  · exact ⟨0, rfl, Nat.zero_le _, fun _ => rfl⟩
  · by_cases ha : a = blockBeneficiary
    · have hlt := (db.logical blockBeneficiary).balance.isLt
      rw [ha, creditBeneficiary_balance hR, saturatingAdd_toNat, hshare]
      refine ⟨min (result.gasUsed.toNat * baseFee.toNat)
        (2 ^ 256 - 1 - (db.logical blockBeneficiary).balance.toNat), ?_, Nat.min_le_left _ _, ?_⟩
      · omega
      · exact fun hne => absurd rfl hne
    · rw [creditBeneficiary_balance_of_ne hR db _ ha]
      exact ⟨0, rfl, Nat.zero_le _, fun _ => rfl⟩

omit hdet in
/-- Once a block is sealed, the word of the faucet is about the execution and the accounts after
it. -/
theorem delivers_sealed_iff {asked : KanariNode} {raw : Bytes} {x : Execution}
    (hfaucet : node.faucet P W toAddr amountWei now io =
      (asked.afterSeal P raw x.number now (node.sealFee P) x.db x.prepared x.result,
        .ok (P.keccak256 raw))) :
    node.Delivers P W toAddr amountWei now io ↔ x.result.isSuccess = true ∧
      ∃ credit, ((settleFees P x.db x.result (node.sealFee P)).logical toAddr).balance.toNat =
          (node.db.logical toAddr).balance.toNat + amountWei.toNat + credit ∧
        credit ≤ x.result.gasUsed.toNat * (node.pendingBaseFee P).toNat ∧
        (toAddr ≠ blockBeneficiary → credit = 0) := by
  have hreceipt : (asked.afterSeal P raw x.number now (node.sealFee P) x.db x.prepared
      x.result).receipts.lookup (P.keccak256 raw) =
        some (asked.sealedReceipt P raw x.prepared x.result x.number now) :=
    Finmap.lookup_insert _
  have hsuccess : (asked.sealedReceipt P raw x.prepared x.result x.number now).success =
      x.result.isSuccess := executionSummary_success x.result
  have hgas : (asked.sealedReceipt P raw x.prepared x.result x.number now).gasUsed =
      x.result.gasUsed := executionSummary_gasUsed x.result
  constructor
  · intro h
    obtain ⟨receipt, hlookup, hok, credit, hbalance, hcredit⟩ := h.arrived hfaucet
    rw [hreceipt, Option.some.injEq] at hlookup
    rw [← hlookup, hsuccess] at hok
    rw [← hlookup, hgas] at hcredit
    rw [balanceOf_snd _ hR, balanceOf_snd _ hR] at hbalance
    exact ⟨hok, credit, hbalance, hcredit⟩
  · rintro ⟨hok, credit, hbalance, hcredit⟩
    refine ⟨?_, ?_⟩
    · intro node' hash hsealed
      rw [hfaucet, Prod.mk.injEq, Except.ok.injEq] at hsealed
      rw [← hsealed.1, ← hsealed.2]
      refine ⟨_, hreceipt, hsuccess.trans hok, credit, ?_, ?_⟩
      · rw [balanceOf_snd _ hR, balanceOf_snd _ hR]
        exact hbalance
      · rw [hgas]
        exact hcredit
    · intro node' e herror
      rw [hfaucet] at herror
      cases herror

variable {precompiled : SpecId → Address → Prop} (hpay : P.toRevm.PaysOut precompiled)
  (hW : W.Faithful P)
  (hother : ∀ secret, node.faucetKey = some secret → W.address secret ≠ .ok toAddr)

include hpay hW hother

omit hdet in
theorem sealed_drip {drip : Drip} (hdrip : (node.drip P W toAddr amountWei).2 = .ok drip)
    (hdraft : node.Drafts P W drip) {asked : KanariNode} (hsame : SameAccounts asked.db node.db)
    (hasked : asked = { node with db := asked.db }) {x : Execution}
    (hruns : asked.Runs P (.send drip.raw now) x) :
    (x.result.isSuccess = true ∧
        ∃ credit, ((settleFees P x.db x.result (node.sealFee P)).logical toAddr).balance.toNat =
            (node.db.logical toAddr).balance.toNat + amountWei.toNat + credit ∧
          credit ≤ x.result.gasUsed.toNat * (node.pendingBaseFee P).toNat ∧
          (toAddr ≠ blockBeneficiary → credit = 0)) ↔
      TakesPayment precompiled node.spec.specId node.db toAddr amountWei := by
  obtain ⟨tx, state, hbare, hvalue, hprice, hout, hdb⟩ :=
    drip_run hW hother hdrip hdraft hasked hruns
  have hlogical := hsame.sameLogical
  constructor
  · rintro ⟨hsuccess, -⟩
    by_contra htakes
    have hfails := hpay.starved hbare hout
      (fun h => htakes (hlogical.takesPayment (by rwa [hvalue] at h)))
    rw [hsuccess] at hfails
    cases hfails
  · intro htakes
    obtain ⟨hsuccess, tip, hpaid, htip, htipped⟩ := hpay.paid hbare hout
      (by rw [hvalue]; exact hsame.symm.sameLogical.takesPayment htakes)
    obtain ⟨share, hsettled, hshare, hshared⟩ :=
      settleFees_credit hR x.db x.result (node.sealFee P) toAddr
    refine ⟨hsuccess, tip + share, ?_, ?_, ?_⟩
    · rw [hsettled, hdb, hpaid, hvalue, hlogical toAddr]
      omega
    · -- the price is split between the block's base fee and the tip
      have hle : (node.sealFee P).toNat ≤ (node.pendingBaseFee P).toNat := by
        rw [sealFee, BitVec.toNat_setWidth]
        exact Nat.mod_le _ _
      have hsplit : x.result.gasUsed.toNat * (tx.gasPrice.toNat - (node.sealFee P).toNat) +
          x.result.gasUsed.toNat * (node.sealFee P).toNat =
            x.result.gasUsed.toNat * (node.pendingBaseFee P).toNat := by
        rw [hprice, ← Nat.mul_add, Nat.sub_add_cancel hle]
      rw [← hsplit]
      exact Nat.add_le_add htip hshare
    · intro hne
      rw [htipped hne, hshared hne]

/-- The faucet keeps its word in single-node mode exactly when a drip that gets as far as a block
goes to a recipient that needs no gas. -/
theorem delivers_iff (hmode : node.dagSender = none) :
    node.Delivers P W toAddr amountWei now io ↔
      (node.Draws P W toAddr amountWei now io →
        TakesPayment precompiled node.spec.specId node.db toAddr amountWei) := by
  rcases faucet_cases hR hdet hmode (W := W) toAddr amountWei now io with
    ⟨hstuck, db, e, hdb, hfaucet⟩ |
      ⟨drip, asked, x, hdrip, hdraft, hsame, hasked, hruns, hfaucet⟩
  · refine iff_of_true ⟨?_, ?_⟩ fun hdraws => absurd hdraws hstuck
    · intro node' hash hok
      rw [hfaucet] at hok
      cases hok
    · intro node' e' herror _
      rw [hfaucet, Prod.mk.injEq] at herror
      rw [← herror.1]
      refine ⟨rfl, fun a => ?_⟩
      rw [balanceOf_snd _ hR, balanceOf_snd _ hR]
      exact congrArg (·.balance) (hdb.sameLogical a)
  · rcases asked.persist_cases P drip.raw x.number now (asked.sealFee P) x.db x.prepared x.result
        io with ⟨hio, hpersist⟩ | ⟨hio, node', msg, hpersist⟩
    · have hfee : asked.sealFee P = node.sealFee P := by
        rw [hasked]
        rfl
      rw [hfee] at hpersist hfaucet
      have hdraws : node.Draws P W toAddr amountWei now io := by
        obtain ⟨x', hruns'⟩ := hruns.withDb hR hdet hsame
        rw [hasked] at hruns'
        exact ⟨hio, drip, x', hdrip, hruns'⟩
      rw [delivers_sealed_iff hR (hfaucet.trans hpersist),
        sealed_drip hR hpay hW hother hdrip hdraft hsame hasked hruns]
      exact ⟨fun h _ => h, fun h => h hdraws⟩
    · rw [hpersist] at hfaucet
      refine iff_of_true ⟨?_, ?_⟩ fun hdraws => absurd hdraws.1 hio
      · intro node'' hash hok
        rw [hfaucet] at hok
        cases hok
      · intro node'' e herror hrefusal
        rw [hfaucet, Prod.mk.injEq, Except.error.injEq] at herror
        rw [← herror.2] at hrefusal
        simp [faucetRefusals] at hrefusal

end Laws

end KanariNode

namespace Payment

theorem program_of_code {db : InMemoryDB} {a : Address}
    (h : (db.logical a).code = [] ∨ (db.logical a).code = refusal) :
    db.program a = (db.logical a).code := by
  unfold InMemoryDB.program
  rcases h with h | h
  · rw [h]
    rfl
  · rw [h]
    rfl

theorem outcome_call {db : InMemoryDB} {params : KanariEvmParams} {tx : TxEnv} {dest : Address}
    {ran : ExecutionResult} {state : EvmState} (hkind : tx.kind = .call dest)
    (h : outcome db params tx = .ok (ran, state)) :
    Accepts db params tx dest ∧ ran = result db tx dest ∧ state = changes db params tx dest := by
  obtain ⟨dest', hkind', hout⟩ := outcome_ok h
  rw [hkind, TxKind.call.injEq] at hkind'
  rw [hkind']
  exact hout

theorem revm_paysOut (hashSlow : Bytes → B256) : (revm hashSlow).PaysOut fun _ _ => False where
  paid {db params tx dest ran state} hbare h htakes := by
    obtain ⟨haccepts, rfl, rfl⟩ := outcome_call hbare.kind h
    obtain ⟨-, -, ⟨-, -, hcodes⟩, -, -, -, hroom⟩ := haccepts
    have hcode : (db.logical dest).code = [] := by
      rcases hcodes with hnone | hrefusal
      · exact hnone
      · have hidle := htakes.idle
        rw [program_of_code (.inr hrefusal), hrefusal] at hidle
        exact absurd hidle (by decide)
    refine ⟨?_, 0, ?_, Nat.zero_le _, fun _ => rfl⟩
    · simp only [result, if_pos hcode, ExecutionResult.isSuccess]
    · have hlookup : (changes db params tx dest).lookup dest =
          some (Transfer.touched ((db.logical dest).balance.toNat + tx.value.toNat)
            (db.logical dest).nonce.toNat) := by
        simp only [changes, if_pos hcode]
        exact Finmap.lookup_insert _
      have hafter := (Transfer.after_logical_of_touched hashSlow db params tx hlookup).1
      change (((Transfer.revm hashSlow).after db params tx _).logical dest).balance.toNat = _
      rw [hafter, BitVec.toNat_ofNat, Nat.mod_eq_of_lt hroom]
      omega
  starved {db params tx dest ran state} hbare h hstarved := by
    obtain ⟨haccepts, rfl, -⟩ := outcome_call hbare.kind h
    obtain ⟨-, -, ⟨-, -, hcodes⟩, -, -, -, hroom⟩ := haccepts
    have hcode : (db.logical dest).code ≠ [] := by
      intro hnone
      apply hstarved
      refine ⟨id, ?_, hroom⟩
      rw [program_of_code hcodes, hnone]
      rfl
    simp only [result, if_neg hcode]
    split_ifs <;> rfl

def plainDrip : DevWallet.Entry where
  tx := { DevWallet.dripTx 0 Reference.recipient 1000000000 with value := 100000000000000000 }
  signatureHash := 0x3ca2bf53ec0900e57388e75b4c13db66a102f4f5583541949bb85704a9b212c4
  sig := {
    r := 0x342cb50b79361fcceff6df53e659670540ecb5f37a720b4d17c468658fcf19b1
    s := 0x7b1b5f50238b267f312ae2e14b9c1dc8cde5bc4f7ac8766eabda1e3e156c1cf1
    oddYParity := true }
  raw := toBeBytes 21 0x02f874824a9080843b9aca00843b9aca0082520894 ++
    toBeBytes 33 0x000000000000000000000000000000000000dead88016345785d8a000080c001a0 ++
    toBeBytes 32 0x342cb50b79361fcceff6df53e659670540ecb5f37a720b4d17c468658fcf19b1 ++
    toBeBytes 33 0xa07b1b5f50238b267f312ae2e14b9c1dc8cde5bc4f7ac8766eabda1e3e156c1cf1
  hash := 0xfdb7ca0f4a7346e2cb0858ea3b2ef62614540d5893a4e64e578d0402f53a75a5

def vaultDrip : DevWallet.Entry where
  tx := { DevWallet.dripTx 0 vault 1000000000 with value := 100000000000000000 }
  signatureHash := 0xa0c0160d6c1dd835bcbe45a113daf4604bfd2a30b82cc7fd192e6346cd0d2a1f
  sig := {
    r := 0xe36cb5eac57a7716aa089254b42bd65ef11c16afddcefbbe69d94fac1f7613d7
    s := 0x7cc63144d6f696dee998782f8073dbaf3957bdce8c523dcd23400b9081d419a3
    oddYParity := false }
  raw := toBeBytes 21 0x02f874824a9080843b9aca00843b9aca0082520894 ++
    toBeBytes 33 0x000000000000000000000000000000000000c0de88016345785d8a000080c080a0 ++
    toBeBytes 32 0xe36cb5eac57a7716aa089254b42bd65ef11c16afddcefbbe69d94fac1f7613d7 ++
    toBeBytes 33 0xa07cc63144d6f696dee998782f8073dbaf3957bdce8c523dcd23400b9081d419a3
  hash := 0x3e36228d4a58a7c8af00343c1cf4b6d55b02da6514c026999aefb3c5d10631a7

def drips : List DevWallet.Entry := [plainDrip, vaultDrip]

def wallet : Wallet := DevWallet.walletOf drips

def dripPlatform : Platform :=
  Reference.platformWith revm (drips.map fun e => (e.raw, .eip1559 e.tx e.sig))
    (drips.map fun e => (e.raw, e.hash))

theorem wallet_faithful : wallet.Faithful dripPlatform :=
  DevWallet.walletOf_faithful (by decide +kernel) (by decide +kernel)

def payer : KanariNode :=
  { KanariNode.created dripPlatform { Reference.spec with genesisCode := [(vault, refusal)] } with
    faucetKey := some DevWallet.key }

def dripTo (toAddr : Address) : KanariNode × Except NodeError B256 :=
  payer.faucet dripPlatform wallet toAddr 100000000000000000 5 .healthy

end Payment

namespace KanariNode

theorem delivers_plain :
    (Payment.dripTo Reference.recipient).2 = .ok Payment.plainDrip.hash ∧
      Payment.payer.Delivers Payment.dripPlatform Payment.wallet Reference.recipient
        100000000000000000 5 .healthy := by
  have hother : ∀ secret, Payment.payer.faucetKey = some secret →
      Payment.wallet.address secret ≠ .ok Reference.recipient := by
    intro secret hkey
    have hsecret : secret = DevWallet.key := (Option.some.inj hkey).symm
    rw [hsecret]
    decide +kernel
  refine ⟨by decide +kernel, (delivers_iff (Payment.revm_cacheLaws _)
    (Payment.revm_deterministic _) (Payment.revm_paysOut _) Payment.wallet_faithful hother
    rfl).mpr fun _ => ?_⟩
  exact ⟨id, by decide +kernel, by decide +kernel⟩

/-- The drip to the refusing contract runs out of gas: the faucet answers with its hash all the
same, its receipt tells a failure, and nothing arrives. -/
theorem starved_drip_gets_hash :
    (Payment.dripTo Payment.vault).2 = .ok Payment.vaultDrip.hash ∧
      ((Payment.dripTo Payment.vault).1.receipts.lookup Payment.vaultDrip.hash).map (·.success) =
        some false ∧
      ((Payment.dripTo Payment.vault).1.balanceOf Payment.dripPlatform Payment.vault).2 = 0 ∧
      ¬Payment.payer.Delivers Payment.dripPlatform Payment.wallet Payment.vault
        100000000000000000 5 .healthy := by
  have hanswer : (Payment.dripTo Payment.vault).2 = .ok Payment.vaultDrip.hash := by decide +kernel
  have hreceipt : ((Payment.dripTo Payment.vault).1.receipts.lookup
      Payment.vaultDrip.hash).map (·.success) = some false := by decide +kernel
  refine ⟨hanswer, hreceipt, by decide +kernel, fun h => ?_⟩
  obtain ⟨receipt, hlookup, hsuccess, -⟩ := h.arrived (Prod.ext rfl hanswer)
  have hlookup' : (Payment.dripTo Payment.vault).1.receipts.lookup Payment.vaultDrip.hash =
      some receipt := hlookup
  rw [hlookup', Option.map_some, hsuccess] at hreceipt
  cases hreceipt

end KanariNode

end KanariEvm
