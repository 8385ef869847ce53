import KanariEvm.CallFields
import KanariEvm.Runs
import KanariEvm.Server

namespace KanariEvm

/-- The step does not end in the panic that `overflow` stands for. -/
def Steady {α : Type} (r : Except NodeError α) : Prop := ∀ e, r = .error e → e ≠ .overflow

theorem steady_ok {α : Type} (a : α) : Steady (.ok a : Except NodeError α) :=
  fun _ h => nomatch h

theorem steady_error {α : Type} {e : NodeError} (h : e ≠ .overflow) :
    Steady (.error e : Except NodeError α) := by
  intro e' he
  rwa [← Except.error.inj he]

theorem Steady.ne {α : Type} {r : Except NodeError α} (h : Steady r) : r ≠ .error .overflow :=
  fun hr => h _ hr rfl

theorem steady_mapError {ε α : Type} {f : ε → NodeError} (hf : ∀ e, f e ≠ .overflow)
    (r : Except ε α) : Steady (r.mapError f) := by
  cases r with
  | ok a => exact steady_ok a
  | error e => exact steady_error (hf e)

theorem Steady.bind {α β : Type} {x : Except NodeError α} {f : α → Except NodeError β}
    (hx : Steady x) (hf : ∀ a, Steady (f a)) : Steady (x >>= f) := by
  cases x with
  | ok a => exact hf a
  | error e => exact steady_error (hx e rfl)

theorem PreparedTx.steady_txEnvOf (sender : Address) (envelope : TxEnvelope) :
    Steady (txEnvOf sender envelope) := by
  cases envelope with
  | legacy tx sig =>
    simp only [txEnvOf]
    split
    · exact steady_error (by simp)
    · exact steady_ok _
  | eip2930 tx sig => exact steady_ok _
  | eip1559 tx sig => exact steady_ok _
  | eip4844 sig => exact steady_error (by simp)
  | eip7702 tx sig => exact steady_ok _

theorem PreparedTx.steady_decode (P : Platform) (raw : Bytes) (chainId : U64) :
    Steady (PreparedTx.decode P raw chainId) := by
  apply (steady_mapError (f := .invalidTransaction) (fun _ => nofun) _).bind
  intro envelope
  apply (steady_mapError (f := .badSignature) (fun _ => nofun) _).bind
  intro sender
  apply (steady_txEnvOf sender envelope).bind
  rintro ⟨txChainId, inner⟩
  by_cases hid : txChainId ≠ chainId
  · simp only [if_pos hid]
    exact steady_error (by simp)
  · simp only [if_neg hid]
    exact steady_ok _

theorem steady_transactRaw (P : Platform) (db : InMemoryDB) (spec : KanariChainSpec)
    (prepared : PreparedTx) (number timestamp baseFee : U64) :
    Steady (transactRaw P db spec prepared number timestamp baseFee).2 := by
  unfold transactRaw
  split
  · exact steady_error (by simp)
  · exact steady_ok _

theorem steady_executeRaw (P : Platform) (db : InMemoryDB) (spec : KanariChainSpec) (raw : Bytes)
    (number timestamp baseFee : U64) :
    Steady (executeRaw P db spec raw number timestamp baseFee).2 := by
  unfold executeRaw
  split
  · rename_i e he
    exact steady_error (PreparedTx.steady_decode P raw spec.chainId e he)
  · rename_i prepared hp
    split
    · rename_i db' e he
      exact steady_error (steady_transactRaw P db spec prepared number timestamp baseFee e
        (congrArg Prod.snd he))
    · exact steady_ok _

theorem steady_replayPrior (P : Platform) (spec : KanariChainSpec) (block : SealedBlock)
    (db : InMemoryDB) (raws : List Bytes) : Steady (replayPrior P spec block db raws) := by
  induction raws generalizing db with
  | nil => exact steady_ok db
  | cons raw rest ih =>
    unfold replayPrior
    split
    · rename_i e he
      exact steady_error (PreparedTx.steady_decode P raw spec.chainId e he)
    · rename_i prepared hp
      split
      · rename_i db' e he
        exact steady_error (steady_transactRaw P db spec prepared block.number block.timestamp
          block.baseFee e (congrArg Prod.snd he))
      · exact ih _

theorem steady_replayPriors (P : Platform) (spec : KanariChainSpec) (db : InMemoryDB)
    (blocks : List SealedBlock) : Steady (replayPriors P spec db blocks) := by
  induction blocks generalizing db with
  | nil => exact steady_ok db
  | cons block rest ih =>
    unfold replayPriors
    split
    · rename_i e he
      exact steady_error (steady_replayPrior P spec block db block.txs e he)
    · exact ih _

theorem steady_traceIn (P : Platform) (db : InMemoryDB) (spec : KanariChainSpec) (tx : TxEnv)
    (number timestamp baseFee : U64) (opts : TraceOptions) :
    Steady (traceIn P db spec tx number timestamp baseFee opts).2 := by
  simp only [traceIn]
  split
  · exact steady_error (by simp)
  · exact steady_error (by simp)
  · exact steady_ok _

namespace KanariNode

variable {P : Platform} {W : Wallet} {node : KanariNode}

theorem steady_call (request : CallRequest) (now : U64) :
    Steady (node.call P request now).2 := by
  simp only [call]
  split
  · exact steady_error (by simp)
  · exact steady_ok _

theorem steady_traceTransaction (hash : B256) (opts : TraceOptions) :
    Steady (node.traceTransaction P hash opts) := by
  unfold traceTransaction
  split
  · exact steady_error (by simp)
  · split
    · exact steady_error (by simp)
    · split
      · exact steady_error (by simp)
      · apply (PreparedTx.steady_decode P _ _).bind
        intro prepared
        apply (steady_replayPriors P _ _ _).bind
        intro scratch
        exact steady_traceIn P _ _ _ _ _ _ _

theorem steady_sealRawWithFee (raw : Bytes) (number timestamp baseFee : U64) (io : SealIo) :
    Steady (node.sealRawWithFee P raw number timestamp baseFee io).2 := by
  rcases hex : executeRaw P node.db node.spec raw number timestamp baseFee with
    ⟨db, e | ⟨prepared, result⟩⟩
  · rw [sealRawWithFee_of_error hex]
    exact steady_error (steady_executeRaw P node.db node.spec raw number timestamp baseFee e
      (congrArg Prod.snd hex))
  · rw [sealRawWithFee_of_ok hex]
    rcases node.persist_cases P raw number timestamp baseFee db prepared result io with
      ⟨-, hp⟩ | ⟨-, node', msg, hp⟩
    · rw [hp]
      exact steady_ok _
    · rw [hp]
      exact steady_error (by simp)

/-- A submission overflows at the last block number, on a single node. -/
theorem sendRawTransaction_overflow_iff (raw : Bytes) (now : U64) (io : SealIo) :
    (node.sendRawTransaction P raw now io).2 = .error .overflow ↔
      node.dagSender = none ∧ checkedSucc node.blockNumber = none := by
  cases hd : node.dagSender with
  | some sender =>
    simp only [sendRawTransaction, hd]
    split <;> simp
  | none =>
    rw [sendRawTransaction_of_single P node hd]
    rcases node.sealCommitted_cases P raw now io with ⟨hnone, hs⟩ | ⟨number, hsome, hs⟩
    · simp [hs, hnone]
    · rw [hs, hsome]
      simpa using (steady_sealRawWithFee raw number now (node.sealFee P) io).ne

theorem steady_drip (toAddr : Address) (amountWei : U256) :
    Steady (node.drip P W toAddr amountWei).2 := by
  rcases node.drip_cases (P := P) (W := W) toAddr amountWei with
    ⟨reads, e, h, he⟩ | ⟨reads, secret, drip, sig, -, -, -, -, -, h⟩
  · rw [h]
    exact steady_error he
  · rw [h]
    exact steady_ok drip

theorem faucet_overflow_iff (toAddr : Address) (amountWei : U256) (now : U64) (io : SealIo) :
    (node.faucet P W toAddr amountWei now io).2 = .error .overflow ↔
      (∃ drip, (node.drip P W toAddr amountWei).2 = .ok drip) ∧ node.dagSender = none ∧
        checkedSucc node.blockNumber = none := by
  obtain ⟨db, hfst⟩ := node.drip_fst (P := P) (W := W) toAddr amountWei
  have hsteady := node.steady_drip (P := P) (W := W) toAddr amountWei
  rcases hdrip : node.drip P W toAddr amountWei with ⟨asked, e | drip⟩
  · rw [hdrip] at hsteady
    simp only [faucet, hdrip, reduceCtorEq, exists_false, false_and, iff_false]
    exact (steady_error (hsteady e rfl)).ne
  · rw [hdrip] at hfst
    simp only [faucet, hdrip, Except.ok.injEq, exists_eq', true_and]
    rw [sendRawTransaction_overflow_iff, show asked = _ from hfst]
    rfl

end KanariNode

namespace Server

variable {P : Platform} {W : Wallet} {ratio : U64 × U64 → List Char} {io : RpcIo}
  {node : KanariNode} {params : Json}

theorem withParams_eq_panicked_iff {α : Type} {parsed : Except RpcError α} {act : α → Answer} :
    withParams node parsed act = .panicked ↔ ∃ a, parsed = .ok a ∧ act a = .panicked := by
  cases parsed with
  | error e => simp [withParams]
  | ok a => simp [withParams]

theorem withParams_ne_panicked {α : Type} {parsed : Except RpcError α} {act : α → Answer}
    (h : ∀ a, act a ≠ .panicked) : withParams node parsed act ≠ .panicked := by
  rw [ne_eq, withParams_eq_panicked_iff]
  rintro ⟨a, -, ha⟩
  exact h a ha

theorem answer_eq_panicked_iff {α : Type} {render : α → Json}
    (r : KanariNode × Except NodeError α) :
    answer render r = .panicked ↔ r.2 = .error .overflow := by
  obtain ⟨node, e | a⟩ := r
  · cases e <;> simp [answer]
  · simp [answer]

theorem answer_ne_panicked {α : Type} {render : α → Json} {r : KanariNode × Except NodeError α}
    (h : Steady r.2) : answer render r ≠ .panicked := by
  rw [ne_eq, answer_eq_panicked_iff]
  exact h.ne

/-- The first parameter is an object whose gas price is read, and does not fit into 128 bits. -/
def CallTooWide (params : Json) : Prop :=
  ∃ v, param 0 params = some v ∧ GasPriceTooWide (v.asObject.getD [])

theorem withCall_eq_panicked_iff {want : String} {act : CallRequest → Answer}
    (hact : ∀ request, act request ≠ .panicked) :
    withCall node want params act = .panicked ↔ CallTooWide params := by
  rw [withCall, withParams_eq_panicked_iff, CallTooWide]
  simp only [callObject, firstParam]
  cases param 0 params with
  | none =>
    constructor
    · rintro ⟨obj, hobj, -⟩
      cases hobj
    · rintro ⟨v, hv, -⟩
      cases hv
  | some v =>
    simp only [Option.some.injEq, exists_eq_left', ← callRequestFromJson_eq_panicked_iff]
    constructor
    · rintro ⟨obj, hobj, hpanics⟩
      cases hobj
      cases hrun : (callRequestFromJson (v.asObject.getD [])).run with
      | panicked => rfl
      | returned parsed =>
        rw [hrun] at hpanics
        cases parsed with
        | error e => cases hpanics
        | ok request => exact absurd hpanics (hact request)
    · intro hrun
      refine ⟨_, rfl, ?_⟩
      rw [hrun]
      rfl

def AtLastNumber (node : KanariNode) : Prop :=
  node.dagSender = none ∧ checkedSucc node.blockNumber = none

/-- What makes the arm of a method panic. -/
def ArmPanics (P : Platform) (W : Wallet) (node : KanariNode) (params : Json) : Method → Prop
  | .ethCall => CallTooWide params
  | .ethEstimateGas => CallTooWide params
  | .debugTraceCall => CallTooWide params
  | .ethSendRawTransaction => (∃ raw, rawTxParam params = .ok raw) ∧ AtLastNumber node
  | .kanariFaucet =>
    (∃ asked, faucetParams params = .ok asked ∧
      ∃ drip, (node.drip P W asked.1 asked.2).2 = .ok drip) ∧ AtLastNumber node
  | _ => False

variable (P W ratio io node params) in
theorem arm_eq_panicked_iff (method : Method) :
    arm P W ratio io node params method = .panicked ↔ ArmPanics P W node params method := by
  have hview : ∀ (node : KanariNode) (result : Json), view node result ≠ .panicked := nofun
  cases method with
  | ethCall =>
    exact withCall_eq_panicked_iff fun request =>
      answer_ne_panicked (KanariNode.steady_call request io.now)
  | ethEstimateGas =>
    exact withCall_eq_panicked_iff fun request =>
      answer_ne_panicked (KanariNode.steady_call request io.now)
  | debugTraceCall =>
    exact withCall_eq_panicked_iff fun request => withParams_ne_panicked fun opts =>
      answer_ne_panicked (steady_traceIn P _ _ _ _ _ _ _)
  | ethSendRawTransaction =>
    simp only [arm, withParams_eq_panicked_iff, answer_eq_panicked_iff,
      KanariNode.sendRawTransaction_overflow_iff, ArmPanics, AtLastNumber, ← exists_and_right]
  | kanariFaucet =>
    simp only [arm, withParams_eq_panicked_iff, answer_eq_panicked_iff,
      KanariNode.faucet_overflow_iff, ArmPanics, AtLastNumber, ← exists_and_right, and_assoc]
  | debugTraceTransaction =>
    refine iff_of_false (withParams_ne_panicked fun h => withParams_ne_panicked fun opts =>
      answer_ne_panicked (KanariNode.steady_traceTransaction h opts)) id
  | ethGetLogs => exact iff_of_false nofun id
  | web3ClientVersion => exact iff_of_false (hview _ _) id
  | netVersion => exact iff_of_false (hview _ _) id
  | ethChainId => exact iff_of_false (hview _ _) id
  | ethBlockNumber => exact iff_of_false (hview _ _) id
  | ethSyncing => exact iff_of_false (hview _ _) id
  | netListening => exact iff_of_false (hview _ _) id
  | ethFeeHistory => exact iff_of_false (hview _ _) id
  | ethGasPrice => exact iff_of_false (hview _ _) id
  | ethMaxPriorityFeePerGas => exact iff_of_false (hview _ _) id
  | kanariSupply => exact iff_of_false (hview _ _) id
  | ethGetCode => exact iff_of_false (withParams_ne_panicked fun _ => hview _ _) id
  | ethGetBalance => exact iff_of_false (withParams_ne_panicked fun _ => hview _ _) id
  | ethGetTransactionCount => exact iff_of_false (withParams_ne_panicked fun _ => hview _ _) id
  | ethGetStorageAt => exact iff_of_false (withParams_ne_panicked fun _ => hview _ _) id
  | ethGetTransactionByHash => exact iff_of_false (withParams_ne_panicked fun _ => hview _ _) id
  | ethGetTransactionReceipt => exact iff_of_false (withParams_ne_panicked fun _ => hview _ _) id
  | ethGetBlockByHash => exact iff_of_false (withParams_ne_panicked fun _ => hview _ _) id
  | ethGetBlockByNumber => exact iff_of_false (withParams_ne_panicked fun _ => hview _ _) id
  | kanariGetSmtProof => exact iff_of_false (withParams_ne_panicked fun _ => hview _ _) id

end Server

end KanariEvm
