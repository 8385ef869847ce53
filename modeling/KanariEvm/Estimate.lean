import KanariEvm.Dispatch
import KanariEvm.Payment
import KanariEvm.Reads

namespace KanariEvm

/-- Gas is metered before refunds: what a message uses is what it spends less its refund, and a
successful message does not come through with less than it spends. -/
structure Revm.MetersGas (R : Revm) (spent refund : InMemoryDB → KanariEvmParams → TxEnv → ℕ) :
    Prop where
  used : ∀ {db params tx result state}, R.outcome db params tx = .ok (result, state) →
    result.gasUsed.toNat + refund db params tx = spent db params tx
  starved : ∀ {db params tx gas logs output state} (limit : U64),
    R.outcome db params tx = .ok (.success gas logs output, state) →
    limit.toNat < spent db params tx → ∀ {result state'},
    R.outcome db params { tx with gasLimit := limit } = .ok (result, state') →
    ∃ gas, result = .halt gas

namespace KanariNode

variable (P : Platform) (node : KanariNode) (request : CallRequest) (now : U64)

def callAt (limit : U64) : Except String (ExecutionResult × EvmState) :=
  let (asked, tx) := node.callTx P request
  P.outcome asked.db (asked.headParams P now) { tx with gasLimit := limit }

def Succeeds : Prop := ∃ result, (node.call P request now).2 = .ok result ∧ result.success = true

theorem callTx_withGas (limit : U64) : node.callTx P { request with gas := some limit } =
    ((node.callTx P request).1, { (node.callTx P request).2 with gasLimit := limit }) := by
  apply Prod.ext
  · simp only [callTx_fst, nonceReads]
  · simp only [callTx_snd, callMessage, Option.getD_some]

/-- What a call answers for a run of its message. -/
def runAnswer : Except String (ExecutionResult × EvmState) → Except NodeError CallResult
  | .error e => .error (.execution e)
  | .ok (result, _) => .ok (CallResult.fromOutput result)

theorem call_eq : (node.call P request now).2 =
    runAnswer (P.outcome (node.callTx P request).1.db
      ((node.callTx P request).1.headParams P now) (node.callTx P request).2) := by
  cases hrun : P.outcome (node.callTx P request).1.db ((node.callTx P request).1.headParams P now)
      (node.callTx P request).2 with
  | error e => simp only [call, Revm.transact, hrun, runAnswer]
  | ok out => simp only [call, Revm.transact, hrun, runAnswer]

theorem call_withGas (limit : U64) : (node.call P { request with gas := some limit } now).2 =
    runAnswer (node.callAt P request now limit) := by
  rw [call_eq, callTx_withGas, callAt]

theorem call_default (h : request.gas = none) : (node.call P request now).2 =
    runAnswer (node.callAt P request now defaultCallGas) := by
  have hlimit : (node.callTx P request).2 =
      { (node.callTx P request).2 with gasLimit := defaultCallGas } := by
    simp only [callTx_snd, callMessage, h, Option.getD_none]
  rw [call_eq]
  simp only [callAt]
  rw [← hlimit]

theorem fromOutput_success {result : ExecutionResult} :
    (CallResult.fromOutput result).success = true ↔
      ∃ gas logs output, result = .success gas logs output := by
  cases result with
  | success gas logs output => exact ⟨fun _ => ⟨gas, logs, output, rfl⟩, fun _ => rfl⟩
  | revert gas output => exact ⟨fun h => (by cases h), fun ⟨_, _, _, h⟩ => (by cases h)⟩
  | halt gas => exact ⟨fun h => (by cases h), fun ⟨_, _, _, h⟩ => (by cases h)⟩

theorem fromOutput_gasUsed (result : ExecutionResult) :
    (CallResult.fromOutput result).gasUsed = result.gasUsed := by
  cases result <;> rfl

def SucceedsAt (limit : U64) : Prop :=
  ∃ gas logs output state,
    node.callAt P request now limit = .ok (.success gas logs output, state)

variable {P node request now}

theorem succeeds_of_run {request' : CallRequest} {limit : U64}
    (h : (node.call P request' now).2 = runAnswer (node.callAt P request now limit)) :
    node.Succeeds P request' now ↔ node.SucceedsAt P request now limit := by
  unfold Succeeds SucceedsAt
  rw [h]
  cases hrun : node.callAt P request now limit with
  | error e =>
    constructor
    · rintro ⟨result, hresult, -⟩
      cases hresult
    · rintro ⟨_, _, _, _, hresult⟩
      cases hresult
  | ok out =>
    obtain ⟨result, state⟩ := out
    constructor
    · rintro ⟨_, hresult, hsuccess⟩
      cases hresult
      obtain ⟨gas, logs, output, rfl⟩ := fromOutput_success.mp hsuccess
      exact ⟨gas, logs, output, state, rfl⟩
    · rintro ⟨gas, logs, output, state', hresult⟩
      cases hresult
      exact ⟨_, rfl, rfl⟩

theorem succeeds_withGas (limit : U64) :
    node.Succeeds P { request with gas := some limit } now ↔
      node.SucceedsAt P request now limit :=
  succeeds_of_run (call_withGas P node request now limit)

theorem succeeds_default (h : request.gas = none) :
    node.Succeeds P request now ↔ node.SucceedsAt P request now defaultCallGas :=
  succeeds_of_run (call_default P node request now h)

/-- An answer of `eth_estimateGas` keeps its word: the message succeeds with the gas it names, and
a message that fails gets an error. -/
structure Estimates (P : Platform) (node : KanariNode) (request : CallRequest) (now : U64)
    (answer : Server.Answer) : Prop where
  enough : ∀ {node'} {g : U64}, answer = .returned (node', .ok (.quantity g)) →
    node.Succeeds P { request with gas := some g } now
  failure : ¬node.Succeeds P request now → ∃ node' e, answer = .returned (node', .error e)

def meter (P : Platform) (gauge : InMemoryDB → KanariEvmParams → TxEnv → ℕ) (node : KanariNode)
    (request : CallRequest) (now : U64) : ℕ :=
  let (asked, tx) := node.callTx P request
  gauge asked.db (asked.headParams P now) { tx with gasLimit := defaultCallGas }

/-- revm turns the message down, or it succeeds at the default limit, earns no refund, and needs no
more gas at hand than it spends. -/
def NeedsWhatItSpends (P : Platform) (spent refund : InMemoryDB → KanariEvmParams → TxEnv → ℕ)
    (node : KanariNode) (request : CallRequest) (now : U64) : Prop :=
  (∃ e, node.callAt P request now defaultCallGas = .error e) ∨
    (node.SucceedsAt P request now defaultCallGas ∧ node.meter P refund request now = 0 ∧
      node.SucceedsAt P request now (BitVec.ofNat 64 (node.meter P spent request now)))

theorem arm_estimateGas (W : Wallet) (ratio : U64 × U64 → List Char) (io : Server.RpcIo)
    {params : Json} {obj : JsonFields}
    (hobj : Server.callObject "want [\x7b...\x7d, block]" params = .ok obj)
    (hrequest : (callRequestFromJson obj).run = .returned (.ok request))
    (hnone : request.gas = none) :
    Server.arm P W ratio io node params .ethEstimateGas =
      match node.callAt P request io.now defaultCallGas with
      | .error e =>
        .returned ((node.call P request io.now).1, .error ⟨-32000, (NodeError.execution e).message⟩)
      | .ok (result, _) =>
        .returned ((node.call P request io.now).1, .ok (.quantity result.gasUsed)) := by
  have hcall := call_default P node request io.now hnone
  simp only [Server.arm, Server.withCall, Server.withParams, hobj, hrequest,
    Outcome.returned_bind]
  rw [← Prod.eta (node.call P request io.now), hcall]
  cases node.callAt P request io.now defaultCallGas with
  | error e => rfl
  | ok out =>
    obtain ⟨result, state⟩ := out
    simp only [Server.answer, runAnswer, fromOutput_gasUsed]

variable {spent refund : InMemoryDB → KanariEvmParams → TxEnv → ℕ}

/-- The estimate of a successful message suffices when nothing is refunded and its gas is enough at
hand, and only then. -/
theorem enough_iff (hmeter : P.toRevm.MetersGas spent refund) {gas : U64} {logs : List Log}
    {output : Output} {state : EvmState}
    (hrun : node.callAt P request now defaultCallGas = .ok (.success gas logs output, state)) :
    node.SucceedsAt P request now gas ↔ node.meter P refund request now = 0 ∧
      node.SucceedsAt P request now (BitVec.ofNat 64 (node.meter P spent request now)) := by
  have hused : gas.toNat + node.meter P refund request now = node.meter P spent request now :=
    hmeter.used hrun
  constructor
  · rintro ⟨gas', logs', output', state', hagain⟩
    have hzero : node.meter P refund request now = 0 := by
      by_contra hne
      obtain ⟨_, hhalt⟩ := hmeter.starved gas hrun
        (show gas.toNat < node.meter P spent request now by omega) hagain
      cases hhalt
    refine ⟨hzero, gas', logs', output', state', ?_⟩
    rw [← hused, hzero, Nat.add_zero, BitVec.ofNat_toNat, BitVec.setWidth_eq]
    exact hagain
  · rintro ⟨hzero, hsucceeds⟩
    rwa [← hused, hzero, Nat.add_zero, BitVec.ofNat_toNat, BitVec.setWidth_eq] at hsucceeds

/-- `eth_estimateGas` keeps its word on a request without a gas field exactly when revm turns the
message down, or it succeeds, earns no refund and needs no more gas at hand than it spends. -/
theorem estimates_iff (W : Wallet) (ratio : U64 × U64 → List Char) (io : Server.RpcIo)
    {params : Json} {obj : JsonFields} (hmeter : P.toRevm.MetersGas spent refund)
    (hobj : Server.callObject "want [\x7b...\x7d, block]" params = .ok obj)
    (hrequest : (callRequestFromJson obj).run = .returned (.ok request))
    (hnone : request.gas = none) :
    node.Estimates P request io.now (Server.arm P W ratio io node params .ethEstimateGas) ↔
      node.NeedsWhatItSpends P spent refund request io.now := by
  rw [arm_estimateGas W ratio io hobj hrequest hnone]
  cases hrun : node.callAt P request io.now defaultCallGas with
  | error e =>
    refine iff_of_true ⟨fun h => (by cases h), fun _ => ⟨_, _, rfl⟩⟩ (.inl ⟨e, hrun⟩)
  | ok out =>
    obtain ⟨result, state⟩ := out
    constructor
    · intro h
      have hsucceeds : node.SucceedsAt P request io.now defaultCallGas := by
        by_contra hfails
        obtain ⟨node', e, herror⟩ := h.failure fun hs => hfails ((succeeds_default hnone).mp hs)
        cases herror
      refine .inr ⟨hsucceeds, ?_⟩
      obtain ⟨gas, logs, output, state', hsuccess⟩ := hsucceeds
      rw [hrun] at hsuccess
      cases hsuccess
      exact (enough_iff hmeter hrun).mp ((succeeds_withGas gas).mp (h.enough rfl))
    · rintro (⟨e, herror⟩ | ⟨hsucceeds, hneeds⟩)
      · rw [hrun] at herror
        cases herror
      · refine ⟨?_, fun hfails => absurd ((succeeds_default hnone).mpr hsucceeds) hfails⟩
        intro node' g hanswer
        obtain ⟨gas, logs, output, state', hsuccess⟩ := hsucceeds
        rw [hrun] at hsuccess
        cases hsuccess
        have hg : gas = g := by
          simp only [Outcome.returned.injEq, Prod.mk.injEq, Except.ok.injEq, Json.quantity,
            Json.str.injEq] at hanswer
          exact quantity_injective hanswer.2
        rw [← hg]
        exact (succeeds_withGas gas).mpr ((enough_iff hmeter hrun).mpr hneeds)

end KanariNode

namespace Payment

def spent (db : InMemoryDB) (_ : KanariEvmParams) (tx : TxEnv) : ℕ :=
  match tx.kind with
  | .create => 0
  | .call dest => (result db tx dest).gasUsed.toNat

theorem metersGas : platform.toRevm.MetersGas spent fun _ _ _ => 0 where
  used {db params tx ran state} h := by
    obtain ⟨dest, hkind, -, rfl, -⟩ := outcome_ok h
    simp only [spent, hkind, Nat.add_zero]
  starved {db params tx gas logs output state} limit h hlimit ran state' h' := by
    obtain ⟨dest, hkind, -, hresult, -⟩ := outcome_ok h
    obtain ⟨dest', hkind', ⟨-, -, -, ⟨hgas, -, -⟩, -⟩, -, -⟩ := outcome_ok h'
    -- only a message to an account without code succeeds, and it spends the intrinsic gas
    have hspent : spent db params tx = intrinsicGas.toNat := by
      simp only [spent, hkind]
      unfold result at hresult ⊢
      split_ifs at hresult ⊢ with hcode
      rfl
    rw [hspent] at hlimit
    exact absurd hgas (Nat.not_le.mpr hlimit)

/-- The development chain, with the refusing contract in its genesis. -/
def node : KanariNode :=
  KanariNode.created platform { Reference.spec with genesisCode := [(vault, refusal)] }

def callTo (dest : String) : JsonFields :=
  [("from", .text "0xf39fd6e51aad88f6f4ce6ab8827279cfffb92266"), ("to", .text dest)]

def plainCall : JsonFields := callTo "0x000000000000000000000000000000000000dead"

def vaultCall : JsonFields := callTo "0x000000000000000000000000000000000000c0de"

def noRatio : U64 × U64 → List Char := fun _ => "0.0".toList

def requestTo (dest : Address) : CallRequest :=
  { fromAddr := some Reference.funded, toAddr := some dest }

end Payment

namespace KanariNode

theorem callAt_of_eval {P : Platform} {node : KanariNode} {request : CallRequest}
    {now limit : U64} {result : ExecutionResult}
    (h : (node.callAt P request now limit).map (·.1) = .ok result) :
    ∃ state, node.callAt P request now limit = .ok (result, state) := by
  cases hrun : node.callAt P request now limit with
  | error e =>
    rw [hrun] at h
    cases h
  | ok out =>
    rw [hrun] at h
    obtain ⟨result', state⟩ := out
    cases h
    exact ⟨state, rfl⟩

theorem succeedsAt_of_eval {P : Platform} {node : KanariNode} {request : CallRequest}
    {now limit : U64} (gas : U64) (logs : List Log) (output : Output)
    (h : (node.callAt P request now limit).map (·.1) = .ok (.success gas logs output)) :
    node.SucceedsAt P request now limit := by
  obtain ⟨state, hrun⟩ := callAt_of_eval h
  exact ⟨gas, logs, output, state, hrun⟩

theorem estimates_plain :
    Payment.node.SucceedsAt Payment.platform (Payment.requestTo Reference.recipient) 5 21000 ∧
      Payment.node.Estimates Payment.platform (Payment.requestTo Reference.recipient) 5
        (Server.arm Payment.platform DevWallet.wallet Payment.noRatio ⟨5, .healthy⟩ Payment.node
          (.arr [.obj Payment.plainCall]) .ethEstimateGas) := by
  have hdefault : Payment.node.SucceedsAt Payment.platform
      (Payment.requestTo Reference.recipient) 5 defaultCallGas :=
    succeedsAt_of_eval 21000 [] (.call []) (by decide +kernel)
  have hspent : Payment.node.SucceedsAt Payment.platform
      (Payment.requestTo Reference.recipient) 5 21000 :=
    succeedsAt_of_eval 21000 [] (.call []) (by decide +kernel)
  refine ⟨hspent, (estimates_iff DevWallet.wallet Payment.noRatio ⟨5, .healthy⟩ Payment.metersGas
    rfl (show (callRequestFromJson Payment.plainCall).run = _ by decide +kernel) rfl).mpr
      (.inr ⟨hdefault, rfl, hspent⟩)⟩

/-- A message that its recipient reverts is quoted 21006 and no error. -/
theorem refused_call_gets_estimate :
    (∃ node', Server.arm Payment.platform DevWallet.wallet Payment.noRatio ⟨5, .healthy⟩
        Payment.node (.arr [.obj Payment.vaultCall]) .ethEstimateGas =
          .returned (node', .ok (.quantity (21006 : U64)))) ∧
      ¬Payment.node.Succeeds Payment.platform (Payment.requestTo Payment.vault) 5 ∧
      ¬Payment.node.Estimates Payment.platform (Payment.requestTo Payment.vault) 5
        (Server.arm Payment.platform DevWallet.wallet Payment.noRatio ⟨5, .healthy⟩ Payment.node
          (.arr [.obj Payment.vaultCall]) .ethEstimateGas) := by
  obtain ⟨state, hrun⟩ : ∃ state, Payment.node.callAt Payment.platform
      (Payment.requestTo Payment.vault) 5 defaultCallGas = .ok (.revert 21006 [], state) :=
    callAt_of_eval (by decide +kernel)
  have hrequest : (callRequestFromJson Payment.vaultCall).run =
      .returned (.ok (Payment.requestTo Payment.vault)) := by decide +kernel
  obtain ⟨node', hanswer⟩ : ∃ node', Server.arm Payment.platform DevWallet.wallet Payment.noRatio
      ⟨5, .healthy⟩ Payment.node (.arr [.obj Payment.vaultCall]) .ethEstimateGas =
        .returned (node', .ok (.quantity (21006 : U64))) := by
    rw [arm_estimateGas DevWallet.wallet Payment.noRatio ⟨5, .healthy⟩ rfl hrequest rfl, hrun]
    exact ⟨_, rfl⟩
  have hfails : ¬Payment.node.Succeeds Payment.platform (Payment.requestTo Payment.vault) 5 := by
    rw [succeeds_default rfl]
    rintro ⟨_, _, _, _, hsuccess⟩
    rw [hrun] at hsuccess
    cases hsuccess
  refine ⟨⟨node', hanswer⟩, hfails, fun h => ?_⟩
  obtain ⟨_, e, herror⟩ := h.failure hfails
  rw [hanswer] at herror
  cases herror

end KanariNode

end KanariEvm
