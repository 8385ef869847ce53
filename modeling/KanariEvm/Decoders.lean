import KanariEvm.ReceiptFees

namespace KanariEvm

/-- The fields that both decoders fill in, apart from the transaction type. -/
structure SameFields (env : TxEnv) (view : TxView) : Prop where
  nonce : env.nonce = view.nonce
  gasLimit : env.gasLimit = view.gasLimit
  recipient : env.kind.recipient = view.toAddr
  value : env.value = view.value
  input : env.data = view.input
  chainId : env.chainId = some view.chainId

/-- The two types whose arms leave `tx_type` to its default. -/
def TxEnvelope.TypeDropped : TxEnvelope → Prop
  | .eip2930 _ _ => True
  | .eip1559 _ _ => True
  | _ => False

theorem viewOf_of_txEnvOf {sender : Address} {envelope : TxEnvelope} {chainId : U64}
    {inner : TxEnv} (h : PreparedTx.txEnvOf sender envelope = .ok (chainId, inner))
    (baseFee : U128) :
    ∃ view, viewOf baseFee envelope = some view ∧ SameFields inner view ∧
      view.chainId = chainId ∧ (inner.txType = view.txType ↔ ¬envelope.TypeDropped) := by
  cases envelope with
  | legacy tx sig =>
    cases hid : tx.chainId with
    | none => simp [PreparedTx.txEnvOf, hid] at h
    | some id =>
      simp only [PreparedTx.txEnvOf, hid, Except.ok.injEq, Prod.mk.injEq] at h
      obtain ⟨rfl, rfl⟩ := h
      simp only [viewOf, hid, Option.bind_eq_bind, Option.bind_some]
      exact ⟨_, rfl, ⟨rfl, rfl, rfl, rfl, rfl, rfl⟩, rfl, by simp [TxEnvelope.TypeDropped]⟩
  | eip2930 tx sig =>
    simp only [PreparedTx.txEnvOf, Except.ok.injEq, Prod.mk.injEq] at h
    obtain ⟨rfl, rfl⟩ := h
    exact ⟨_, rfl, ⟨rfl, rfl, rfl, rfl, rfl, rfl⟩, rfl, by simp [TxEnvelope.TypeDropped]⟩
  | eip1559 tx sig =>
    simp only [PreparedTx.txEnvOf, Except.ok.injEq, Prod.mk.injEq] at h
    obtain ⟨rfl, rfl⟩ := h
    exact ⟨_, rfl, ⟨rfl, rfl, rfl, rfl, rfl, rfl⟩, rfl, by simp [TxEnvelope.TypeDropped]⟩
  | eip4844 sig => simp [PreparedTx.txEnvOf] at h
  | eip7702 tx sig =>
    simp only [PreparedTx.txEnvOf, Except.ok.injEq, Prod.mk.injEq] at h
    obtain ⟨rfl, rfl⟩ := h
    exact ⟨_, rfl, ⟨rfl, rfl, rfl, rfl, rfl, rfl⟩, rfl, by simp [TxEnvelope.TypeDropped]⟩

theorem exists_decode {P : Platform} {raw : Bytes} {envelope : TxEnvelope} {sender : Address}
    {chainId : U64} {inner : TxEnv} (he : P.decode2718Exact raw = .ok envelope)
    (hs : P.recoverSigner envelope = .ok sender)
    (htx : PreparedTx.txEnvOf sender envelope = .ok (chainId, inner)) :
    ∃ prepared, PreparedTx.decode P raw chainId = .ok prepared :=
  ⟨⟨sender, inner.kind.recipient, inner⟩,
    PreparedTx.decode_ok_iff.mpr ⟨envelope, he, hs, htx, rfl⟩⟩

theorem txEnvOf_of_viewOf {envelope : TxEnvelope} {baseFee : U128} {view : TxView}
    (h : viewOf baseFee envelope = some view) (sender : Address) :
    ∃ inner, PreparedTx.txEnvOf sender envelope = .ok (view.chainId, inner) := by
  cases envelope with
  | legacy tx sig =>
    cases hid : tx.chainId with
    | none => simp [viewOf, hid] at h
    | some id =>
      simp only [viewOf, hid, Option.bind_eq_bind, Option.bind_some] at h
      cases h
      simp only [PreparedTx.txEnvOf, hid]
      exact ⟨_, rfl⟩
  | eip2930 tx sig =>
    cases h
    exact ⟨_, rfl⟩
  | eip1559 tx sig =>
    cases h
    exact ⟨_, rfl⟩
  | eip4844 sig => cases h
  | eip7702 tx sig =>
    cases h
    exact ⟨_, rfl⟩

/-- The two decoders agree on a byte string: what is executed is shown, field by field, and what is
shown for this chain with a recoverable signer is executed. -/
structure DecodersAgree (P : Platform) (raw : Bytes) (chainId : U64) : Prop where
  shown : ∀ prepared, PreparedTx.decode P raw chainId = .ok prepared → ∀ baseFee,
    ∃ view, decodeTxView P raw baseFee = some view ∧ SameFields prepared.inner view ∧
      prepared.toAddr = view.toAddr ∧ view.chainId = chainId ∧
      prepared.inner.txType = view.txType
  executed : ∀ baseFee view, decodeTxView P raw baseFee = some view → view.chainId = chainId →
    (∃ envelope sender, P.decode2718Exact raw = .ok envelope ∧
      P.recoverSigner envelope = .ok sender) →
    ∃ prepared, PreparedTx.decode P raw chainId = .ok prepared

/-- The bytes hold an EIP-2930 or EIP-1559 transaction of this chain with a recoverable signer. -/
def DropsType (P : Platform) (raw : Bytes) (chainId : U64) : Prop :=
  ∃ envelope sender, P.decode2718Exact raw = .ok envelope ∧
    P.recoverSigner envelope = .ok sender ∧
    match envelope with
    | .eip2930 tx _ => tx.chainId = chainId
    | .eip1559 tx _ => tx.chainId = chainId
    | _ => False

theorem dropsType_iff {P : Platform} {raw : Bytes} {chainId : U64} :
    DropsType P raw chainId ↔ ∃ prepared envelope,
      PreparedTx.decode P raw chainId = .ok prepared ∧ P.decode2718Exact raw = .ok envelope ∧
        envelope.TypeDropped := by
  constructor
  · rintro ⟨envelope, sender, he, hs, hmatch⟩
    cases envelope with
    | legacy tx sig => exact hmatch.elim
    | eip2930 tx sig =>
      obtain rfl : tx.chainId = chainId := hmatch
      obtain ⟨prepared, hdecode⟩ := exists_decode he hs rfl
      exact ⟨prepared, _, hdecode, he, trivial⟩
    | eip1559 tx sig =>
      obtain rfl : tx.chainId = chainId := hmatch
      obtain ⟨prepared, hdecode⟩ := exists_decode he hs rfl
      exact ⟨prepared, _, hdecode, he, trivial⟩
    | eip4844 sig => exact hmatch.elim
    | eip7702 tx sig => exact hmatch.elim
  · rintro ⟨prepared, envelope, hdecode, he, hdropped⟩
    obtain ⟨_, he', hs, htx, -⟩ := PreparedTx.decode_ok_iff.mp hdecode
    cases he.symm.trans he'
    refine ⟨envelope, prepared.sender, he, hs, ?_⟩
    cases envelope with
    | legacy tx sig => exact hdropped.elim
    | eip2930 tx sig =>
      simp only [PreparedTx.txEnvOf, Except.ok.injEq, Prod.mk.injEq] at htx
      exact htx.1
    | eip1559 tx sig =>
      simp only [PreparedTx.txEnvOf, Except.ok.injEq, Prod.mk.injEq] at htx
      exact htx.1
    | eip4844 sig => exact hdropped.elim
    | eip7702 tx sig => exact hdropped.elim

/-- The decoders agree on exactly the byte strings that hold no accepted EIP-2930 or EIP-1559
transaction: those are executed as legacy ones and shown as what they are. -/
theorem decoders_agree_iff (P : Platform) (raw : Bytes) (chainId : U64) :
    DecodersAgree P raw chainId ↔ ¬DropsType P raw chainId := by
  rw [dropsType_iff]
  constructor
  · rintro h ⟨prepared, envelope, hdecode, he, hdropped⟩
    obtain ⟨_, he', -, htx, -⟩ := PreparedTx.decode_ok_iff.mp hdecode
    cases he.symm.trans he'
    obtain ⟨view, hview, -, -, -, htype⟩ := h.shown prepared hdecode 0
    obtain ⟨view', hview', -, -, htypes⟩ := viewOf_of_txEnvOf htx 0
    simp only [decodeTxView, he, Except.toOption, Option.bind_some, hview'] at hview
    cases hview
    exact htypes.mp htype hdropped
  · intro hkept
    constructor
    · intro prepared hdecode baseFee
      obtain ⟨envelope, he, hs, htx, hto⟩ := PreparedTx.decode_ok_iff.mp hdecode
      obtain ⟨view, hview, hfields, hid, htype⟩ := viewOf_of_txEnvOf htx baseFee
      refine ⟨view, ?_, hfields, ?_, hid, ?_⟩
      · simp only [decodeTxView, he, Except.toOption, Option.bind_some, hview]
      · rw [hto, ← hfields.recipient]
        rfl
      · exact htype.mpr fun hdropped => hkept ⟨prepared, envelope, hdecode, he, hdropped⟩
    · rintro baseFee view hview rfl ⟨envelope, sender, he, hs⟩
      simp only [decodeTxView, he, Except.toOption, Option.bind_some] at hview
      obtain ⟨inner, hinner⟩ := txEnvOf_of_viewOf hview sender
      exact exists_decode he hs hinner

/-- An EIP-1559 transfer is executed with type 0 and shown with type 2. -/
theorem capped_transfer_changes_type :
    ¬DecodersAgree Reference.platform Reference.capped0 19088 := by
  intro h
  have hdecode : PreparedTx.decode Reference.platform Reference.capped0 19088 =
      .ok (Reference.prepared 0 3000000000 (some 1000000000)) :=
    eq_ok_of_toOption (by decide +kernel)
  obtain ⟨view, hview, -, -, -, htype⟩ := h.shown _ hdecode 0
  have hshown : (decodeTxView Reference.platform Reference.capped0 0).map (·.txType) = some 2 := by
    decide +kernel
  rw [hview, Option.map_some, Option.some.injEq, ← htype] at hshown
  exact absurd hshown (by decide)

end KanariEvm
