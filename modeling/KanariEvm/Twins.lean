import KanariEvm.Reads

namespace KanariEvm

open InMemoryDB Journaled

namespace KanariNode

/-- Nodes that agree in everything a seal writes as well, and in the mempool. -/
structure Twin (m n : KanariNode) : Prop where
  agree : Agree m n
  store : m.store = n.store
  smt : m.smt = n.smt
  dagSender : m.dagSender = n.dagSender

namespace Twin

variable {k m n : KanariNode}

theorem refl (n : KanariNode) : Twin n n := ⟨.refl n, rfl, rfl, rfl⟩

theorem symm (h : Twin m n) : Twin n m :=
  ⟨h.agree.symm, h.store.symm, h.smt.symm, h.dagSender.symm⟩

theorem trans (h : Twin k m) (h' : Twin m n) : Twin k n :=
  ⟨h.agree.trans h'.agree, h.store.trans h'.store, h.smt.trans h'.smt,
    h.dagSender.trans h'.dagSender⟩

theorem equivalence : Equivalence Twin := ⟨refl, symm, trans⟩

theorem persist (h : Twin m n) {P : Platform} (raw : Bytes) (number timestamp baseFee : U64)
    {db₁ db₂ : InMemoryDB} (prepared : PreparedTx) (result : ExecutionResult) (io : SealIo)
    (hdb : SameCache (settleFees P db₁ result baseFee) (settleFees P db₂ result baseFee)) :
    Twin (m.persist P raw number timestamp baseFee db₁ prepared result io).1
      (n.persist P raw number timestamp baseFee db₂ prepared result io).1 := by
  have hagree := (h.agree.persist raw number timestamp baseFee prepared result io hdb).1
  have hblock := h.agree.newBlock raw number timestamp baseFee result hdb
  have hreceipt := h.agree.sealedReceipt P raw prepared result number timestamp
  have hsmt : ((m.executed P db₁ result baseFee).rebuilt P).smt =
      ((n.executed P db₂ result baseFee).rebuilt P).smt := by
    simp only [rebuilt, executed, hdb.smtEntries P]
  obtain ⟨rebuild, save⟩ := io
  cases rebuild with
  | some fault => exact ⟨hagree, h.store, rfl, h.dagSender⟩
  | none =>
    cases save with
    | some msg => exact ⟨hagree, h.store, hsmt, h.dagSender⟩
    | none =>
      refine ⟨hagree, ?_, hsmt, h.dagSender⟩
      simp only [KanariNode.persist, afterSeal, h.store, hblock, hreceipt]

variable {P : Platform} (hR : P.toRevm.CacheLaws) (hdet : P.toRevm.Deterministic)

include hR hdet

theorem sealRawWithFee (h : Twin m n) (raw : Bytes) (number timestamp baseFee : U64)
    (io : SealIo) :
    Twin (m.sealRawWithFee P raw number timestamp baseFee io).1
      (n.sealRawWithFee P raw number timestamp baseFee io).1 := by
  have hc := Revm.sameCache_congruence hR
  rcases hm : executeRaw P m.db m.spec raw number timestamp baseFee with ⟨db, out⟩
  obtain ⟨db', hn, hdb⟩ := executeRaw_congr hc hdet h.agree.db hm
  rw [h.agree.spec] at hn
  rcases out with e | ⟨prepared, result⟩
  · rw [sealRawWithFee_of_error hm, sealRawWithFee_of_error hn]
    exact ⟨⟨h.agree.spec, hdb, h.agree.blocks, h.agree.receipts⟩, h.store, h.smt, h.dagSender⟩
  · rw [sealRawWithFee_of_ok hm, sealRawWithFee_of_ok hn]
    exact h.persist raw number timestamp baseFee prepared result io
      (settleFees_congr hc hdb result baseFee)

theorem sealCommitted (h : Twin m n) (raw : Bytes) (timestamp : U64) (io : SealIo) :
    Twin (m.sealCommitted P raw timestamp io).1 (n.sealCommitted P raw timestamp io).1 := by
  unfold KanariNode.sealCommitted
  rw [h.agree.blockNumber]
  cases checkedSucc n.blockNumber with
  | none => exact h
  | some number =>
    simp only [sealRaw, h.agree.pendingBaseFee P]
    exact h.sealRawWithFee hR hdet raw number timestamp _ io

theorem sealStep (h : Twin m n) (step : SealStep) (io : SealIo) :
    Twin (m.sealStep P io step).1 (n.sealStep P io step).1 := by
  cases step with
  | committed raw timestamp => exact h.sealCommitted hR hdet raw timestamp io
  | send raw now =>
    simp only [KanariNode.sealStep]
    rcases Option.eq_none_or_eq_some m.dagSender with hd | ⟨sender, hd⟩
    · rw [m.sendRawTransaction_of_single P hd,
        n.sendRawTransaction_of_single P (h.dagSender.symm.trans hd)]
      exact h.sealCommitted hR hdet raw now io
    · simp only [sendRawTransaction, hd, h.dagSender.symm.trans hd]
      cases sender.trySend [raw] with
      | error e => exact h
      | ok sender' =>
        exact ⟨⟨h.agree.spec, h.agree.db, h.agree.blocks, h.agree.receipts⟩, h.store, h.smt, rfl⟩

theorem requestReads (h : Twin m n) (request : ReadRequest) :
    m.requestReads P request = n.requestReads P request := by
  have hc := Revm.sameCache_congruence hR
  have htx : ∀ call, (m.callTx P call).2 = (n.callTx P call).2 := by
    intro call
    have hnonce := h.agree.nonceOf hR (call.fromAddr.getD 0)
    rw [callTx_snd, callTx_snd, hnonce, h.agree.pendingBaseFee P, h.agree.spec]
  have hparams : ∀ call now, (m.callTx P call).1.headParams P now =
      (n.callTx P call).1.headParams P now := by
    intro call now
    have hm : (m.callTx P call).1.headParams P now = m.headParams P now := by
      rw [callTx_fst]
      rfl
    have hn : (n.callTx P call).1.headParams P now = n.headParams P now := by
      rw [callTx_fst]
      rfl
    rw [hm, hn, headParams, headParams, h.agree.pendingBaseFee P, h.agree.spec,
      h.agree.blockNumber]
  -- a call looks its nonce up, then runs at the head: both find the same on twins
  have hcall : ∀ call now, m.callReads P call now = n.callReads P call now := by
    intro call now
    have hdb : SameCache (m.callTx P call).1.db (n.callTx P call).1.db := by
      rw [callTx_fst, callTx_fst]
      exact hc.readAll _ h.agree.db
    simp only [callReads, htx call, hparams call now, hdet.reads _ _ hdb.sameLogical]
  cases request with
  | call call now => exact hcall call now
  | traceCall call now opts => exact hcall call now
  | _ => rfl

theorem perform (h : Twin m n) (op : Op) : Twin (m.perform P op) (n.perform P op) := by
  cases op with
  | attempt step io => exact h.sealStep hR hdet step io
  | read request =>
    simp only [KanariNode.perform, serve_eq, h.requestReads hR hdet]
    have hdb := (Revm.sameCache_congruence hR).readAll (n.requestReads P request) h.agree.db
    exact ⟨⟨h.agree.spec, hdb, h.agree.blocks, h.agree.receipts⟩, h.store, h.smt, h.dagSender⟩

theorem bisim : (nodeMachine P).Bisim Twin where
  next op h := h.perform hR hdet op
  entry op h := by
    simp only [nodeMachine, appended, h.agree.blocks, (h.perform hR hdet op).agree.blocks]

omit hdet

theorem serve_of_quiet {request : ReadRequest} (h : n.ServesQuietly P request) :
    Twin (n.serve P request) n := by
  rw [serve_eq]
  exact ⟨⟨rfl, Revm.readAll_sameCache_of_quiet hR h, rfl, rfl⟩, rfl, rfl, rfl⟩

theorem noise_of_quietRun {ops : List Op} (h : QuietRun P n ops) :
    (nodeMachine P).Noise Twin Op.isAttempt n ops := by
  induction ops generalizing n with
  | nil => trivial
  | cons op rest ih =>
    refine ⟨fun hop => ?_, ih h.2⟩
    cases op with
    | attempt step io => simp [Op.isAttempt] at hop
    | read request =>
      refine ⟨serve_of_quiet hR h.1, appended_of_blocks_eq ?_⟩
      simp only [KanariNode.perform, serve_eq]

end Twin

end KanariNode

end KanariEvm
