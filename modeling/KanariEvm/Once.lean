import KanariEvm.ReceiptFees
import KanariEvm.Reopening

namespace KanariEvm

open InMemoryDB Journaled

theorem PreparedTx.decode_caller {P : Platform} {raw : Bytes} {chainId : U64}
    {prepared : PreparedTx} (h : PreparedTx.decode P raw chainId = .ok prepared) :
    prepared.inner.caller = prepared.sender := by
  obtain ⟨envelope, -, -, henv, -⟩ := PreparedTx.decode_ok_iff.mp h
  cases envelope with
  | legacy tx sig =>
    cases hid : tx.chainId with
    | none => simp [PreparedTx.txEnvOf, hid] at henv
    | some id =>
      simp only [PreparedTx.txEnvOf, hid, Except.ok.injEq, Prod.mk.injEq] at henv
      rw [← henv.2]
  | eip2930 tx sig =>
    simp only [PreparedTx.txEnvOf, Except.ok.injEq, Prod.mk.injEq] at henv
    rw [← henv.2]
  | eip1559 tx sig =>
    simp only [PreparedTx.txEnvOf, Except.ok.injEq, Prod.mk.injEq] at henv
    rw [← henv.2]
  | eip4844 sig => simp [PreparedTx.txEnvOf] at henv
  | eip7702 tx sig =>
    simp only [PreparedTx.txEnvOf, Except.ok.injEq, Prod.mk.injEq] at henv
    rw [← henv.2]

/-- The sender of the transaction has moved past its nonce. -/
def InMemoryDB.Passed (db : InMemoryDB) (tx : TxEnv) : Prop :=
  tx.nonce.toNat < (db.logical tx.caller).nonce.toNat

section Passed

variable {P : Platform} {db db' : InMemoryDB} {spec : KanariChainSpec} {prepared : PreparedTx}
  {number timestamp baseFee : U64} {result : ExecutionResult}

theorem InMemoryDB.Passed.settleFees (hR : P.toRevm.CacheLaws) {tx : TxEnv} (h : db.Passed tx)
    (result : ExecutionResult) (baseFee : U64) :
    (KanariNode.settleFees P db result baseFee).Passed tx := by
  unfold InMemoryDB.Passed
  rw [settleFees_nonce hR]
  exact h

variable (hn : P.toRevm.CountsNonces)
  (h : transactRaw P db spec prepared number timestamp baseFee = (db', .ok result))

include hn h

theorem nonce_of_transactRaw : (db.logical prepared.inner.caller).nonce = prepared.inner.nonce := by
  obtain ⟨state, hout, -⟩ := transactRaw_ok h
  exact hn.checked hout

theorem passed_of_transactRaw : db'.Passed prepared.inner := by
  obtain ⟨state, hout, rfl⟩ := transactRaw_ok h
  have hlt := hn.raised hout
  rw [hn.checked hout] at hlt
  exact hlt

theorem InMemoryDB.Passed.transactRaw {tx : TxEnv} (hp : db.Passed tx) : db'.Passed tx := by
  obtain ⟨state, hout, rfl⟩ := transactRaw_ok h
  exact Nat.lt_of_lt_of_le hp (hn.kept tx.caller hout)

end Passed

namespace KanariNode

variable {P : Platform} {node : KanariNode}

def sealedTxs (node : KanariNode) : List Bytes := node.blocks.flatMap (·.txs)

/-- The two transactions do not share sender and nonce. -/
def Apart (P : Platform) (chainId : U64) (raw raw' : Bytes) : Prop :=
  ∀ prepared prepared', PreparedTx.decode P raw chainId = .ok prepared →
    PreparedTx.decode P raw' chainId = .ok prepared' →
      (prepared.sender, prepared.inner.nonce) ≠ (prepared'.sender, prepared'.inner.nonce)

/-- Every transaction of the chain has used up its nonce, and no two had it in common. -/
structure Exhausted (P : Platform) (node : KanariNode) : Prop where
  passed : ∀ raw ∈ node.sealedTxs, ∃ prepared,
    PreparedTx.decode P raw node.spec.chainId = .ok prepared ∧ node.db.Passed prepared.inner
  apart : node.sealedTxs.Pairwise (Apart P node.spec.chainId)

namespace Exhausted

theorem of_nil (h : node.blocks = []) : node.Exhausted P := by
  have hnil : node.sealedTxs = [] := by rw [sealedTxs, h, List.flatMap_nil]
  exact ⟨fun raw hraw => absurd (hnil ▸ hraw) List.not_mem_nil, hnil ▸ List.Pairwise.nil⟩

theorem nodup (h : node.Exhausted P) : node.sealedTxs.Nodup := by
  refine List.Pairwise.imp_of_mem (fun {raw raw'} hmem _ hapart heq => ?_) h.apart
  obtain ⟨prepared, hdecode, -⟩ := h.passed raw hmem
  exact hapart prepared prepared hdecode (heq ▸ hdecode) rfl

theorem of_same (h : node.Exhausted P) {node' : KanariNode} (hspec : node'.spec = node.spec)
    (hblocks : node'.blocks = node.blocks)
    (hdb : ∀ tx, node.db.Passed tx → node'.db.Passed tx) : node'.Exhausted P := by
  have htxs : node'.sealedTxs = node.sealedTxs := by rw [sealedTxs, hblocks, sealedTxs]
  constructor
  · rw [htxs, hspec]
    intro raw hraw
    obtain ⟨prepared, hdecode, hpassed⟩ := h.passed raw hraw
    exact ⟨prepared, hdecode, hdb _ hpassed⟩
  · rw [htxs, hspec]
    exact h.apart

variable (hR : P.toRevm.CacheLaws) (hn : P.toRevm.CountsNonces) (h : node.Exhausted P)

include hR hn h

theorem afterSeal {raw : Bytes} {number timestamp baseFee : U64} {db : InMemoryDB}
    {prepared : PreparedTx} {result : ExecutionResult}
    (hex : executeRaw P node.db node.spec raw number timestamp baseFee =
      (db, .ok (prepared, result))) :
    (node.afterSeal P raw number timestamp baseFee db prepared result).Exhausted P := by
  obtain ⟨hdecode, htx⟩ := executeRaw_ok_iff.mp hex
  have htxs : (node.afterSeal P raw number timestamp baseFee db prepared result).sealedTxs =
      node.sealedTxs ++ [raw] := by
    rw [sealedTxs, KanariNode.afterSeal, List.flatMap_append]
    rfl
  constructor
  · intro raw' hraw
    rw [htxs] at hraw
    rcases List.mem_append.mp hraw with hold | hnew
    · obtain ⟨prepared', hdecode', hpassed⟩ := h.passed raw' hold
      exact ⟨prepared', hdecode', (hpassed.transactRaw hn htx).settleFees hR _ _⟩
    · rw [List.mem_singleton.mp hnew]
      exact ⟨prepared, hdecode, (passed_of_transactRaw hn htx).settleFees hR _ _⟩
  · rw [htxs]
    refine List.pairwise_append.mpr ⟨h.apart, List.pairwise_singleton _ _, ?_⟩
    intro raw' hold last hlast p p' hp hp' heq
    rw [List.mem_singleton.mp hlast] at hp'
    obtain ⟨prepared', hdecode', hpassed⟩ := h.passed raw' hold
    obtain rfl : p = prepared' := Except.ok.inj (hp.symm.trans hdecode')
    obtain rfl : p' = prepared := Except.ok.inj (hp'.symm.trans hdecode)
    obtain ⟨hsender, hnonce⟩ := Prod.mk.inj heq
    unfold InMemoryDB.Passed at hpassed
    rw [PreparedTx.decode_caller hdecode', hsender, ← PreparedTx.decode_caller hdecode,
      nonce_of_transactRaw hn htx, hnonce] at hpassed
    exact Nat.lt_irrefl _ hpassed

theorem replayBlocks (blocks : List SealedBlock) : (replayBlocks P node blocks).1.Exhausted P := by
  apply replayBlocks_induction (p := fun n => n.Exhausted P) _ h
  intro n raw number timestamp baseFee hex
  rcases n.sealRawWithFee_healthy_cases P raw number timestamp baseFee with
    ⟨db, e, herr, hs⟩ | ⟨db, prepared, result, hok, hs⟩
  · rw [hs]
    refine hex.of_same rfl rfl fun tx hp => ?_
    unfold InMemoryDB.Passed
    rw [(executeRaw_error_sameAccounts hR herr).sameLogical]
    exact hp
  · rw [hs]
    exact hex.afterSeal hR hn hok

theorem perform (op : Op) : (node.perform P op).Exhausted P := by
  rcases perform_cases hR node op with
    hsame | ⟨step, io, x, tree, -, -, hruns, hp⟩ | ⟨step, x, -, hruns, hp⟩
  · refine h.of_same hsame.spec hsame.blocks fun tx hpassed => ?_
    unfold InMemoryDB.Passed
    rw [hsame.db.sameLogical]
    exact hpassed
  -- executed and lost: the nonce is used up, and nothing was added to the chain
  · obtain ⟨-, htx⟩ := executeRaw_ok_iff.mp hruns.executed
    rw [hp]
    exact h.of_same rfl rfl fun tx hpassed => (hpassed.transactRaw hn htx).settleFees hR _ _
  · rw [hp]
    exact h.afterSeal hR hn hruns.executed

end Exhausted

section Laws

variable (hR : P.toRevm.CacheLaws) (hn : P.toRevm.CountsNonces)

include hR hn

/-- Whatever a directory holds, the chain opened from it was executed once. -/
theorem exhausted_of_open {spec : KanariChainSpec} {dir : DataDir} {node : KanariNode}
    (hopen : («open» P spec dir).2 = .ok node) : node.Exhausted P := by
  obtain ⟨alloc, origin, secret, records, replayed, faucet, hreplay, rfl⟩ := open_ok_genesis hopen
  have hstart : ({ (blank { spec with genesisAlloc := alloc } origin).genesis P with
      faucetKey := secret } : KanariNode).blocks = [] := rfl
  have h := (Exhausted.of_nil (P := P) hstart).replayBlocks hR hn records
  rw [hreplay] at h
  exact h.of_same rfl rfl fun _ hp => hp

variable {ρ : Type} [DecidableEq ρ]

theorem Exhausted.session {spec : KanariChainSpec} {v v' : ValidatorNode}
    (h : v.node.Exhausted P) {events : List (Event ρ)}
    (hrun : Session.run P spec v events = some v') : v'.node.Exhausted P :=
  Session.run_induction (p := fun n => n.Exhausted P) (fun _ op hn' => hn'.perform hR hn op)
    (fun _ hn' => hn'.of_same rfl rfl fun _ hp => hp)
    (fun _ _ _ _ hopen => exhausted_of_open hR hn hopen) h hrun

/-- Through seals, commits, faults and reopenings of any directory, no transaction is sealed twice
and no two share sender and nonce; and from a fresh directory on, no sealed block is lost on the
way. -/
theorem executed_at_most_once {spec : KanariChainSpec} {dir : DataDir} {node : KanariNode}
    (hopen : («open» P spec dir).2 = .ok node) {first v : ValidatorNode}
    (hfirst : first = ⟨node, 0, []⟩ ∨ first = ValidatorNode.spawn node) {events : List (Event ρ)}
    (hrun : Session.run P spec first events = some v) :
    v.node.sealedTxs.Nodup ∧ v.node.sealedTxs.Pairwise (Apart P v.node.spec.chainId) ∧
      (dir = .fresh → ∀ before after mid, events = before ++ after →
        Session.run P spec first before = some mid → mid.node.blocks <+: v.node.blocks) := by
  have hstart : first.node.Exhausted P := by
    rcases hfirst with rfl | rfl
    · exact exhausted_of_open hR hn hopen
    · exact (exhausted_of_open hR hn hopen).of_same rfl rfl fun _ hp => hp
  have h := hstart.session hR hn hrun
  refine ⟨h.nodup, h.apart, ?_⟩
  rintro rfl before after mid rfl hbefore
  obtain rfl : node = created P spec := Except.ok.inj (hopen.symm.trans (open_fresh spec))
  obtain ⟨mid', hmid, hafter⟩ := Session.run_append.mp hrun
  obtain rfl : mid' = mid := Option.some.inj (hmid.symm.trans hbefore)
  exact (Coherent.life hR hfirst hbefore).session_grows hR hafter

end Laws

def redelivered : List (Event ℕ) :=
  [.deliver ⟨⟨0, [⟨0, 5, [Reference.transfer1, Reference.transfer0, Reference.transfer0]⟩]⟩, []⟩,
    .restart ⟨∅⟩,
    .deliver ⟨⟨0, [⟨0, 5, [Reference.transfer0, Reference.transfer1]⟩]⟩, []⟩]

theorem executed_at_most_once_redelivered :
    ∃ v, Session.run Reference.platform Reference.spec
        (ValidatorNode.spawn (created Reference.platform Reference.spec)) redelivered = some v ∧
      v.node.sealedTxs.length = 2 ∧ v.node.sealedTxs.Nodup := by
  have hlen : (Session.run Reference.platform Reference.spec
      (ValidatorNode.spawn (created Reference.platform Reference.spec)) redelivered).map
        (fun v => v.node.sealedTxs.length) = some 2 := by decide +kernel
  obtain ⟨v, hrun, hv⟩ := Option.map_eq_some_iff.mp hlen
  exact ⟨v, hrun, hv, (executed_at_most_once Reference.cacheLaws Reference.countsNonces
    (open_fresh Reference.spec) (.inr rfl) hrun).1⟩

end KanariNode

end KanariEvm
