import KanariEvm.Operations
import KanariEvm.Sessions

namespace KanariEvm

/-- What touches the accounts of a node: a seal under given block data, which is also how replay
redoes a stored transaction, or a read. -/
inductive Touch
  | sealRaw (raw : Bytes) (number timestamp baseFee : U64) (io : SealIo)
  | serve (request : ReadRequest)
deriving DecidableEq

namespace KanariNode

def touch (P : Platform) (node : KanariNode) : Touch → KanariNode
  | .sealRaw raw number timestamp baseFee io =>
    (node.sealRawWithFee P raw number timestamp baseFee io).1
  | .serve request => node.serve P request

def Unguarded (_ : KanariNode) (_ : Touch) : Prop := True

/-- The nodes of all runs from a genesis in which every step meets `guard` in the state before it.
A faucet key and a mempool may be attached at any time. -/
inductive Reached (P : Platform) (spec : KanariChainSpec) (guard : KanariNode → Touch → Prop) :
    KanariNode → Prop
  | genesis (dir : DataDir) : Reached P spec guard ((blank spec dir).genesis P)
  | touch {node : KanariNode} (t : Touch) (before : Reached P spec guard node)
      (met : guard node t) : Reached P spec guard (node.touch P t)
  | attach {node : KanariNode} (faucet : Option B256) (sender : Option DagSender)
      (before : Reached P spec guard node) :
      Reached P spec guard { node with faucetKey := faucet, dagSender := sender }

/-- The nodes of such runs right after a seal returned, or before the first one. These are the
states right after `open` too, which seals what it replays. -/
inductive Settled (P : Platform) (spec : KanariChainSpec) (guard : KanariNode → Touch → Prop) :
    KanariNode → Prop
  | genesis (dir : DataDir) : Settled P spec guard ((blank spec dir).genesis P)
  | sealed {node after : KanariNode} {raw : Bytes} {number timestamp baseFee : U64} {io : SealIo}
      {hash : B256} (before : Reached P spec guard node)
      (met : guard node (.sealRaw raw number timestamp baseFee io))
      (ok : node.sealRawWithFee P raw number timestamp baseFee io = (after, .ok hash)) :
      Settled P spec guard after
  | attach {node : KanariNode} (faucet : Option B256) (sender : Option DagSender)
      (before : Settled P spec guard node) :
      Settled P spec guard { node with faucetKey := faucet, dagSender := sender }

variable {P : Platform} {spec : KanariChainSpec} {guard : KanariNode → Touch → Prop}
  {node : KanariNode}

theorem Settled.reached (h : Settled P spec guard node) : Reached P spec guard node := by
  induction h with
  | genesis dir => exact .genesis dir
  | sealed before met ok =>
    have hafter := Reached.touch _ before met
    rwa [touch, ok] at hafter
  | attach faucet sender _ ih => exact .attach faucet sender ih

theorem sealRawWithFee_ok {raw : Bytes} {number timestamp baseFee : U64} {io : SealIo}
    {after : KanariNode} {hash : B256}
    (h : node.sealRawWithFee P raw number timestamp baseFee io = (after, .ok hash)) :
    ∃ db prepared result, executeRaw P node.db node.spec raw number timestamp baseFee =
        (db, .ok (prepared, result)) ∧
      after = node.afterSeal P raw number timestamp baseFee db prepared result := by
  rcases hex : executeRaw P node.db node.spec raw number timestamp baseFee with
    ⟨db, e | ⟨prepared, result⟩⟩
  · simp [sealRawWithFee_of_error hex] at h
  · rw [sealRawWithFee_of_ok hex] at h
    obtain ⟨rebuild, save⟩ := io
    cases rebuild with
    | some fault => simp [persist] at h
    | none =>
      cases save with
      | some msg => simp [persist] at h
      | none => exact ⟨db, prepared, result, rfl, (Prod.mk.inj h).1.symm⟩

theorem Settled.committed (h : Settled P spec guard node) : node.Committed P := by
  induction h with
  | genesis dir => rfl
  | sealed before met ok =>
    obtain ⟨db, prepared, result, -, rfl⟩ := sealRawWithFee_ok ok
    exact Committed.afterSeal _ _ _ _ _ _ _ _
  | attach faucet sender _ ih => exact ih

/-- Everything a seal can do to the accounts: nothing, the reads of a refused execution, or an
execution with its fees, whatever the backend did afterwards. -/
theorem sealRawWithFee_db (P : Platform) (node : KanariNode) (raw : Bytes)
    (number timestamp baseFee : U64) (io : SealIo) :
    (node.sealRawWithFee P raw number timestamp baseFee io).1.db = node.db ∨
      ∃ prepared, PreparedTx.decode P raw node.spec.chainId = .ok prepared ∧
        ((node.sealRawWithFee P raw number timestamp baseFee io).1.db = P.readAll node.db
            (P.reads node.db (evmParams node.spec number timestamp baseFee) prepared.inner) ∨
          ∃ result state, P.outcome node.db (evmParams node.spec number timestamp baseFee)
              prepared.inner = .ok (result, state) ∧
            (node.sealRawWithFee P raw number timestamp baseFee io).1.db =
              settleFees P (P.after node.db (evmParams node.spec number timestamp baseFee)
                prepared.inner state) result baseFee) := by
  cases hd : PreparedTx.decode P raw node.spec.chainId with
  | error e =>
    left
    simp only [sealRawWithFee, hd]
  | ok prepared =>
    refine .inr ⟨prepared, rfl, ?_⟩
    cases ho : P.outcome node.db (evmParams node.spec number timestamp baseFee)
        prepared.inner with
    | error msg =>
      left
      simp only [sealRawWithFee, hd, transactRaw, Revm.transact, ho]
    | ok out =>
      obtain ⟨result, state⟩ := out
      refine .inr ⟨result, state, rfl, ?_⟩
      have hex : executeRaw P node.db node.spec raw number timestamp baseFee =
          (P.after node.db (evmParams node.spec number timestamp baseFee) prepared.inner state,
            .ok (prepared, result)) :=
        executeRaw_ok_iff.mpr ⟨hd, by simp only [transactRaw, Revm.transact, ho, Revm.after]⟩
      rw [sealRawWithFee_of_ok hex]
      obtain ⟨rebuild, save⟩ := io
      cases rebuild with
      | some fault => rfl
      | none => cases save <;> rfl

theorem open_settled {dir : DataDir} (hopen : («open» P spec dir).2 = .ok node) :
    ∃ alloc, Settled P { spec with genesisAlloc := alloc } Unguarded node := by
  obtain ⟨alloc, origin, secret, records, replayed, faucet, hreplay, rfl⟩ := open_ok_genesis hopen
  refine ⟨alloc, .attach faucet _ ?_⟩
  apply replayBlocks_ok_induction (p := Settled P _ Unguarded) _ _ hreplay
  · intro n raw number timestamp baseFee n' hash hn hs
    exact .sealed hn.reached trivial hs
  · exact .attach secret _ (.genesis origin)

theorem Reached.perform (h : Reached P spec Unguarded node) (op : Op) :
    Reached P spec Unguarded (node.perform P op) := by
  cases op with
  | read request => exact .touch (.serve request) h trivial
  | attempt step io =>
    cases hnumber : node.sealNumber step with
    | none =>
      rcases node.sealStep_of_none P hnumber io with ⟨sender, hash, hs⟩ | ⟨e, hs⟩
      · rw [KanariNode.perform, hs]
        exact .attach node.faucetKey (some sender) h
      · rw [KanariNode.perform, hs]
        exact h
    | some number =>
      rw [KanariNode.perform, node.sealStep_of_number P hnumber]
      exact .touch (.sealRaw step.raw number step.timestamp (node.sealFee P) io) h trivial

/-- Every state of a session is reached, restarts included. -/
theorem Reached.session {ρ : Type} [DecidableEq ρ] {v v' : ValidatorNode}
    (h : ∃ alloc, Reached P { spec with genesisAlloc := alloc } Unguarded v.node)
    {events : List (Event ρ)} (hrun : Session.run P spec v events = some v') :
    ∃ alloc, Reached P { spec with genesisAlloc := alloc } Unguarded v'.node := by
  apply Session.run_induction
    (p := fun n => ∃ alloc, Reached P { spec with genesisAlloc := alloc } Unguarded n) _ _ _ h hrun
  · rintro n op ⟨alloc, hn⟩
    exact ⟨alloc, hn.perform op⟩
  · rintro n ⟨alloc, hn⟩
    exact ⟨alloc, .attach n.faucetKey _ hn⟩
  · rintro n tree n' - hopen
    obtain ⟨alloc, hn'⟩ := open_settled hopen
    exact ⟨alloc, hn'.reached⟩

theorem Reached.runs (h : Reached P spec Unguarded node) {step : SealStep} {x : Execution}
    (hruns : node.Runs P step x) : Settled P spec Unguarded (node.sealedNode P step x) := by
  have hs : node.sealRawWithFee P step.raw x.number step.timestamp (node.sealFee P) .healthy =
      (node.sealedNode P step x, .ok (P.keccak256 step.raw)) :=
    sealRawWithFee_of_ok hruns.executed .healthy
  exact .sealed h trivial hs

end KanariNode

end KanariEvm
