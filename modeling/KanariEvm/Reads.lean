import KanariEvm.Runs
import KanariEvm.Trace

namespace KanariEvm

open InMemoryDB Journaled

/-- The read-only requests a node serves; calls run at the wall-clock time `now`. -/
inductive ReadRequest
  | balanceOf (a : Address)
  | nonceOf (a : Address)
  | codeOf (a : Address)
  | storageOf (a : Address) (slot : U256)
  | call (request : CallRequest) (now : U64)
  | traceCall (request : CallRequest) (now : U64) (opts : TraceOptions)
  | smtProof (a : Address) (slot : Option U256)
deriving DecidableEq

namespace KanariNode

variable (P : Platform) (node : KanariNode)

def serve : ReadRequest → KanariNode
  | .balanceOf a => (node.balanceOf P a).1
  | .nonceOf a => (node.nonceOf P a).1
  | .codeOf a => (node.codeOf P a).1
  | .storageOf a slot => (node.storageOf P a slot).1
  | .call request now => (node.call P request now).1
  | .traceCall request now opts => (node.traceCall P request now opts).1
  | .smtProof _ _ => node

def nonceReads (request : CallRequest) : List DbRead :=
  if request.nonce.isSome then [] else [.basic (request.fromAddr.getD 0)]

/-- What a call asks of the database: the caller's nonce unless it is given, then its execution. -/
def callReads (request : CallRequest) (now : U64) : List DbRead :=
  let (asked, tx) := node.callTx P request
  nonceReads request ++
    P.reads asked.db (asked.headParams P now) tx

def requestReads : ReadRequest → List DbRead
  | .balanceOf a => [.basic a]
  | .nonceOf a => [.basic a]
  | .codeOf a => [.basic a]
  | .storageOf a slot => [.storage a slot]
  | .call request now => node.callReads P request now
  | .traceCall request now _ => node.callReads P request now
  | .smtProof _ _ => []

/-- No slot is read that the cache would have to store: each one asked for is cached, or belongs
to an account cached as cleared or as not existing. -/
def ServesQuietly (request : ReadRequest) : Prop :=
  ∀ r ∈ node.requestReads P request, r.Quiet node.db

instance (request : ReadRequest) : Decidable (node.ServesQuietly P request) := by
  unfold ServesQuietly; infer_instance

theorem callTx_fst (request : CallRequest) :
    (node.callTx P request).1 = { node with db := P.readAll node.db (nonceReads request) } := by
  unfold callTx nonceReads
  cases request.nonce <;> rfl

def callMessage (request : CallRequest) (nonce : U64) (fee : U128) (chainId : U64) : TxEnv where
  caller := request.fromAddr.getD 0
  gasLimit := request.gas.getD defaultCallGas
  gasPrice := request.gasPrice.getD fee
  kind := match request.toAddr with
    | some addr => .call addr
    | none => .create
  value := request.value.getD 0
  data := request.data.getD []
  nonce := nonce
  chainId := some chainId
  gasPriorityFee := none
  accessList := []

theorem callTx_snd (request : CallRequest) :
    (node.callTx P request).2 = callMessage request
      (request.nonce.getD (node.nonceOf P (request.fromAddr.getD 0)).2) (node.pendingBaseFee P)
      node.spec.chainId := by
  unfold callTx callMessage
  cases request.nonce <;> rfl

theorem traceIn_fst (P : Platform) (db : InMemoryDB) (spec : KanariChainSpec) (tx : TxEnv)
    (number timestamp baseFee : U64) (opts : TraceOptions) :
    (traceIn P db spec tx number timestamp baseFee opts).1 =
      P.readAll db (P.reads db (evmParams spec number timestamp baseFee) tx) := by
  simp only [traceIn]
  split <;> rfl

/-- Serving a request makes its reads and changes nothing else. -/
theorem serve_eq (request : ReadRequest) :
    node.serve P request =
      { node with db := P.readAll node.db (node.requestReads P request) } := by
  have hcall : ∀ call now, P.readAll node.db (node.callReads P call now) =
      P.readAll (node.callTx P call).1.db (P.reads (node.callTx P call).1.db
        ((node.callTx P call).1.headParams P now) (node.callTx P call).2) := by
    intro call now
    rw [callReads, Revm.readAll, List.foldl_append, callTx_fst]
    rfl
  cases request with
  | balanceOf a => rfl
  | nonceOf a => rfl
  | codeOf a => rfl
  | storageOf a slot => rfl
  | smtProof a slot => rfl
  | call call now =>
    simp only [serve, KanariNode.call, requestReads, hcall, Revm.transact, callTx_fst]
  | traceCall call now opts =>
    simp only [serve, KanariNode.traceCall, requestReads, hcall, traceIn_fst, callTx_fst]
    rfl

end KanariNode

/-- One thing a node does: a seal attempt under some behaviour of the backend, or a read. -/
inductive Op
  | attempt (step : SealStep) (io : SealIo)
  | read (request : ReadRequest)
deriving DecidableEq

def Op.isAttempt : Op → Bool
  | .attempt _ _ => true
  | .read _ => false

def KanariNode.perform (P : Platform) (node : KanariNode) : Op → KanariNode
  | .attempt step io => (node.sealStep P io step).1
  | .read request => node.serve P request

/-- A node at work, with the blocks it appends as the journal. -/
def nodeMachine (P : Platform) : Machine KanariNode Op SealedBlock where
  attempt node op := (node.perform P op, KanariNode.appended node (node.perform P op))

/-- Every read of the run is served quietly in the state it meets. -/
def QuietRun (P : Platform) : KanariNode → List Op → Prop
  | _, [] => True
  | node, op :: rest =>
    (match op with
      | .read request => node.ServesQuietly P request
      | .attempt _ _ => True) ∧ QuietRun P (node.perform P op) rest

theorem QuietRun.of_append {P : Platform} {node : KanariNode} {ops rest : List Op}
    (h : QuietRun P node (ops ++ rest)) : QuietRun P node ops := by
  induction ops generalizing node with
  | nil => trivial
  | cons op ops ih => exact ⟨h.1, ih h.2⟩

def Op.OnHealthyBackend : Op → Prop
  | .attempt _ io => io = .healthy
  | .read _ => True

instance (op : Op) : Decidable op.OnHealthyBackend := by
  cases op <;> unfold Op.OnHealthyBackend <;> infer_instance

def Op.sealStep? : Op → Option SealStep
  | .attempt step _ => some step
  | .read _ => none

theorem final_attempts (P : Platform) {ops : List Op} (h : ∀ op ∈ ops, op.OnHealthyBackend)
    (node : KanariNode) :
    (nodeMachine P).final node (ops.filter Op.isAttempt) =
      (sealMachine P).final node (ops.filterMap Op.sealStep?) := by
  induction ops generalizing node with
  | nil => rfl
  | cons op rest ih =>
    have hrest := ih fun o ho => h o (List.mem_cons_of_mem op ho)
    cases op with
    | read request => exact hrest node
    | attempt step io =>
      obtain rfl : io = .healthy := h _ List.mem_cons_self
      exact hrest _

end KanariEvm
