import KanariEvm.CacheInvariants
import KanariEvm.Deployment

namespace KanariEvm

open InMemoryDB Journaled Contracts

def Contracts.Reply.output : Contracts.Reply → Bytes
  | .returned output => output
  | .reverted output => output
  | .failed => []

def Contracts.Reply.isReturned : Contracts.Reply → Bool
  | .returned _ => true
  | _ => false

theorem CallResult.fromOutput_reply (result : ExecutionResult) :
    (fromOutput result).success = result.reply.isReturned ∧
      (fromOutput result).output = result.reply.output := by
  cases result <;> exact ⟨rfl, rfl⟩

/-- A message to an account and the reply to it. -/
abbrev Exchange := StackMachine.Call Unit × Contracts.Reply

namespace KanariNode

variable (P : Platform) (precompiled : SpecId → Address → Prop) (a : Address)

/-- The message that an operation executes for an account, and the reply to it. A fault of the
backend comes after the execution and does not undo it. -/
def answered (node : KanariNode) : Op → Option Exchange
  | .read _ => none
  | .attempt step _ => do
    let number ← node.sealNumber step
    let (prepared, result) ← (node.execute P step number).2.toOption
    if prepared.inner.kind = .call a then
      some (⟨prepared.inner.data, false, ()⟩, result.reply)
    else none

/-- A node at work, with the messages to one account and the replies to them as the journal. -/
def callMachine : Machine KanariNode Op Exchange where
  attempt node op := (node.perform P op, node.answered P a op)

def Covers (node : KanariNode) : Op → Prop
  | .read _ => True
  | .attempt step _ => ∀ prepared, PreparedTx.decode P step.raw node.spec.chainId = .ok prepared →
    prepared.inner.Covers precompiled node.spec.specId node.db

/-- Every transaction of the run is one that the machine can run in the state it meets. -/
def CoveredRun : KanariNode → List Op → Prop
  | _, [] => True
  | node, op :: rest => node.Covers P precompiled op ∧ CoveredRun (node.perform P op) rest

theorem persist_accounts (node : KanariNode) (raw : Bytes) (number timestamp baseFee : U64)
    (db : InMemoryDB) (prepared : PreparedTx) (result : ExecutionResult) (io : SealIo) :
    (node.persist P raw number timestamp baseFee db prepared result io).1.spec = node.spec ∧
      (node.persist P raw number timestamp baseFee db prepared result io).1.db =
        settleFees P db result baseFee := by
  obtain ⟨rebuild, save⟩ := io
  cases rebuild with
  | some fault => exact ⟨rfl, rfl⟩
  | none => cases save <;> exact ⟨rfl, rfl⟩

variable {P}

theorem perform_answered (hR : P.toRevm.CacheLaws) (node : KanariNode) (op : Op) :
    (node.perform P op).spec = node.spec ∧
      ((SameAccounts (node.perform P op).db node.db ∧ node.answered P a op = none) ∨
        ∃ step io x, op = .attempt step io ∧ node.Runs P step x ∧
          (node.perform P op).db = settleFees P x.db x.result (node.sealFee P) ∧
          node.answered P a op = if x.prepared.inner.kind = .call a then
            some (⟨x.prepared.inner.data, false, ()⟩, x.result.reply) else none) := by
  cases op with
  | read request =>
    rw [KanariNode.perform, serve_eq]
    exact ⟨rfl, .inl ⟨Revm.readAll_sameAccounts hR _ _, rfl⟩⟩
  | attempt step io =>
    cases hnumber : node.sealNumber step with
    | none =>
      have hnone : node.answered P a (.attempt step io) = none := by
        simp only [answered, hnumber, Option.bind_eq_bind, Option.bind_none]
      rcases node.sealStep_of_none P hnumber io with ⟨sender, hash, hs⟩ | ⟨e, hs⟩
      · rw [KanariNode.perform, hs]
        exact ⟨rfl, .inl ⟨SameAccounts.refl _, hnone⟩⟩
      · rw [KanariNode.perform, hs]
        exact ⟨rfl, .inl ⟨SameAccounts.refl _, hnone⟩⟩
    | some number =>
      rcases hex : node.execute P step number with ⟨db, e | ⟨prepared, result⟩⟩
      · rw [KanariNode.perform, node.sealStep_of_number P hnumber, sealRawWithFee_of_error hex]
        refine ⟨rfl, .inl ⟨executeRaw_error_sameAccounts hR hex, ?_⟩⟩
        simp only [answered, hnumber, hex, Except.toOption, Option.bind_eq_bind, Option.bind_some,
          Option.bind_none]
      · have hruns : node.Runs P step ⟨number, db, prepared, result⟩ := ⟨hnumber, hex⟩
        rw [hruns.perform]
        refine ⟨(node.persist_accounts P ..).1, .inr ⟨step, io, _, rfl, hruns,
          (node.persist_accounts P ..).2, ?_⟩⟩
        simp only [answered, hnumber, hex, Except.toOption, Option.bind_eq_bind, Option.bind_some]

/-- What a part of a run makes of the contract: its code and its other slots stay, and slot 0 goes
through the messages as a register does. -/
structure KeepsRegister (before after : KanariNode) (entries : List Exchange) : Prop where
  code : (after.db.logical a).code = simpleStorageRuntime
  others : ∀ k, k ≠ 0 → (after.db.logical a).storage k = (before.db.logical a).storage k
  register : RegisterRun ((before.db.logical a).storage 0) (entries.map (·.1))
    (entries.map (·.2)) ((after.db.logical a).storage 0)

variable {a} in
theorem KeepsRegister.trans {n₁ n₂ n₃ : KanariNode} {es es' : List Exchange}
    (h : KeepsRegister a n₁ n₂ es) (h' : KeepsRegister a n₂ n₃ es') :
    KeepsRegister a n₁ n₃ (es ++ es') where
  code := h'.code
  others k hk := (h'.others k hk).trans (h.others k hk)
  register := by
    rw [List.map_append, List.map_append]
    exact h.register.append h'.register

section Laws

variable {precompiled a} {spec : KanariChainSpec} {node : KanariNode}
  (hR : P.toRevm.CacheLaws) (hkeeps : P.toRevm.KeepsCode)

include hR hkeeps

theorem Runs.sound (hnode : Reached P spec Unguarded node) {step : SealStep} {x : Execution}
    (hx : node.Runs P step x) : x.db.Sound := by
  obtain ⟨state, hout, hdb⟩ := transactRaw_ok (executeRaw_ok_iff.mp hx.executed).2
  have hsound := hnode.sound hR hkeeps
  rw [hdb]
  exact (hsound.readAll hR _).commit hR (hkeeps _ _ _ _ _ hout fun b => (hsound b).coded)

variable (hruns : P.toRevm.RunsCode precompiled)

include hruns

/-- An executed transaction that the machine can run, with its fees settled. -/
theorem settled_keepsRegister (hnode : Reached P spec Unguarded node)
    (hspec : shanghai ≤ node.spec.specId) (hpayee : a ≠ blockBeneficiary)
    (hcode : (node.db.logical a).code = simpleStorageRuntime) {step : SealStep} {x : Execution}
    (hx : node.Runs P step x) (hcovers : x.prepared.inner.Covers precompiled node.spec.specId
      node.db) {after : KanariNode}
    (hafter : after.db = settleFees P x.db x.result (node.sealFee P)) :
    KeepsRegister a node after (if x.prepared.inner.kind = .call a then
      [(⟨x.prepared.inner.data, false, ()⟩, x.result.reply)] else []) := by
  obtain ⟨-, htransact⟩ := executeRaw_ok_iff.mp hx.executed
  obtain ⟨state, hout, hdb⟩ := transactRaw_ok htransact
  have hcodes' : (after.db.logical a).code = (x.db.logical a).code := by
    rw [hafter]
    exact (hx.sound hR hkeeps hnode).settleFees_code hR _ _ hpayee
  have hslots : (after.db.logical a).storage = (x.db.logical a).storage := by
    rw [hafter]
    exact settleFees_storage hR _ _ _ a
  have hsome : (node.db.logical a).code ≠ [] := by
    rw [hcode]
    exact List.cons_ne_nil _ _
  by_cases hkind : x.prepared.inner.kind = .call a
  · rw [if_pos hkind]
    unfold TxEnv.Covers at hcovers
    rw [hkind] at hcovers
    obtain ⟨hauth, haccount, -⟩ := hcovers
    obtain ⟨hcodes, w, hstorage, hreply⟩ :=
      hruns.register hcode hkind hauth hspec haccount hout
    rw [← hdb] at hcodes hstorage
    refine ⟨hcodes'.trans ((hcodes a hsome).trans hcode), ?_, ?_⟩
    · intro k hk
      rw [hslots, hstorage]
      exact if_neg hk
    · have hword : (x.db.logical a).storage 0 = w := by
        rw [hstorage]
        exact if_pos rfl
      rw [hslots, hword]
      exact .single hreply
  · rw [if_neg hkind]
    obtain ⟨hcodes, hstorage⟩ := hruns.elsewhere hkind hcovers hspec hout hsome
    rw [← hdb] at hcodes hstorage
    refine ⟨hcodes'.trans ((hcodes a hsome).trans hcode), ?_, ?_⟩
    · intro k _
      rw [hslots, hstorage]
    · rw [hslots, hstorage]
      exact .done _

theorem perform_keepsRegister (hnode : Reached P spec Unguarded node)
    (hspec : shanghai ≤ node.spec.specId) (hpayee : a ≠ blockBeneficiary)
    (hcode : (node.db.logical a).code = simpleStorageRuntime) (op : Op)
    (hop : node.Covers P precompiled op) :
    KeepsRegister a node (node.perform P op) (node.answered P a op).toList := by
  rcases (perform_answered a hR node op).2 with
    ⟨hsame, hnone⟩ | ⟨step, io, x, rfl, hx, hdb, hanswered⟩
  · rw [hnone]
    have hlogical := hsame.sameLogical a
    refine ⟨by rw [hlogical, hcode], fun k _ => by rw [hlogical], ?_⟩
    rw [hlogical]
    exact .done _
  · have hdecode := (executeRaw_ok_iff.mp hx.executed).1
    have h := settled_keepsRegister hR hkeeps hruns hnode hspec hpayee hcode hx
      (hop _ hdecode) hdb
    rw [hanswered]
    split_ifs at h ⊢ <;> exact h

theorem run_keepsRegister (hnode : Reached P spec Unguarded node)
    (hspec : shanghai ≤ node.spec.specId) (hpayee : a ≠ blockBeneficiary)
    (hcode : (node.db.logical a).code = simpleStorageRuntime) {ops : List Op}
    (hops : CoveredRun P precompiled node ops) :
    KeepsRegister a node ((callMachine P a).final node ops)
      ((callMachine P a).journal node ops) := by
  induction ops generalizing node with
  | nil => exact ⟨hcode, fun _ _ => rfl, .done _⟩
  | cons op ops ih =>
    have hstep := perform_keepsRegister hR hkeeps hruns hnode hspec hpayee hcode op hops.1
    have hsame : (node.perform P op).spec = node.spec := (perform_answered a hR node op).1
    have hrest := ih (hnode.perform op) (by rw [hsame]; exact hspec) hstep.code hops.2
    rw [(callMachine P a).final_cons, (callMachine P a).journal_cons]
    exact hstep.trans hrest

omit hkeeps in
theorem call_register (hspec : shanghai ≤ node.spec.specId)
    (haccount : ¬precompiled node.spec.specId a)
    (hcode : (node.db.logical a).code = simpleStorageRuntime) {request : CallRequest} {now : U64}
    {result : CallResult} (hto : request.toAddr = some a)
    (hcall : (node.call P request now).2 = .ok result) :
    ∃ reply ∈ [Contracts.Reply.failed, (Contracts.register false (request.data.getD [])
      ((node.db.logical a).storage 0)).1],
      result.success = reply.isReturned ∧ result.output = reply.output := by
  rw [call_eq] at hcall
  have hsame : (node.callTx P request).1.db.logical a = node.db.logical a := by
    rw [callTx_fst]
    exact (Revm.readAll_sameAccounts hR _ _).sameLogical a
  have hsame' : (node.callTx P request).1.spec = node.spec := by rw [callTx_fst]
  cases hout : P.outcome (node.callTx P request).1.db ((node.callTx P request).1.headParams P now)
      (node.callTx P request).2 with
  | error e =>
    rw [hout] at hcall
    cases hcall
  | ok out =>
    obtain ⟨ran, state⟩ := out
    rw [hout] at hcall
    have htx := node.callTx_snd P request
    obtain ⟨-, w, -, hreply⟩ := hruns.register (a := a) (by rw [hsame, hcode])
      (by rw [htx, callMessage, hto]) (by rw [htx, callMessage])
      (by rw [headParams, hsame']; exact hspec) (by rw [headParams, hsame']; exact haccount) hout
    rw [hsame, htx] at hreply
    rw [← Except.ok.inj hcall]
    refine ⟨ran.reply, ?_, CallResult.fromOutput_reply ran⟩
    rcases hreply with hfailed | hanswered
    · rw [(Prod.mk.inj hfailed).1]
      exact List.mem_cons_self
    · rw [show ran.reply = _ from congrArg Prod.fst hanswered]
      exact List.mem_cons_of_mem _ List.mem_cons_self

end Laws

variable {precompiled a} {spec : KanariChainSpec} {node : KanariNode}

/-- A sealed creation from the init code of a runtime whose receipt names a contract has put
exactly that runtime at its address, with empty storage. -/
theorem sealed_creation_deploys (hR : P.toRevm.CacheLaws)
    (hkeeps : P.toRevm.KeepsCode) (hruns : P.toRevm.RunsCode precompiled)
    (hnode : Reached P spec Unguarded node)
    (hspec : shanghai ≤ node.spec.specId) {runtime init : Bytes}
    (hinit : deployInit runtime = .returned init) {step : SealStep} {prepared : PreparedTx}
    (hdecode : PreparedTx.decode P step.raw node.spec.chainId = .ok prepared)
    (hkind : prepared.inner.kind = .create) (hdata : prepared.inner.data = init)
    {after : KanariNode} (hafter : after = node.perform P (.attempt step .healthy))
    (hsealed : appended node after ≠ none) (hreceipt : (after.receipts.lookup
      (P.keccak256 step.raw)).bind (·.contractAddress) = some a)
    (hpayee : a ≠ blockBeneficiary) :
    (after.codeOf P a).2 = runtime ∧ ∀ slot, (after.storageOf P a slot).2 = 0 := by
  rw [codeOf_snd _ hR]
  simp only [storageOf_snd _ hR]
  obtain ⟨x, hx, hafter⟩ : ∃ x, node.Runs P step x ∧ after = node.sealedNode P step x := by
    rcases perform_cases hR node (.attempt step .healthy) with
      hsame | ⟨_, _, _, _, hop, hio, -⟩ | ⟨_, x, hop, hx, hperform⟩
    · rw [hafter] at hsealed
      exact absurd (appended_of_blocks_eq hsame.blocks) hsealed
    · exact absurd (Op.attempt.inj hop).2.symm hio
    · rw [(Op.attempt.inj hop).1]
      exact ⟨x, hx, hafter.trans hperform⟩
  obtain ⟨hdecode', htransact⟩ := executeRaw_ok_iff.mp hx.executed
  obtain ⟨state, hout, hdb⟩ := transactRaw_ok htransact
  rw [hdecode, Except.ok.injEq] at hdecode'
  rw [← hdecode'] at hout hdb
  have hcreated : (executionSummary x.result).2.2.1 = some a := by
    have hlookup : after.receipts.lookup (P.keccak256 step.raw) =
        some (node.receiptOf P step x) := by
      rw [hafter]
      exact Finmap.lookup_insert _
    rw [hlookup] at hreceipt
    exact hreceipt
  obtain ⟨hcode, hstorage⟩ := hruns.deploys hinit hkind hdata hspec hout hcreated
  have hsettled : after.db = settleFees P x.db x.result (node.sealFee P) := by
    rw [hafter]
    rfl
  rw [hsettled]
  refine ⟨?_, fun slot => ?_⟩
  · rw [(hx.sound hR hkeeps hnode).settleFees_code hR _ _ hpayee, hdb]
    exact hcode
  · rw [settleFees_storage hR, hdb, hstorage]

end KanariNode

theorem Deployment.sealed_creation_deploys_simpleStorage :
    (deployed.codeOf platform contract).2 = simpleStorageRuntime ∧
      ∀ slot, (deployed.storageOf platform contract slot).2 = 0 := by
  have hinit : deployInit simpleStorageRuntime = .returned initCode := rfl
  have hdecode : PreparedTx.decode platform (SealStep.send create0 5).raw started.spec.chainId =
      .ok ⟨Reference.funded, none, sent 0 200000 .create initCode⟩ := by decide +kernel
  exact KanariNode.sealed_creation_deploys cacheLaws keepsCode runsCode started_reached
    (by decide) hinit hdecode rfl rfl rfl (by decide +kernel) (by decide +kernel) (by decide)

namespace KanariNode

variable {P : Platform} {precompiled : SpecId → Address → Prop} {a : Address}
  {spec : KanariChainSpec} {node : KanariNode}

/-- On a node a `SimpleStorage` is a register in slot 0 of its account, through every run of seals
and reads with any faults whose transactions the machine can run: the messages to it are answered
as the register answers them or fail, no other slot is written, and at the end `eth_call` is
answered from the same word. -/
theorem contract_is_register (hR : P.toRevm.CacheLaws)
    (hkeeps : P.toRevm.KeepsCode) (hruns : P.toRevm.RunsCode precompiled)
    (hnode : Reached P spec Unguarded node)
    (hspec : shanghai ≤ node.spec.specId) (hpayee : a ≠ blockBeneficiary)
    (haccount : ¬precompiled node.spec.specId a)
    (hcode : (node.codeOf P a).2 = simpleStorageRuntime) {ops : List Op}
    (hops : CoveredRun P precompiled node ops) {after : KanariNode}
    (hafter : after = (callMachine P a).final node ops) :
    (after.codeOf P a).2 = simpleStorageRuntime ∧
      RegisterRun (node.storageOf P a 0).2 (((callMachine P a).journal node ops).map (·.1))
        (((callMachine P a).journal node ops).map (·.2)) (after.storageOf P a 0).2 ∧
      (∀ slot, slot ≠ 0 → (after.storageOf P a slot).2 = (node.storageOf P a slot).2) ∧
      ∀ {request now result}, request.toAddr = some a →
        (after.call P request now).2 = .ok result →
        ∃ reply ∈ [Contracts.Reply.failed,
            (Contracts.register false (request.data.getD []) (after.storageOf P a 0).2).1],
          result.success = reply.isReturned ∧ result.output = reply.output := by
  rw [codeOf_snd _ hR] at hcode
  have hrun := run_keepsRegister hR hkeeps hruns hnode hspec hpayee hcode hops
  have hsame : after.spec = node.spec := by
    rw [hafter]
    exact (callMachine P a).final_induction (p := fun n => n.spec = node.spec)
      (fun n op h => (perform_answered a hR n op).1.trans h) rfl ops
  rw [← hafter] at hrun
  simp only [codeOf_snd _ hR, storageOf_snd _ hR]
  refine ⟨hrun.code, hrun.register, hrun.others, fun hto hcall => ?_⟩
  exact call_register hR hruns (by rw [hsame]; exact hspec) (by rw [hsame]; exact haccount)
    hrun.code hto hcall

end KanariNode

namespace Deployment

open KanariNode

def written : KanariNode := (callMachine platform contract).final deployed ops

def messages : List Exchange :=
  (callMachine platform contract).journal deployed ops

theorem covers_set1 : deployed.Covers platform (fun _ _ => False)
    (.attempt (.send set1 5) .healthy) := by
  intro prepared hdecode
  have hset : PreparedTx.decode platform (SealStep.send set1 5).raw deployed.spec.chainId =
      .ok ⟨Reference.funded, some contract, sent 1 100000 (.call contract) (encodeSet 5)⟩ := by
    decide +kernel
  have hprogram : deployed.db.program contract = simpleStorageRuntime := by decide +kernel
  rw [hset, Except.ok.injEq] at hdecode
  rw [← hdecode]
  refine ⟨rfl, id, ?_⟩
  rw [hprogram]
  exact simpleStorageRuntime_covered

theorem contract_is_register_set_get :
    RegisterRun 0 (messages.map (·.1)) (messages.map (·.2)) 5 ∧
      messages.map (·.2) = [.returned []] ∧
      ∃ result, (written.call platform question 7).2 = .ok result ∧
        ∃ reply ∈ [Contracts.Reply.failed, .returned (toBeBytes 32 5)],
          result.success = reply.isReturned ∧ result.output = reply.output := by
  have hcode : (deployed.codeOf platform contract).2 = simpleStorageRuntime := by decide +kernel
  have hcovered : CoveredRun platform (fun _ _ => False) deployed ops :=
    ⟨covers_set1, trivial, trivial⟩
  obtain ⟨-, hrun, -, hcall⟩ := contract_is_register cacheLaws keepsCode runsCode
    deployed_reached (by decide +kernel) (by decide) id hcode hcovered
    (show written = _ from rfl)
  have hbefore : (deployed.storageOf platform contract 0).2 = 0 := by decide +kernel
  have hafter : (written.storageOf platform contract 0).2 = 5 := by decide +kernel
  rw [hbefore, hafter] at hrun
  rw [hafter] at hcall
  obtain ⟨result, hresult⟩ : ∃ result, (written.call platform question 7).2 = .ok result :=
    ⟨⟨true, 23236, toBeBytes 32 5⟩, by decide +kernel⟩
  exact ⟨hrun, by decide +kernel, result, hresult, hcall rfl hresult⟩

end Deployment

end KanariEvm
