import KanariEvm.Batch
import KanariEvm.DevWallet
import KanariEvm.OneChain

namespace KanariEvm

open Journaled

/-- Some operations lead from one node to the other, with seal attempts among them only if
`allowed`. -/
def KanariNode.LeadsTo (P : Platform) (allowed : Prop) (node node' : KanariNode) : Prop :=
  ∃ ops, (nodeMachine P).final node ops = node' ∧ ∀ op ∈ ops, op.isAttempt = true → allowed

namespace KanariNode.LeadsTo

variable {P : Platform} {p q : Prop} {k m n : KanariNode}

theorem refl (n : KanariNode) : LeadsTo P p n n :=
  ⟨[], rfl, fun _ h => absurd h List.not_mem_nil⟩

theorem trans (h : LeadsTo P p k m) (h' : LeadsTo P p m n) : LeadsTo P p k n := by
  obtain ⟨ops, rfl, hops⟩ := h
  obtain ⟨ops', rfl, hops'⟩ := h'
  refine ⟨ops ++ ops', (nodeMachine P).final_append _ _ _, fun op hop => ?_⟩
  rcases List.mem_append.mp hop with hop | hop
  · exact hops op hop
  · exact hops' op hop

theorem mono (hpq : p → q) (h : LeadsTo P p m n) : LeadsTo P q m n := by
  obtain ⟨ops, hfinal, hops⟩ := h
  exact ⟨ops, hfinal, fun op hop hattempt => hpq (hops op hop hattempt)⟩

theorem serve (n : KanariNode) (request : ReadRequest) : LeadsTo P p n (n.serve P request) := by
  refine ⟨[.read request], rfl, fun op hop hattempt => ?_⟩
  rw [List.mem_singleton.mp hop] at hattempt
  cases hattempt

theorem attempt (hp : p) (n : KanariNode) (step : SealStep) (io : SealIo) :
    LeadsTo P p n (n.sealStep P io step).1 :=
  ⟨[.attempt step io], rfl, fun _ _ _ => hp⟩

theorem sameChain (hR : P.toRevm.CacheLaws) (hp : ¬p) (h : LeadsTo P p m n) : n.SameChain m := by
  obtain ⟨ops, rfl, hops⟩ := h
  have hreads : ∀ op ∈ ops, op.isAttempt = false := fun op hop =>
    Bool.eq_false_iff.mpr fun hattempt => hp (hops op hop hattempt)
  clear hops
  induction ops generalizing m with
  | nil => exact ⟨rfl, .refl _, rfl, rfl, rfl⟩
  | cons op rest ih =>
    have hrest := ih (m := m.perform P op) fun o ho => hreads o (List.mem_cons_of_mem op ho)
    have hfirst : (m.perform P op).SameChain m := by
      cases op with
      | attempt step io => exact absurd (hreads _ List.mem_cons_self) Bool.noConfusion
      | read request =>
        rw [KanariNode.perform, serve_eq]
        exact ⟨rfl, Revm.readAll_sameAccounts hR _ _, rfl, rfl, rfl⟩
    exact ⟨hrest.spec.trans hfirst.spec, hrest.db.trans hfirst.db,
      hrest.blocks.trans hfirst.blocks, hrest.receipts.trans hfirst.receipts,
      hrest.store.trans hfirst.store⟩

theorem session (spec : KanariChainSpec) {v : ValidatorNode} {node : KanariNode}
    (h : LeadsTo P p v.node node) : ∃ events : List (Event ℕ),
      Session.run P spec v events = some { v with node := node } := by
  obtain ⟨ops, hfinal, -⟩ := h
  refine ⟨ops.map .op, ?_⟩
  induction ops generalizing v with
  | nil =>
    obtain rfl : v.node = node := hfinal
    rfl
  | cons op rest ih => exact ih (v := { v with node := v.node.perform P op }) hfinal

end KanariNode.LeadsTo

namespace Server

open KanariNode

def Method.submits : Method → Bool
  | .ethSendRawTransaction => true
  | .kanariFaucet => true
  | _ => false

section Arms

variable {P : Platform} {W : Wallet} {ratio : U64 × U64 → List Char} {p : Prop}
  {node node' : KanariNode} {out : Except RpcError Json}

theorem withParams_leadsTo {α : Type} {parsed : Except RpcError α} {act : α → Answer}
    (hact : ∀ a, parsed = .ok a → act a = .returned (node', out) → LeadsTo P p node node')
    (h : withParams node parsed act = .returned (node', out)) : LeadsTo P p node node' := by
  unfold withParams at h
  cases parsed with
  | error e =>
    cases h
    exact .refl node
  | ok a => exact hact a rfl h

theorem answer_returned {α : Type} {render : α → Json} {r : KanariNode × Except NodeError α}
    (h : answer render r = .returned (node', out)) : node' = r.1 := by
  obtain ⟨after, e | a⟩ := r
  · cases e <;> cases h <;> rfl
  · cases h
    rfl

theorem withCall_leadsTo {want : String} {params : Json} {act : CallRequest → Answer}
    (hact : ∀ request, act request = .returned (node', out) → LeadsTo P p node node')
    (h : withCall node want params act = .returned (node', out)) : LeadsTo P p node node' := by
  refine withParams_leadsTo (fun obj _ hobj => ?_) h
  cases hrun : (callRequestFromJson obj).run with
  | panicked =>
    rw [hrun] at hobj
    cases hobj
  | returned parsed =>
    rw [hrun] at hobj
    cases parsed with
    | error e =>
      cases hobj
      exact .refl node
    | ok request => exact hact request hobj

theorem dripFrom_leadsTo (secret : B256) (account toAddr : Address) (amountWei : U256) :
    LeadsTo P p node (node.dripFrom P W secret account toAddr amountWei).1 := by
  have hboth : LeadsTo P p node ((node.balanceOf P account).1.nonceOf P account).1 :=
    (LeadsTo.serve node (.balanceOf account)).trans (.serve _ (.nonceOf account))
  simp only [KanariNode.dripFrom]
  split_ifs
  · exact .serve node (.balanceOf account)
  · split
    · exact hboth
    · exact hboth

theorem drip_leadsTo (toAddr : Address) (amountWei : U256) :
    LeadsTo P p node (node.drip P W toAddr amountWei).1 := by
  unfold KanariNode.drip
  split_ifs
  · exact .refl node
  · split
    · exact .refl node
    · split
      · exact .refl node
      · exact dripFrom_leadsTo _ _ _ _

theorem faucet_leadsTo (hp : p) (toAddr : Address) (amountWei : U256) (now : U64) (io : SealIo) :
    LeadsTo P p node (node.faucet P W toAddr amountWei now io).1 := by
  have hdrip : LeadsTo P p node (node.drip P W toAddr amountWei).1 := drip_leadsTo _ _
  unfold KanariNode.faucet
  rcases hd : node.drip P W toAddr amountWei with ⟨asked, e | drip⟩
  · rw [hd] at hdrip
    exact hdrip
  · rw [hd] at hdrip
    exact hdrip.trans (.attempt hp asked (.send drip.raw now) io)

/-- Serving a method is some operations of the node, and those that submit nothing only read. -/
theorem arm_leadsTo {io : RpcIo} {params : Json} {method : Method}
    (h : arm P W ratio io node params method = .returned (node', out)) :
    LeadsTo P (method.submits = true) node node' := by
  cases method with
  | ethGetCode =>
    refine withParams_leadsTo (fun a _ ha => ?_) h
    cases ha
    exact .serve node (.codeOf a)
  | ethGetBalance =>
    refine withParams_leadsTo (fun a _ ha => ?_) h
    cases ha
    exact .serve node (.balanceOf a)
  | ethGetTransactionCount =>
    refine withParams_leadsTo (fun a _ ha => ?_) h
    cases ha
    exact .serve node (.nonceOf a)
  | ethGetStorageAt =>
    refine withParams_leadsTo (fun slot _ hslot => ?_) h
    cases hslot
    exact .serve node (.storageOf slot.1 slot.2)
  | ethSendRawTransaction =>
    refine withParams_leadsTo (fun raw _ hraw => ?_) h
    rw [answer_returned hraw]
    exact .attempt rfl node (.send raw io.now) io.backend
  | kanariFaucet =>
    refine withParams_leadsTo (fun asked _ hasked => ?_) h
    rw [answer_returned hasked]
    exact faucet_leadsTo rfl _ _ _ _
  | ethCall =>
    refine withCall_leadsTo (fun request hrequest => ?_) h
    rw [answer_returned hrequest]
    exact .serve node (.call request io.now)
  | ethEstimateGas =>
    refine withCall_leadsTo (fun request hrequest => ?_) h
    rw [answer_returned hrequest]
    exact .serve node (.call request io.now)
  | debugTraceCall =>
    refine withCall_leadsTo (fun request hrequest => ?_) h
    refine withParams_leadsTo (fun opts _ hopts => ?_) hrequest
    rw [answer_returned hopts]
    exact .serve node (.traceCall request io.now opts)
  | debugTraceTransaction =>
    refine withParams_leadsTo (fun hash _ hhash => ?_) h
    refine withParams_leadsTo (fun opts _ hopts => ?_) hhash
    rw [answer_returned hopts]
    exact .refl node
  | ethGetTransactionByHash | ethGetTransactionReceipt | ethGetBlockByHash | ethGetBlockByNumber |
      kanariGetSmtProof =>
    -- these look up what the node has recorded, and read no account
    refine withParams_leadsTo (fun a _ ha => ?_) h
    cases ha
    exact .refl node
  | web3ClientVersion | netVersion | ethChainId | ethBlockNumber | ethSyncing | netListening |
      ethFeeHistory | ethGasPrice | ethMaxPriorityFeePerGas | kanariSupply | ethGetLogs =>
    cases h
    exact .refl node

def submitsItem (item : Json) : Bool :=
  match RpcRequest.fromValue item with
  | none => false
  | some req => ((methodNames.lookup (String.ofList req.method)).map Method.submits).getD false

/-- The node that a panic leaves behind: the faucet has looked its account up by then, the other
arms have done nothing. -/
def afterPanic (P : Platform) (W : Wallet) (node : KanariNode) (item : Json) : KanariNode :=
  match RpcRequest.fromValue item with
  | none => node
  | some req =>
    match methodNames.lookup (String.ofList req.method), faucetParams req.params with
    | some .kanariFaucet, .ok asked => (node.drip P W asked.1 asked.2).1
    | _, _ => node

theorem handleItem_leadsTo {io : RpcIo} {item response : Json}
    (h : handleItem P W ratio node io item = .returned (node', response)) :
    LeadsTo P (submitsItem item = true) node node' := by
  unfold handleItem at h
  cases hreq : RpcRequest.fromValue item with
  | none =>
    rw [hreq] at h
    cases h
    exact .refl node
  | some req =>
    simp only [hreq, dispatch] at h
    cases hm : methodNames.lookup (String.ofList req.method) with
    | none =>
      simp only [hm] at h
      cases h
      exact .refl node
    | some method =>
      simp only [hm] at h
      obtain ⟨out, harm, hout⟩ := Outcome.bind_eq_returned_iff.mp h
      have hsubmits : submitsItem item = method.submits := by simp [submitsItem, hreq, hm]
      cases hout
      rw [hsubmits]
      exact arm_leadsTo harm

theorem afterPanic_leadsTo (item : Json) : LeadsTo P p node (afterPanic P W node item) := by
  unfold afterPanic
  split
  · exact .refl node
  · split
    · exact drip_leadsTo _ _
    · exact .refl node

end Arms

/-! Every body is handled by a task of its own. A task takes the lock once for each item, so the
items of several bodies, and the seals of the commit loop, interleave freely. -/

/-- The items of a body: those of a batch, or the body itself. -/
def bodyItems : Json → List Json
  | .arr items => items
  | .obj fields => [.obj fields]
  | _ => []

def reply : Json → List Json → Json
  | .arr [], _ => emptyBatch
  | .arr _, responses => .arr responses
  | .obj _, responses => responses.headD .null
  | _, _ => invalidRequest

inductive Progress
  | serving (todo responses : List Json)
  | replied (response : Json)
  | died

structure Task where
  body : Json
  progress : Progress

def Task.start (body : Json) : Task where
  body := body
  progress :=
    match logBody body with
    | .panicked => .died
    | .returned () =>
      match bodyItems body with
      | [] => .replied (reply body [])
      | item :: items => .serving (item :: items) []

structure ServerState where
  node : KanariNode
  tasks : List Task

inductive ServerEvent
  | arrive (body : Json)
  | turn (task : ℕ) (io : RpcIo)
  | loop (op : Op)

section Run

variable (P : Platform) (W : Wallet) (ratio : U64 × U64 → List Char)

/-- The task takes the lock for its next item. -/
def Task.serve (node : KanariNode) (io : RpcIo) (t : Task) : KanariNode × Task :=
  match t.progress with
  | .serving (item :: todo) responses =>
    match handleItem P W ratio node io item with
    | .panicked => (afterPanic P W node item, ⟨t.body, .died⟩)
    | .returned (node', response) =>
      (node', ⟨t.body, if todo = [] then .replied (reply t.body (responses ++ [response]))
        else .serving todo (responses ++ [response])⟩)
  | _ => (node, t)

def ServerState.step (s : ServerState) : ServerEvent → ServerState
  | .arrive body => { s with tasks := s.tasks ++ [.start body] }
  | .turn k io =>
    match s.tasks[k]? with
    | none => s
    | some t => ⟨(t.serve P W ratio s.node io).1, s.tasks.set k (t.serve P W ratio s.node io).2⟩
  | .loop op => { s with node := s.node.perform P op }

def ServerState.run (s : ServerState) (events : List ServerEvent) : ServerState :=
  events.foldl (ServerState.step P W ratio) s

variable {s : ServerState} {k : ℕ} (io : RpcIo)

theorem ServerState.step_turn_none (h : s.tasks[k]? = none) :
    s.step P W ratio (.turn k io) = s := by
  simp only [ServerState.step, h]

theorem ServerState.step_turn_some {t : Task} (h : s.tasks[k]? = some t) :
    s.step P W ratio (.turn k io) =
      ⟨(t.serve P W ratio s.node io).1, s.tasks.set k (t.serve P W ratio s.node io).2⟩ := by
  simp only [ServerState.step, h]

end Run

def Task.todo (t : Task) : List Json :=
  match t.progress with
  | .serving todo _ => todo
  | _ => []

section Refinement

variable {P : Platform} {W : Wallet} {ratio : U64 × U64 → List Char} {p : Prop}

theorem Task.todo_start (body : Json) :
    (Task.start body).todo = bodyItems body ∨ (Task.start body).todo = [] := by
  unfold Task.start Task.todo
  cases logBody body with
  | panicked => exact .inr rfl
  | returned u =>
    cases bodyItems body with
    | nil => exact .inr rfl
    | cons item items => exact .inl rfl

theorem Task.serve_cases (P : Platform) (W : Wallet) (ratio : U64 × U64 → List Char)
    (node : KanariNode) (io : RpcIo) (t : Task) :
    (t.todo = [] ∧ t.serve P W ratio node io = (node, t)) ∨
      ∃ item todo responses, t.progress = .serving (item :: todo) responses ∧
        ((handleItem P W ratio node io item = .panicked ∧
          t.serve P W ratio node io = (afterPanic P W node item, ⟨t.body, .died⟩)) ∨
        ∃ node' response, handleItem P W ratio node io item = .returned (node', response) ∧
          t.serve P W ratio node io = (node', ⟨t.body,
            if todo = [] then .replied (reply t.body (responses ++ [response]))
            else .serving todo (responses ++ [response])⟩)) := by
  obtain ⟨body, progress⟩ := t
  cases progress with
  | replied response => exact .inl ⟨rfl, rfl⟩
  | died => exact .inl ⟨rfl, rfl⟩
  | serving todo responses =>
    cases todo with
    | nil => exact .inl ⟨rfl, rfl⟩
    | cons item todo =>
      refine .inr ⟨item, todo, responses, rfl, ?_⟩
      unfold Task.serve
      cases hi : handleItem P W ratio node io item with
      | panicked => exact .inl ⟨rfl, by simp only [hi]⟩
      | returned out => exact .inr ⟨out.1, out.2, rfl, by simp only [hi]⟩

theorem Task.serve_leadsTo {node : KanariNode} {io : RpcIo} {t : Task}
    (h : ∀ item ∈ t.todo, submitsItem item = true → p) :
    LeadsTo P p node (t.serve P W ratio node io).1 ∧
      (t.serve P W ratio node io).2.todo ⊆ t.todo := by
  rcases t.serve_cases P W ratio node io with
    ⟨-, hs⟩ | ⟨item, todo, responses, hp, ⟨-, hs⟩ | ⟨node', response, hi, hs⟩⟩
  · rw [hs]
    exact ⟨.refl node, List.Subset.refl _⟩
  · rw [hs]
    exact ⟨afterPanic_leadsTo item, List.nil_subset _⟩
  · have htodo : t.todo = item :: todo := by rw [Task.todo, hp]
    rw [hs, htodo]
    refine ⟨(handleItem_leadsTo hi).mono (h item (htodo ▸ List.mem_cons_self)), ?_⟩
    split_ifs
    · exact List.nil_subset _
    · exact List.subset_cons_self _ _

theorem ServerState.run_leadsTo {s : ServerState} {events : List ServerEvent}
    (htasks : ∀ t ∈ s.tasks, ∀ item ∈ t.todo, submitsItem item = true → p)
    (harrive : ∀ body, .arrive body ∈ events → ∀ item ∈ bodyItems body,
      submitsItem item = true → p)
    (hloop : ∀ step io, .loop (.attempt step io) ∈ events → p) :
    LeadsTo P p s.node (s.run P W ratio events).node := by
  -- on the events: the tasks that wait only ever hold items of a body that has arrived
  induction events generalizing s with
  | nil => exact .refl _
  | cons e rest ih =>
    have hrest := fun body hbody => harrive body (List.mem_cons_of_mem e hbody)
    have hrest' := fun step io hstep => hloop step io (List.mem_cons_of_mem e hstep)
    cases e with
    | arrive body =>
      refine ih (s := { s with tasks := s.tasks ++ [.start body] }) (fun t ht => ?_) hrest hrest'
      rcases List.mem_append.mp ht with ht | ht
      · exact htasks t ht
      · rw [List.mem_singleton.mp ht]
        intro item hitem
        rcases Task.todo_start body with hall | hnone
        · exact harrive body List.mem_cons_self item (hall ▸ hitem)
        · rw [hnone] at hitem
          exact absurd hitem List.not_mem_nil
    | turn k io =>
      cases hk : s.tasks[k]? with
      | none =>
        rw [ServerState.run, List.foldl_cons, ServerState.step_turn_none P W ratio io hk]
        exact ih htasks hrest hrest'
      | some t =>
        have hmem : t ∈ s.tasks := List.mem_of_getElem? hk
        -- a turn serves the first item, so what is left to do has shrunk
        obtain ⟨hserve, htodo⟩ : LeadsTo P p s.node (t.serve P W ratio s.node io).1 ∧
            (t.serve P W ratio s.node io).2.todo ⊆ t.todo := Task.serve_leadsTo (htasks t hmem)
        rw [ServerState.run, List.foldl_cons, ServerState.step_turn_some P W ratio io hk]
        refine hserve.trans (ih (s := ⟨_, _⟩) (fun t' ht' => ?_) hrest hrest')
        rcases List.mem_or_eq_of_mem_set ht' with ht' | rfl
        · exact htasks t' ht'
        · exact fun item hitem => htasks t hmem item (htodo hitem)
    | loop op =>
      have hop : LeadsTo P p s.node (s.node.perform P op) := by
        cases op with
        | read request => exact .serve s.node request
        | attempt step io => exact .attempt (hloop step io List.mem_cons_self) s.node step io
      exact hop.trans (ih (s := { s with node := s.node.perform P op }) htasks hrest hrest')

/-- Something that can seal a transaction is among the events: a request to submit one, or a seal
of the commit loop. -/
def Submits (events : List ServerEvent) : Prop :=
  (∃ body, .arrive body ∈ events ∧ ∃ item ∈ bodyItems body, submitsItem item = true) ∨
    ∃ step io, .loop (.attempt step io) ∈ events

theorem ServerState.run_leadsTo_submits (node : KanariNode) (events : List ServerEvent) :
    LeadsTo P (Submits events) node (ServerState.run P W ratio ⟨node, []⟩ events).node := by
  apply ServerState.run_leadsTo (s := ⟨node, []⟩)
  · exact fun _ ht => absurd ht List.not_mem_nil
  · exact fun body hbody item hitem h => .inl ⟨body, hbody, item, hitem, h⟩
  · exact fun step io h => .inr ⟨step, io, h⟩

/-- Whatever bodies arrive and however their items, and the turns of the commit loop, interleave:
the node does nothing but its own operations, and unless something is submitted or committed, its
chain, receipts, store and accounts stay as they are. -/
theorem clients_refine_node (hR : P.toRevm.CacheLaws) (node : KanariNode)
    (events : List ServerEvent) :
    LeadsTo P (Submits events) node (ServerState.run P W ratio ⟨node, []⟩ events).node ∧
      (¬Submits events → (ServerState.run P W ratio ⟨node, []⟩ events).node.SameChain node) :=
  ⟨ServerState.run_leadsTo_submits node events,
    fun h => (ServerState.run_leadsTo_submits node events).sameChain hR h⟩

/-- The chain of a node stays one chain, in memory and in the store, through every interleaving of
clients and commit loop. -/
theorem clients_keep_one_chain (hR : P.toRevm.CacheLaws) (hn : P.toRevm.CountsNonces)
    {spec : KanariChainSpec} {first : ValidatorNode}
    (hfirst : first = ⟨created P spec, 0, []⟩ ∨ first = ValidatorNode.spawn (created P spec))
    (events : List ServerEvent)
    (hfree : CollisionFree P (ServerState.run P W ratio ⟨first.node, []⟩ events).node) :
    (ServerState.run P W ratio ⟨first.node, []⟩ events).node.OneChain P := by
  have hleads : LeadsTo P _ first.node (ServerState.run P W ratio ⟨first.node, []⟩ events).node :=
    ServerState.run_leadsTo_submits first.node events
  obtain ⟨session, hrun⟩ := hleads.session spec
  have hstart : first.node.Exhausted P := by
    rcases hfirst with rfl | rfl
    · exact Exhausted.of_nil rfl
    · exact Exhausted.of_nil rfl
  exact (Coherent.life hR hfirst hrun).oneChain (hstart.session hR hn hrun) hfree

end Refinement

def headWhileSealing : List ServerEvent :=
  [.arrive (.obj [("id", .num 1), ("method", .text "eth_blockNumber")]),
    .loop (.attempt (.committed Reference.transfer0 5) .healthy), .turn 0 ⟨6, .healthy⟩]

theorem clients_keep_one_chain_transfer :
    (ServerState.run Reference.platform DevWallet.wallet Payment.noRatio
        ⟨created Reference.platform Reference.spec, []⟩ headWhileSealing).node.OneChain
      Reference.platform := by
  have hfirst : (⟨created Reference.platform Reference.spec, 0, []⟩ : ValidatorNode) =
      ⟨created Reference.platform Reference.spec, 0, []⟩ ∨
        ⟨created Reference.platform Reference.spec, 0, []⟩ =
          ValidatorNode.spawn (created Reference.platform Reference.spec) := .inl rfl
  exact clients_keep_one_chain Reference.cacheLaws Reference.countsNonces hfirst headWhileSealing
    (by decide +kernel)

/-- A batch that reads the state: the balance of an account that the node has not met, and the nonce
of the funded one. -/
def stateReads : List Json :=
  [.obj [("id", .num 1), ("method", .text "eth_getBalance"),
      ("params", .arr [.text "0x00000000000000000000000000000000000000a1"])],
    .obj [("id", .num 2), ("method", .text "eth_getTransactionCount"),
      ("params", .arr [.text "0xf39fd6e51aad88f6f4ce6ab8827279cfffb92266", .text "latest"])]]

/-- The first read puts an entry into the cache, and the chain stays as it is. -/
theorem clients_refine_node_reads :
    let node := (ServerState.run Reference.platform DevWallet.wallet Payment.noRatio
      ⟨created Reference.platform Reference.spec, []⟩
      [.arrive (.arr stateReads), .turn 0 ⟨6, .healthy⟩, .turn 0 ⟨6, .healthy⟩]).node
    (node.db.accounts.lookup 0xa1).isSome ∧
      ((created Reference.platform Reference.spec).db.accounts.lookup 0xa1).isNone ∧
      node.SameChain (created Reference.platform Reference.spec) := by
  refine ⟨by decide +kernel, by decide +kernel, (clients_refine_node Reference.cacheLaws _ _).2 ?_⟩
  rintro (⟨body, hbody, item, hitem, hsubmits⟩ | ⟨step, io, hloop⟩)
  · obtain rfl : body = .arr stateReads := by simpa using hbody
    have hreads : ∀ item ∈ bodyItems (.arr stateReads), submitsItem item = false := by
      decide +kernel
    rw [hreads item hitem] at hsubmits
    cases hsubmits
  · simp at hloop

section Answers

variable (P : Platform) (W : Wallet) (ratio : U64 × U64 → List Char)

/-- A response to an item: an object with the id of the request, a parse error where there is no
request. -/
structure Answers (item response : Json) : Prop where
  object : ∃ fields, response = .obj fields
  id : ∀ req, RpcRequest.fromValue item = some req → response.get "id" = some req.id
  malformed : RpcRequest.fromValue item = none → response = parseError

/-- How far the task of a body can be: it has answered the first items and has others left, it has
replied with an answer to each item, in their order, or something of its own body has panicked. -/
def Task.Sound (t : Task) : Prop :=
  match t.progress with
  | .serving todo responses => todo ≠ [] ∧
      ∃ done, bodyItems t.body = done ++ todo ∧ List.Forall₂ Answers done responses
  | .replied response => ∃ responses, response = reply t.body responses ∧
      List.Forall₂ Answers (bodyItems t.body) responses
  | .died => logBody t.body = .panicked ∨
      ∃ item ∈ bodyItems t.body, ∃ node io, handleItem P W ratio node io item = .panicked

variable {P W ratio}

theorem handleItem_answers {node node' : KanariNode} {io : RpcIo} {item response : Json}
    (h : handleItem P W ratio node io item = .returned (node', response)) :
    Answers item response := by
  obtain ⟨hobject, hid⟩ := handleItem_response h
  refine ⟨hobject, hid, fun hnone => ?_⟩
  rw [handleItem_malformed hnone] at h
  cases h
  rfl

theorem Task.sound_start (body : Json) : (Task.start body).Sound P W ratio := by
  unfold Task.start Task.Sound
  cases hlog : logBody body with
  | panicked => exact .inl rfl
  | returned u =>
    cases hitems : bodyItems body with
    | nil => exact ⟨[], rfl, .nil⟩
    | cons item items => exact ⟨List.cons_ne_nil _ _, [], rfl, .nil⟩

theorem Task.Sound.serve {t : Task} (h : t.Sound P W ratio) (node : KanariNode) (io : RpcIo) :
    (t.serve P W ratio node io).2.Sound P W ratio := by
  rcases t.serve_cases P W ratio node io with
    ⟨-, hs⟩ | ⟨item, todo, responses, hp, ⟨hi, hs⟩ | ⟨node', response, hi, hs⟩⟩
  · rw [hs]
    exact h
  · simp only [Task.Sound, hp] at h
    obtain ⟨-, done, hitems, -⟩ := h
    rw [hs]
    exact .inr ⟨item, by simp [hitems], node, io, hi⟩
  · simp only [Task.Sound, hp] at h
    obtain ⟨-, done, hitems, hdone⟩ := h
    have hnext : List.Forall₂ Answers (done ++ [item]) (responses ++ [response]) :=
      List.rel_append hdone (.cons (handleItem_answers hi) .nil)
    rw [hs]
    by_cases htodo : todo = []
    · rw [if_pos htodo]
      refine ⟨responses ++ [response], rfl, ?_⟩
      rw [show bodyItems t.body = done ++ [item] by rw [hitems, htodo]]
      exact hnext
    · rw [if_neg htodo]
      exact ⟨htodo, done ++ [item], by simp [hitems], hnext⟩

theorem Task.serve_body (node : KanariNode) (io : RpcIo) (t : Task) :
    (t.serve P W ratio node io).2.body = t.body := by
  rcases t.serve_cases P W ratio node io with
    ⟨-, hs⟩ | ⟨item, todo, responses, hp, ⟨hi, hs⟩ | ⟨node', response, hi, hs⟩⟩ <;> rw [hs]

variable (P W ratio) in
theorem Task.serve_todo_length (node : KanariNode) (io : RpcIo) (t : Task) :
    (t.serve P W ratio node io).2.todo.length = t.todo.length - 1 ∨
      (t.serve P W ratio node io).2.todo = [] := by
  rcases t.serve_cases P W ratio node io with
    ⟨ht, hs⟩ | ⟨item, todo, responses, hp, ⟨hi, hs⟩ | ⟨node', response, hi, hs⟩⟩
  · rw [hs]
    exact .inr ht
  · rw [hs]
    exact .inr rfl
  · rw [hs]
    by_cases htodo : todo = []
    · rw [if_pos htodo]
      exact .inr rfl
    · rw [if_neg htodo]
      left
      rw [show t.todo = item :: todo by rw [Task.todo, hp]]
      rfl

def turnsOf (k : ℕ) (events : List ServerEvent) : ℕ :=
  events.countP fun e =>
    match e with
    | .turn j _ => j = k
    | _ => false

/-- A task goes its own way, whatever the other tasks and the commit loop do. -/
theorem ServerState.run_task {s : ServerState} {k : ℕ} {t : Task} (hk : s.tasks[k]? = some t)
    (h : t.Sound P W ratio) (events : List ServerEvent) :
    ∃ t', (s.run P W ratio events).tasks[k]? = some t' ∧ t'.body = t.body ∧
      t'.Sound P W ratio ∧ (t'.todo = [] ∨ t'.todo.length + turnsOf k events = t.todo.length) := by
  induction events generalizing s t with
  | nil => exact ⟨t, hk, rfl, h, .inr rfl⟩
  | cons e rest ih =>
    cases e with
    | arrive body =>
      have hk' : (s.tasks ++ [Task.start body])[k]? = some t := by
        rw [List.getElem?_append_left (List.getElem?_eq_some_iff.mp hk).1, hk]
      exact ih (s := ⟨s.node, s.tasks ++ [.start body]⟩) hk' h
    | loop op => exact ih (s := ⟨s.node.perform P op, s.tasks⟩) hk h
    | turn j io =>
      by_cases hj : j = k
      · subst hj
        have hlt := (List.getElem?_eq_some_iff.mp hk).1
        have hk' : (s.step P W ratio (.turn j io)).tasks[j]? =
            some (t.serve P W ratio s.node io).2 := by
          rw [ServerState.step_turn_some P W ratio io hk]
          exact List.getElem?_set_self hlt
        -- its own turn: one item fewer and one turn more, unless nothing was left
        have hcount : turnsOf j (.turn j io :: rest) = turnsOf j rest + 1 := by simp [turnsOf]
        obtain ⟨t', ht', hbody, hsound, hleft⟩ := ih hk' (h.serve s.node io)
        refine ⟨t', ht', hbody.trans (t.serve_body s.node io), hsound, ?_⟩
        have hserve := Task.serve_todo_length P W ratio s.node io t
        rw [← List.length_eq_zero_iff] at hleft hserve ⊢
        omega
      -- the turn of another task writes at another place of the list
      · have hk' : (s.step P W ratio (.turn j io)).tasks[k]? = some t := by
          cases hu : s.tasks[j]? with
          | none => rw [ServerState.step_turn_none P W ratio io hu, hk]
          | some u =>
            rw [ServerState.step_turn_some P W ratio io hu]
            exact (List.getElem?_set_ne hj).trans hk
        have hcount : turnsOf k (.turn j io :: rest) = turnsOf k rest := by simp [turnsOf, hj]
        rw [hcount]
        exact ih (s := s.step P W ratio (.turn j io)) hk' h

variable (P W ratio) in
/-- Whatever other clients and the commit loop do in between: the reply to a body has one answer
for each of its items, in their order, and comes after as many turns at the lock as the body has
items, unless logging the body or one of its own items panics. -/
theorem every_body_is_answered (s : ServerState) (body : Json) (events : List ServerEvent) :
    ∃ t, (s.run P W ratio (.arrive body :: events)).tasks[s.tasks.length]? = some t ∧
      t.body = body ∧
      (∀ response, t.progress = .replied response → ∃ responses,
        response = reply body responses ∧ List.Forall₂ Answers (bodyItems body) responses) ∧
      (t.progress = .died → logBody body = .panicked ∨
        ∃ item ∈ bodyItems body, ∃ node io, handleItem P W ratio node io item = .panicked) ∧
      ((bodyItems body).length ≤ turnsOf s.tasks.length events →
        ∀ todo responses, t.progress ≠ .serving todo responses) := by
  have hstart : (s.step P W ratio (.arrive body)).tasks[s.tasks.length]? =
      some (Task.start body) := by
    simp [ServerState.step]
  obtain ⟨t, ht, hbody, hsound, hleft⟩ :=
    ServerState.run_task hstart (Task.sound_start body) events
  have hle : (Task.start body).todo.length ≤ (bodyItems body).length := by
    rcases Task.todo_start body with hall | hnone
    · rw [hall]
    · rw [hnone]
      exact Nat.zero_le _
  obtain ⟨b, progress⟩ := t
  obtain rfl : b = body := hbody
  refine ⟨⟨b, progress⟩, ht, rfl, ?_, ?_, ?_⟩
  · rintro response rfl
    exact hsound
  · rintro rfl
    exact hsound
  · rintro hturns todo responses rfl
    -- a task that still serves has an item left, and by the count it has had no turns to spare
    have htodo : todo ≠ [] := hsound.1
    rcases hleft with hnil | hleft
    · exact htodo hnil
    · have hpos : 0 < todo.length := List.length_pos_iff.mpr htodo
      have hlen : todo.length + turnsOf s.tasks.length events = (Task.start b).todo.length := hleft
      omega

end Answers

end Server

end KanariEvm
