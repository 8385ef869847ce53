import KanariEvm.DevWallet
import KanariEvm.Executor
import Mathlib.Data.Fintype.Pi

namespace KanariEvm

open Deferred

/-- What clients ask of a validator. -/
inductive SiteRequest
  | rpc (request : Request)
  | faucet (toAddr : Address) (amountWei : U256) (now : U64)
deriving DecidableEq

/-- A validator: the commit loop and the node it shares, the batch that the forwarder has taken from
the channel, all the batches that the core has been handed, whether the forwarder has stopped, the
hashes that submissions were answered with, and how many commits have arrived. -/
structure Site where
  exec : Executor
  inHand : Option (List Bytes)
  mempool : List (List Bytes)
  stopped : Bool
  answered : List B256
  delivered : ℕ

/-- A request, a step of the commit loop, or one of the forwarder: it takes a batch, hands it to the
core, or finds the core gone. -/
inductive SiteEvent
  | serve (request : SiteRequest)
  | attempt (io : SealIo)
  | endPass
  | take
  | hand
  | stop

namespace Site

variable (P : Platform) (W : Wallet)

def handle (node : KanariNode) : SiteRequest → KanariNode × Option B256
  | .rpc (.read request) => (node.serve P request, none)
  | .rpc (.send raw now) =>
    let out := node.sendRawTransaction P raw now .healthy
    (out.1, out.2.toOption)
  | .faucet toAddr amountWei now =>
    let out := node.faucet P W toAddr amountWei now .healthy
    (out.1, out.2.toOption)

def spawn (node : KanariNode) : Site := ⟨.spawn node, none, [], false, [], 0⟩

def queue (s : Site) : List (List Bytes) := (s.exec.node.dagSender.map (·.queue)).getD []

def withSender (s : Site) (sender : DagSender) : Site :=
  { s with exec := { s.exec with node := { s.exec.node with dagSender := some sender } } }

/-- One event, if it can happen. When the core is gone, the forwarder ends with the batch it has in
hand, and the channel is closed with what is in it. -/
def step (s : Site) : SiteEvent → Option Site
  | .serve request =>
    let out := handle P W s.exec.node request
    some { s with
      exec := { s.exec with node := out.1 }
      answered := s.answered ++ out.2.toList }
  | .attempt io =>
    (s.exec.step P (.sweep (.attempt io) : ExecutorEvent Unit)).map fun exec =>
      { s with exec := exec }
  | .endPass =>
    (s.exec.step P (.sweep .endPass : ExecutorEvent Unit)).map fun exec => { s with exec := exec }
  | .take =>
    match s.stopped, s.inHand, s.exec.node.dagSender with
    | false, none, some ⟨capacity, batch :: rest, closed⟩ =>
      some { s.withSender ⟨capacity, rest, closed⟩ with inHand := some batch }
    | _, _, _ => none
  | .hand =>
    match s.inHand with
    | some batch => some { s with inHand := none, mempool := s.mempool ++ [batch] }
    | none => none
  | .stop =>
    match s.inHand, s.exec.node.dagSender with
    | some _, some sender =>
      some { s.withSender { sender with queue := [], closed := true } with
        inHand := none
        stopped := true }
    | _, _ => none

variable {P W}

/-- Nothing is sealed. Nothing is submitted and no hash is answered, or one transaction goes to the
end of the channel and its hash is the answer. -/
inductive Submits (P : Platform) (node node' : KanariNode) : Option B256 → Prop
  | nothing (hblocks : node'.blocks = node.blocks) (h : node'.dagSender = node.dagSender) :
      Submits P node node' none
  | one (hblocks : node'.blocks = node.blocks) (sender : DagSender) (raw : Bytes)
      (h : node.dagSender = some sender) (hopen : sender.closed = false)
      (hroom : sender.queue.length < sender.capacity)
      (h' : node'.dagSender = some { sender with queue := sender.queue ++ [[raw]] }) :
      Submits P node node' (some (P.keccak256 raw))

theorem Submits.blocks {node node' : KanariNode} {answer : Option B256}
    (h : Submits P node node' answer) : node'.blocks = node.blocks := by
  cases h with
  | nothing hblocks _ => exact hblocks
  | one hblocks _ _ _ _ _ _ => exact hblocks

theorem sendRawTransaction_submits {node : KanariNode} (h : node.dagSender.isSome) (raw : Bytes)
    (now : U64) (io : SealIo) :
    Submits P node (node.sendRawTransaction P raw now io).1
      (node.sendRawTransaction P raw now io).2.toOption := by
  obtain ⟨sender, hsender⟩ := Option.isSome_iff_exists.mp h
  simp only [KanariNode.sendRawTransaction, hsender, DagSender.trySend]
  by_cases hclosed : sender.closed = true
  · rw [if_pos hclosed]
    exact .nothing rfl rfl
  · rw [if_neg hclosed]
    by_cases hroom : sender.queue.length < sender.capacity
    · rw [if_pos hroom]
      refine .one ?_ sender raw hsender (Bool.eq_false_iff.mpr hclosed) hroom ?_
      · rfl
      · rfl
    · rw [if_neg hroom]
      exact .nothing rfl rfl

theorem handle_submits {node : KanariNode} (h : node.dagSender.isSome) (request : SiteRequest) :
    Submits P node (handle P W node request).1 (handle P W node request).2 := by
  cases request with
  | rpc request =>
    cases request with
    | read request =>
      rw [handle, KanariNode.serve_eq]
      exact .nothing rfl rfl
    | send raw now => exact sendRawTransaction_submits h raw now .healthy
  | faucet toAddr amountWei now =>
    -- the drip has looked its account up, then it is sent like any other
    obtain ⟨db, hdb⟩ := node.drip_fst (P := P) (W := W) toAddr amountWei
    rcases hdrip : node.drip P W toAddr amountWei with ⟨asked, e | drip⟩
    · rw [hdrip] at hdb
      simp only [handle, KanariNode.faucet, hdrip]
      rw [show asked = _ from hdb]
      exact .nothing rfl rfl
    · rw [hdrip] at hdb
      have hasked : asked = { node with db := db } := hdb
      subst hasked
      simp only [handle, KanariNode.faucet, hdrip]
      have hsent := @sendRawTransaction_submits P { node with db := db } h drip.raw now .healthy
      generalize KanariNode.sendRawTransaction P _ drip.raw now .healthy = out at hsent ⊢
      generalize out.2.toOption = answer at hsent ⊢
      cases hsent with
      | nothing hblocks hsame => exact .nothing hblocks hsame
      | one hblocks sender raw hsender hopen hroom hnode =>
        refine .one ?_ sender raw ?_ hopen hroom hnode
        · exact hblocks
        · exact hsender

/-- The channel is that of a validator, what was answered is on its way until the forwarder stops,
and what the core has been handed was answered first. -/
structure Flows (P : Platform) (s : Site) : Prop where
  sender : ∃ sender, s.exec.node.dagSender = some sender ∧ sender.capacity = dagChannelCapacity ∧
    sender.closed = s.stopped ∧ sender.queue.length ≤ sender.capacity
  onTheWay : s.stopped = false →
    s.answered = (s.mempool ++ s.inHand.toList ++ s.queue).flatten.map P.keccak256
  handed : s.mempool.flatten.map P.keccak256 <+: s.answered
  idle : s.stopped = true → s.inHand = none

theorem flows_spawn (node : KanariNode) : (spawn node).Flows P where
  sender := ⟨⟨dagChannelCapacity, [], false⟩, rfl, rfl, rfl, Nat.zero_le _⟩
  onTheWay _ := rfl
  handed := List.prefix_refl _
  idle _ := rfl

theorem Flows.serve {s : Site} (h : s.Flows P) {node : KanariNode} {answer : Option B256}
    (hserved : Submits P s.exec.node node answer) :
    Flows P { s with
      exec := { s.exec with node := node }
      answered := s.answered ++ answer.toList } := by
  obtain ⟨sender, hsender, hcapacity, hclosed, hlength⟩ := h.sender
  cases hserved with
  | nothing _ hsame =>
    refine ⟨⟨sender, hsame.trans hsender, hcapacity, hclosed, hlength⟩, fun hrunning => ?_, ?_,
      h.idle⟩
    · have hflow := h.onTheWay hrunning
      simp only [queue, hsame, Option.toList_none, List.append_nil] at hflow ⊢
      exact hflow
    · exact h.handed.trans (List.prefix_append _ _)
  | one _ sender' raw hsender' hopen hroom hnode =>
    rw [hsender] at hsender'
    cases hsender'
    refine ⟨⟨_, hnode, hcapacity, hclosed, ?_⟩, fun hrunning => ?_, ?_, h.idle⟩
    · rw [List.length_append, List.length_singleton]
      exact hroom
    · have hflow := h.onTheWay hrunning
      simp only [queue, hsender, hnode, Option.map_some, Option.getD_some] at hflow ⊢
      rw [hflow]
      simp
    · exact h.handed.trans (List.prefix_append _ _)

theorem Flows.loop {s : Site} (h : s.Flows P) {exec : Executor} {delivered : ℕ}
    (hsame : exec.node.dagSender = s.exec.node.dagSender) :
    Flows P { s with exec := exec, delivered := delivered } := by
  obtain ⟨sender, hsender, hrest⟩ := h.sender
  refine ⟨⟨sender, hsame.trans hsender, hrest⟩, fun hrunning => ?_, h.handed, h.idle⟩
  have hflow := h.onTheWay hrunning
  simp only [queue, hsame] at hflow ⊢
  exact hflow

theorem Flows.take {s s' : Site} (h : s.Flows P) (hstep : s.step P W .take = some s') :
    s'.Flows P := by
  obtain ⟨sender, hsender, hcapacity, hclosed, hlength⟩ := h.sender
  obtain ⟨capacity, queue, closed⟩ := sender
  cases hstopped : s.stopped with
  | true => simp [step, hstopped] at hstep
  | false =>
    cases hhand : s.inHand with
    | some batch => simp [step, hhand] at hstep
    | none =>
      cases queue with
      | nil => simp [step, hsender] at hstep
      | cons batch rest =>
        simp only [step, hstopped, hhand, hsender, Option.some.injEq] at hstep
        subst hstep
        have hflow := h.onTheWay hstopped
        refine ⟨⟨_, rfl, hcapacity, hclosed, (Nat.le_succ _).trans hlength⟩, fun _ => ?_, h.handed,
          fun hstop => absurd hstop (by simp [withSender, hstopped])⟩
        show s.answered = _
        rw [hflow, Site.queue, hsender, hhand]
        simp [Site.queue, withSender]

theorem Flows.hand {s s' : Site} (h : s.Flows P) (hstep : s.step P W .hand = some s') :
    s'.Flows P := by
  cases hhand : s.inHand with
  | none => simp [step, hhand] at hstep
  | some batch =>
    simp only [step, hhand, Option.some.injEq] at hstep
    subst hstep
    have hrunning : s.stopped = false := by
      by_contra hstop
      have hnone := h.idle (Bool.not_eq_false _ ▸ hstop)
      rw [hhand] at hnone
      cases hnone
    have hflow := h.onTheWay hrunning
    rw [hhand] at hflow
    refine ⟨h.sender, fun _ => ?_, ?_, fun _ => rfl⟩
    · show s.answered = _
      rw [hflow]
      simp [Site.queue]
    · refine ⟨s.queue.flatten.map P.keccak256, ?_⟩
      show _ = s.answered
      rw [hflow, ← List.map_append, ← List.flatten_append]
      rfl

theorem Flows.stop {s s' : Site} (h : s.Flows P) (hstep : s.step P W .stop = some s') :
    s'.Flows P := by
  obtain ⟨sender, hsender, hcapacity, -⟩ := h.sender
  cases hhand : s.inHand with
  | none => simp [step, hhand] at hstep
  | some batch =>
    simp only [step, hhand, hsender, Option.some.injEq] at hstep
    subst hstep
    exact ⟨⟨_, rfl, hcapacity, rfl, Nat.zero_le _⟩, fun hrunning => Bool.noConfusion hrunning,
      h.handed, fun _ => rfl⟩

theorem Flows.step {s s' : Site} (h : s.Flows P) {event : SiteEvent}
    (hstep : s.step P W event = some s') : s'.Flows P := by
  cases event with
  | serve request =>
    obtain ⟨sender, hsender, -⟩ := h.sender
    cases hstep
    exact h.serve (handle_submits (by rw [hsender]; rfl) request)
  | attempt io =>
    obtain ⟨exec, hexec, rfl⟩ := Option.map_eq_some_iff.mp hstep
    exact h.loop (Executor.attempt_works hexec).sender
  | endPass =>
    obtain ⟨exec, hexec, rfl⟩ := Option.map_eq_some_iff.mp hstep
    exact h.loop (Executor.endPass_works hexec).sender
  | take => exact h.take hstep
  | hand => exact h.hand hstep
  | stop => exact h.stop hstep

end Site

/-- The validators, and the commits that consensus has agreed on so far. -/
structure Network (ι ρ : Type) where
  sites : ι → Site
  order : List (CommittedSubDag ρ)

/-- Something happens at a validator, the next commit arrives there, or consensus agrees on one. -/
inductive NetworkEvent (ι ρ : Type)
  | site (i : ι) (event : SiteEvent)
  | receive (i : ι)
  | commit (commit : CommittedSubDag ρ)

namespace Network

variable (P : Platform) (W : Wallet) {ι ρ : Type} [Fintype ι] [DecidableEq ι] [DecidableEq ρ]

def spawn (start : ι → KanariNode) : Network ι ρ := ⟨fun i => .spawn (start i), []⟩

def set (net : Network ι ρ) (i : ι) (site : Site) : Network ι ρ :=
  { net with sites := Function.update net.sites i site }

/-- Cores propose what they have been handed: only that can be committed. -/
def Proposed (net : Network ι ρ) (commit : CommittedSubDag ρ) : Prop :=
  ∀ raw ∈ orderedPayloads [commit], ∃ i, raw ∈ (net.sites i).mempool.flatten

instance (net : Network ι ρ) (commit : CommittedSubDag ρ) : Decidable (net.Proposed commit) := by
  unfold Proposed
  infer_instance

def step (net : Network ι ρ) : NetworkEvent ι ρ → Option (Network ι ρ)
  | .site i event => ((net.sites i).step P W event).map (net.set i)
  | .receive i =>
    match net.order[(net.sites i).delivered]? with
    | none => none
    | some commit =>
      ((net.sites i).exec.step P (.receive commit)).map fun exec =>
        net.set i { net.sites i with exec := exec, delivered := (net.sites i).delivered + 1 }
  | .commit commit =>
    if net.Proposed commit then some { net with order := net.order ++ [commit] } else none

def run (net : Network ι ρ) (events : List (NetworkEvent ι ρ)) : Option (Network ι ρ) :=
  events.foldlM (step P W) net

/-- Submissions flow at every site; what was committed has been handed to a core; the loops work on
what was committed, and so have all blocks come about that were not there at the start. -/
structure Traced (P : Platform) (start : ι → KanariNode) (net : Network ι ρ) : Prop where
  flows : ∀ i, (net.sites i).Flows P
  committed : ∀ raw ∈ orderedPayloads net.order, ∃ i, raw ∈ (net.sites i).mempool.flatten
  inputs : ∀ i, (net.sites i).exec.phase.inputs ⊆ orderedPayloads net.order
  blocks : ∀ i, ∃ new, (net.sites i).exec.node.blocks = (start i).blocks ++ new ∧
    ∀ block ∈ new, block.txs ⊆ orderedPayloads net.order

variable {P W} {start : ι → KanariNode} {net net' : Network ι ρ}

omit [Fintype ι] [DecidableEq ι] [DecidableEq ρ] in
theorem traced_spawn : (spawn start : Network ι ρ).Traced P start where
  flows i := Site.flows_spawn (start i)
  committed _ hraw := nomatch hraw
  inputs _ _ hraw := nomatch hraw
  blocks _ := ⟨[], (List.append_nil _).symm, fun _ hblock => absurd hblock List.not_mem_nil⟩

omit [Fintype ι] [DecidableEq ρ] in
theorem set_sites (i j : ι) (site : Site) :
    (net.set i site).sites j = if j = i then site else net.sites j :=
  Function.update_apply net.sites i site j

omit [Fintype ι] [DecidableEq ρ] in
theorem Traced.set (h : net.Traced P start) {i : ι} {site : Site} (hflows : site.Flows P)
    (hhanded : (net.sites i).mempool.flatten ⊆ site.mempool.flatten)
    (hinputs : site.exec.phase.inputs ⊆ orderedPayloads net.order)
    (hblocks : ∃ new, site.exec.node.blocks = (net.sites i).exec.node.blocks ++ new ∧
      ∀ block ∈ new, block.txs ⊆ orderedPayloads net.order) :
    (net.set i site).Traced P start := by
  refine ⟨fun j => ?_, fun raw hraw => ?_, fun j => ?_, fun j => ?_⟩
  · rw [set_sites]
    split_ifs
    · exact hflows
    · exact h.flows j
  · obtain ⟨j, hj⟩ := h.committed raw hraw
    refine ⟨j, ?_⟩
    rw [set_sites]
    split_ifs with heq
    · subst heq
      exact hhanded hj
    · exact hj
  · rw [set_sites]
    split_ifs
    · exact hinputs
    · exact h.inputs j
  · rw [set_sites]
    split_ifs with heq
    · subst heq
      obtain ⟨old, hold, holdTxs⟩ := h.blocks j
      obtain ⟨new, hnew, hnewTxs⟩ := hblocks
      refine ⟨old ++ new, by rw [hnew, hold, List.append_assoc], fun block hblock => ?_⟩
      rcases List.mem_append.mp hblock with hblock | hblock
      · exact holdTxs block hblock
      · exact hnewTxs block hblock
    · exact h.blocks j

omit [Fintype ι] [DecidableEq ρ] in
theorem Traced.set_of_loop_eq (h : net.Traced P start) {i : ι} {site : Site} (hflows : site.Flows P)
    (hhanded : (net.sites i).mempool.flatten ⊆ site.mempool.flatten)
    (hphase : site.exec.phase = (net.sites i).exec.phase)
    (hblocks : site.exec.node.blocks = (net.sites i).exec.node.blocks) :
    (net.set i site).Traced P start := by
  refine h.set hflows hhanded ?_ ⟨[], ?_, fun _ hblock => absurd hblock List.not_mem_nil⟩
  · rw [hphase]
    exact h.inputs i
  · rw [hblocks, List.append_nil]

omit [Fintype ι] [DecidableEq ρ] in
theorem Traced.work (h : net.Traced P start) {i : ι} {exec : Executor} {delivered : ℕ}
    {given : List Bytes} (hgiven : given ⊆ orderedPayloads net.order)
    (hworks : (net.sites i).exec.Works exec given) :
    (net.set i { net.sites i with exec := exec, delivered := delivered }).Traced P start := by
  refine h.set ((h.flows i).loop hworks.sender) (List.Subset.refl _) ?_ ?_
  · intro raw hraw
    rcases List.mem_append.mp (hworks.inputs hraw) with hraw | hraw
    · exact h.inputs i hraw
    · exact hgiven hraw
  · obtain ⟨new, hnew, htxs⟩ := hworks.blocks
    exact ⟨new, hnew, fun block hblock raw hraw => h.inputs i (htxs block hblock hraw)⟩

omit [Fintype ι] [DecidableEq ρ] in
theorem Traced.site (h : net.Traced P start) {i : ι} {event : SiteEvent} {site : Site}
    (hstep : (net.sites i).step P W event = some site) : (net.set i site).Traced P start := by
  have hflows := (h.flows i).step hstep
  obtain ⟨sender, hsender, -⟩ := (h.flows i).sender
  cases event with
  | serve request =>
    have hserved := Site.handle_submits (P := P) (W := W) (by rw [hsender]; rfl) request
    cases hstep
    exact h.set_of_loop_eq hflows (List.Subset.refl _) rfl hserved.blocks
  | attempt io =>
    obtain ⟨exec, hexec, rfl⟩ := Option.map_eq_some_iff.mp hstep
    exact h.work (List.nil_subset _) (Executor.attempt_works hexec)
  | endPass =>
    obtain ⟨exec, hexec, rfl⟩ := Option.map_eq_some_iff.mp hstep
    exact h.work (List.nil_subset _) (Executor.endPass_works hexec)
  | take =>
    simp only [Site.step] at hstep
    split at hstep
    · cases hstep
      exact h.set_of_loop_eq hflows (List.Subset.refl _) rfl rfl
    · cases hstep
  | hand =>
    simp only [Site.step] at hstep
    split at hstep
    · cases hstep
      refine h.set_of_loop_eq hflows ?_ rfl rfl
      rw [List.flatten_append]
      exact List.subset_append_left _ _
    · cases hstep
  | stop =>
    simp only [Site.step] at hstep
    split at hstep
    · cases hstep
      exact h.set_of_loop_eq hflows (List.Subset.refl _) rfl rfl
    · cases hstep

theorem Traced.step (h : net.Traced P start) {event : NetworkEvent ι ρ}
    (hstep : net.step P W event = some net') : net'.Traced P start := by
  cases event with
  | site i event =>
    obtain ⟨site, hsite, rfl⟩ := Option.map_eq_some_iff.mp hstep
    exact h.site hsite
  | receive i =>
    simp only [Network.step] at hstep
    split at hstep
    · cases hstep
    · rename_i commit hcommit
      obtain ⟨exec, hexec, rfl⟩ := Option.map_eq_some_iff.mp hstep
      refine h.work ?_ (Executor.receive_works hexec)
      intro raw hraw
      -- what this one commit carries is part of the common order
      have hmem := List.mem_of_getElem? hcommit
      simp only [orderedPayloads, List.flatMap_cons, List.flatMap_nil, List.append_nil,
        List.mem_flatMap] at hraw ⊢
      obtain ⟨block, hblock, hraw⟩ := hraw
      exact ⟨block, ⟨commit, hmem, hblock⟩, hraw⟩
  | commit commit =>
    simp only [Network.step] at hstep
    split_ifs at hstep with hproposed
    cases hstep
    have hmore : orderedPayloads (net.order ++ [commit]) =
        orderedPayloads net.order ++ orderedPayloads [commit] := by
      simp [orderedPayloads]
    -- the order only grows, so what was traced to it stays traced
    refine ⟨h.flows, fun raw hraw => ?_, fun i => ?_, fun i => ?_⟩
    · rw [hmore] at hraw
      rcases List.mem_append.mp hraw with hraw | hraw
      · exact h.committed raw hraw
      · exact hproposed raw hraw
    · rw [hmore]
      exact List.subset_append_of_subset_left _ (h.inputs i)
    · obtain ⟨new, hnew, htxs⟩ := h.blocks i
      refine ⟨new, hnew, fun block hblock => ?_⟩
      rw [hmore]
      exact List.subset_append_of_subset_left _ (htxs block hblock)

theorem run_traced {events : List (NetworkEvent ι ρ)}
    (h : (spawn start).run P W events = some net) : net.Traced P start := by
  suffices hfrom : ∀ {first : Network ι ρ}, first.Traced P start →
      first.run P W events = some net → net.Traced P start from hfrom traced_spawn h
  clear h
  induction events with
  | nil =>
    intro first hfirst h
    cases h
    exact hfirst
  | cons event events ih =>
    intro first hfirst h
    obtain ⟨mid, hmid, hrest⟩ := Option.bind_eq_some_iff.mp h
    exact ih (hfirst.step hmid) hrest

/-- At every validator, whatever happens in the network and in whatever order: as long as the
forwarder runs, the hashes that submissions were answered with are those of what its core has been
handed, of the batch in its hand and of the channel, in this order and each once; what the core has
been handed was answered first; and the channel is never longer than its capacity. -/
theorem accepted_submissions_flow {events : List (NetworkEvent ι ρ)}
    (h : (spawn start).run P W events = some net) (i : ι) :
    let s := net.sites i
    (s.stopped = false →
      s.answered = (s.mempool ++ s.inHand.toList ++ s.queue).flatten.map P.keccak256) ∧
    s.mempool.flatten.map P.keccak256 <+: s.answered ∧
    s.queue.length ≤ 1024 := by
  intro s
  have hflows := (run_traced h).flows i
  refine ⟨hflows.onTheWay, hflows.handed, ?_⟩
  obtain ⟨sender, hsender, hcapacity, -, hlength⟩ := hflows.sender
  rw [Site.queue, hsender]
  exact hlength.trans (le_of_eq hcapacity)

/-- No transaction comes out of nowhere: whatever a validator of the network has sealed since the
start, its hash was the answer to a submission at some validator. -/
theorem sealed_transactions_were_accepted {events : List (NetworkEvent ι ρ)}
    (h : (spawn start).run P W events = some net) (i : ι) :
    ∃ new, (net.sites i).exec.node.blocks = (start i).blocks ++ new ∧
      ∀ block ∈ new, ∀ raw ∈ block.txs, ∃ j, P.keccak256 raw ∈ (net.sites j).answered := by
  have htraced := run_traced h
  obtain ⟨new, hnew, htxs⟩ := htraced.blocks i
  refine ⟨new, hnew, fun block hblock raw hraw => ?_⟩
  obtain ⟨j, hj⟩ := htraced.committed raw (htxs block hblock hraw)
  exact ⟨j, (htraced.flows j).handed.subset (List.mem_map_of_mem hj)⟩

/-- A transfer is submitted at one validator and forwarded to its core; it is committed, and sealed
at the other one. -/
def transferAcross : List (NetworkEvent Bool ℕ) :=
  [.site false (.serve (.rpc (.send Reference.transfer0 9))), .site false .take,
    .site false .hand, .commit ⟨0, [⟨0, 5, [Reference.transfer0]⟩]⟩, .receive true,
    .site true (.attempt .healthy), .site true .endPass]

def twoSites : Network Bool ℕ :=
  spawn fun _ => .created Reference.platform Reference.spec

theorem accepted_submissions_flow_transfer :
    ∃ net, twoSites.run Reference.platform DevWallet.wallet transferAcross = some net ∧
      (net.sites false).answered = [Reference.platform.keccak256 Reference.transfer0] := by
  have hruns : (twoSites.run Reference.platform DevWallet.wallet transferAcross).map
      (fun net => ((net.sites false).stopped, ((net.sites false).mempool ++
        (net.sites false).inHand.toList ++ (net.sites false).queue).flatten)) =
        some (false, [Reference.transfer0]) := by decide +kernel
  obtain ⟨net, hnet, hsite⟩ := Option.map_eq_some_iff.mp hruns
  obtain ⟨hstopped, hflow⟩ := Prod.mk.inj hsite
  refine ⟨net, hnet, ?_⟩
  rw [(accepted_submissions_flow hnet false).1 hstopped, hflow]
  rfl

theorem sealed_transactions_were_accepted_transfer :
    ∃ net, twoSites.run Reference.platform DevWallet.wallet transferAcross = some net ∧
      (net.sites true).exec.node.blocks.map (·.txs) = [[Reference.transfer0]] ∧
      ∃ j, Reference.platform.keccak256 Reference.transfer0 ∈ (net.sites j).answered := by
  have hruns : (twoSites.run Reference.platform DevWallet.wallet transferAcross).map
      (fun net => (net.sites true).exec.node.blocks.map (·.txs)) =
        some [[Reference.transfer0]] := by decide +kernel
  obtain ⟨net, hnet, hblocks⟩ := Option.map_eq_some_iff.mp hruns
  refine ⟨net, hnet, hblocks, ?_⟩
  obtain ⟨new, hnew, haccepted⟩ := sealed_transactions_were_accepted hnet true
  have hstart : (net.sites true).exec.node.blocks = new := hnew
  rw [hstart] at hblocks
  obtain ⟨block, hblock, htxs⟩ := List.mem_map.mp (hblocks ▸ List.mem_singleton_self _)
  exact haccepted block hblock _ (htxs ▸ List.mem_singleton_self _)

end Network

end KanariEvm
