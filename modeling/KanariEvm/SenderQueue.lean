import KanariEvm.Clock
import KanariEvm.Delegation
import KanariEvm.Lib.SweepLadder

namespace KanariEvm

open InMemoryDB KanariNode

namespace ValidatorNode

/-- The nodes reached from `node` by trying payloads of a list, in any order and any number of
times. -/
inductive Tried (P : Platform) (ts : U64) (raws : List Bytes) (node : KanariNode) :
    KanariNode → Prop
  | start : Tried P ts raws node node
  | next {m : KanariNode} {raw : Bytes} (h : Tried P ts raws node m) (hraw : raw ∈ raws) :
      Tried P ts raws node (m.sealCommitted P raw ts .healthy).1

/-- The payloads of one sender with the nonces from `n` on, each of which is accepted exactly when
its nonce is the current one of the sender. -/
structure SenderQueue (P : Platform) (ts : U64) (node : KanariNode) (sender : Address) (n : U64)
    (raws : List Bytes) : Prop where
  nonce : (node.nonceOf P sender).2 = n
  decoded : ∀ i (h : i < raws.length), ∃ prepared,
    PreparedTx.decode P raws[i] node.spec.chainId = .ok prepared ∧ prepared.sender = sender ∧
      prepared.inner.nonce.toNat = n.toNat + i
  accepted : ∀ m, Tried P ts raws node m → ∀ i (h : i < raws.length),
    m.Sealable P ts raws[i] ↔ (m.nonceOf P sender).2.toNat = n.toNat + i

def CountsByOne (P : Platform) (ts : U64) (node : KanariNode) (sender : Address)
    (raws : List Bytes) : Prop :=
  ∀ m, Tried P ts raws node m → ∀ raw ∈ raws, m.Sealable P ts raw →
    ((m.sealCommitted P raw ts .healthy).1.nonceOf P sender).2.toNat =
      (m.nonceOf P sender).2.toNat + 1

variable {P : Platform} {ts : U64} {node : KanariNode} {sender : Address} {n : U64}
  {raws : List Bytes}

def climb (P : Platform) (ts : U64) (node : KanariNode) (raws : List Bytes) (j : ℕ) : KanariNode :=
  (raws.take j).foldl (fun m raw => (m.sealCommitted P raw ts .healthy).1) node

/-- The first `j` payloads are sealed: the node was reached by trying payloads, the nonce has come
as far, and the chain is that of the payloads in nonce order. -/
structure Rung (P : Platform) (ts : U64) (node : KanariNode) (sender : Address) (n : U64)
    (raws : List Bytes) (j : ℕ) (m : KanariNode) : Prop where
  tried : Tried P ts raws node m
  nonce : (m.nonceOf P sender).2.toNat = n.toNat + j
  agree : Agree m (climb P ts node raws j)

theorem climb_succ {j : ℕ} (h : j < raws.length) :
    climb P ts node raws (j + 1) =
      ((climb P ts node raws j).sealCommitted P raws[j] ts .healthy).1 := by
  simp only [climb, List.take_succ_eq_append_getElem h, List.foldl_append, List.foldl_cons,
    List.foldl_nil]

theorem SenderQueue.rung_zero (h : SenderQueue P ts node sender n raws) :
    Rung P ts node sender n raws 0 node :=
  ⟨.start, by rw [h.nonce, Nat.add_zero], Agree.refl node⟩

section Laws

variable (hR : P.toRevm.CacheLaws) (hdet : P.toRevm.Deterministic)

include hR hdet

theorem SenderQueue.taken (h : SenderQueue P ts node sender n raws)
    (hcounts : CountsByOne P ts node sender raws) {j : ℕ} {m : KanariNode}
    (hj : j < raws.length) (hm : Rung P ts node sender n raws j m) :
    m.Sealable P ts raws[j] ∧
      Rung P ts node sender n raws (j + 1) (m.sealCommitted P raws[j] ts .healthy).1 := by
  have hmem : raws[j] ∈ raws := List.getElem_mem hj
  have hsealable := (h.accepted m hm.tried j hj).mpr hm.nonce
  refine ⟨hsealable, .next hm.tried hmem, ?_, ?_⟩
  · rw [hcounts m hm.tried _ hmem hsealable, hm.nonce, Nat.add_assoc]
  · rw [climb_succ hj]
    exact (hm.agree.sealCommitted hR hdet _ ts .healthy).1

variable (hq : P.toRevm.RejectsQuietly)

include hq

/-- The payloads of a sender form a ladder. -/
theorem SenderQueue.ladder (h : SenderQueue P ts node sender n raws)
    (hcounts : CountsByOne P ts node sender raws) :
    Deferred.Ladder (sealPayload P ts) (Rung P ts node sender n raws) raws where
  taken hj hm := h.taken hR hdet hcounts hj hm
  refused {j m raw} hm hraw := by
    obtain ⟨i, hi, rfl⟩ := List.mem_drop_iff_getElem.mp hraw
    have hlt : j + 1 + i < raws.length := by omega
    have hrefused : (m.sealCommitted P raws[j + 1 + i] ts .healthy).2.isOk = false := by
      refine Bool.eq_false_iff.mpr fun hok => ?_
      have hnonce := (h.accepted m hm.tried _ hlt).mp hok
      rw [hm.nonce] at hnonce
      omega
    have hsame := agree_of_refused hR hq hrefused
    have hstill := (congrArg BitVec.toNat (hsame.nonceOf hR sender)).trans hm.nonce
    exact ⟨hrefused, .next hm.tried (List.getElem_mem hlt), hstill, hsame.trans hm.agree⟩

omit hq in
theorem SenderQueue.climb_blocks (h : SenderQueue P ts node sender n raws)
    (hcounts : CountsByOne P ts node sender raws) {j : ℕ} (hj : j ≤ raws.length) :
    Rung P ts node sender n raws j (climb P ts node raws j) ∧ ∃ fresh,
      (climb P ts node raws j).blocks = node.blocks ++ fresh ∧
        fresh.map (·.txs) = (raws.take j).map ([·]) := by
  induction j with
  | zero => exact ⟨h.rung_zero, [], (List.append_nil _).symm, rfl⟩
  | succ j ih =>
    obtain ⟨hrung, fresh, hblocks, htxs⟩ := ih (Nat.le_of_succ_le hj)
    obtain ⟨hsealable, hnext⟩ := h.taken hR hdet hcounts hj hrung
    rw [climb_succ hj]
    refine ⟨hnext, ?_⟩
    obtain ⟨-, ⟨-, block, hblock, htx, -⟩ | ⟨hfail, -⟩⟩ :=
      (climb P ts node raws j).sealCommitted_blocks (P := P) raws[j] ts .healthy
    · refine ⟨fresh ++ [block], by rw [hblock, hblocks, List.append_assoc], ?_⟩
      rw [List.take_succ_eq_append_getElem hj, List.map_append, List.map_append, htxs,
        List.map_singleton, List.map_singleton, htx]
    · exact absurd (hfail.symm.trans hsealable) Bool.noConfusion

section Closed

variable {nodes : List KanariNode} (hstart : node ∈ nodes)
  (hclosed : ∀ x ∈ nodes, ∀ raw ∈ raws, x.Sealable P ts raw →
    (x.sealCommitted P raw ts .healthy).1 ∈ nodes)

include hstart hclosed

/-- Where sealing leads from listed nodes to listed nodes, no other chain can be reached. -/
theorem Tried.agree_mem {m : KanariNode} (h : Tried P ts raws node m) :
    ∃ x ∈ nodes, Agree m x := by
  induction h with
  | start => exact ⟨node, hstart, Agree.refl node⟩
  | @next m raw _ hraw ih =>
    obtain ⟨x, hx, hagree⟩ := ih
    have hnext := (hagree.sealCommitted hR hdet raw ts .healthy).1
    cases hans : (x.sealCommitted P raw ts .healthy).2.isOk with
    | true => exact ⟨_, hclosed x hx raw hraw hans, hnext⟩
    | false => exact ⟨x, hx, hnext.trans (agree_of_refused hR hq hans)⟩

theorem SenderQueue.of_closed (hnonce : (node.nonceOf P sender).2 = n)
    (hdecoded : ∀ i (h : i < raws.length), ∃ prepared,
      PreparedTx.decode P raws[i] node.spec.chainId = .ok prepared ∧ prepared.sender = sender ∧
        prepared.inner.nonce.toNat = n.toNat + i)
    (haccepted : ∀ x ∈ nodes, ∀ i (h : i < raws.length),
      x.Sealable P ts raws[i] ↔ (x.nonceOf P sender).2.toNat = n.toNat + i) :
    SenderQueue P ts node sender n raws := by
  refine ⟨hnonce, hdecoded, fun m hm i hi => ?_⟩
  obtain ⟨x, hx, hagree⟩ := hm.agree_mem hR hdet hq hstart hclosed
  rw [Sealable, (hagree.sealCommitted hR hdet raws[i] ts .healthy).2, hagree.nonceOf hR sender]
  exact haccepted x hx i hi

theorem CountsByOne.of_closed
    (hcounts : ∀ x ∈ nodes, ∀ raw ∈ raws, x.Sealable P ts raw →
      ((x.sealCommitted P raw ts .healthy).1.nonceOf P sender).2.toNat =
        (x.nonceOf P sender).2.toNat + 1) : CountsByOne P ts node sender raws := by
  intro m hm raw hraw hsealable
  obtain ⟨x, hx, hagree⟩ := hm.agree_mem hR hdet hq hstart hclosed
  obtain ⟨hnext, hans⟩ := hagree.sealCommitted hR hdet raw ts .healthy
  rw [Sealable, hans] at hsealable
  rw [hnext.nonceOf hR sender, hagree.nonceOf hR sender]
  exact hcounts x hx raw hraw hsealable

end Closed

/-- Arrival order does not matter for the queue of one sender, if each of its payloads raises the
nonce by one: a commit that brings the payloads in any order seals all of them in nonce order,
leaves nothing pending, and every such commit of one timestamp appends the same blocks. -/
theorem sender_queue_any_order {ρ : Type} [DecidableEq ρ] {v : ValidatorNode}
    (hpending : v.pending = []) (hcap : raws.length ≤ maxPendingPayloads)
    (h : SenderQueue P ts v.node sender n raws)
    (hcounts : CountsByOne P ts v.node sender raws) :
    ∃ fresh, fresh.map (·.txs) = raws.map ([·]) ∧
      ∀ commit : CommittedSubDag ρ, (orderedPayloads [commit]).Perm raws →
        v.clampedTs commit = ts →
        (v.execute P commit).pending = [] ∧
          (v.execute P commit).node.blocks = v.node.blocks ++ fresh := by
  obtain ⟨-, fresh, hblocks, htxs⟩ := h.climb_blocks hR hdet hcounts (Nat.le_refl raws.length)
  rw [List.take_length] at htxs
  refine ⟨fresh, htxs, fun commit hperm hts => ?_⟩
  have hqueue : enqueue v.pending (orderedPayloads [commit]) = orderedPayloads [commit] := by
    rw [hpending, enqueue, List.nil_append]
    exact if_neg (Nat.not_lt.mpr (hperm.length_eq ▸ hcap))
  have hall : (orderedPayloads [commit]).Perm (raws.drop 0) := hperm
  obtain ⟨htop, hempty⟩ :=
    (h.ladder hR hdet hq hcounts).sweep h.rung_zero hall (Nat.zero_le raws.length)
  simp only [execute, hts, hqueue]
  exact ⟨hempty, htop.agree.blocks.trans hblocks⟩

end Laws

def beginner (P : Platform) : ValidatorNode := spawn (created P Reference.spec)

def commitAt5 (payloads : List Bytes) : CommittedSubDag ℕ := ⟨0, [⟨0, 5, payloads⟩]⟩

def steps (P : Platform) (raws : List Bytes) : List KanariNode :=
  (List.range (raws.length + 1)).map (climb P 5 (beginner P).node raws)

def transfers : List Bytes := [Reference.transfer0, Reference.transfer1]

theorem transfers_senderQueue :
    SenderQueue Reference.platform 5 (beginner Reference.platform).node Reference.funded 0
        transfers ∧
      CountsByOne Reference.platform 5 (beginner Reference.platform).node Reference.funded
        transfers := by
  have hstart : (beginner Reference.platform).node ∈ steps Reference.platform transfers := by
    decide +kernel
  have hclosed : ∀ x ∈ steps Reference.platform transfers, ∀ raw ∈ transfers,
      x.Sealable Reference.platform 5 raw →
        (x.sealCommitted Reference.platform raw 5 .healthy).1 ∈
          steps Reference.platform transfers := by decide +kernel
  have hdecoded : ∀ i (h : i < transfers.length),
      PreparedTx.decode Reference.platform transfers[i] 19088 =
        .ok (Reference.prepared (BitVec.ofNat 64 i) 1000000000 none) ∧
      (BitVec.ofNat 64 i).toNat = (0 : U64).toNat + i := by decide +kernel
  have haccepted : ∀ x ∈ steps Reference.platform transfers, ∀ i (h : i < transfers.length),
      x.Sealable Reference.platform 5 transfers[i] ↔
        (x.nonceOf Reference.platform Reference.funded).2.toNat = (0 : U64).toNat + i := by
    decide +kernel
  have hcounts : ∀ x ∈ steps Reference.platform transfers, ∀ raw ∈ transfers,
      x.Sealable Reference.platform 5 raw →
        ((x.sealCommitted Reference.platform raw 5 .healthy).1.nonceOf Reference.platform
          Reference.funded).2.toNat =
          (x.nonceOf Reference.platform Reference.funded).2.toNat + 1 := by decide +kernel
  constructor
  · exact SenderQueue.of_closed Reference.cacheLaws Reference.deterministic
      Reference.rejectsQuietly hstart hclosed (by decide +kernel)
      (fun i hi => ⟨_, (hdecoded i hi).1, rfl, (hdecoded i hi).2⟩) haccepted
  · exact CountsByOne.of_closed Reference.cacheLaws Reference.deterministic
      Reference.rejectsQuietly hstart hclosed hcounts

theorem sender_queue_any_order_transfers : ∃ fresh,
    fresh.map (·.txs) = [[Reference.transfer0], [Reference.transfer1]] ∧
      ∀ raws ∈ [transfers, transfers.reverse],
        ((beginner Reference.platform).execute Reference.platform (commitAt5 raws)).pending = [] ∧
        ((beginner Reference.platform).execute Reference.platform (commitAt5 raws)).node.blocks =
          fresh := by
  obtain ⟨hqueue, hcounts⟩ := transfers_senderQueue
  obtain ⟨fresh, htxs, hall⟩ := sender_queue_any_order (ρ := ℕ) Reference.cacheLaws
    Reference.deterministic Reference.rejectsQuietly (v := beginner Reference.platform) rfl
    (by decide) hqueue hcounts
  refine ⟨fresh, htxs, fun raws hraws => hall (commitAt5 raws) ?_ rfl⟩
  simp only [List.mem_cons, List.not_mem_nil, or_false] at hraws
  rcases hraws with rfl | rfl
  · exact .refl _
  · exact List.reverse_perm transfers

/-- A delegation of the sender itself raises its nonce twice. The transfer behind it is accepted at
nonce 1 only, which never comes: both payloads arrive in nonce order, and the second is stranded. -/
theorem self_delegation_strands_transfer :
    (Delegation.platform.toRevm.CacheLaws ∧ Delegation.platform.toRevm.Deterministic ∧
        Delegation.platform.toRevm.RejectsQuietly) ∧
      (beginner Delegation.platform).pending = [] ∧
      SenderQueue Delegation.platform 5 (beginner Delegation.platform).node Reference.funded 0
        [Delegation.delegate0, Reference.transfer1] ∧
      ((beginner Delegation.platform).execute Delegation.platform
          (commitAt5 [Delegation.delegate0, Reference.transfer1])).pending =
        [Reference.transfer1] := by
  refine ⟨⟨Delegation.cacheLaws, Delegation.deterministic, Delegation.rejectsQuietly⟩, rfl, ?_,
    by decide +kernel⟩
  have hstart : (beginner Delegation.platform).node ∈
      steps Delegation.platform [Delegation.delegate0] := by decide +kernel
  have hclosed : ∀ x ∈ steps Delegation.platform [Delegation.delegate0],
      ∀ raw ∈ [Delegation.delegate0, Reference.transfer1],
      x.Sealable Delegation.platform 5 raw →
        (x.sealCommitted Delegation.platform raw 5 .healthy).1 ∈
          steps Delegation.platform [Delegation.delegate0] := by decide +kernel
  have haccepted : ∀ x ∈ steps Delegation.platform [Delegation.delegate0], ∀ i (h : i < 2),
      x.Sealable Delegation.platform 5 [Delegation.delegate0, Reference.transfer1][i] ↔
        (x.nonceOf Delegation.platform Reference.funded).2.toNat = (0 : U64).toNat + i := by
    decide +kernel
  have hdecoded : ∀ i (h : i < 2), (PreparedTx.decode Delegation.platform
      [Delegation.delegate0, Reference.transfer1][i] 19088).map
        (fun prepared => decide (prepared.sender = Reference.funded ∧
          prepared.inner.nonce.toNat = (0 : U64).toNat + i)) = .ok true := by decide +kernel
  refine SenderQueue.of_closed Delegation.cacheLaws Delegation.deterministic
    Delegation.rejectsQuietly hstart hclosed (by decide +kernel) (fun i hi => ?_) haccepted
  have hi' := hdecoded i hi
  cases hdecode : PreparedTx.decode Delegation.platform
      [Delegation.delegate0, Reference.transfer1][i] 19088 with
  | error e =>
    rw [hdecode] at hi'
    cases hi'
  | ok prepared =>
    rw [hdecode] at hi'
    exact ⟨prepared, hdecode, of_decide_eq_true (Except.ok.inj hi')⟩

end ValidatorNode

end KanariEvm
