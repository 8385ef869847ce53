import KanariEvm.Opening
import KanariEvm.Reference
import KanariEvm.Turns

namespace KanariEvm

open KanariNode ValidatorNode

/-- A payload together with its place in the order of delivery. -/
abbrev Occurrence := Bytes × ℕ

/-- The commit loop with an account of every payload that was ever delivered to it. -/
structure Ledger where
  node : KanariNode
  lastTs : U64
  pending : List Occurrence
  delivered : List Bytes
  log : Deferred.Log Occurrence
  dropped : List Occurrence

namespace Ledger

variable (P : Platform)

def start (node : KanariNode) : Ledger where
  node := (spawn node).node
  lastTs := 0
  pending := []
  delivered := []
  log := ⟨[], []⟩
  dropped := []

def validator (l : Ledger) : ValidatorNode := ⟨l.node, l.lastTs, l.pending.map Prod.fst⟩

section Queue

variable {ρ : Type} (l : Ledger) (commit : CommittedSubDag ρ)

def arrivals : List Occurrence := (orderedPayloads [commit]).zipIdx l.delivered.length

def queue : List Occurrence := l.pending ++ l.arrivals commit

/-- How far the queue is over its cap. -/
def excess : ℕ :=
  if maxPendingPayloads < (l.queue commit).length then
    (l.queue commit).length - maxPendingPayloads
  else 0

def lost : List Occurrence := (l.queue commit).take (l.excess commit)

def kept : List Occurrence := (l.queue commit).drop (l.excess commit)

theorem excess_eq : l.excess commit = (l.queue commit).length - maxPendingPayloads := by
  rw [excess]
  split_ifs with h
  · rfl
  · omega

theorem lost_append_kept : l.lost commit ++ l.kept commit = l.queue commit :=
  List.take_append_drop _ _

theorem queue_map_fst : (l.queue commit).map Prod.fst =
    l.validator.pending ++ orderedPayloads [commit] := by
  rw [queue, arrivals, List.map_append, List.zipIdx_map_fst]
  rfl

theorem kept_map_fst : (l.kept commit).map Prod.fst =
    enqueue l.validator.pending (orderedPayloads [commit]) := by
  rw [enqueue_eq_drop, ← queue_map_fst, kept, excess_eq, List.map_drop, List.length_map]

theorem kept_length_le : (l.kept commit).length ≤ maxPendingPayloads := by
  rw [kept, excess_eq, List.length_drop]
  omega

end Queue

def sealOccurrence (ts : U64) : Deferred.Attempt (KanariNode × List Turn) Occurrence :=
  fun s o => sealTurn P ts s o.1

variable {ρ : Type} [DecidableEq ρ] (l : Ledger)

def clamp (commit : CommittedSubDag ρ) : U64 := umax (commitTimestamp commit) l.lastTs

def swept (delivery : Delivery ρ) :
    ((KanariNode × List Turn) × Deferred.Log Occurrence) × List Occurrence :=
  Deferred.sweep (Deferred.logged (sealOccurrence P (l.clamp delivery.commit)))
    ((l.node, delivery.turns), l.log) (l.kept delivery.commit)

def execute (delivery : Delivery ρ) : Ledger where
  node := (l.swept P delivery).1.1.1
  lastTs := l.clamp delivery.commit
  pending := (l.swept P delivery).2
  delivered := l.delivered ++ orderedPayloads [delivery.commit]
  log := (l.swept P delivery).1.2
  dropped := l.dropped ++ l.lost delivery.commit

def run (deliveries : List (Delivery ρ)) : Ledger := deliveries.foldl (execute P) l

variable {P}

/-- The log does not disturb a sweep. -/
theorem sweep_logged (ts : U64) (s : KanariNode × List Turn) (log : Deferred.Log Occurrence)
    (queue : List Occurrence) :
    Deferred.sweep (sealTurn P ts) s (queue.map Prod.fst) =
      ((Deferred.sweep (Deferred.logged (sealOccurrence P ts)) (s, log) queue).1.1,
        (Deferred.sweep (Deferred.logged (sealOccurrence P ts)) (s, log) queue).2.map Prod.fst) :=
  (Deferred.logged_projects (sealOccurrence P ts) (sealTurn P ts) (f := id) (g := Prod.fst)
    fun _ _ => rfl).sweep (s, log) queue

theorem swept_eq (delivery : Delivery ρ) :
    Deferred.sweep (sealTurn P (l.clamp delivery.commit)) (l.node, delivery.turns)
        (enqueue l.validator.pending (orderedPayloads [delivery.commit])) =
      ((l.swept P delivery).1.1, (l.swept P delivery).2.map Prod.fst) := by
  rw [swept, ← kept_map_fst]
  exact sweep_logged _ _ _ _

/-- The account does not disturb the loop. -/
theorem execute_validator (delivery : Delivery ρ) :
    (l.execute P delivery).validator = l.validator.executeAmid P delivery := by
  have hsweep := l.swept_eq (P := P) delivery
  have hts : l.validator.clampedTs delivery.commit = l.clamp delivery.commit := rfl
  have hnode : l.validator.node = l.node := rfl
  simp only [executeAmid, hts, hnode, hsweep]
  rfl

theorem run_cons (delivery : Delivery ρ) (rest : List (Delivery ρ)) :
    l.run P (delivery :: rest) = (l.execute P delivery).run P rest := by
  rw [run, List.foldl_cons, run]

theorem run_validator (deliveries : List (Delivery ρ)) :
    (l.run P deliveries).validator = l.validator.runAmid P deliveries := by
  induction deliveries generalizing l with
  | nil => rfl
  | cons delivery rest ih =>
    rw [run_cons, ih, execute_validator, runAmid, runAmid, List.foldl_cons]

theorem zipIdx_increasing (payloads : List Bytes) :
    payloads.zipIdx.Pairwise fun a b => a.2 < b.2 := by
  have hrange : (payloads.zipIdx.map Prod.snd).Pairwise (· < ·) := by
    rw [List.zipIdx_map_snd]
    exact List.pairwise_lt_range'
  exact List.pairwise_map.mp hrange

/-- The invariant of the account of a loop that was started on `node`. -/
structure Balanced (node : KanariNode) (l : Ledger) : Prop where
  accounted : (l.log.taken ++ l.pending ++ l.dropped).Perm l.delivered.zipIdx
  order : l.pending.Sublist l.delivered.zipIdx
  bounded : l.pending.length ≤ maxPendingPayloads
  tried : l.pending ⊆ l.log.refused
  known : l.log.refused ⊆ l.delivered.zipIdx
  attached : l.node.dagSender.isSome
  sealed : l.node.blocks.map (·.txs) =
    node.blocks.map (·.txs) ++ l.log.taken.map fun o => [o.1]

theorem balanced_start (node : KanariNode) : (start node).Balanced node where
  accounted := .refl _
  order := .refl _
  bounded := Nat.zero_le _
  tried := List.Subset.refl _
  known := List.Subset.refl _
  attached := rfl
  sealed := (List.append_nil _).symm

namespace Balanced

variable {l} {node : KanariNode} (h : l.Balanced node)

include h

omit [DecidableEq ρ] in
theorem queue (commit : CommittedSubDag ρ) :
    (l.queue commit).Sublist (l.delivered ++ orderedPayloads [commit]).zipIdx := by
  rw [List.zipIdx_append, Nat.zero_add]
  exact h.order.append (.refl _)

omit [DecidableEq ρ] in
theorem queue_increasing (commit : CommittedSubDag ρ) :
    (l.queue commit).Pairwise fun a b => a.2 < b.2 :=
  (zipIdx_increasing _).sublist (h.queue commit)

/-- A sweep seals one block for each payload it takes. -/
theorem swept_sealed (delivery : Delivery ρ) :
    (l.swept P delivery).1.1.1.dagSender.isSome ∧
      (l.swept P delivery).1.1.1.blocks.map (·.txs) =
        node.blocks.map (·.txs) ++ (l.swept P delivery).1.2.taken.map fun o => [o.1] := by
  refine Deferred.sweep_induction
    (p := fun s : (KanariNode × List Turn) × Deferred.Log Occurrence =>
      s.1.1.dagSender.isSome ∧ s.1.1.blocks.map (·.txs) =
        node.blocks.map (·.txs) ++ s.2.taken.map fun o => [o.1])
    (fun s o hs => ?_) ⟨h.attached, h.sealed⟩ _
  obtain ⟨hmode, ⟨htaken, block, hblocks, htxs, -⟩ | ⟨hrefused, hblocks⟩⟩ :=
    sealTurn_blocks (P := P) hs.1 (l.clamp delivery.commit) o.1
  · rw [Deferred.logged_of_taken htaken]
    refine ⟨hmode, ?_⟩
    change (sealTurn P _ s.1 o.1).1.1.blocks.map (·.txs) = _
    rw [hblocks, List.map_append, hs.2, List.map_append, List.append_assoc, List.map_singleton,
      htxs]
    rfl
  · rw [Deferred.logged_of_refused hrefused]
    refine ⟨hmode, ?_⟩
    change (sealTurn P _ s.1 o.1).1.1.blocks.map (·.txs) = _
    rw [hblocks, hs.2]

theorem execute (delivery : Delivery ρ) : (l.execute P delivery).Balanced node := by
  obtain ⟨⟨now, htaken, hperm⟩, refused, hrefused, hmem, hrest⟩ :=
    Deferred.accounted_sweep (sealOccurrence P (l.clamp delivery.commit))
      (l.node, delivery.turns) l.log (l.kept delivery.commit)
  have hleft : (l.swept P delivery).2.Sublist (l.kept delivery.commit) :=
    Deferred.sweep_sublist _ _
  have hkept : (l.kept delivery.commit).Sublist
      (l.delivered ++ orderedPayloads [delivery.commit]).zipIdx :=
    (List.drop_sublist _ _).trans (h.queue delivery.commit)
  obtain ⟨hmode, hsealed⟩ := h.swept_sealed (P := P) delivery
  refine ⟨?_, hleft.trans hkept, hleft.length_le.trans (l.kept_length_le delivery.commit), ?_, ?_,
    hmode, hsealed⟩
  -- each payload counts as often on one side as on the other
  · rw [List.perm_iff_count]
    intro o
    have hold := h.accounted.count_eq o
    have hswept := hperm.count_eq o
    have hqueue := congrArg (List.count o) (l.lost_append_kept delivery.commit)
    change (l.swept P delivery).1.2.taken = _ at htaken
    change List.count o (now ++ (l.swept P delivery).2) = _ at hswept
    change List.count o ((l.swept P delivery).1.2.taken ++ (l.swept P delivery).2 ++
      (l.dropped ++ l.lost delivery.commit)) = List.count o
        (l.delivered ++ orderedPayloads [delivery.commit]).zipIdx
    rw [htaken, List.zipIdx_append, Nat.zero_add]
    simp only [Ledger.queue, arrivals, List.count_append] at hold hswept hqueue ⊢
    omega
  · change (l.swept P delivery).2 ⊆ (l.swept P delivery).1.2.refused
    change (l.swept P delivery).1.2.refused = _ at hrefused
    rw [hrefused]
    exact fun o ho => List.mem_append_right _ (hrest ho)
  · change (l.swept P delivery).1.2.refused ⊆ _
    change (l.swept P delivery).1.2.refused = _ at hrefused
    rw [hrefused]
    refine List.append_subset.mpr ⟨fun o ho => ?_, fun o ho => hkept.subset (hmem ho)⟩
    rw [Ledger.execute, List.zipIdx_append]
    exact List.mem_append_left _ (h.known ho)

theorem run (deliveries : List (Delivery ρ)) : (l.run P deliveries).Balanced node := by
  induction deliveries generalizing l with
  | nil => exact h
  | cons delivery rest ih =>
    rw [run_cons]
    exact ih (h.execute delivery)

end Balanced

theorem run_delivered (deliveries : List (Delivery ρ)) :
    (l.run P deliveries).delivered =
      l.delivered ++ deliveries.flatMap fun d => orderedPayloads [d.commit] := by
  induction deliveries generalizing l with
  | nil => exact (List.append_nil _).symm
  | cons delivery rest ih =>
    rw [run_cons, ih, List.flatMap_cons, ← List.append_assoc]
    rfl

theorem orderedPayloads_singleton {ρ : Type} (commit : CommittedSubDag ρ) :
    orderedPayloads [commit] = commit.blocks.flatMap fun block => block.transactions := by
  rw [orderedPayloads, List.flatMap_cons, List.flatMap_nil, List.append_nil]

/-- What is known of every payload after a history of commits. -/
structure Accounts (P : Platform) (node : KanariNode) (deliveries : List (Delivery ρ))
    (l : Ledger) : Prop where
  loop : l.validator = (spawn node).runAmid P deliveries
  delivered : l.delivered = deliveries.flatMap fun d => orderedPayloads [d.commit]
  transactions : l.delivered =
    deliveries.flatMap fun d => d.commit.blocks.flatMap fun block => block.transactions
  /-- Sealed, pending and dropped together are what was delivered, and nothing is two of them. -/
  accounted : (l.log.taken ++ l.pending ++ l.dropped).Perm l.delivered.zipIdx
  disjoint : (l.log.taken ++ l.pending ++ l.dropped).Nodup
  /-- Each sealed payload has a block of its own. -/
  sealed : l.node.blocks.map (·.txs) =
    node.blocks.map (·.txs) ++ l.log.taken.map fun o => [o.1]
  order : l.pending.Pairwise fun a b => a.2 < b.2
  bounded : l.pending.length ≤ maxPendingPayloads
  /-- Whatever commit comes next, the cap drops the oldest of its queue, as many as exceed it. -/
  excess : ∀ commit : CommittedSubDag ρ,
    (l.lost commit).length = (l.queue commit).length - maxPendingPayloads
  split : ∀ commit : CommittedSubDag ρ, l.lost commit ++ l.kept commit = l.queue commit
  oldest : ∀ commit : CommittedSubDag ρ, ∀ gone ∈ l.lost commit, ∀ o ∈ l.kept commit,
    gone.2 < o.2

/-- Every payload ever delivered is sealed, pending or dropped by the cap, in exactly one of the
three ways. -/
theorem payloads_accounted (node : KanariNode) (deliveries : List (Delivery ρ)) :
    ((start node).run P deliveries).Accounts P node deliveries := by
  have h := (balanced_start node).run (P := P) deliveries
  have hnodup : ((start node).run P deliveries).delivered.zipIdx.Nodup :=
    List.Pairwise.imp (fun hlt heq => by rw [heq] at hlt; exact Nat.lt_irrefl _ hlt)
      (zipIdx_increasing _)
  have hdelivered : ((start node).run P deliveries).delivered =
      deliveries.flatMap fun d => orderedPayloads [d.commit] := run_delivered _ deliveries
  refine ⟨run_validator _ deliveries, hdelivered, ?_, h.accounted,
    h.accounted.nodup_iff.mpr hnodup, h.sealed, (zipIdx_increasing _).sublist h.order, h.bounded,
    fun commit => ?_, fun commit => lost_append_kept _ commit, fun commit => ?_⟩
  · rw [hdelivered]
    simp only [orderedPayloads_singleton]
  · rw [lost, List.length_take, excess_eq]
    omega
  · have hqueue := h.queue_increasing commit
    rw [← lost_append_kept, List.pairwise_append] at hqueue
    exact hqueue.2.2

/-- The payloads of a commit are executable in order: once the pending payloads have had their
turn, each one seals in the state that those before it leave. -/
def Executable (P : Platform) (l : Ledger) (delivery : Delivery ρ) : Prop :=
  Deferred.AllTaken (sealTurn P (l.clamp delivery.commit))
    (Deferred.pass (sealTurn P (l.clamp delivery.commit)) (l.node, delivery.turns)
      ((l.pending.drop (l.excess delivery.commit)).map Prod.fst)).1
    (orderedPayloads [delivery.commit])

/-- Nothing is dropped that was not tried, and what is executable in order is sealed. -/
def Fair (P : Platform) (node : KanariNode) (deliveries : List (Delivery ρ)) : Prop :=
  ∀ before delivery after, deliveries = before ++ delivery :: after →
    ((start node).run P before).lost delivery.commit ⊆ ((start node).run P before).log.refused ∧
      (((start node).run P before).Executable P delivery →
        ((start node).run P before).arrivals delivery.commit ⊆
          ((start node).run P (before ++ [delivery])).log.taken)

section Cap

variable {l} {commit : CommittedSubDag ρ}

omit [DecidableEq ρ] in
theorem lost_subset_pending (h : (orderedPayloads [commit]).length ≤ maxPendingPayloads) :
    l.lost commit ⊆ l.pending := by
  have hlen : l.excess commit ≤ l.pending.length := by
    rw [excess_eq, queue, arrivals, List.length_append, List.length_zipIdx]
    omega
  rw [lost, queue, List.take_append_of_le_length hlen]
  exact List.take_subset _ _

omit [DecidableEq ρ] in
theorem first_arrival_lost (h : maxPendingPayloads < (orderedPayloads [commit]).length) :
    ∃ raw, (raw, l.delivered.length) ∈ l.lost commit := by
  obtain ⟨raw, rest, hraws⟩ := List.exists_cons_of_length_pos (Nat.zero_lt_of_lt h)
  refine ⟨raw, ?_⟩
  have hlen : l.pending.length < l.excess commit := by
    rw [excess_eq, queue, arrivals, List.length_append, List.length_zipIdx]
    omega
  obtain ⟨k, hk⟩ := Nat.exists_eq_add_of_lt hlen
  rw [lost, queue, arrivals, hraws, List.zipIdx_cons, hk, Nat.add_assoc,
    List.take_length_add_append, List.take_succ_cons]
  exact List.mem_append_right _ List.mem_cons_self

theorem Balanced.sealed_completely {node : KanariNode} (h : l.Balanced node)
    {delivery : Delivery ρ}
    (hcap : (orderedPayloads [delivery.commit]).length ≤ maxPendingPayloads)
    (hexec : l.Executable P delivery) :
    l.arrivals delivery.commit ⊆ (l.execute P delivery).log.taken := by
  have hlen : l.excess delivery.commit ≤ l.pending.length := by
    rw [excess_eq, Ledger.queue, arrivals, List.length_append, List.length_zipIdx]
    omega
  have hkept : l.kept delivery.commit =
      l.pending.drop (l.excess delivery.commit) ++ l.arrivals delivery.commit := by
    rw [kept, Ledger.queue, List.drop_append_of_le_length hlen]
  have hproject := Deferred.logged_projects (sealOccurrence P (l.clamp delivery.commit))
    (sealTurn P (l.clamp delivery.commit)) (f := id) (g := Prod.fst) fun _ _ => rfl
  have hall : Deferred.AllTaken (Deferred.logged (sealOccurrence P (l.clamp delivery.commit)))
      (Deferred.pass (Deferred.logged (sealOccurrence P (l.clamp delivery.commit)))
        ((l.node, delivery.turns), l.log) (l.pending.drop (l.excess delivery.commit))).1
      (l.arrivals delivery.commit) := by
    apply Deferred.AllTaken.of_projects hproject
    rw [arrivals, List.zipIdx_map_fst]
    have hpass := congrArg Prod.fst (hproject.pass ((l.node, delivery.turns), l.log)
      (l.pending.drop (l.excess delivery.commit)))
    simp only [id_eq] at hpass ⊢
    rw [← hpass]
    exact hexec
  have hrest := Deferred.sweep_append_sublist hall
  obtain ⟨⟨now, htaken, hperm⟩, -⟩ :=
    Deferred.accounted_sweep (sealOccurrence P (l.clamp delivery.commit))
      (l.node, delivery.turns) l.log (l.kept delivery.commit)
  intro o ho
  rcases List.mem_append.mp (hperm.mem_iff.mpr (hkept ▸ List.mem_append_right _ ho)) with
    hnow | hleft
  · change o ∈ (l.swept P delivery).1.2.taken
    change (l.swept P delivery).1.2.taken = _ at htaken
    rw [htaken]
    exact List.mem_append_right _ hnow
  -- what the sweep leaves is older than the arrivals
  · rw [hkept] at hleft
    have hold := h.order.subset (List.mem_of_mem_drop (hrest.subset hleft))
    have hlt := List.snd_lt_of_mem_zipIdx hold
    have hge := List.le_snd_of_mem_zipIdx ho
    omega

end Cap

theorem run_concat (deliveries : List (Delivery ρ)) (delivery : Delivery ρ) :
    l.run P (deliveries ++ [delivery]) = (l.run P deliveries).execute P delivery := by
  rw [run, List.foldl_concat, run]

/-- No payload is dropped untried, and executable commits are sealed completely, exactly in the
histories without a commit of more payloads than the queue may hold. -/
theorem fair_iff_commits_fit (node : KanariNode) (deliveries : List (Delivery ρ)) :
    Fair P node deliveries ↔
      ∀ d ∈ deliveries, (orderedPayloads [d.commit]).length ≤ maxPendingPayloads := by
  constructor
  · intro hfair delivery hmem
    obtain ⟨before, after, hsplit⟩ := List.append_of_mem hmem
    have h := (balanced_start node).run (P := P) before
    by_contra hover
    obtain ⟨raw, hlost⟩ := first_arrival_lost (l := (start node).run P before)
      (Nat.lt_of_not_le hover)
    have hknown := h.known ((hfair before delivery after hsplit).1 hlost)
    have hlt := List.snd_lt_of_mem_zipIdx hknown
    simp only at hlt
    omega
  · intro hfit before delivery after hsplit
    have hcap := hfit delivery (hsplit ▸ List.mem_append_right _ List.mem_cons_self)
    have h := (balanced_start node).run (P := P) before
    refine ⟨fun o ho => h.tried (lost_subset_pending hcap ho), fun hexec => ?_⟩
    rw [run_concat]
    exact h.sealed_completely hcap hexec

/-- One more payload than the queue may hold, in one commit: a good transfer, then garbage. -/
def overfull : Delivery ℕ :=
  ⟨⟨0, [⟨0, 5, Reference.transfer0 :: List.replicate maxPendingPayloads [0xff]⟩]⟩, []⟩

/-- The transfer could be sealed, but it is dropped before anything is tried. -/
theorem overfull_commit_drops_transfer :
    ((spawn (created Reference.platform Reference.spec)).node.sealCommitted Reference.platform
        Reference.transfer0 5 .healthy).2.isOk = true ∧
      ¬Fair Reference.platform (created Reference.platform Reference.spec) [overfull] := by
  refine ⟨by decide +kernel, fun hfair => ?_⟩
  have hlen : (orderedPayloads [overfull.commit]).length = maxPendingPayloads + 1 := by
    simp [orderedPayloads, overfull]
  obtain ⟨raw, hlost⟩ : ∃ raw, (raw, (start (created Reference.platform
      Reference.spec)).delivered.length) ∈ (start (created Reference.platform
        Reference.spec)).lost overfull.commit := first_arrival_lost (by omega)
  have hrefused := (hfair [] overfull [] rfl).1 hlost
  exact absurd hrefused List.not_mem_nil

end Ledger

end KanariEvm
