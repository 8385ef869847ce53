import KanariEvm.History
import KanariEvm.Lib.SweepWatch
import KanariEvm.ReadIsolation
import KanariEvm.Turns

namespace KanariEvm

open Journaled

namespace KanariNode

/-- Nodes that agree in everything but their mempools. -/
structure Replica (m n : KanariNode) : Prop where
  agree : Agree m n
  store : m.store = n.store
  smt : m.smt = n.smt

def detached (node : KanariNode) : KanariNode := { node with dagSender := none }

namespace Replica

variable {k m n : KanariNode}

theorem refl (n : KanariNode) : Replica n n := ⟨.refl n, rfl, rfl⟩

theorem symm (h : Replica m n) : Replica n m := ⟨h.agree.symm, h.store.symm, h.smt.symm⟩

theorem trans (h : Replica k m) (h' : Replica m n) : Replica k n :=
  ⟨h.agree.trans h'.agree, h.store.trans h'.store, h.smt.trans h'.smt⟩

theorem of_twin (h : Twin m n) : Replica m n := ⟨h.agree, h.store, h.smt⟩

theorem twin (h : Replica m n) : Twin m.detached n.detached :=
  ⟨⟨h.agree.spec, h.agree.db, h.agree.blocks, h.agree.receipts⟩, h.store, h.smt, rfl⟩

theorem detached (n : KanariNode) : Replica n.detached n :=
  ⟨⟨rfl, .refl _, rfl, rfl⟩, rfl, rfl⟩

end Replica

variable {P : Platform}

theorem sealCommitted_detached (node : KanariNode) (raw : Bytes) (ts : U64) (io : SealIo) :
    node.detached.sealCommitted P raw ts io =
      ((node.sealCommitted P raw ts io).1.detached, (node.sealCommitted P raw ts io).2) := by
  rcases node.sealCommitted_cases P raw ts io with ⟨hnone, hs⟩ | ⟨number, hsome, hs⟩
  · rw [hs, KanariNode.sealCommitted,
      show checkedSucc node.detached.blockNumber = none from hnone]
  · rw [hs, KanariNode.sealCommitted,
      show checkedSucc node.detached.blockNumber = some number from hsome]
    show node.detached.sealRawWithFee P raw number ts (node.sealFee P) io = _
    rcases hex : executeRaw P node.db node.spec raw number ts (node.sealFee P) with
      ⟨db, e | ⟨prepared, result⟩⟩
    · have hex' : executeRaw P node.detached.db node.detached.spec raw number ts
          (node.sealFee P) = (db, .error e) := hex
      rw [sealRawWithFee_of_error hex, sealRawWithFee_of_error hex']
      rfl
    · have hex' : executeRaw P node.detached.db node.detached.spec raw number ts
          (node.sealFee P) = (db, .ok (prepared, result)) := hex
      rw [sealRawWithFee_of_ok hex, sealRawWithFee_of_ok hex']
      obtain ⟨rebuild, save⟩ := io
      cases rebuild with
      | some fault => rfl
      | none => cases save <;> rfl

namespace Replica

variable {m n : KanariNode} (hR : P.toRevm.CacheLaws)

include hR

theorem sealCommitted (hdet : P.toRevm.Deterministic) (h : Replica m n) (raw : Bytes) (ts : U64)
    (io : SealIo) :
    Replica (m.sealCommitted P raw ts io).1 (n.sealCommitted P raw ts io).1 ∧
      (m.sealCommitted P raw ts io).2 = (n.sealCommitted P raw ts io).2 := by
  have htwin := h.twin.sealCommitted hR hdet raw ts io
  rw [sealCommitted_detached, sealCommitted_detached] at htwin
  exact ⟨(detached _).symm.trans ((of_twin htwin).trans (detached _)),
    (h.agree.sealCommitted hR hdet raw ts io).2⟩

theorem perform_request {request : Request} (hmode : n.dagSender.isSome)
    (hquiet : QuietRun P n [request.op]) : Replica (n.perform P request.op) n := by
  cases request with
  | read request => exact of_twin (Twin.serve_of_quiet hR hquiet.1)
  | send raw now =>
    have hnone : n.sealNumber (.send raw now) = none := by simp [sealNumber, hmode]
    rw [Request.op, KanariNode.perform]
    rcases n.sealStep_of_none P hnone .healthy with ⟨sender, hash, hs⟩ | ⟨e, hs⟩
    · rw [hs]
      exact ⟨⟨rfl, .refl _, rfl, rfl⟩, rfl, rfl⟩
    · rw [hs]
      exact .refl n

theorem answer {requests : List Request} (hmode : n.dagSender.isSome)
    (hquiet : QuietRun P n (requests.map Request.op)) : Replica (n.answer P requests) n := by
  induction requests generalizing n with
  | nil => exact .refl n
  | cons request rest ih =>
    have hfirst : Replica (n.perform P request.op) n :=
      perform_request hR hmode ⟨hquiet.1, trivial⟩
    exact (ih (KanariNode.perform_request hmode request).1 hquiet.2).trans hfirst

end Replica

end KanariNode

instance quietRunDecidable (P : Platform) :
    (node : KanariNode) → (ops : List Op) → Decidable (QuietRun P node ops)
  | _, [] => isTrue trivial
  | node, .read request :: rest =>
    @instDecidableAnd _ _ (inferInstanceAs (Decidable (node.ServesQuietly P request)))
      (quietRunDecidable P _ rest)
  | _, .attempt _ _ :: rest => @instDecidableAnd _ _ (isTrue trivial) (quietRunDecidable P _ rest)

namespace ValidatorNode

variable {ρ : Type} [DecidableEq ρ]

section Quiet

variable (P : Platform)

/-- The requests of a turn are served quietly, and its seal meets a healthy backend. -/
def quietTurn (s : KanariNode × List Turn) (_ : Bytes) : Bool :=
  decide (QuietRun P s.1 ((s.2.headD .alone).requests.map Request.op)) &&
    decide ((s.2.headD .alone).io = .healthy)

def Undisturbed (v : ValidatorNode) (delivery : Delivery ρ) : Prop :=
  (Deferred.sweep
    (Deferred.watched (quietTurn P) (sealTurn P (v.clampedTs delivery.commit)))
    ((v.node, delivery.turns), true)
    (enqueue v.pending (orderedPayloads [delivery.commit]))).1.2 = true

instance (v : ValidatorNode) (delivery : Delivery ρ) : Decidable (v.Undisturbed P delivery) :=
  inferInstanceAs (Decidable (_ = true))

end Quiet

/-- `v` is a validator whose loop is where the loop of `w` is, on a replica of its node. -/
structure Follows (v w : ValidatorNode) : Prop where
  node : v.node.Replica w.node
  lastTs : v.lastTs = w.lastTs
  pending : v.pending = w.pending
  mode : v.node.dagSender.isSome

variable {P : Platform} (hR : P.toRevm.CacheLaws) (hdet : P.toRevm.Deterministic)
  {v w : ValidatorNode}

include hR

theorem Follows.perform_request (h : Follows v w) {request : Request}
    (hquiet : QuietRun P v.node [request.op]) :
    Follows { v with node := v.node.perform P request.op } w :=
  ⟨(KanariNode.Replica.perform_request hR h.mode hquiet).trans h.node, h.lastTs, h.pending,
    (KanariNode.perform_request h.mode request).1⟩

include hdet

/-- A commit takes both validators the same way, whatever is asked of the first one meanwhile. -/
theorem Follows.executeAmid (h : Follows v w) {delivery : Delivery ρ}
    (hquiet : v.Undisturbed P delivery) :
    Follows (v.executeAmid P delivery) (w.execute P delivery.commit) := by
  have hts : w.clampedTs delivery.commit = v.clampedTs delivery.commit := by
    rw [clampedTs, clampedTs, h.lastTs]
  -- each attempt of the sweep: first the requests, then the seal
  have hstep : ∀ {s : KanariNode × List Turn} {t : KanariNode} (raw : Bytes),
      quietTurn P s raw = true → s.1.Replica t ∧ s.1.dagSender.isSome →
      ((sealTurn P (v.clampedTs delivery.commit) s raw).1.1.Replica
          (sealPayload P (v.clampedTs delivery.commit) t raw).1 ∧
        (sealTurn P (v.clampedTs delivery.commit) s raw).1.1.dagSender.isSome) ∧
        (sealTurn P (v.clampedTs delivery.commit) s raw).2 =
          (sealPayload P (v.clampedTs delivery.commit) t raw).2 := by
    intro s t raw hturn hst
    rw [quietTurn, Bool.and_eq_true, decide_eq_true_eq, decide_eq_true_eq] at hturn
    have hanswer := (KanariNode.Replica.answer hR hst.2 hturn.1).trans hst.1
    obtain ⟨hseal, hout⟩ := hanswer.sealCommitted hR hdet raw (v.clampedTs delivery.commit) .healthy
    have hmode := (sealTurn_blocks (P := P) hst.2 (v.clampedTs delivery.commit) raw).1
    simp only [sealTurn, sealPayload, hturn.2] at hmode ⊢
    exact ⟨⟨hseal, hmode⟩, by rw [hout]⟩
  obtain ⟨⟨hnode, hmode⟩, hrest⟩ := Deferred.sweep_sim
    (r := fun (s : KanariNode × List Turn) t => s.1.Replica t ∧ s.1.dagSender.isSome) hstep
    ⟨h.node, h.mode⟩ hquiet
  simp only [ValidatorNode.executeAmid, ValidatorNode.execute, hts, ← h.pending]
  exact ⟨hnode, rfl, hrest, hmode⟩

omit hdet

theorem blocks_execute (w : ValidatorNode) (commit : CommittedSubDag ρ) :
    w.node.blocks <+: (w.execute P commit).node.blocks := by
  rw [← w.executeAmid_alone]
  refine executeAmid_induction (p := fun node => w.node.blocks <+: node.blocks) w ?_
    (List.prefix_refl _) _
  intro node op hnode
  exact hnode.trans (KanariNode.blocks_final hR node [op])

theorem blocks_run (w : ValidatorNode) (commits : List (CommittedSubDag ρ)) :
    w.node.blocks <+: (w.run P commits).node.blocks := by
  induction commits generalizing w with
  | nil => exact List.prefix_refl _
  | cons commit rest ih => exact (blocks_execute hR w commit).trans (ih _)

end ValidatorNode

/-- A member of the committee: its validator, and how many commits it has been handed. -/
structure Member where
  validator : ValidatorNode
  delivered : ℕ

/-- What happens somewhere in the committee: a member is handed the next commit and executes it
amid requests, or it serves a request. -/
inductive MeshEvent (ι : Type)
  | deliver (member : ι) (turns : List Turn)
  | serve (member : ι) (request : Request)

section Mesh

variable {ι ρ : Type} [DecidableEq ι] [DecidableEq ρ] (P : Platform)
  (order : ℕ → CommittedSubDag ρ)

/-- One event. All members are handed the commits in the one order consensus agrees on. -/
def meshStep (mesh : ι → Member) : MeshEvent ι → ι → Member
  | .deliver i turns => Function.update mesh i
      ⟨(mesh i).validator.executeAmid P ⟨order (mesh i).delivered, turns⟩, (mesh i).delivered + 1⟩
  | .serve i request => Function.update mesh i
      { mesh i with validator :=
        { (mesh i).validator with node := (mesh i).validator.node.perform P request.op } }

def meshRun (mesh : ι → Member) (events : List (MeshEvent ι)) : ι → Member :=
  events.foldl (meshStep P order) mesh

/-- Every request of the run is served quietly in the state it meets, every seal on a healthy
backend. -/
def QuietMesh : (ι → Member) → List (MeshEvent ι) → Prop
  | _, [] => True
  | mesh, e :: rest =>
    (match e with
      | .deliver i turns =>
        (mesh i).validator.Undisturbed P ⟨order (mesh i).delivered, turns⟩
      | .serve i request => QuietRun P (mesh i).validator.node [request.op]) ∧
      QuietMesh (meshStep P order mesh e) rest

def meshStart (start : ι → KanariNode) : ι → Member := fun i => ⟨.spawn (start i), 0⟩

def firstCommits (n : ℕ) : List (CommittedSubDag ρ) := (List.range n).map order

omit [DecidableEq ρ] in
theorem firstCommits_succ (n : ℕ) :
    firstCommits order (n + 1) = firstCommits order n ++ [order n] := by
  simp [firstCommits, List.range_succ]

variable {P order} (hR : P.toRevm.CacheLaws) (hdet : P.toRevm.Deterministic)

include hR hdet

theorem meshRun_follows {w : ValidatorNode} {mesh : ι → Member} {events : List (MeshEvent ι)}
    (h : ∀ i, (mesh i).validator.Follows (w.run P (firstCommits order (mesh i).delivered)))
    (hquiet : QuietMesh P order mesh events) (i : ι) :
    (meshRun P order mesh events i).validator.Follows
      (w.run P (firstCommits order (meshRun P order mesh events i).delivered)) := by
  -- on the events, with the same lone validator `w` for all members
  induction events generalizing mesh with
  | nil => exact h i
  | cons e rest ih =>
    refine ih (fun j => ?_) hquiet.2
    cases e with
    | deliver k turns =>
      by_cases hk : j = k
      · subst hk
        have hnext := (h j).executeAmid hR hdet hquiet.1
        rw [meshStep, Function.update_self, firstCommits_succ, ValidatorNode.run,
          List.foldl_append]
        exact hnext
      · rw [meshStep, Function.update_of_ne hk]
        exact h j
    | serve k request =>
      by_cases hk : j = k
      · subst hk
        rw [meshStep, Function.update_self]
        exact (h j).perform_request hR hquiet.1
      · rw [meshStep, Function.update_of_ne hk]
        exact h j

omit hdet

/-- Of two members that are where one validator is after their commits, the one with fewer holds a
prefix of the other's chain, and with equally many they are replicas. -/
theorem converges_of_follows {w : ValidatorNode} {a b : Member}
    (ha : a.validator.Follows (w.run P (firstCommits order a.delivered)))
    (hb : b.validator.Follows (w.run P (firstCommits order b.delivered))) :
    (a.delivered ≤ b.delivered → a.validator.node.blocks <+: b.validator.node.blocks) ∧
      (a.delivered = b.delivered → a.validator.node.SameHistory P b.validator.node ∧
        a.validator.lastTs = b.validator.lastTs ∧
        a.validator.pending = b.validator.pending) := by
  refine ⟨fun hle => ?_, fun heq => ?_⟩
  -- the later one is where `w` is after `d` commits more
  · obtain ⟨d, hd⟩ := Nat.exists_eq_add_of_le hle
    have hlater : w.run P (firstCommits order b.delivered) =
        (w.run P (firstCommits order a.delivered)).run P
          ((List.range d).map fun k => order (a.delivered + k)) := by
      rw [hd, firstCommits, List.range_add, List.map_append, List.map_map]
      exact List.foldl_append
    rw [ha.node.agree.blocks, hb.node.agree.blocks, hlater]
    exact ValidatorNode.blocks_run hR _ _
  · rw [heq] at ha
    have hsame := ha.node.trans hb.node.symm
    refine ⟨⟨hsame.agree.blocks, hsame.agree.receipts, hsame.store, ?_⟩,
      ha.lastTs.trans hb.lastTs.symm, ha.pending.trans hb.pending.symm⟩
    rw [KanariNode.stateRoot, KanariNode.stateRoot, hsame.smt]

include hdet

theorem meshStart_follows {start : ι → KanariNode}
    (hstart : ∀ i j, (start i).Replica (start j)) {events : List (MeshEvent ι)}
    (hquiet : QuietMesh P order (meshStart start) events) (i k : ι) :
    (meshRun P order (meshStart start) events k).validator.Follows
      ((ValidatorNode.spawn (start i)).run P
        (firstCommits order (meshRun P order (meshStart start) events k).delivered)) := by
  refine meshRun_follows hR hdet (fun j => ?_) hquiet k
  have hj := hstart j i
  exact ⟨⟨⟨hj.agree.spec, hj.agree.db, hj.agree.blocks, hj.agree.receipts⟩, hj.store, hj.smt⟩,
    rfl, rfl, rfl⟩

/-- The committee has one chain: of two members started on replicas of one node, whatever happened
at the members and in whatever order, the one that has been handed fewer commits holds a prefix of
the other's chain, and with equally many they hold the same history and the same queue. -/
theorem committee_converges {start : ι → KanariNode}
    (hstart : ∀ i j, (start i).Replica (start j)) {events : List (MeshEvent ι)}
    (hquiet : QuietMesh P order (meshStart start) events) (i j : ι) {a b : Member}
    (ha : meshRun P order (meshStart start) events i = a)
    (hb : meshRun P order (meshStart start) events j = b) :
    (a.delivered ≤ b.delivered → a.validator.node.blocks <+: b.validator.node.blocks) ∧
      (a.delivered = b.delivered → a.validator.node.SameHistory P b.validator.node ∧
        a.validator.lastTs = b.validator.lastTs ∧
        a.validator.pending = b.validator.pending) := by
  have hi := meshStart_follows hR hdet hstart hquiet i i
  have hj := meshStart_follows hR hdet hstart hquiet i j
  rw [ha] at hi
  rw [hb] at hj
  exact converges_of_follows hR hi hj

end Mesh

def transferFirst : ℕ → CommittedSubDag ℕ
  | 0 => ⟨0, [⟨0, 5, [Reference.transfer0]⟩]⟩
  | n + 1 => ⟨n + 1, [⟨n + 1, 6, []⟩]⟩

def freshPair : Bool → KanariNode := fun _ => .created Reference.platform Reference.spec

def pairEvents : List (MeshEvent Bool) :=
  [.deliver true [⟨[.read (.balanceOf Reference.funded)], .healthy⟩],
    .serve false (.send Reference.transfer0 9), .deliver false []]

theorem committee_converges_pair :
    (meshRun Reference.platform transferFirst (meshStart freshPair) pairEvents
        true).validator.node.SameHistory Reference.platform
      (meshRun Reference.platform transferFirst (meshStart freshPair) pairEvents
        false).validator.node := by
  have hstart : ∀ i j, (freshPair i).Replica (freshPair j) := fun _ _ => .refl _
  have hquiet : QuietMesh Reference.platform transferFirst (meshStart freshPair) pairEvents :=
    ⟨by decide +kernel, by decide +kernel, by decide +kernel, trivial⟩
  exact ((committee_converges Reference.cacheLaws Reference.deterministic hstart hquiet true false
    rfl rfl).2 rfl).1

end KanariEvm
