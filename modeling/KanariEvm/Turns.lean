import KanariEvm.Reads
import KanariEvm.Validator
import KanariEvm.Lib.SweepLog

namespace KanariEvm

/-! The loop takes the lock of the node once for each payload, so requests are served in between. -/

inductive Request
  | read (request : ReadRequest)
  | send (raw : Bytes) (now : U64)
deriving DecidableEq

def Request.op : Request → Op
  | .read request => .read request
  | .send raw now => .attempt (.send raw now) .healthy

/-- One turn of the loop at the lock: the requests served before it, and how the backend behaves. -/
structure Turn where
  requests : List Request
  io : SealIo
deriving DecidableEq

def Turn.alone : Turn := ⟨[], .healthy⟩

/-- A commit with the turns its payloads meet, in order; later ones are met alone. -/
structure Delivery (ρ : Type) where
  commit : CommittedSubDag ρ
  turns : List Turn
deriving DecidableEq

namespace KanariNode

variable (P : Platform) (node : KanariNode)

def answer (requests : List Request) : KanariNode :=
  requests.foldl (fun node request => node.perform P request.op) node

variable {P}

theorem sealCommitted_blocks (raw : Bytes) (timestamp : U64) (io : SealIo) :
    (node.sealCommitted P raw timestamp io).1.dagSender = node.dagSender ∧
      (((node.sealCommitted P raw timestamp io).2.isOk = true ∧ ∃ block,
          (node.sealCommitted P raw timestamp io).1.blocks = node.blocks ++ [block] ∧
            block.txs = [raw] ∧ block.timestamp = timestamp) ∨
        ((node.sealCommitted P raw timestamp io).2.isOk = false ∧
          (node.sealCommitted P raw timestamp io).1.blocks = node.blocks)) := by
  rcases node.sealCommitted_cases P raw timestamp io with ⟨-, hs⟩ | ⟨number, -, hs⟩
  · rw [hs]
    exact ⟨rfl, .inr ⟨rfl, rfl⟩⟩
  · rcases hex : executeRaw P node.db node.spec raw number timestamp (node.sealFee P) with
      ⟨db, e | ⟨prepared, result⟩⟩
    · rw [hs, sealRawWithFee_of_error hex]
      exact ⟨rfl, .inr ⟨rfl, rfl⟩⟩
    · rw [hs, sealRawWithFee_of_ok hex]
      obtain ⟨rebuild, save⟩ := io
      cases rebuild with
      | some fault => exact ⟨rfl, .inr ⟨rfl, rfl⟩⟩
      | none =>
        cases save with
        | some msg => exact ⟨rfl, .inr ⟨rfl, rfl⟩⟩
        | none => exact ⟨rfl, .inl ⟨rfl, _, rfl, rfl, rfl⟩⟩

variable {node}

theorem perform_request (h : node.dagSender.isSome) (request : Request) :
    (node.perform P request.op).dagSender.isSome ∧
      (node.perform P request.op).blocks = node.blocks := by
  cases request with
  | read request =>
    rw [Request.op, perform, serve_eq]
    exact ⟨h, rfl⟩
  | send raw now =>
    have hnone : node.sealNumber (.send raw now) = none := by simp [sealNumber, h]
    rcases node.sealStep_of_none P hnone .healthy with ⟨sender, hash, hs⟩ | ⟨e, hs⟩
    · rw [Request.op, perform, hs]
      exact ⟨rfl, rfl⟩
    · rw [Request.op, perform, hs]
      exact ⟨h, rfl⟩

theorem answer_blocks (h : node.dagSender.isSome) (requests : List Request) :
    (node.answer P requests).dagSender.isSome ∧
      (node.answer P requests).blocks = node.blocks := by
  induction requests generalizing node with
  | nil => exact ⟨h, rfl⟩
  | cons request rest ih =>
    obtain ⟨hmode, hblocks⟩ := perform_request (P := P) h request
    obtain ⟨hmode', hblocks'⟩ := ih hmode
    exact ⟨hmode', hblocks'.trans hblocks⟩

end KanariNode

namespace ValidatorNode

variable (P : Platform)

/-- One `seal_committed` of the sweep at its turn, with whether it sealed. -/
def sealTurn (ts : U64) : Deferred.Attempt (KanariNode × List Turn) Bytes := fun s raw =>
  let turn := s.2.headD .alone
  let out := (s.1.answer P turn.requests).sealCommitted P raw ts turn.io
  ((out.1, s.2.tail), out.2.isOk)

variable {ρ : Type} [DecidableEq ρ] (v : ValidatorNode)

/-- One turn of the commit loop, amid requests and backend faults. -/
def executeAmid (delivery : Delivery ρ) : ValidatorNode :=
  let ts := v.clampedTs delivery.commit
  let swept := Deferred.sweep (sealTurn P ts) (v.node, delivery.turns)
    (enqueue v.pending (orderedPayloads [delivery.commit]))
  ⟨swept.1.1, ts, swept.2⟩

def runAmid (deliveries : List (Delivery ρ)) : ValidatorNode := deliveries.foldl (executeAmid P) v

variable {P}

theorem sealTurn_alone (ts : U64) :
    Deferred.Projects (sealPayload P ts) (sealTurn P ts) (fun node => (node, [])) id :=
  fun _ _ => rfl

/-- What a turn does to the chain: a taken payload has become one block. -/
theorem sealTurn_blocks {s : KanariNode × List Turn} (h : s.1.dagSender.isSome) (ts : U64)
    (raw : Bytes) :
    (sealTurn P ts s raw).1.1.dagSender.isSome ∧
      (((sealTurn P ts s raw).2 = true ∧ ∃ block,
          (sealTurn P ts s raw).1.1.blocks = s.1.blocks ++ [block] ∧ block.txs = [raw] ∧
            block.timestamp = ts) ∨
        ((sealTurn P ts s raw).2 = false ∧ (sealTurn P ts s raw).1.1.blocks = s.1.blocks)) := by
  obtain ⟨hmode, hblocks⟩ := KanariNode.answer_blocks (P := P) h (s.2.headD .alone).requests
  obtain ⟨hsender, hsealed⟩ := (s.1.answer P (s.2.headD .alone).requests).sealCommitted_blocks
    (P := P) raw ts (s.2.headD .alone).io
  rw [hblocks] at hsealed
  exact ⟨by rw [← hsender] at hmode; exact hmode, hsealed⟩

theorem executeAmid_alone (commit : CommittedSubDag ρ) :
    v.executeAmid P ⟨commit, []⟩ = v.execute P commit := by
  have hsweep := (sealTurn_alone (P := P) (v.clampedTs commit)).sweep v.node
    (enqueue v.pending (orderedPayloads [commit]))
  rw [List.map_id] at hsweep
  simp only [executeAmid, execute, hsweep, List.map_id]

section Invariant

variable {p : KanariNode → Prop} (step : ∀ node op, p node → p (node.perform P op))

include step

theorem answer_induction {node : KanariNode} (h : p node) (requests : List Request) :
    p (node.answer P requests) := by
  induction requests generalizing node with
  | nil => exact h
  | cons request rest ih => exact ih (step node request.op h)

/-- Whatever single operations preserve, the commit loop preserves. -/
theorem executeAmid_induction (h : p v.node) (delivery : Delivery ρ) :
    p (v.executeAmid P delivery).node := by
  refine Deferred.sweep_induction (p := fun s : KanariNode × List Turn => p s.1)
    (fun s raw hs => ?_) h _
  exact step _ (.attempt (.committed raw (v.clampedTs delivery.commit)) (s.2.headD .alone).io)
    (answer_induction step hs _)

end Invariant

end ValidatorNode

end KanariEvm
