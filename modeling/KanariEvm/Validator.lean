import KanariEvm.Lib.Sweep
import KanariEvm.Seal

namespace KanariEvm

/-! Blocks and references belong to the DAG crate; references are only compared. -/

/-- A block of the DAG: its reference, its timestamp in seconds and its transactions. -/
structure DagBlock (ρ : Type) where
  reference : ρ
  timestampSecs : U64
  transactions : List Bytes
deriving DecidableEq

structure CommittedSubDag (ρ : Type) where
  anchor : ρ
  blocks : List (DagBlock ρ)
deriving DecidableEq

variable {ρ : Type}

def orderedPayloads (commits : List (CommittedSubDag ρ)) : List Bytes :=
  (commits.flatMap (·.blocks)).flatMap (·.transactions)

/-- EVM block timestamp for a commit: its anchor block's timestamp, else the newest one in the
commit, `0` only for an empty commit. -/
def commitTimestamp [DecidableEq ρ] (commit : CommittedSubDag ρ) : U64 :=
  match commit.blocks.find? fun b => b.reference = commit.anchor with
  | some anchor => anchor.timestampSecs
  | none => (commit.blocks.map (·.timestampSecs)).foldl umax 0

def maxPendingPayloads : ℕ := 4096

def dagChannelCapacity : ℕ := 1024

/-- The payloads of a commit join the queue; the oldest are dropped once it is overfull. -/
def enqueue (pending payloads : List Bytes) : List Bytes :=
  let queue := pending ++ payloads
  if maxPendingPayloads < queue.length then queue.drop (queue.length - maxPendingPayloads)
  else queue

theorem enqueue_eq_drop (pending payloads : List Bytes) :
    enqueue pending payloads =
      (pending ++ payloads).drop ((pending ++ payloads).length - maxPendingPayloads) := by
  simp only [enqueue]
  split_ifs with h
  · rfl
  · rw [Nat.sub_eq_zero_of_le (Nat.not_lt.mp h), List.drop_zero]

/-- What the commit-execution task of a validator owns or shares. -/
structure ValidatorNode where
  node : KanariNode
  lastTs : U64
  pending : List Bytes
deriving DecidableEq

namespace ValidatorNode

variable (P : Platform)

/-- `spawn` around an opened node: a fresh mempool channel and a fresh loop. -/
def spawn (node : KanariNode) : ValidatorNode where
  node := { node with dagSender := some ⟨dagChannelCapacity, [], false⟩ }
  lastTs := 0
  pending := []

def sealPayload (ts : U64) : Deferred.Attempt KanariNode Bytes := fun node raw =>
  let out := node.sealCommitted P raw ts .healthy
  (out.1, out.2.isOk)

variable [DecidableEq ρ] (v : ValidatorNode) (commit : CommittedSubDag ρ)

def clampedTs : U64 := umax (commitTimestamp commit) v.lastTs

/-- One turn of the loop: clamp the timestamp, queue the payloads, sweep the queue to fixation. -/
def execute : ValidatorNode :=
  let ts := v.clampedTs commit
  let swept := Deferred.sweep (sealPayload P ts) v.node
    (enqueue v.pending (orderedPayloads [commit]))
  ⟨swept.1, ts, swept.2⟩

def run (commits : List (CommittedSubDag ρ)) : ValidatorNode := commits.foldl (execute P) v

end ValidatorNode

end KanariEvm
