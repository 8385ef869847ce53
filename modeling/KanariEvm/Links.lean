import KanariEvm.ReplayFailure

namespace KanariEvm

open InMemoryDB Journaled

variable {P : Platform}

/-- One block behind `before`: its parent is the last of them, its hash covers parent, number and
timestamp, and it holds one transaction and a state root. -/
structure SealedBlock.Follows (P : Platform) (before : List SealedBlock) (block : SealedBlock) :
    Prop where
  parent : block.parentHash = nextParentHash P before
  hash : block.hash = blockHash P block.parentHash block.number block.timestamp
  single : ∃ raw, block.txs = [raw]
  root : block.stateRoot.isSome = true

def Linked (P : Platform) (blocks : List SealedBlock) : Prop :=
  ∀ i (hi : i < blocks.length), blocks[i].Follows P (blocks.take i)

theorem Linked.nil : Linked P [] := fun i hi => absurd hi (Nat.not_lt_zero i)

theorem Linked.concat {blocks : List SealedBlock} (h : Linked P blocks) {block : SealedBlock}
    (hb : block.Follows P blocks) : Linked P (blocks ++ [block]) := by
  intro i hi
  rw [List.length_append, List.length_singleton] at hi
  rcases Nat.lt_or_ge i blocks.length with hlt | hge
  · rw [List.getElem_append_left hlt, List.take_append_of_le_length (Nat.le_of_lt hlt)]
    exact h i hlt
  · obtain rfl : i = blocks.length := by omega
    simpa using hb

theorem nextParentHash_congr {blocks blocks' : List SealedBlock}
    (h : blocks.map (·.hash) = blocks'.map (·.hash)) :
    nextParentHash P blocks = nextParentHash P blocks' := by
  have hlast := congrArg List.getLast? h
  rw [List.getLast?_map, List.getLast?_map] at hlast
  rw [nextParentHash, nextParentHash, hlast]

namespace KanariNode

theorem newBlock_follows (node : KanariNode) (raw : Bytes) (number timestamp baseFee : U64)
    (db : InMemoryDB) (result : ExecutionResult) :
    (node.newBlock P raw number timestamp baseFee db result).Follows P node.blocks :=
  ⟨rfl, rfl, ⟨raw, rfl⟩, rfl⟩

theorem linked_sealRawWithFee {node : KanariNode} (h : Linked P node.blocks) (raw : Bytes)
    (number timestamp baseFee : U64) (io : SealIo) :
    Linked P (node.sealRawWithFee P raw number timestamp baseFee io).1.blocks := by
  rcases hex : executeRaw P node.db node.spec raw number timestamp baseFee with
    ⟨db, e | ⟨prepared, result⟩⟩
  · rw [sealRawWithFee_of_error hex]
    exact h
  · rw [sealRawWithFee_of_ok hex]
    obtain ⟨rebuild, save⟩ := io
    cases rebuild with
    | some fault => exact h
    | none =>
      cases save with
      | some msg => exact h
      | none => exact h.concat (node.newBlock_follows raw number timestamp baseFee db result)

theorem linked_sealStep {node : KanariNode} (h : Linked P node.blocks) (step : SealStep)
    (io : SealIo) : Linked P (node.sealStep P io step).1.blocks := by
  rcases Option.eq_none_or_eq_some (node.sealNumber step) with hnone | ⟨number, hnumber⟩
  · rcases node.sealStep_of_none P hnone io with ⟨sender, hash, hs⟩ | ⟨e, hs⟩
    · rw [hs]
      exact h
    · rw [hs]
      exact h
  · rw [node.sealStep_of_number P hnumber]
    exact linked_sealRawWithFee h _ _ _ _ _

theorem live_linked (spec : KanariChainSpec) (steps : List SealStep) :
    Linked P (live P spec steps).blocks :=
  (sealMachine P).final_induction (p := fun n => Linked P n.blocks)
    (fun _ step hn => linked_sealStep hn step .healthy) Linked.nil steps

theorem linked_replayBlocks {node : KanariNode} (h : Linked P node.blocks)
    (blocks : List SealedBlock) : Linked P (replayBlocks P node blocks).1.blocks :=
  replayBlocks_induction (p := fun n => Linked P n.blocks)
    (fun _ raw number timestamp baseFee hn =>
      linked_sealRawWithFee hn raw number timestamp baseFee .healthy) h blocks

end KanariNode

/-- What replay makes sure of between a stored transaction and the block it seals for it. -/
structure Resealed (stored : SealedBlock × Bytes) (block : SealedBlock) : Prop where
  number : block.number = stored.1.number
  timestamp : block.timestamp = stored.1.timestamp
  hash : block.hash = stored.1.hash
  txs : block.txs = [stored.2]
  baseFee : block.baseFee = stored.1.baseFee
  root : ∀ root, stored.1.stateRoot = some root → block.stateRoot = some root

namespace KanariNode

theorem replayTx_ok {node node' : KanariNode} {block : SealedBlock} {raw : Bytes}
    (h : node.replayTx P block raw = (node', .ok ())) :
    ∃ sealed, node'.blocks = node.blocks ++ [sealed] ∧ Resealed (block, raw) sealed := by
  rcases node.sealRawWithFee_healthy_cases P raw block.number block.timestamp block.baseFee with
    ⟨db, e, -, hs⟩ | ⟨db, prepared, result, -, hs⟩
  · simp [replayTx, hs] at h
  · rw [replayTx_eq, hs] at h
    have hlast : (node.afterSeal P raw block.number block.timestamp block.baseFee db prepared
        result).blocks.getLast? =
        some (node.newBlock P raw block.number block.timestamp block.baseFee db result) := by
      simp [afterSeal]
    simp only [hlast, replayVerdict, Prod.mk.injEq] at h
    obtain ⟨rfl, hverdict⟩ := h
    split_ifs at hverdict with hhash hroot
    rw [not_not] at hhash
    refine ⟨_, rfl, rfl, rfl, hhash, rfl, rfl, fun root hstored => ?_⟩
    change block.stateRoot = some root at hstored
    rw [hstored] at hroot
    simpa using hroot

theorem replayTxs_resealed {block : SealedBlock} {raws : List Bytes} {node node' : KanariNode}
    (h : replayTxs P block node raws = (node', .ok ())) :
    ∃ fresh, node'.blocks = node.blocks ++ fresh ∧
      List.Forall₂ Resealed (raws.map fun raw => (block, raw)) fresh := by
  induction raws generalizing node with
  | nil =>
    simp only [replayTxs, Prod.mk.injEq, and_true] at h
    subst h
    exact ⟨[], (List.append_nil _).symm, List.Forall₂.nil⟩
  | cons raw rest ih =>
    rw [replayTxs] at h
    rcases hx : node.replayTx P block raw with ⟨mid, e | u⟩
    · simp [hx] at h
    · simp only [hx] at h
      obtain ⟨sealed, hmid, hsealed⟩ := replayTx_ok hx
      obtain ⟨fresh, hfresh, hrest⟩ := ih h
      refine ⟨sealed :: fresh, ?_, List.Forall₂.cons hsealed hrest⟩
      rw [hfresh, hmid, List.append_assoc]
      rfl

/-- Replay that succeeds has sealed one block for each stored transaction, in order. -/
theorem replayBlocks_resealed {blocks : List SealedBlock} {node node' : KanariNode}
    (h : replayBlocks P node blocks = (node', .ok ())) :
    ∃ fresh, node'.blocks = node.blocks ++ fresh ∧
      List.Forall₂ Resealed (storedTxs blocks) fresh := by
  induction blocks generalizing node with
  | nil =>
    simp only [replayBlocks, Prod.mk.injEq, and_true] at h
    subst h
    exact ⟨[], (List.append_nil _).symm, List.Forall₂.nil⟩
  | cons block rest ih =>
    rw [replayBlocks] at h
    rcases hx : replayTxs P block node block.txs with ⟨mid, e | u⟩
    · simp [hx] at h
    · simp only [hx] at h
      obtain ⟨first, hmid, hfirst⟩ := replayTxs_resealed hx
      obtain ⟨fresh, hfresh, hrest⟩ := ih h
      refine ⟨first ++ fresh, ?_, ?_⟩
      · rw [hfresh, hmid, List.append_assoc]
      · rw [storedTxs, List.flatMap_cons]
        exact List.rel_append hfirst hrest

end KanariNode

end KanariEvm
