import KanariEvm.Open
import KanariEvm.Runs

namespace KanariEvm

open InMemoryDB Journaled

namespace KanariNode

variable {P : Platform}

def replayBlock (P : Platform) (node : KanariNode) (block : SealedBlock) : Option KanariNode :=
  match replayTxs P block node block.txs with
  | (node, .ok ()) => some node
  | (_, .error _) => none

theorem replayBlocks_of_foldlM {blocks : List SealedBlock} {node node' : KanariNode}
    (h : blocks.foldlM (replayBlock P) node = some node') :
    replayBlocks P node blocks = (node', .ok ()) := by
  induction blocks generalizing node with
  | nil => simpa [replayBlocks] using h
  | cons block rest ih =>
    rw [List.foldlM_cons] at h
    obtain ⟨mid, hmid, hrest⟩ := Option.bind_eq_some_iff.mp h
    unfold replayBlock at hmid
    rcases ht : replayTxs P block node block.txs with ⟨n, e | u⟩
    · simp [ht] at hmid
    · simp only [ht, Option.some.injEq] at hmid
      subst hmid
      rw [replayBlocks, ht]
      exact ih hrest

/-- The two checks of replay: the resealed block must have the stored hash, and the stored state
root if one is stored. -/
def replayVerdict (block : SealedBlock) : Option SealedBlock → Except NodeError Unit
  | none => .ok ()
  | some resealed =>
    if resealed.hash ≠ block.hash then
      .error (.storage ("replay diverged at block " ++ toString block.number.toNat))
    else if block.stateRoot.isSome ∧ resealed.stateRoot ≠ block.stateRoot then
      .error (.storage ("state root mismatch at block " ++ toString block.number.toNat))
    else .ok ()

/-- The checks only decide about going on; the node is the one the seal left. -/
theorem replayTx_eq (node : KanariNode) (block : SealedBlock) (raw : Bytes) :
    node.replayTx P block raw =
      match node.sealRawWithFee P raw block.number block.timestamp block.baseFee .healthy with
      | (after, .error e) => (after, .error e)
      | (after, .ok _) => (after, replayVerdict block after.blocks.getLast?) := by
  unfold replayTx
  rcases node.sealRawWithFee P raw block.number block.timestamp block.baseFee .healthy with
    ⟨m, e | hash⟩
  · rfl
  · cases hl : m.blocks.getLast? with
    | none => simp only [hl, replayVerdict]
    | some b =>
      simp only [hl, replayVerdict]
      split_ifs <;> rfl

theorem replayTx_fst (node : KanariNode) (block : SealedBlock) (raw : Bytes) :
    (node.replayTx P block raw).1 =
      (node.sealRawWithFee P raw block.number block.timestamp block.baseFee .healthy).1 := by
  rw [replayTx_eq]
  rcases node.sealRawWithFee P raw block.number block.timestamp block.baseFee .healthy with
    ⟨m, e | hash⟩ <;> rfl

/-- Whatever single seals preserve, replay preserves, also when it fails half way. -/
theorem replayBlocks_induction {p : KanariNode → Prop}
    (step : ∀ n raw number timestamp baseFee, p n →
      p (n.sealRawWithFee P raw number timestamp baseFee .healthy).1)
    {node : KanariNode} (h : p node) (blocks : List SealedBlock) :
    p (replayBlocks P node blocks).1 := by
  have htxs : ∀ block raws n, p n → p (replayTxs P block n raws).1 := by
    intro block raws
    induction raws with
    | nil => exact fun n hn => hn
    | cons raw rest ih =>
      intro n hn
      have hn' : p (n.replayTx P block raw).1 := by
        rw [replayTx_fst]
        exact step n raw _ _ _ hn
      rw [replayTxs]
      rcases hx : n.replayTx P block raw with ⟨m, e | u⟩ <;> rw [hx] at hn'
      · exact hn'
      · exact ih m hn'
  induction blocks generalizing node with
  | nil => exact h
  | cons block rest ih =>
    have hn' := htxs block block.txs node h
    rw [replayBlocks]
    rcases hx : replayTxs P block node block.txs with ⟨m, e | u⟩ <;> rw [hx] at hn'
    · exact hn'
    · exact ih hn'

theorem replayBlocks_ok_induction {p : KanariNode → Prop}
    (step : ∀ n raw number timestamp baseFee n' hash, p n →
      n.sealRawWithFee P raw number timestamp baseFee .healthy = (n', .ok hash) → p n')
    {node node' : KanariNode} (h : p node) {blocks : List SealedBlock}
    (hok : replayBlocks P node blocks = (node', .ok ())) : p node' := by
  have htxs : ∀ block raws n n', p n → replayTxs P block n raws = (n', .ok ()) → p n' := by
    intro block raws
    induction raws with
    | nil =>
      intro n n' hn hdone
      rwa [← (Prod.mk.inj hdone).1]
    | cons raw rest ih =>
      intro n n' hn hdone
      rw [replayTxs, replayTx_eq] at hdone
      rcases hs : n.sealRawWithFee P raw block.number block.timestamp block.baseFee .healthy with
        ⟨m, e | hash⟩
      · simp [hs] at hdone
      · simp only [hs] at hdone
        have hm := step n raw _ _ _ m hash hn hs
        cases hv : replayVerdict block m.blocks.getLast? with
        | error e => simp [hv] at hdone
        | ok u =>
          simp only [hv] at hdone
          exact ih m n' hm hdone
  induction blocks generalizing node with
  | nil => rwa [← (Prod.mk.inj hok).1]
  | cons block rest ih =>
    rw [replayBlocks] at hok
    rcases ht : replayTxs P block node block.txs with ⟨mid, e | u⟩
    · simp [ht] at hok
    · simp only [ht] at hok
      exact ih (htxs block block.txs node mid h ht) hok

section Congruence

variable (hR : P.toRevm.CacheLaws) (hdet : P.toRevm.Deterministic)

include hR hdet

theorem Agree.replayTx {m n : KanariNode} (h : Agree m n) (block : SealedBlock) (raw : Bytes) :
    Agree (m.replayTx P block raw).1 (n.replayTx P block raw).1 ∧
      (m.replayTx P block raw).2 = (n.replayTx P block raw).2 := by
  obtain ⟨hagree, hout⟩ := h.sealRawWithFee hR hdet raw block.number block.timestamp
    block.baseFee .healthy
  rw [replayTx_eq, replayTx_eq]
  generalize m.sealRawWithFee P raw block.number block.timestamp block.baseFee .healthy = x
    at hagree hout ⊢
  generalize n.sealRawWithFee P raw block.number block.timestamp block.baseFee .healthy = y
    at hagree hout ⊢
  obtain ⟨m', out⟩ := x
  obtain ⟨n', out'⟩ := y
  obtain rfl : out = out' := hout
  replace hagree : Agree m' n' := hagree
  cases out with
  | error e => exact ⟨hagree, rfl⟩
  | ok hash => exact ⟨hagree, by simp only [hagree.blocks]⟩

theorem Agree.replayTxs {m n : KanariNode} (h : Agree m n) (block : SealedBlock)
    (raws : List Bytes) :
    Agree (KanariNode.replayTxs P block m raws).1 (KanariNode.replayTxs P block n raws).1 ∧
      (KanariNode.replayTxs P block m raws).2 = (KanariNode.replayTxs P block n raws).2 := by
  induction raws generalizing m n with
  | nil => exact ⟨h, rfl⟩
  | cons raw rest ih =>
    obtain ⟨hagree, hout⟩ := h.replayTx hR hdet block raw
    rw [KanariNode.replayTxs, KanariNode.replayTxs]
    generalize m.replayTx P block raw = x at hagree hout ⊢
    generalize n.replayTx P block raw = y at hagree hout ⊢
    obtain ⟨m', out⟩ := x
    obtain ⟨n', out'⟩ := y
    obtain rfl : out = out' := hout
    cases out with
    | error e => exact ⟨hagree, rfl⟩
    | ok u => exact ih hagree

theorem Agree.replayBlock {m m' n : KanariNode} {block : SealedBlock} (h : Agree m n)
    (hm : KanariNode.replayBlock P m block = some m') :
    ∃ n', KanariNode.replayBlock P n block = some n' ∧ Agree m' n' := by
  obtain ⟨hagree, hout⟩ := h.replayTxs hR hdet block block.txs
  unfold KanariNode.replayBlock at hm ⊢
  generalize KanariNode.replayTxs P block m block.txs = x at hagree hout hm
  generalize KanariNode.replayTxs P block n block.txs = y at hagree hout ⊢
  obtain ⟨k, out⟩ := x
  obtain ⟨l, out'⟩ := y
  obtain rfl : out = out' := hout
  cases out with
  | error e => simp at hm
  | ok u =>
    simp only [Option.some.injEq] at hm
    subst hm
    exact ⟨l, rfl, hagree⟩

end Congruence

theorem replayBlock_newBlock {node : KanariNode} {raw : Bytes} {number timestamp baseFee : U64}
    {db : InMemoryDB} {prepared : PreparedTx} {result : ExecutionResult}
    (h : executeRaw P node.db node.spec raw number timestamp baseFee =
      (db, .ok (prepared, result))) :
    replayBlock P node (node.newBlock P raw number timestamp baseFee db result) =
      some (node.afterSeal P raw number timestamp baseFee db prepared result) := by
  have hseal : node.sealRawWithFee P raw number timestamp baseFee .healthy =
      (node.afterSeal P raw number timestamp baseFee db prepared result, .ok (P.keccak256 raw)) :=
    sealRawWithFee_of_ok h .healthy
  have hlast : (node.afterSeal P raw number timestamp baseFee db prepared result).blocks.getLast? =
      some (node.newBlock P raw number timestamp baseFee db result) := by
    simp [afterSeal]
  have htx : node.replayTx P (node.newBlock P raw number timestamp baseFee db result) raw =
      (node.afterSeal P raw number timestamp baseFee db prepared result, .ok ()) := by
    have hfields : node.sealRawWithFee P raw
        (node.newBlock P raw number timestamp baseFee db result).number
        (node.newBlock P raw number timestamp baseFee db result).timestamp
        (node.newBlock P raw number timestamp baseFee db result).baseFee .healthy = _ := hseal
    rw [replayTx_eq, hfields]
    simp [hlast, replayVerdict]
  have htxs : (node.newBlock P raw number timestamp baseFee db result).txs = [raw] := rfl
  simp [replayBlock, htxs, replayTxs, htx]

/-- Replay is the inverse of sealing: each journal entry redoes its seal, and refused attempts
leave nothing that a replay would miss. -/
theorem sealMachine_replays (hR : P.toRevm.CacheLaws) (hdet : P.toRevm.Deterministic)
    (hq : P.toRevm.RejectsQuietly) :
    Machine.Replays (sealMachine P) (replayBlock P) Agree where
  accept := by
    intro s step s' e hs
    rcases sealMachine_cases P s step with
      ⟨sender, h⟩ | ⟨db, e', h, -⟩ | ⟨number, db, prepared, result, -, hex, h⟩
    · simp [h] at hs
    · simp [h] at hs
    -- only an executed attempt has appended a block
    · rw [h] at hs
      simp only [Prod.mk.injEq, Option.some.injEq] at hs
      obtain ⟨rfl, rfl⟩ := hs
      exact ⟨_, replayBlock_newBlock hex, Agree.refl _⟩
  refuse := by
    intro s step s' hs
    rcases sealMachine_cases P s step with
      ⟨sender, h⟩ | ⟨db, e', h, hdb⟩ | ⟨number, db, prepared, result, -, -, h⟩
    · rw [h] at hs
      simp only [Prod.mk.injEq, and_true] at hs
      subst hs
      exact ⟨rfl, SameCache.refl _, rfl, rfl⟩
    · rw [h] at hs
      simp only [Prod.mk.injEq, and_true] at hs
      subst hs
      refine ⟨rfl, ?_, rfl, rfl⟩
      -- the reads of a refused execution may cache accounts, but no slots
      rcases hdb with rfl | ⟨number, hex⟩
      · exact SameCache.refl _
      · exact executeRaw_error_sameCache hR hq hex
    · simp [h] at hs
  congr := fun hst ht => hst.replayBlock hR hdet ht

end KanariNode

end KanariEvm
