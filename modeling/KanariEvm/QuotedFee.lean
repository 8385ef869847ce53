import KanariEvm.FeeRule
import KanariEvm.Reopening

namespace KanariEvm

open InMemoryDB Journaled

namespace KanariNode

variable {P : Platform} {node : KanariNode}

/-- The next fee has 64 bits: the genesis fee does while nothing is sealed, and later the head used
no more than its target, or its fee leaves room for the rise. -/
def FeeFits (P : Platform) (node : KanariNode) : Prop :=
  match node.blocks.getLast? with
  | none => node.spec.baseFeeWei.toNat < 2 ^ 64
  | some head =>
    (node.blockGasUsed P head.number).toNat ≤ Gas.gasTarget ∨
      head.baseFee.toNat + max (FeeStep.delta Gas.gasTarget 8 head.baseFee.toNat
        ((node.blockGasUsed P head.number).toNat - Gas.gasTarget)) 1 < 2 ^ 64

instance (P : Platform) (node : KanariNode) : Decidable (node.FeeFits P) := by
  unfold FeeFits; split <;> infer_instance

theorem pendingBaseFee_of_head {head : SealedBlock} (h : node.blocks.getLast? = some head) :
    (node.pendingBaseFee P).toNat = Gas.exactNextFee head.baseFee.toNat
      (node.blockGasUsed P head.number).toNat := by
  have hfee : (head.baseFee.setWidth 128).toNat = head.baseFee.toNat :=
    BitVec.toNat_setWidth_of_le (by decide)
  have hgas : ((node.blockGasUsed P head.number).setWidth 128).toNat =
      (node.blockGasUsed P head.number).toNat := BitVec.toNat_setWidth_of_le (by decide)
  simp only [pendingBaseFee, h]
  change (Gas.nextBaseFee _ _).toNat = _
  rw [Gas.nextBaseFee_toNat (by rw [hfee]; exact BitVec.isLt _)
    (by rw [hgas]; exact BitVec.isLt _), hfee, hgas]

theorem feeFits_iff : node.FeeFits P ↔ (node.pendingBaseFee P).toNat < 2 ^ 64 := by
  unfold FeeFits
  cases h : node.blocks.getLast? with
  | none => simp only [pendingBaseFee, h]
  | some head =>
    have hlt := head.baseFee.isLt
    simp only [pendingBaseFee_of_head h, Gas.exactNextFee]
    rcases Nat.lt_or_ge Gas.gasTarget (node.blockGasUsed P head.number).toNat with hover | hunder
    · rw [FeeStep.next, if_neg (by omega), if_pos hover]
      omega
    · have hle : FeeStep.next Gas.gasTarget 8 head.baseFee.toNat
          (node.blockGasUsed P head.number).toNat ≤ head.baseFee.toNat := FeeStep.next_le hunder
      omega

/-- The fee applied is the fee quoted, as long as it fits. -/
theorem sealFee_eq_iff :
    (node.sealFee P).setWidth 128 = node.pendingBaseFee P ↔ node.FeeFits P := by
  rw [feeFits_iff, sealFee, ← BitVec.toNat_inj, BitVec.toNat_setWidth_of_le (by decide),
    BitVec.toNat_setWidth]
  constructor
  · intro h
    rw [← h]
    exact Nat.mod_lt _ (by decide)
  · exact fun h => Nat.mod_eq_of_lt h

theorem one_le_pendingBaseFee (h : 1 ≤ node.spec.baseFeeWei.toNat) :
    1 ≤ (node.pendingBaseFee P).toNat := by
  cases hhead : node.blocks.getLast? with
  | none =>
    simp only [pendingBaseFee, hhead]
    exact h
  | some head =>
    rw [pendingBaseFee_of_head hhead]
    exact le_max_right _ _

section Laws

variable (hR : P.toRevm.CacheLaws)

include hR

theorem receipts_of_blocks_eq {ops : List Op}
    (h : ((nodeMachine P).final node ops).blocks = node.blocks) :
    ((nodeMachine P).final node ops).receipts = node.receipts := by
  induction ops generalizing node with
  | nil => rfl
  | cons op rest ih =>
    rw [(nodeMachine P).final_cons] at h ⊢
    change ((nodeMachine P).final (node.perform P op) rest).blocks = _ at h
    change ((nodeMachine P).final (node.perform P op) rest).receipts = _
    have hgrows := blocks_final hR (node.perform P op) rest
    rcases perform_cases hR node op with
      hsame | ⟨step, io, x, tree, -, -, -, hp⟩ | ⟨step, x, -, -, hp⟩
    · rw [ih (h.trans hsame.blocks.symm), hsame.receipts]
    · have hblocks : (node.perform P op).blocks = node.blocks := by rw [hp]; rfl
      rw [ih (h.trans hblocks.symm), hp]
      rfl
    · have hlen := hgrows.length_le
      rw [h, hp] at hlen
      simp only [sealedNode, afterSeal, List.length_append, List.length_singleton] at hlen
      omega

theorem blockGasUsed_of_sealed {spec : KanariChainSpec} (hrec : node.Recorded spec)
    {step : SealStep} {x : Execution} (hruns : node.Runs P step x) {between : List Op}
    (hblocks : ((nodeMachine P).final node (.attempt step .healthy :: between)).blocks =
      node.blocks ++ [node.blockOf P step x]) :
    ((nodeMachine P).final node (.attempt step .healthy :: between)).blockGasUsed P
      (node.blockOf P step x).number = x.result.gasUsed := by
  have hfinal := hruns.final between
  have hrecorded : ((nodeMachine P).final node (.attempt step .healthy :: between)).Recorded spec :=
    (nodeMachine P).final_induction (fun _ op h => h.perform hR op) hrec _
  have hreceipts : ((nodeMachine P).final (node.sealedNode P step x) between).receipts =
      (node.sealedNode P step x).receipts :=
    receipts_of_blocks_eq hR (by rw [← hfinal]; exact hblocks)
  have hreceipt : (node.sealedNode P step x).receipts.lookup (P.keccak256 step.raw) =
      some (node.receiptOf P step x) := Finmap.lookup_insert _
  have hmem : node.blockOf P step x ∈
      ((nodeMachine P).final node (.attempt step .healthy :: between)).blocks := by
    rw [hblocks]
    exact List.mem_append_right _ (List.mem_singleton_self _)
  have htxs : (node.blockOf P step x).txs = [step.raw] := rfl
  rw [blockGasUsed, hrecorded.blockByNumber_of_mem hmem]
  simp only [txsGasUsed, htxs, hfinal, hreceipts, List.map_cons, List.map_nil, hreceipt,
    Option.map_some, Option.getD_some, receiptOf_gasUsed, List.foldl_cons, List.foldl_nil]
  exact BitVec.zero_add _

end Laws

structure SealedAt (P : Platform) (start : KanariNode) (ops before : List Op) (step : SealStep)
    (x : Execution) : Prop where
  split : before ++ [.attempt step .healthy] <+: ops
  runs : ((nodeMachine P).final start before).Runs P step x

/-- What a seal makes of the fee quoted just before it. -/
structure AppliesQuote (P : Platform) (node : KanariNode) (step : SealStep) (x : Execution) :
    Prop where
  recorded : (node.blockOf P step x).baseFee.setWidth 128 = node.pendingBaseFee P
  executed : executeRaw P node.db node.spec step.raw x.number step.timestamp
    (node.blockOf P step x).baseFee = (x.db, .ok (x.prepared, x.result))
  minimum : Gas.minBaseFeeWei.toNat ≤ (node.blockOf P step x).baseFee.toNat

/-- The fees of a run: every block is sealed at the fee quoted before it, and every two blocks in a
row follow the EIP-1559 rule. -/
structure FeesFollow (P : Platform) (start : KanariNode) (ops : List Op) : Prop where
  quoted : ∀ before step x, SealedAt P start ops before step x →
    ((nodeMachine P).final start before).AppliesQuote P step x
  chained : ∀ before step x before' step' x', SealedAt P start ops before step x →
    SealedAt P start ops before' step' x' →
    ((nodeMachine P).final start before').blocks =
      ((nodeMachine P).final start before).blocks ++
        [((nodeMachine P).final start before).blockOf P step x] →
    (((nodeMachine P).final start before').blockOf P step' x').baseFee.setWidth 128 =
      Gas.calcNextBaseFee
        ((((nodeMachine P).final start before).blockOf P step x).baseFee.setWidth 128)
        (x.result.gasUsed.setWidth 128) (Gas.blockGasLimit.setWidth 128)

section Laws

variable (hR : P.toRevm.CacheLaws)

include hR

theorem SealedAt.between {start : KanariNode} {ops before before' : List Op}
    {step step' : SealStep} {x x' : Execution} (h : SealedAt P start ops before step x)
    (h' : SealedAt P start ops before' step' x')
    (hblocks : ((nodeMachine P).final start before').blocks =
      ((nodeMachine P).final start before).blocks ++
        [((nodeMachine P).final start before).blockOf P step x]) :
    ∃ between, before' = before ++ .attempt step .healthy :: between := by
  have hprefix : before' <+: ops := (List.prefix_append _ _).trans h'.split
  rcases List.prefix_or_prefix_of_prefix h.split hprefix with hafter | hearlier
  · obtain ⟨between, rfl⟩ := hafter
    exact ⟨between, by rw [List.append_assoc]; rfl⟩
  · have hsame : before' = before ++ [.attempt step .healthy] ∨ before' <+: before :=
      List.prefix_concat_iff.mp hearlier
    rcases hsame with rfl | ⟨rest, rfl⟩
    · exact ⟨[], rfl⟩
    · have hlen := (blocks_final hR ((nodeMachine P).final start before') rest).length_le
      rw [← (nodeMachine P).final_append] at hlen
      rw [hblocks, List.length_append, List.length_singleton] at hlen
      omega

/-- In every run, from any state of a node's life, each block is sealed at the fee quoted before it
and the fees follow the rule if and only if no fee outgrows 64 bits. -/
theorem fees_follow_iff {ρ : Type} [DecidableEq ρ] {spec : KanariChainSpec} {fee : U128}
    {first v : ValidatorNode} (hfirst : first = ⟨created P (spec.withBaseFee fee), 0, []⟩ ∨
      first = ValidatorNode.spawn (created P (spec.withBaseFee fee)))
    {events : List (Event ρ)} (hrun : Session.run P (spec.withBaseFee fee) first events = some v)
    (ops : List Op) :
    FeesFollow P v.node ops ↔ ∀ before step x, SealedAt P v.node ops before step x →
      ((nodeMachine P).final v.node before).FeeFits P := by
  have hrecorded : ∀ before : List Op,
      ((nodeMachine P).final v.node before).Recorded (spec.withBaseFee fee) := fun before =>
    (nodeMachine P).final_induction (fun _ op h => h.perform hR op)
      (Coherent.life hR hfirst hrun).recorded before
  constructor
  · intro h before step x hsealed
    exact sealFee_eq_iff.mp (h.quoted before step x hsealed).recorded
  · intro hfits
    have hquoted : ∀ before step x, SealedAt P v.node ops before step x →
        ((nodeMachine P).final v.node before).AppliesQuote P step x := by
      intro before step x hsealed
      have hfee := sealFee_eq_iff.mpr (hfits before step x hsealed)
      refine ⟨hfee, hsealed.runs.executed, ?_⟩
      have hone : 1 ≤ (((nodeMachine P).final v.node before).pendingBaseFee P).toNat := by
        apply one_le_pendingBaseFee
        rw [(hrecorded before).sameSpec, KanariChainSpec.withBaseFee, umax_toNat]
        exact le_max_right _ _
      rw [← hfee, BitVec.toNat_setWidth_of_le (by decide)] at hone
      exact hone
    refine ⟨hquoted, fun before step x before' step' x' hsealed hsealed' hblocks => ?_⟩
    obtain ⟨between, rfl⟩ := hsealed.between hR hsealed' hblocks
    have hhead : ((nodeMachine P).final v.node
        (before ++ .attempt step .healthy :: between)).blocks.getLast? =
          some (((nodeMachine P).final v.node before).blockOf P step x) := by
      rw [hblocks]
      exact List.getLast?_concat
    rw [(hquoted _ step' x' hsealed').recorded]
    simp only [pendingBaseFee, hhead]
    rw [(nodeMachine P).final_append] at hblocks ⊢
    rw [blockGasUsed_of_sealed hR (hrecorded before) hsealed.runs hblocks]

end Laws

def twoTransfers : List Op :=
  [.attempt (.send Reference.transfer0 5) .healthy, .attempt (.send Reference.transfer1 5) .healthy]

theorem fees_follow_iff_transfers :
    FeesFollow Reference.platform
      (created Reference.platform (Reference.spec.withBaseFee Gas.genesisBaseFeeWei))
      twoTransfers := by
  have hrun : Session.run Reference.platform (Reference.spec.withBaseFee Gas.genesisBaseFeeWei)
      ⟨created Reference.platform (Reference.spec.withBaseFee Gas.genesisBaseFeeWei), 0, []⟩
      ([] : List (Event ℕ)) = some ⟨created Reference.platform
        (Reference.spec.withBaseFee Gas.genesisBaseFeeWei), 0, []⟩ := rfl
  refine (fees_follow_iff Reference.cacheLaws (.inl rfl) hrun twoTransfers).mpr ?_
  have hall : ∀ before ∈ twoTransfers.inits, ((nodeMachine Reference.platform).final
      (created Reference.platform (Reference.spec.withBaseFee Gas.genesisBaseFeeWei))
      before).FeeFits Reference.platform := by decide +kernel
  intro before step x hsealed
  exact hall before ((List.mem_inits _ _).mpr ((List.prefix_append _ _).trans hsealed.split))

/-- A genesis fee of 2^64 wei is quoted, and the first block is sealed at none. -/
theorem wide_genesis_fee_is_dropped :
    ¬FeesFollow Reference.platform
      (created Reference.platform (Reference.spec.withBaseFee 0x10000000000000000))
      twoTransfers := by
  intro h
  have hruns : (created Reference.platform (Reference.spec.withBaseFee 0x10000000000000000)).Runs
      Reference.platform (.send Reference.transfer0 5) ⟨1, _,
        Reference.prepared 0 1000000000 none, Reference.moved⟩ :=
    Runs.of_eval _ _ _ (by decide +kernel) (by decide +kernel)
  have hquoted := (h.quoted [] _ _ ⟨by decide, hruns⟩).recorded
  exact absurd (sealFee_eq_iff.mp hquoted) (by decide +kernel)

end KanariNode

end KanariEvm
