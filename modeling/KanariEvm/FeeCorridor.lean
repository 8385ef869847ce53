import KanariEvm.OneChain
import KanariEvm.QuotedFee

namespace KanariEvm

open InMemoryDB Journaled

/-- A transaction that asks for more gas than the block has is refused, and none uses more than it
asks for. -/
structure Revm.KeepsGasLimits (R : Revm) : Prop where
  used : ∀ {db params tx result state}, R.outcome db params tx = .ok (result, state) →
    result.gasUsed.toNat ≤ tx.gasLimit.toNat
  asked : ∀ {db params tx result state}, R.outcome db params tx = .ok (result, state) →
    tx.gasLimit.toNat ≤ params.gasLimit.toNat

namespace KanariNode

variable {P : Platform} {node : KanariNode} {spec : KanariChainSpec}

def Metered (node : KanariNode) : Prop :=
  ∀ hash receipt, node.receipts.lookup hash = some receipt →
    receipt.gasUsed.toNat ≤ Gas.blockGasLimit.toNat

theorem Metered.of_empty (h : node.receipts = ∅) : node.Metered := by
  intro hash receipt hlookup
  rw [h, Finmap.lookup_empty] at hlookup
  cases hlookup

theorem Metered.blockGasUsed_le (h : node.Metered)
    (hsingle : ∀ block ∈ node.blocks, ∃ raw, block.txs = [raw]) (number : U64) :
    (node.blockGasUsed P number).toNat ≤ 2 * Gas.gasTarget := by
  have hlimit : 2 * Gas.gasTarget = Gas.blockGasLimit.toNat := by decide
  rw [hlimit, blockGasUsed]
  cases hblock : node.blockByNumber number with
  | none => exact Nat.zero_le _
  | some block =>
    obtain ⟨raw, htxs⟩ := hsingle block (List.mem_of_find?_eq_some hblock)
    simp only [htxs, txsGasUsed, List.map_cons, List.map_nil, List.foldl_cons, List.foldl_nil]
    cases hreceipt : node.receipts.lookup (P.keccak256 raw) with
    | none => exact Nat.zero_le _
    | some receipt =>
      have hsum : (0 : U64) + receipt.gasUsed = receipt.gasUsed := BitVec.zero_add _
      rw [Option.map_some, Option.getD_some, hsum]
      exact h _ receipt hreceipt

section Gas

variable (hgas : P.toRevm.KeepsGasLimits)

include hgas

theorem gasUsed_le_of_executeRaw {db db' : InMemoryDB} {raw : Bytes}
    {number timestamp baseFee : U64} {prepared : PreparedTx} {result : ExecutionResult}
    (hex : executeRaw P db spec raw number timestamp baseFee = (db', .ok (prepared, result))) :
    result.gasUsed.toNat ≤ Gas.blockGasLimit.toNat := by
  obtain ⟨-, htx⟩ := executeRaw_ok_iff.mp hex
  obtain ⟨state, hout, -⟩ := transactRaw_ok htx
  exact (hgas.used hout).trans (hgas.asked hout)

theorem Metered.sealRawWithFee (h : node.Metered) (raw : Bytes)
    (number timestamp baseFee : U64) (io : SealIo) :
    (node.sealRawWithFee P raw number timestamp baseFee io).1.Metered := by
  rcases hex : executeRaw P node.db node.spec raw number timestamp baseFee with
    ⟨db, e | ⟨prepared, result⟩⟩
  · rw [sealRawWithFee_of_error hex]
    exact h
  · rw [sealRawWithFee_of_ok hex]
    obtain ⟨rebuild, save⟩ := io
    cases rebuild with
    | some fault => exact h
    | none =>
      cases save with
      | some msg => exact h
      | none =>
        intro hash receipt hlookup
        simp only [persist, KanariNode.afterSeal, Map.lookup_insert_ite] at hlookup
        split_ifs at hlookup
        · rw [← Option.some.inj hlookup]
          have hshown : (node.sealedReceipt P raw prepared result number timestamp).gasUsed =
              result.gasUsed := by
            simp only [sealedReceipt]
            cases result <;> rfl
          rw [hshown]
          exact gasUsed_le_of_executeRaw hgas hex
        · exact h hash receipt hlookup

theorem Metered.perform (h : node.Metered) (op : Op) : (node.perform P op).Metered := by
  cases op with
  | read request =>
    rw [KanariNode.perform, serve_eq]
    exact h
  | attempt step io =>
    cases hnumber : node.sealNumber step with
    | none =>
      rcases node.sealStep_of_none P hnumber io with ⟨sender, hash, hs⟩ | ⟨e, hs⟩
      · rw [KanariNode.perform, hs]
        exact h
      · rw [KanariNode.perform, hs]
        exact h
    | some number =>
      rw [KanariNode.perform, node.sealStep_of_number P hnumber]
      exact h.sealRawWithFee hgas _ _ _ _ _

theorem metered_open {dir : DataDir} (hopen : («open» P spec dir).2 = .ok node) :
    node.Metered := by
  obtain ⟨alloc, origin, secret, records, replayed, faucet, hreplay, rfl⟩ := open_ok_genesis hopen
  have hstart : ({ (blank { spec with genesisAlloc := alloc } origin).genesis P with
      faucetKey := secret } : KanariNode).Metered := Metered.of_empty rfl
  have hreplayed := replayBlocks_induction (p := Metered)
    (fun n raw number timestamp baseFee hn => hn.sealRawWithFee hgas raw number timestamp baseFee
      .healthy) hstart records
  rw [hreplay] at hreplayed
  exact hreplayed

end Gas

/-- The fee `i` blocks after the genesis fee, by the widest steps the rule allows. -/
abbrev FeeCorridor (spec : KanariChainSpec) (i fee : ℕ) : Prop :=
  FeeStep.Corridor 8 spec.baseFeeWei.toNat i fee

/-- No run of `i` blocks can take the fee beyond 64 bits. -/
abbrev FeeRoom (spec : KanariChainSpec) (i : ℕ) : Prop :=
  FeeStep.Room 8 spec.baseFeeWei.toNat (2 ^ 64) i

def InCorridor (spec : KanariChainSpec) (blocks : List SealedBlock) : Prop :=
  ∀ i (hi : i < blocks.length), FeeRoom spec i → FeeCorridor spec i blocks[i].baseFee.toNat

theorem InCorridor.nil : InCorridor spec [] := fun i hi => absurd hi (Nat.not_lt_zero i)

theorem InCorridor.concat {blocks : List SealedBlock} (h : InCorridor spec blocks)
    {block : SealedBlock}
    (hb : FeeRoom spec blocks.length → FeeCorridor spec blocks.length block.baseFee.toNat) :
    InCorridor spec (blocks ++ [block]) := by
  intro i hi hroom
  rw [List.length_append, List.length_singleton] at hi
  by_cases hlt : i < blocks.length
  · rw [List.getElem_append_left hlt]
    exact h i hlt hroom
  · obtain rfl : i = blocks.length := by omega
    simpa using hb hroom

section Quote

variable (hrec : node.Recorded spec) (hmet : node.Metered) (h : InCorridor spec node.blocks)

include hrec hmet h

/-- The fee quoted on top of a chain in the corridor is the next one in it. -/
theorem pendingBaseFee_corridor (hroom : FeeRoom spec node.blocks.length) :
    FeeCorridor spec node.blocks.length (node.pendingBaseFee P).toNat := by
  by_cases hempty : node.blocks = []
  · have hfee : node.pendingBaseFee P = spec.baseFeeWei := by
      simp only [pendingBaseFee, hempty, List.getLast?_nil, hrec.sameSpec]
    rw [hempty, hfee]
    exact FeeStep.Corridor.zero 8 _
  · have hpos : 0 < node.blocks.length := List.length_pos_iff.mpr hempty
    obtain ⟨n, hn⟩ : ∃ n, node.blocks.length = n + 1 := ⟨node.blocks.length - 1, by omega⟩
    have hlast : n < node.blocks.length := by omega
    have hhead : node.blocks.getLast? = some node.blocks[n] := by
      rw [List.getLast?_eq_getElem?, hn, Nat.add_sub_cancel, List.getElem?_eq_getElem hlast]
    rw [hn] at hroom ⊢
    rw [pendingBaseFee_of_head hhead, Gas.exactNextFee]
    -- the quote is one step from the fee of the last block, at most twice the target away
    have hparent : FeeCorridor spec n node.blocks[n].baseFee.toNat := h n hlast hroom.of_succ
    have hused := hmet.blockGasUsed_le (P := P) hrec.single node.blocks[n].number
    exact (hparent.next (by decide) hused).floor (by decide)

theorem sealFee_toNat (hroom : FeeRoom spec node.blocks.length) :
    (node.sealFee P).toNat = (node.pendingBaseFee P).toNat := by
  have hlt := (pendingBaseFee_corridor (P := P) hrec hmet h hroom).lt hroom
  rw [sealFee, BitVec.toNat_setWidth]
  exact Nat.mod_eq_of_lt hlt

end Quote

theorem InCorridor.perform (hR : P.toRevm.CacheLaws) (hrec : node.Recorded spec)
    (hmet : node.Metered) (h : InCorridor spec node.blocks) (op : Op) :
    InCorridor spec (node.perform P op).blocks := by
  rcases perform_cases hR node op with
    hsame | ⟨step, io, x, tree, -, -, -, hp⟩ | ⟨step, x, -, -, hp⟩
  · rw [hsame.blocks]
    exact h
  · rw [hp]
    exact h
  · rw [hp]
    apply h.concat
    intro hroom
    have hfee : (node.blockOf P step x).baseFee = node.sealFee P := rfl
    change FeeCorridor spec _ (node.blockOf P step x).baseFee.toNat
    rw [hfee, sealFee_toNat hrec hmet h hroom]
    exact pendingBaseFee_corridor hrec hmet h hroom

/-- What the fees of a chain and the next quote keep to, as long as there is room. -/
structure KeepsFees (P : Platform) (spec : KanariChainSpec) (node : KanariNode) : Prop where
  sealed : InCorridor spec node.blocks
  charged : 0 < spec.baseFeeWei.toNat → ∀ i (hi : i < node.blocks.length), FeeRoom spec i →
    Gas.minBaseFeeWei.toNat ≤ node.blocks[i].baseFee.toNat
  quoted : FeeRoom spec node.blocks.length →
    FeeCorridor spec node.blocks.length (node.pendingBaseFee P).toNat
  applied : FeeRoom spec node.blocks.length →
    (node.sealFee P).setWidth 128 = node.pendingBaseFee P

/-- As long as the genesis fee (or eight wei) times (9/8)^i has 64 bits, through seals, rejections,
faults and restarts the fee of block `i + 1` is at most that and at least the genesis fee times
(7/8)^i, no quote is cut, and no block is sealed for free unless the first one may be. -/
theorem life_keeps_fees {ρ : Type} [DecidableEq ρ] (hR : P.toRevm.CacheLaws)
    (hgas : P.toRevm.KeepsGasLimits) {first v : ValidatorNode}
    (hfirst : first = ⟨created P spec, 0, []⟩ ∨ first = ValidatorNode.spawn (created P spec))
    {events : List (Event ρ)} (hrun : Session.run P spec first events = some v) :
    v.node.KeepsFees P spec := by
  have hstart : first.node.Coherent P spec ∧ first.node.Metered ∧
      InCorridor spec first.node.blocks := by
    rcases hfirst with rfl | rfl
    · exact ⟨Coherent.created P spec, Metered.of_empty rfl, InCorridor.nil⟩
    · exact ⟨(Coherent.created P spec).spawned, Metered.of_empty rfl, InCorridor.nil⟩
  -- replay writes the receipts anew, so the gas they show is bounded again, not restored
  obtain ⟨hcoherent, hmet, hsealed⟩ := Session.run_induction
    (p := fun n => n.Coherent P spec ∧ n.Metered ∧ InCorridor spec n.blocks)
    (fun n op hn => ⟨hn.1.perform hR op, hn.2.1.perform hgas op,
      hn.2.2.perform hR hn.1.recorded hn.2.1 op⟩)
    (fun n hn => ⟨hn.1.spawned, hn.2⟩)
    (fun n tree n' hn hopen => by
      obtain ⟨hblocks, hreopened⟩ := hn.1.reopened hopen
      exact ⟨hreopened, metered_open hgas hopen, hblocks ▸ hn.2.2⟩)
    hstart hrun
  constructor
  · exact hsealed
  · intro hpos i hi hroom
    exact (hsealed i hi hroom).pos (by decide) hpos
  · exact pendingBaseFee_corridor hcoherent.recorded hmet hsealed
  · intro hroom
    rw [sealFee_eq_iff, feeFits_iff]
    exact (pendingBaseFee_corridor hcoherent.recorded hmet hsealed hroom).lt hroom

end KanariNode

namespace Reference

def limited : Platform :=
  { platform with
    outcome := fun db params tx =>
      if tx.gasLimit.toNat ≤ params.gasLimit.toNat then platform.outcome db params tx
      else .error "caller gas limit exceeds the block gas limit" }

theorem limited_cacheLaws : limited.toRevm.CacheLaws := CacheDb.cacheLaws rfl rfl rfl rfl rfl

theorem limited_ok {db : InMemoryDB} {params : KanariEvmParams} {tx : TxEnv}
    {result : ExecutionResult} {state : EvmState}
    (h : limited.outcome db params tx = .ok (result, state)) :
    tx.gasLimit.toNat ≤ params.gasLimit.toNat ∧
      platform.outcome db params tx = .ok (result, state) := by
  simp only [limited] at h
  split_ifs at h with hle
  exact ⟨hle, h⟩

theorem limited_keepsGasLimits : limited.toRevm.KeepsGasLimits where
  used := by
    intro db params tx result state h
    obtain ⟨dest, haccepts, rfl, -⟩ := Transfer.outcome_ok (limited_ok h).2
    exact haccepts.2.2.2.1.1
  asked := fun h => (limited_ok h).1

end Reference

namespace KanariNode

/-- The two transfers of the development chain, with a restart between; two hundred blocks have
room. -/
theorem life_keeps_fees_redelivered :
    ∃ v, Session.run Reference.limited Reference.spec
        (ValidatorNode.spawn (created Reference.limited Reference.spec)) redelivered = some v ∧
      v.node.blocks.length = 2 ∧ FeeRoom Reference.spec 200 ∧
      v.node.KeepsFees Reference.limited Reference.spec := by
  have hlen : (Session.run Reference.limited Reference.spec
      (ValidatorNode.spawn (created Reference.limited Reference.spec)) redelivered).map
        (fun v => v.node.blocks.length) = some 2 := by decide +kernel
  obtain ⟨v, hrun, hv⟩ := Option.map_eq_some_iff.mp hlen
  exact ⟨v, hrun, hv, by decide +kernel, life_keeps_fees Reference.limited_cacheLaws
    Reference.limited_keepsGasLimits (.inr rfl) hrun⟩

end KanariNode

end KanariEvm
