import KanariEvm.Reopening
import KanariEvm.Rpc

namespace KanariEvm

namespace KanariNode

variable {P : Platform} {node : KanariNode}

/-- The fee history has one reward and one gas ratio for each block and one base fee more, each fee
is the one the view of its block shows, and the last one is the pending fee. -/
def AgreesWithViews (P : Platform) (node : KanariNode) (history : FeeHistory) : Prop :=
  ∃ (oldest : U64) (m : ℕ), history.oldestBlock = .quantity oldest ∧
    history.gasUsedRatio.length = m ∧ history.reward.length = m ∧
    history.baseFeePerGas.length = m + 1 ∧
    (∀ i < m, ∀ fullTxs, ∃ view, node.blockView P (oldest + BitVec.ofNat 64 i) fullTxs = some view ∧
      view.get "baseFeePerGas" = history.baseFeePerGas[i]?) ∧
    history.baseFeePerGas[m]? = some (.quantity ((node.pendingBaseFee P).setWidth 256))

theorem feeHistoryEntry_of_block {n : U64} {block : SealedBlock}
    (h : node.blockByNumber n = some block) (fullTxs : Bool) :
    ∃ view, node.blockView P n fullTxs = some view ∧
      view.get "baseFeePerGas" = some (node.feeHistoryEntry P n).1 := by
  have hview : ¬(n = 0 ∧ (node.blockByNumber 0).isNone) := by
    rintro ⟨rfl, hnone⟩
    rw [h] at hnone
    exact Bool.false_ne_true hnone
  rw [blockView, if_neg hview, h, feeHistoryEntry, h]
  exact ⟨_, rfl, rfl⟩

theorem feeHistoryEntry_zero (h : node.blockByNumber 0 = none) (fullTxs : Bool) :
    node.blockView P 0 fullTxs = some (node.genesisView P) ∧
      (node.feeHistoryEntry P 0).1 = .quantity ((node.pendingBaseFee P).setWidth 256) := by
  rw [blockView, h, feeHistoryEntry, h]
  exact ⟨if_pos ⟨rfl, rfl⟩, rfl⟩

theorem genesisView_fee :
    (node.genesisView P).get "baseFeePerGas" =
      some (.quantity (node.spec.baseFeeWei.setWidth 256)) :=
  rfl

theorem fee_quantity_inj {a b : U128}
    (h : Json.quantity (a.setWidth 256) = Json.quantity (b.setWidth 256)) : a = b := by
  have hwide := quantity_injective (Json.str.inj h)
  have hnat := congrArg BitVec.toNat hwide
  rw [BitVec.toNat_setWidth_of_le (by decide), BitVec.toNat_setWidth_of_le (by decide)] at hnat
  exact BitVec.eq_of_toNat_eq hnat

def covered (node : KanariNode) (count : ℕ) : ℕ := min count (node.blockNumber.toNat + 1)

def oldest (node : KanariNode) (count : ℕ) : ℕ := node.blockNumber.toNat - (count - 1)

theorem feeHistoryCount_pos (arr : List Json) : 0 < feeHistoryCount arr := by
  simp only [feeHistoryCount]
  omega

section Shape

variable {params : Json} {count : ℕ} (hcount : feeHistoryCount (params.asArray.getD []) = count)

include hcount

theorem feeHistory_oldestBlock : (node.feeHistory P params).oldestBlock =
    .quantity (BitVec.ofNat 64 (node.oldest count)) := by
  rw [← hcount]
  rfl

theorem feeHistory_ratios_length :
    (node.feeHistory P params).gasUsedRatio.length = node.covered count := by
  have hpos := feeHistoryCount_pos (params.asArray.getD [])
  simp only [feeHistory, List.length_map, List.length_range', covered, hcount] at hpos ⊢
  omega

theorem feeHistory_reward_length : (node.feeHistory P params).reward.length = count := by
  rw [← hcount]
  exact List.length_replicate

theorem feeHistory_fees_length :
    (node.feeHistory P params).baseFeePerGas.length = node.covered count + 1 := by
  rw [← feeHistory_ratios_length (P := P) hcount]
  simp only [feeHistory, List.length_append, List.length_map, List.length_singleton]

theorem feeHistory_fees_last : (node.feeHistory P params).baseFeePerGas[node.covered count]? =
    some (.quantity ((node.pendingBaseFee P).setWidth 256)) := by
  rw [← feeHistory_ratios_length (P := P) hcount]
  simp only [feeHistory, List.length_map]
  rw [List.getElem?_append_right (by simp)]
  simp

theorem feeHistory_fees_getElem {i : ℕ} (hi : i < node.covered count) :
    (node.feeHistory P params).baseFeePerGas[i]? = some (node.feeHistoryEntry P
      (BitVec.ofNat 64 (node.oldest count) + BitVec.ofNat 64 i)).1 := by
  rw [← feeHistory_ratios_length (P := P) hcount] at hi
  simp only [feeHistory, List.length_map, List.length_range', hcount] at hi ⊢
  rw [List.getElem?_append_left (by simpa using hi), List.getElem?_map, List.getElem?_map,
    List.getElem?_range' hi, Nat.one_mul, Option.map_some, Option.map_some, BitVec.ofNat_add]
  rfl

end Shape

namespace Recorded

variable {spec : KanariChainSpec} (h : node.Recorded spec)

include h

theorem blockByNumber_zero : node.blockByNumber 0 = none := by
  rw [blockByNumber, List.find?_eq_none]
  intro block hmem
  obtain ⟨i, hi, rfl⟩ := List.mem_iff_getElem.mp hmem
  have hnumber := h.numbers i hi
  rw [decide_eq_true_iff]
  intro hzero
  rw [hzero] at hnumber
  exact absurd hnumber (Nat.succ_ne_zero i).symm

theorem blockByNumber_of_le {n : ℕ} (hpos : 0 < n) (hle : n ≤ node.blockNumber.toNat) :
    ∃ block, node.blockByNumber (BitVec.ofNat 64 n) = some block := by
  have hlt : n - 1 < node.blocks.length := by
    rw [h.blockNumber] at hle
    omega
  have hnumber : node.blocks[n - 1].number = BitVec.ofNat 64 n := by
    apply BitVec.eq_of_toNat_eq
    rw [h.numbers (n - 1) hlt, BitVec.toNat_ofNat, Nat.mod_eq_of_lt (by omega)]
    omega
  rw [← hnumber]
  exact ⟨_, h.blockByNumber_of_mem (List.getElem_mem hlt)⟩

variable {params : Json} {count : ℕ} (hcount : feeHistoryCount (params.asArray.getD []) = count)

include hcount

/-- If the genesis block is the first one covered and the views agree, its fee is pending. -/
theorem genesis_fee_of_agrees (hgenesis : count = node.blockNumber.toNat + 1)
    (hagrees : node.AgreesWithViews P (node.feeHistory P params)) :
    node.pendingBaseFee P = node.spec.baseFeeWei := by
  obtain ⟨first, m, hold, hm, -, -, hviews, -⟩ := hagrees
  have hzero : node.oldest count = 0 := by
    rw [oldest]
    omega
  have hcovered : 0 < node.covered count := by
    rw [covered]
    omega
  rw [feeHistory_oldestBlock hcount, hzero] at hold
  obtain rfl := quantity_injective (Json.str.inj hold)
  rw [feeHistory_ratios_length hcount] at hm
  obtain ⟨view, hview, hfee⟩ := hviews 0 (hm ▸ hcovered) false
  obtain ⟨hgenesisView, hentry⟩ := feeHistoryEntry_zero (P := P) h.blockByNumber_zero false
  rw [feeHistory_fees_getElem hcount hcovered, hzero] at hfee
  rw [show BitVec.ofNat 64 0 + BitVec.ofNat 64 0 = 0 from rfl] at hview hfee
  rw [hgenesisView, Option.some.injEq] at hview
  rw [← hview, genesisView_fee, hentry, Option.some.injEq] at hfee
  exact (fee_quantity_inj hfee).symm

theorem fee_of_view (hgenesis : count ≤ node.blockNumber.toNat ∨
      node.pendingBaseFee P = node.spec.baseFeeWei) {i : ℕ} (hi : i < node.covered count)
    (fullTxs : Bool) : ∃ view,
      node.blockView P (BitVec.ofNat 64 (node.oldest count) + BitVec.ofNat 64 i) fullTxs =
        some view ∧
      view.get "baseFeePerGas" = (node.feeHistory P params).baseFeePerGas[i]? := by
  have hpos := feeHistoryCount_pos (params.asArray.getD [])
  rw [hcount] at hpos
  rw [feeHistory_fees_getElem hcount hi, ← BitVec.ofNat_add]
  rw [covered] at hi
  rcases Nat.eq_zero_or_pos (node.oldest count + i) with hzero | hsealed
  · obtain ⟨hview, hentry⟩ := feeHistoryEntry_zero (P := P) h.blockByNumber_zero fullTxs
    rw [hzero]
    refine ⟨_, hview, genesisView_fee.trans (congrArg some ?_)⟩
    rw [oldest] at hzero
    rcases hgenesis with hle | hfee
    · omega
    · rw [← hfee]
      exact hentry.symm
  · have hle : node.oldest count + i ≤ node.blockNumber.toNat := by
      rw [oldest]
      omega
    obtain ⟨block, hblock⟩ := h.blockByNumber_of_le hsealed hle
    exact feeHistoryEntry_of_block hblock fullTxs

end Recorded

section Life

variable {ρ : Type} [DecidableEq ρ] (hR : P.toRevm.CacheLaws)

include hR

/-- In every state of a node's life, `eth_feeHistory` is well shaped and agrees with the block views
if and only if the chain is as long as asked, and the genesis block is not covered or had the fee
that is pending now. -/
theorem feeHistory_agrees_iff {spec : KanariChainSpec} {first v : ValidatorNode}
    (hfirst : first = ⟨created P spec, 0, []⟩ ∨ first = ValidatorNode.spawn (created P spec))
    {events : List (Event ρ)} (hrun : Session.run P spec first events = some v) (params : Json) :
    v.node.AgreesWithViews P (v.node.feeHistory P params) ↔
      feeHistoryCount (params.asArray.getD []) ≤ v.node.blockNumber.toNat + 1 ∧
        (feeHistoryCount (params.asArray.getD []) ≤ v.node.blockNumber.toNat ∨
          v.node.pendingBaseFee P = spec.baseFeeWei) := by
  have hrecorded := (Coherent.life hR hfirst hrun).recorded
  generalize hcount : feeHistoryCount (params.asArray.getD []) = count
  rw [← hrecorded.sameSpec]
  constructor
  · intro hagrees
    obtain ⟨-, m, -, hm, hmr, -⟩ := id hagrees
    rw [feeHistory_ratios_length hcount, covered] at hm
    rw [feeHistory_reward_length hcount] at hmr
    refine ⟨by omega, ?_⟩
    by_cases hle : count ≤ v.node.blockNumber.toNat
    · exact .inl hle
    · exact .inr (hrecorded.genesis_fee_of_agrees hcount (by omega) hagrees)
  · rintro ⟨hlong, hgenesis⟩
    refine ⟨_, v.node.covered count, feeHistory_oldestBlock hcount, feeHistory_ratios_length hcount,
      ?_, feeHistory_fees_length hcount, fun i hi => hrecorded.fee_of_view hcount hgenesis hi,
      feeHistory_fees_last hcount⟩
    rw [feeHistory_reward_length hcount, covered]
    omega

end Life

def twoBlocks : List (Event ℕ) :=
  [.deliver ⟨⟨0, [⟨0, 5, [Reference.transfer0, Reference.transfer1]⟩]⟩, []⟩]

theorem feeHistory_agrees_iff_transfers :
    ∃ v, Session.run Reference.platform Reference.spec
        (ValidatorNode.spawn (created Reference.platform Reference.spec)) twoBlocks = some v ∧
      v.node.blockNumber = 2 ∧
      v.node.AgreesWithViews Reference.platform
        (v.node.feeHistory Reference.platform (.arr [.text "0x2"])) := by
  have htwo : (Session.run Reference.platform Reference.spec
      (ValidatorNode.spawn (created Reference.platform Reference.spec)) twoBlocks).map
        (fun v => decide (v.node.blockNumber = 2)) = some true := by decide +kernel
  obtain ⟨v, hrun, hv⟩ := Option.map_eq_some_iff.mp htwo
  have hhead := of_decide_eq_true hv
  have hcount : feeHistoryCount ((Json.arr [.text "0x2"]).asArray.getD []) = 2 := by
    decide +kernel
  refine ⟨v, hrun, hhead,
    (feeHistory_agrees_iff Reference.cacheLaws (.inr rfl) hrun _).mpr ?_⟩
  rw [hcount, hhead]
  exact ⟨by decide, .inl (by decide)⟩

/-- Asked for four blocks of a chain of three, the genesis block among them, the node answers with
three gas ratios and four rewards, and a fee for the genesis block that its view does not show. -/
theorem feeHistory_of_short_chain_is_misshapen :
    ∃ v, Session.run Reference.platform Reference.spec
        (ValidatorNode.spawn (created Reference.platform Reference.spec)) twoBlocks = some v ∧
      (v.node.feeHistory Reference.platform (.arr [.text "0x4"])).gasUsedRatio.length = 3 ∧
      (v.node.feeHistory Reference.platform (.arr [.text "0x4"])).reward.length = 4 ∧
      v.node.pendingBaseFee Reference.platform ≠ v.node.spec.baseFeeWei ∧
      ¬v.node.AgreesWithViews Reference.platform
        (v.node.feeHistory Reference.platform (.arr [.text "0x4"])) := by
  have hshape : (Session.run Reference.platform Reference.spec
      (ValidatorNode.spawn (created Reference.platform Reference.spec)) twoBlocks).map
        (fun v => decide (
          (v.node.feeHistory Reference.platform (.arr [.text "0x4"])).gasUsedRatio.length = 3 ∧
          (v.node.feeHistory Reference.platform (.arr [.text "0x4"])).reward.length = 4 ∧
          v.node.pendingBaseFee Reference.platform ≠ v.node.spec.baseFeeWei)) = some true := by
    decide +kernel
  obtain ⟨v, hrun, hv⟩ := Option.map_eq_some_iff.mp hshape
  obtain ⟨hratios, hreward, hfee⟩ := of_decide_eq_true hv
  refine ⟨v, hrun, hratios, hreward, hfee, ?_⟩
  rintro ⟨-, m, -, hm, hmr, -⟩
  omega

end KanariNode

end KanariEvm
