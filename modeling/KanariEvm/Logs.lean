import KanariEvm.Emission
import KanariEvm.Lib.Listing
import KanariEvm.Reopening
import KanariEvm.Rpc

namespace KanariEvm

/-- What an end of a block range stands for, where `latest` is the head of the chain. -/
inductive BlockTag (latest : U64) : Option Json → U64 → Prop
  | absent : BlockTag latest none latest
  | null : BlockTag latest (some .null) latest
  | latest : BlockTag latest (some (.text "latest")) latest
  | pending : BlockTag latest (some (.text "pending")) latest
  | earliest : BlockTag latest (some (.text "earliest")) 0
  | quantity {v : Json} {n : U64} (h : parseU64 v = .ok n) : BlockTag latest (some v) n

/-- The log is at one of the addresses, if any are given, and has one of the options at every topic
position that is not a wildcard. -/
def Wanted (addresses : Option (List Address)) (topics : List (Option (List B256)))
    (log : SealedLog) : Prop :=
  (∀ addrs, addresses = some addrs → log.address ∈ addrs) ∧
    ∀ (i : ℕ) options, topics[i]? = some (some options) → ∃ t, log.topics[i]? = some t ∧ t ∈ options

theorem parseU64_of_name {name : List Char}
    (h : name ∈ ["latest".toList, "pending".toList, "earliest".toList]) :
    parseU64 (.str name) = .error "invalid 0x quantity" := by
  simp only [List.mem_cons, List.not_mem_nil, or_false] at h
  rcases h with rfl | rfl | rfl <;> decide +kernel

theorem BlockTag.logBound {latest n : U64} {filter : LogFilter} {key : String}
    (h : BlockTag latest (filter.lookup key) n) : logBound filter key latest = .ok n := by
  unfold KanariEvm.logBound
  generalize filter.lookup key = v at h
  cases h with
  | absent => rfl
  | null => rfl
  | latest => rfl
  | pending => rfl
  | earliest => rfl
  | @quantity v _ h =>
    cases v with
    | str s =>
      have hname : s ∉ ["latest".toList, "pending".toList, "earliest".toList] := by
        intro hmem
        rw [parseU64_of_name hmem] at h
        cases h
      simp only [List.mem_cons, List.not_mem_nil, or_false, not_or] at hname
      simp only [hname, or_self, if_false]
      exact h
    | _ => cases h

theorem topicsMatch_iff {filter : List (Option (List B256))} {topics : List B256} :
    topicsMatch filter topics = true ↔ ∀ (i : ℕ) options, filter[i]? = some (some options) →
      ∃ t, topics[i]? = some t ∧ t ∈ options := by
  rw [topicsMatch, List.all_eq_true]
  constructor
  · intro h i options hi
    have hslot := h (some options, i) (List.mem_zipIdx_iff_getElem?.mpr hi)
    obtain ⟨t, ht, hmem⟩ := (Option.any_eq_true _ _).mp hslot
    exact ⟨t, ht, List.contains_iff_mem.mp hmem⟩
  · rintro h ⟨slot, i⟩ hmem
    rw [List.mem_zipIdx_iff_getElem?] at hmem
    cases slot with
    | none => rfl
    | some options =>
      obtain ⟨t, ht, hopt⟩ := h i options hmem
      simp only [ht, Option.any_some, List.contains_iff_mem, hopt]

theorem wanted_iff {addresses : Option (List Address)} {topics : List (Option (List B256))}
    {log : SealedLog} :
    (addressMatches addresses log.address && topicsMatch topics log.topics) = true
      ↔ Wanted addresses topics log := by
  rw [Bool.and_eq_true, topicsMatch_iff, Wanted]
  refine and_congr ?_ Iff.rfl
  cases addresses with
  | none => simp [addressMatches]
  | some addrs => simp [addressMatches]

namespace KanariNode

variable (P : Platform) (node : KanariNode)

def blockLogs (block : SealedBlock) : List SealedLog :=
  block.txs.flatMap fun raw =>
    match node.receipts.lookup (P.keccak256 raw) with
    | none => []
    | some receipt => receiptLogs receipt block.number block.hash (P.keccak256 raw)

def sealedLogs (n : ℕ) : List SealedLog :=
  match node.blocks.find? fun block => block.number.toNat = n with
  | none => []
  | some block => node.blockLogs P block

variable {P node}

theorem blockByNumber_ofNat {n : ℕ} (h : n < 2 ^ 64) :
    node.blockByNumber (BitVec.ofNat 64 n) =
      node.blocks.find? fun block => block.number.toNat = n := by
  rw [blockByNumber]
  congr 1
  funext block
  rw [decide_eq_decide, ← BitVec.toNat_inj, BitVec.toNat_ofNat, Nat.mod_eq_of_lt h]

theorem logsInRange_eq (first last : U64) :
    node.logsInRange P first last =
      (List.range' first.toNat (last.toNat + 1 - first.toNat)).flatMap (node.sealedLogs P) := by
  refine List.flatMap_congr fun n hn => ?_
  rw [List.mem_range'_1] at hn
  have hlt : n < 2 ^ 64 := by omega
  rw [blockByNumber_ofNat hlt]
  rfl

theorem Recorded.le_of_sealedLogs {spec : KanariChainSpec} (h : node.Recorded spec) {n : ℕ}
    {log : SealedLog} (hlog : log ∈ node.sealedLogs P n) : n ≤ node.blockNumber.toNat := by
  unfold sealedLogs at hlog
  cases hfind : node.blocks.find? fun block => block.number.toNat = n with
  | none =>
    rw [hfind] at hlog
    exact absurd hlog List.not_mem_nil
  | some block =>
    have hn : block.number.toNat = n := by simpa using List.find?_some hfind
    obtain ⟨i, hi, rfl⟩ := List.mem_iff_getElem.mp (List.mem_of_find?_eq_some hfind)
    rw [h.blockNumber, ← hn, h.numbers i hi]
    omega

/-- What `eth_getLogs` answers to a well-formed filter without a block hash. -/
theorem getLogs_eq {filter : LogFilter} {rest : List Json} {a b : U64}
    {addresses : Option (List Address)} {topics : List (Option (List B256))}
    (hhash : filter.lookup "blockHash" = none ∨ filter.lookup "blockHash" = some .null)
    (hfrom : BlockTag node.blockNumber (filter.lookup "fromBlock") a)
    (hto : BlockTag node.blockNumber (filter.lookup "toBlock") b)
    (haddresses : logAddresses filter = .ok addresses) (htopics : logTopics filter = .ok topics) :
    node.getLogs P (.arr (.obj filter :: rest)) =
      .ok (.arr (((node.logsInRange P (umin a b) (umin (umax b a) node.blockNumber)).filter
        fun log => addressMatches addresses log.address && topicsMatch topics log.topics).map
          (renderSealedLog P))) := by
  have hrange : logBlockRange filter node.blockNumber node =
      .ok (umin a b, umin (umax b a) node.blockNumber) := by
    rcases hhash with hhash | hhash
    · simp only [logBlockRange, hhash, hfrom.logBound, hto.logBound, bind, Except.bind]
      rfl
    · simp only [logBlockRange, hhash, hfrom.logBound, hto.logBound, bind, Except.bind]
      rfl
  have hfilter : (((Json.arr (.obj filter :: rest)).asArray.getD []).head?.bind
      Json.asObject).getD [] = filter := rfl
  simp only [getLogs, hfilter, hrange, haddresses, htopics, Except.mapError, bind, Except.bind]
  rfl

/-- The answer lists exactly the wanted logs of the blocks from `a` to `b`, in block order and log
order and each once. -/
def ListsExactly (P : Platform) (node : KanariNode) (a b : U64) (wanted : SealedLog → Prop)
    (answer : Except RpcError Json) : Prop :=
  ∃ positions logs, answer = .ok (.arr (logs.map (renderSealedLog P))) ∧
    Listing.Exact (node.sealedLogs P) (fun n => a.toNat ≤ n ∧ n ≤ b.toNat) wanted positions logs

theorem Recorded.logsInRange_exact {spec : KanariChainSpec} (h : node.Recorded spec) (a b : U64)
    (addresses : Option (List Address)) (topics : List (Option (List B256))) :
    ∃ positions, Listing.Exact (node.sealedLogs P)
      (fun n => min a.toNat b.toNat ≤ n ∧ n ≤ max a.toNat b.toNat) (Wanted addresses topics)
      positions ((node.logsInRange P (umin a b) (umin (umax b a) node.blockNumber)).filter
        fun log => addressMatches addresses log.address && topicsMatch topics log.topics) := by
  have hwanted : (fun log : SealedLog =>
      (addressMatches addresses log.address && topicsMatch topics log.topics) = true) =
        Wanted addresses topics := funext fun log => propext wanted_iff
  have hexact := Listing.exact_range (node.sealedLogs P)
    (fun log => addressMatches addresses log.address && topicsMatch topics log.topics)
    (umin a b).toNat ((umin (umax b a) node.blockNumber).toNat + 1 - (umin a b).toNat)
  rw [hwanted] at hexact
  rw [logsInRange_eq, List.filter_flatMap]
  refine ⟨_, hexact.congr fun n log hlog _ => ?_⟩
  have hle := h.le_of_sealedLogs hlog
  rw [umin_toNat, umin_toNat, umax_toNat]
  omega

theorem ListsExactly.eq_nil {a b : U64} {wanted : SealedLog → Prop} {answer : Except RpcError Json}
    (h : node.ListsExactly P a b wanted answer) (hab : b.toNat < a.toNat) :
    answer = .ok (.arr []) := by
  obtain ⟨positions, logs, hanswer, hexact⟩ := h
  have hlogs : logs = [] := hexact.eq_nil_iff.mpr fun n hn => by omega
  rw [hanswer, hlogs, List.map_nil]

section Life

variable {ρ : Type} [DecidableEq ρ] (hR : P.toRevm.CacheLaws)

include hR

end Life

def emitted : List (Event ℕ) := [.deliver ⟨⟨0, [⟨0, 5, [Emission.create0]⟩]⟩, []⟩]

end KanariNode

end KanariEvm
