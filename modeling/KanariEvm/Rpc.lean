import KanariEvm.HexDecode
import KanariEvm.Views

namespace KanariEvm

structure RpcError where
  code : Int
  message : String
deriving DecidableEq

def RpcError.invalidParams (message : String) : RpcError := ⟨-32602, message⟩

def Json.asArray : Json → Option (List Json)
  | .arr items => some items
  | _ => none

def Json.asObject : Json → Option (List (String × Json))
  | .obj fields => some fields
  | _ => none

/-- `FromStr` of the fixed-size byte strings of alloy: an optional prefix, then exactly as many hex
digits as the type holds. -/
def fromHexFixed (w : ℕ) (s : List Char) : Option (BitVec w) :=
  let digits := utf8 (stripHexPrefix s)
  if digits.length = w / 4 then (hexDigitsValue 0 digits).map (BitVec.ofNat w) else none

def parseAddress (v : Json) : Except String Address :=
  match v.asStr.bind (fromHexFixed 160) with
  | some a => .ok a
  | none => .error "invalid address (want 0x-hex)"

def parseHash (v : Json) : Except String B256 :=
  match v.asStr.bind (fromHexFixed 256) with
  | some h => .ok h
  | none => .error "invalid hash (want 0x-hex)"

def parseU64 (v : Json) : Except String U64 :=
  match v.asStr with
  | none => .error "want 0x quantity"
  | some s =>
    match fromStrRadix16 64 (utf8 (trimStart0x s)) with
    | some n => .ok n
    | none => .error "invalid 0x quantity"

abbrev LogFilter := List (String × Json)

def logBound (filter : LogFilter) (key : String) (latest : U64) : Except String U64 :=
  match filter.lookup key with
  | none => .ok latest
  | some .null => .ok latest
  | some (.str s) =>
    if s = "latest".toList ∨ s = "pending".toList then .ok latest
    else if s = "earliest".toList then .ok 0
    else parseU64 (.str s)
  | some v => parseU64 v

/-- Resolve a log filter's block range to block numbers. `blockHash`, when present, pins both ends
to that block. -/
def logBlockRange (filter : LogFilter) (latest : U64) (node : KanariNode) :
    Except String (U64 × U64) :=
  let pinned := match filter.lookup "blockHash" with
    | none => none
    | some .null => none
    | some v => some v
  match pinned with
  | some v => do
    let hash ← parseHash v
    match node.blockByHash hash with
    | some block => return (block.number, block.number)
    | none => throw "unknown blockHash"
  | none => do
    let first ← logBound filter "fromBlock" latest
    let last ← logBound filter "toBlock" latest
    return (umin first last, umin (umax last first) latest)

/-- The log filter's addresses: absent (match all), one address, or an array of addresses. -/
def logAddresses (filter : LogFilter) : Except String (Option (List Address)) :=
  match filter.lookup "address" with
  | none => .ok none
  | some .null => .ok none
  | some (.arr addrs) => (addrs.mapM parseAddress).map some
  | some v => (parseAddress v).map fun a => some [a]

/-- One position of the topics: a wildcard, one hash, or an array of hashes (OR). -/
def logTopic : Json → Except String (Option (List B256))
  | .null => .ok none
  | .arr options => (options.mapM parseHash).map some
  | v => (parseHash v).map fun h => some [h]

def logTopics (filter : LogFilter) : Except String (List (Option (List B256))) :=
  match filter.lookup "topics" with
  | none => .ok []
  | some topics =>
    match topics.asArray with
    | none => .error "topics must be an array"
    | some arr => arr.mapM logTopic

/-- Every filter position must be a wildcard or contain the log's topic at that position. Extra log
topics are ignored. -/
def topicsMatch (filter : List (Option (List B256))) (topics : List B256) : Bool :=
  filter.zipIdx.all fun slot =>
    match slot.1 with
    | none => true
    | some options => topics[slot.2]?.any options.contains

def addressMatches (addresses : Option (List Address)) (address : Address) : Bool :=
  addresses.all fun addrs => addrs.contains address

/-- The base fees, gas-use ratios and rewards of `eth_feeHistory`. A ratio is kept as gas used over
the gas limit, before the division into a float. -/
structure FeeHistory where
  oldestBlock : Json
  baseFeePerGas : List Json
  gasUsedRatio : List (U64 × U64)
  reward : List (List Json)

namespace KanariNode

variable (P : Platform) (node : KanariNode)

def getLogs (params : Json) : Except RpcError Json := do
  let arr := params.asArray.getD []
  let filter := (arr.head?.bind Json.asObject).getD []
  let latest := node.blockNumber
  let range ← (logBlockRange filter latest node).mapError .invalidParams
  let addresses ← (logAddresses filter).mapError .invalidParams
  let topics ← (logTopics filter).mapError .invalidParams
  let out := (node.logsInRange P range.1 range.2).filter fun log =>
    addressMatches addresses log.address && topicsMatch topics log.topics
  return .arr (out.map (renderSealedLog P))

/-- The number of blocks `eth_feeHistory` is asked for: 4 unless given, between 1 and 32. -/
def feeHistoryCount (arr : List Json) : ℕ :=
  let asked : U64 := (arr.head?.bind fun v => (parseU64 v).toOption).getD 4
  min (max asked.toNat 1) 32

/-- The number of reward entries for a block: one for each percentile, at least one. -/
def feeHistoryRewards (arr : List Json) : ℕ :=
  ((arr[2]?.bind Json.asArray).map fun a => max a.length 1).getD 1

def feeHistoryEntry (n : U64) : Json × U64 × U64 :=
  match node.blockByNumber n with
  | some block => (.quantity (block.baseFee.setWidth 256), node.blockGasUsed P n, Gas.blockGasLimit)
  | none => (.quantity ((node.pendingBaseFee P).setWidth 256), 0, Gas.blockGasLimit)

def feeHistory (params : Json) : FeeHistory :=
  let arr := params.asArray.getD []
  let count := feeHistoryCount arr
  let latest := node.blockNumber
  let oldest := latest.toNat - (count - 1)
  let entries := (List.range' oldest (latest.toNat + 1 - oldest)).map fun n =>
    node.feeHistoryEntry P (BitVec.ofNat 64 n)
  { oldestBlock := .quantity (BitVec.ofNat 64 oldest)
    baseFeePerGas := entries.map (·.1) ++ [.quantity ((node.pendingBaseFee P).setWidth 256)]
    gasUsedRatio := entries.map (·.2)
    reward := List.replicate count (List.replicate (feeHistoryRewards arr) (.text "0x0")) }

end KanariNode

end KanariEvm
