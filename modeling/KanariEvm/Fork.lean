import KanariEvm.HexTexts
import KanariEvm.Rpc

namespace KanariEvm

structure SlotRef where
  address : Address
  slot : U256
deriving DecidableEq

/-- `from_str_radix(src, 16)` of the fixed-width integers of ruint: underscores are ignored, and no
digits make a zero. -/
def uintFromStrRadix16 (w : ℕ) (src : List Char) : Option (BitVec w) :=
  (hexDigitsValue 0 (utf8 (src.filter (· ≠ '_')))).bind fun n =>
    if n < 2 ^ w then some (BitVec.ofNat w n) else none

theorem uintFromStrRadix16_of_value {w : ℕ} {v : BitVec w} {digits : List Char}
    (h : hexDigitsValue 0 (utf8 digits) = some v.toNat) : uintFromStrRadix16 w digits = some v := by
  rw [uintFromStrRadix16, (filter_digits h).1]
  exact fits_eq_some_iff.mpr h

def hexPairs : Bytes → Option Bytes
  | [] => some []
  | [_] => none
  | hi :: lo :: rest => do
    let h ← hexValue hi
    let l ← hexValue lo
    let bytes ← hexPairs rest
    return BitVec.ofNat 8 (16 * h + l) :: bytes

/-- `FromStr` of the byte strings of alloy: an optional prefix, then pairs of hex digits. -/
def bytesFromStr (s : List Char) : Option Bytes := hexPairs (utf8 (stripHexPrefix s))

/-- Parse `0xaddress:0xslot` (whitespace tolerated). -/
def parseSlot (s : List Char) : Except String SlotRef :=
  if ':' ∉ s then .error ("bad --slot '" ++ String.ofList s ++ "': want 0xaddress:0xslot")
  else
    let addr := s.takeWhile (· ≠ ':')
    let slot := (s.dropWhile (· ≠ ':')).tail
    match fromHexFixed 160 (trim addr) with
    | none => .error ("bad --slot address '" ++ String.ofList addr ++ "'")
    | some address =>
      match uintFromStrRadix16 256 (trimStart0x (trim slot)) with
      | none => .error ("bad --slot slot '" ++ String.ofList slot ++ "'")
      | some slot => .ok ⟨address, slot⟩

structure ForkedGenesis where
  chainId : U64
  alloc : List (Address × U256)
  code : List (Address × Bytes)
  storage : List (Address × U256 × U256)

inductive Reply
  | unreachable (e : String)
  | nonJson (e : String)
  | body (resp : Json)

/-- Why a fork fails. The error that a remote reports is shown after the name of the method. -/
inductive ForkError
  | message (text : String)
  | remoteFailed (method : String) (err : Json)

structure RpcRequest where
  method : String
  params : List Json

/-- A remote endpoint: its reply to the request number `k` of a client. -/
abbrev Remote := ℕ → RpcRequest → Reply

def rpcCall (url : String) (reply : Reply) (method : String) : Except ForkError Json :=
  match reply with
  | .unreachable e => .error (.message (url ++ " unreachable: " ++ e))
  | .nonJson e => .error (.message (url ++ " returned non-JSON: " ++ e))
  | .body resp =>
    match resp.get "error" with
    | some err => .error (.remoteFailed method err)
    | none =>
      match resp.get "result" with
      | some result => .ok result
      | none => .error (.message ("remote " ++ method ++ " returned no result"))

def parseHex {w : ℕ} (read : List Char → Option (BitVec w)) (v : Json) :
    Except ForkError (BitVec w) :=
  match v.asStr with
  | none => .error (.message "want 0x quantity")
  | some s =>
    match read (trimStart0x s) with
    | some n => .ok n
    | none => .error (.message "invalid 0x quantity")

def parseHexU64 : Json → Except ForkError U64 := parseHex fun s => fromStrRadix16 64 (utf8 s)

def parseHexU256 : Json → Except ForkError U256 := parseHex (uintFromStrRadix16 256)

def latestTag : List Char := "latest".toList

section Fetch

variable (P : Platform) (url : String) (remote : Remote) (block : List Char)

def ask (k : ℕ) (method : String) (params : List Json) : Except ForkError Json :=
  rpcCall url (remote k ⟨method, params⟩) method

def fetchBalance (k : ℕ) (addr : Address) : Except ForkError U256 := do
  parseHexU256 (← ask url remote k "eth_getBalance" [.address P addr, .str block])

def fetchCode (k : ℕ) (addr : Address) : Except ForkError Bytes := do
  let v ← ask url remote k "eth_getCode" [.address P addr, .str block]
  match v.asStr with
  | none => throw (.message "eth_getCode must return 0x hex")
  | some s =>
    match bytesFromStr s with
    | none => throw (.message ("bad code hex for " ++ String.ofList (addressString P addr)))
    | some bytes => return bytes

def fetchSlot (k : ℕ) (slot : SlotRef) : Except ForkError U256 := do
  parseHexU256 (← ask url remote k "eth_getStorageAt"
    [.address P slot.address, .quantity slot.slot, .str block])

/-- The loop over the accounts, from the request number `k` on: two requests each. Empty code is
not recorded. -/
def fetchAccounts (k : ℕ) :
    List Address → Except ForkError (List (Address × U256) × List (Address × Bytes))
  | [] => return ([], [])
  | addr :: rest => do
    let balance ← fetchBalance P url remote block k addr
    let bytes ← fetchCode P url remote block (k + 1) addr
    let (alloc, code) ← fetchAccounts (k + 2) rest
    return ((addr, balance) :: alloc, if bytes ≠ [] then (addr, bytes) :: code else code)

def fetchSlots (k : ℕ) : List SlotRef → Except ForkError (List (Address × U256 × U256))
  | [] => return []
  | slot :: rest => do
    let value ← fetchSlot P url remote block k slot
    let storage ← fetchSlots (k + 1) rest
    return (slot.address, slot.slot, value) :: storage

/-- `latest`, or a number after `0x`. -/
def acceptedBlock : Bool :=
  block = latestTag || (block.take 2 = ['0', 'x'] && (parseHexU64 (.str block)).isOk)

/-- Fetch balances, code and storage slots at `block` into genesis shapes. -/
def fetchForkGenesis (accounts : List Address) (slots : List SlotRef) :
    Except ForkError ForkedGenesis := do
  if !acceptedBlock block then
    throw (.message ("bad --block '" ++ String.ofList block ++
      "': want 'latest' or a 0x block number"))
  let chainId ← parseHexU64 (← ask url remote 0 "eth_chainId" [])
  let (alloc, code) ← fetchAccounts P url remote block 1 accounts
  let storage ← fetchSlots P url remote block (1 + 2 * accounts.length) slots
  return ⟨chainId, alloc, code, storage⟩

end Fetch

end KanariEvm
