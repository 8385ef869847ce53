import KanariEvm.Fork
import KanariEvm.Reference

namespace KanariEvm

/-- The text of a quantity: `0x` and the digits of its value, padded or not. -/
def IsQuantity (v : U256) (text : List Char) : Prop :=
  ∃ digits, text = '0' :: 'x' :: digits ∧ digits ≠ [] ∧
    hexDigitsValue 0 (utf8 digits) = some v.toNat

def IsHex (bytes : Bytes) (text : List Char) : Prop :=
  ∃ digits, text = '0' :: 'x' :: digits ∧ hexPairs (utf8 digits) = some bytes

theorem isQuantity_quantity (v : U256) : IsQuantity v (quantity v) :=
  ⟨Nat.toDigits 16 v.toNat, rfl, Nat.toDigits_ne_nil, hexDigitsValue_toDigits v.toNat⟩

theorem isHex_hexPrefixed (bytes : Bytes) : IsHex bytes (hexPrefixed bytes) := by
  refine ⟨hexEncode bytes, rfl, ?_⟩
  induction bytes with
  | nil => rfl
  | cons b rest ih =>
    have hlt := b.isLt
    have hhiv := (hexValue_hexDigit (b.toNat / 16) (by omega)).2
    have hlov := (hexValue_hexDigit (b.toNat % 16) (by omega)).2
    have hback : BitVec.ofNat 8 (16 * (b.toNat / 16) + b.toNat % 16) = b := by
      rw [Nat.div_add_mod, BitVec.ofNat_toNat, BitVec.setWidth_eq]
    rw [utf8_hexEncode_cons, hexPairs, hhiv, hlov, ih]
    simp only [Option.bind_eq_bind, Option.bind_some, hback]
    rfl

theorem parseHexU256_of_isQuantity {v : U256} {text : List Char} (h : IsQuantity v text) :
    parseHexU256 (.str text) = .ok v := by
  obtain ⟨digits, rfl, -, hvalue⟩ := h
  simp only [parseHexU256, parseHex, Json.asStr, trimStart0x_prefixed hvalue,
    uintFromStrRadix16_of_value hvalue]

theorem bytesFromStr_of_isHex {bytes : Bytes} {text : List Char} (h : IsHex bytes text) :
    bytesFromStr text = some bytes := by
  obtain ⟨digits, rfl, hpairs⟩ := h
  exact hpairs

/-- What the state after a block says of accounts and slots. -/
structure RemoteState where
  balance : Address → U256
  code : Address → Bytes
  storage : Address → U256 → U256

/-- The chain behind an endpoint. Its head may move between any two requests of the client, and
never moves back; which block a number names does not depend on when it is asked for. -/
structure RemoteChain where
  state : ℕ → RemoteState
  head : ℕ → ℕ
  grows : Monotone head
  number : List Char → Option ℕ

/-- The block that a tag names at the moment of the request number `k`, if there is one. -/
def RemoteChain.named (chain : RemoteChain) (k : ℕ) (tag : List Char) : Option ℕ :=
  if tag = latestTag then some (chain.head k)
  else (chain.number tag).filter (· ≤ chain.head k)

inductive StateQuery
  | balance (addr : Address)
  | code (addr : Address)
  | storage (slot : SlotRef)

namespace StateQuery

def method : StateQuery → String
  | .balance _ => "eth_getBalance"
  | .code _ => "eth_getCode"
  | .storage _ => "eth_getStorageAt"

def params (P : Platform) (tag : List Char) : StateQuery → List Json
  | .balance addr => [.address P addr, .str tag]
  | .code addr => [.address P addr, .str tag]
  | .storage slot => [.address P slot.address, .quantity slot.slot, .str tag]

def Shows (state : RemoteState) (text : List Char) : StateQuery → Prop
  | .balance addr => IsQuantity (state.balance addr) text
  | .code addr => IsHex (state.code addr) text
  | .storage slot => IsQuantity (state.storage slot.address slot.slot) text

def text (state : RemoteState) : StateQuery → List Char
  | .balance addr => quantity (state.balance addr)
  | .code addr => hexPrefixed (state.code addr)
  | .storage slot => quantity (state.storage slot.address slot.slot)

theorem shows_text (state : RemoteState) (query : StateQuery) :
    query.Shows state (query.text state) := by
  cases query with
  | balance addr => exact isQuantity_quantity _
  | code addr => exact isHex_hexPrefixed _
  | storage slot => exact isQuantity_quantity _

end StateQuery

/-- Whatever text the remote gives for a request, it is the answer in the block that the tag names
at that moment. It may always fail instead. -/
def RemoteChain.Truthful (chain : RemoteChain) (P : Platform) (url : String) (remote : Remote) :
    Prop :=
  ∀ k (query : StateQuery) tag text,
    ask url remote k query.method (query.params P tag) = .ok (.str text) →
    ∃ n, chain.named k tag = some n ∧ query.Shows (chain.state n) text

/-- All that was returned is what this state has. -/
structure ForkedGenesis.GivenBy (forked : ForkedGenesis) (state : RemoteState) : Prop where
  alloc : ∀ e ∈ forked.alloc, e.2 = state.balance e.1
  code : ∀ e ∈ forked.code, e.2 = state.code e.1
  storage : ∀ e ∈ forked.storage, e.2.2 = state.storage e.1 e.2.1

def stateRequests (accounts : List Address) (slots : List SlotRef) : ℕ :=
  2 * accounts.length + slots.length

/-- Whatever chain goes on behind the endpoint, a fork that succeeds is given by one of its
blocks. -/
def SnapshotOfOneBlock (P : Platform) (url : String) (block : List Char) (accounts : List Address)
    (slots : List SlotRef) : Prop :=
  ∀ (chain : RemoteChain) (remote : Remote), chain.Truthful P url remote → ∀ forked,
    fetchForkGenesis P url remote block accounts slots = .ok forked →
    ∃ n ≤ chain.head (stateRequests accounts slots), forked.GivenBy (chain.state n)

theorem eq_str_of_parseHexU256 {v : Json} {n : U256} (h : parseHexU256 v = .ok n) :
    ∃ text, v = .str text := by
  rw [parseHexU256, parseHex] at h
  split at h
  · cases h
  · rename_i s hs
    exact ⟨s, eq_str_of_asStr hs⟩

section Requests

variable {P : Platform} {url : String} {remote : Remote} {block : List Char} {chain : RemoteChain}
  {k : ℕ}

theorem named_le {tag : List Char} {n : ℕ} (h : chain.named k tag = some n) : n ≤ chain.head k := by
  rw [RemoteChain.named] at h
  split_ifs at h with htag
  · cases h
    exact le_rfl
  · simpa using (Option.filter_eq_some_iff.mp h).2

theorem named_unique {j m n : ℕ} (hblock : block ≠ latestTag)
    (h : chain.named k block = some n) (h' : chain.named j block = some m) : m = n := by
  rw [RemoteChain.named, if_neg hblock] at h h'
  have hn := (Option.filter_eq_some_iff.mp h).1
  have hm := (Option.filter_eq_some_iff.mp h').1
  exact Option.some.inj (hm.symm.trans hn)

theorem fetchForkGenesis_ok {accounts : List Address} {slots : List SlotRef}
    {forked : ForkedGenesis} (h : fetchForkGenesis P url remote block accounts slots = .ok forked) :
    fetchAccounts P url remote block 1 accounts = .ok (forked.alloc, forked.code) ∧
      fetchSlots P url remote block (1 + 2 * accounts.length) slots = .ok forked.storage := by
  rw [fetchForkGenesis] at h
  by_cases hblock : (!acceptedBlock block) = true
  · rw [if_pos hblock] at h
    cases h
  · rw [if_neg hblock] at h
    obtain ⟨v, -, h⟩ := bind_eq_ok h
    obtain ⟨chainId, -, h⟩ := bind_eq_ok h
    obtain ⟨⟨alloc, code⟩, haccounts, h⟩ := bind_eq_ok h
    obtain ⟨storage, hslots, h⟩ := bind_eq_ok h
    cases h
    exact ⟨haccounts, hslots⟩

section Truthful

variable (htrue : chain.Truthful P url remote)

include htrue

theorem fetchBalance_ok {addr : Address} {balance : U256}
    (h : fetchBalance P url remote block k addr = .ok balance) :
    ∃ n, chain.named k block = some n ∧ balance = (chain.state n).balance addr := by
  obtain ⟨v, hask, hparse⟩ := bind_eq_ok h
  obtain ⟨text, rfl⟩ := eq_str_of_parseHexU256 hparse
  obtain ⟨n, hnamed, hshows⟩ := htrue k (.balance addr) block text hask
  rw [parseHexU256_of_isQuantity hshows] at hparse
  exact ⟨n, hnamed, (Except.ok.inj hparse).symm⟩

theorem fetchSlot_ok {slot : SlotRef} {value : U256}
    (h : fetchSlot P url remote block k slot = .ok value) :
    ∃ n, chain.named k block = some n ∧ value = (chain.state n).storage slot.address slot.slot := by
  obtain ⟨v, hask, hparse⟩ := bind_eq_ok h
  obtain ⟨text, rfl⟩ := eq_str_of_parseHexU256 hparse
  obtain ⟨n, hnamed, hshows⟩ := htrue k (.storage slot) block text hask
  rw [parseHexU256_of_isQuantity hshows] at hparse
  exact ⟨n, hnamed, (Except.ok.inj hparse).symm⟩

theorem fetchCode_ok {addr : Address} {code : Bytes}
    (h : fetchCode P url remote block k addr = .ok code) :
    ∃ n, chain.named k block = some n ∧ code = (chain.state n).code addr := by
  obtain ⟨v, hask, hparse⟩ := bind_eq_ok h
  split at hparse
  · cases hparse
  · rename_i text htext
    rw [eq_str_of_asStr htext] at hask
    obtain ⟨n, hnamed, hshows⟩ := htrue k (.code addr) block text hask
    rw [bytesFromStr_of_isHex hshows] at hparse
    exact ⟨n, hnamed, (Except.ok.inj hparse).symm⟩

theorem fetchAccounts_ok {accounts : List Address} {alloc : List (Address × U256)}
    {code : List (Address × Bytes)} {n : ℕ}
    (hone : ∀ j, k ≤ j → j < k + 2 * accounts.length → ∀ m, chain.named j block = some m → m = n)
    (h : fetchAccounts P url remote block k accounts = .ok (alloc, code)) :
    (∀ e ∈ alloc, e.2 = (chain.state n).balance e.1) ∧
      ∀ e ∈ code, e.2 = (chain.state n).code e.1 := by
  induction accounts generalizing k alloc code with
  | nil =>
    cases h
    simp
  | cons addr rest ih =>
    rw [List.length_cons] at hone
    obtain ⟨balance, hbalance, h⟩ := bind_eq_ok h
    obtain ⟨bytes, hcode, h⟩ := bind_eq_ok h
    obtain ⟨⟨restAlloc, restCode⟩, hrest, h⟩ := bind_eq_ok h
    cases h
    obtain ⟨m, hm, rfl⟩ := fetchBalance_ok htrue hbalance
    obtain rfl := hone k le_rfl (by omega) m hm
    obtain ⟨m', hm', rfl⟩ := fetchCode_ok htrue hcode
    obtain rfl := hone (k + 1) (by omega) (by omega) m' hm'
    obtain ⟨halloc, hcodes⟩ := ih (fun j hj hj' => hone j (by omega) (by omega)) hrest
    refine ⟨by simpa using halloc, ?_⟩
    split_ifs
    · simpa using hcodes
    · exact hcodes

theorem fetchSlots_ok {slots : List SlotRef} {storage : List (Address × U256 × U256)} {n : ℕ}
    (hone : ∀ j, k ≤ j → j < k + slots.length → ∀ m, chain.named j block = some m → m = n)
    (h : fetchSlots P url remote block k slots = .ok storage) :
    ∀ e ∈ storage, e.2.2 = (chain.state n).storage e.1 e.2.1 := by
  induction slots generalizing k storage with
  | nil =>
    cases h
    simp
  | cons slot rest ih =>
    rw [List.length_cons] at hone
    obtain ⟨value, hvalue, h⟩ := bind_eq_ok h
    obtain ⟨restStorage, hrest, h⟩ := bind_eq_ok h
    cases h
    obtain ⟨m, hm, rfl⟩ := fetchSlot_ok htrue hvalue
    obtain rfl := hone k le_rfl (by omega) m hm
    simpa using ih (fun j hj hj' => hone j (by omega) (by omega)) hrest

theorem givenBy_of_one {accounts : List Address} {slots : List SlotRef} {forked : ForkedGenesis}
    {n : ℕ} (hone : ∀ j, 1 ≤ j → j ≤ stateRequests accounts slots → ∀ m,
      chain.named j block = some m → m = n)
    (h : fetchForkGenesis P url remote block accounts slots = .ok forked) :
    forked.GivenBy (chain.state n) := by
  rw [stateRequests] at hone
  obtain ⟨haccounts, hslots⟩ := fetchForkGenesis_ok h
  obtain ⟨halloc, hcode⟩ :=
    fetchAccounts_ok htrue (fun j hj hj' => hone j hj (by omega)) haccounts
  exact ⟨halloc, hcode, fetchSlots_ok htrue (fun j hj hj' => hone j (by omega) (by omega)) hslots⟩

theorem exists_named {accounts : List Address} {slots : List SlotRef} {forked : ForkedGenesis}
    (hsome : 0 < stateRequests accounts slots)
    (h : fetchForkGenesis P url remote block accounts slots = .ok forked) :
    ∃ n, chain.named 1 block = some n := by
  obtain ⟨haccounts, hslots⟩ := fetchForkGenesis_ok h
  cases accounts with
  | cons addr rest =>
    obtain ⟨balance, hbalance, -⟩ := bind_eq_ok haccounts
    obtain ⟨n, hn, -⟩ := fetchBalance_ok htrue hbalance
    exact ⟨n, hn⟩
  | nil =>
    cases slots with
    | nil => simp [stateRequests] at hsome
    | cons slot rest =>
      obtain ⟨value, hvalue, -⟩ := bind_eq_ok hslots
      obtain ⟨n, hn, -⟩ := fetchSlot_ok htrue hvalue
      exact ⟨n, hn⟩

end Truthful

end Requests

/-- Two states that differ in everything: before the turn, and from it on. -/
def turnedState (n : ℕ) : RemoteState where
  balance _ := if n = 0 then 0 else 1
  code _ := if n = 0 then [0] else [1]
  storage _ _ := if n = 0 then 0 else 1

/-- The head when a request comes in: one block is sealed after the first request for state. -/
def turnedHead (k : ℕ) : ℕ := if k ≤ 1 then 0 else 1

def turningChain : RemoteChain where
  state := turnedState
  head := turnedHead
  grows := by
    intro i j hij
    unfold turnedHead
    split_ifs <;> omega
  number _ := none

/-- The endpoint of that chain. It knows the tag `latest` only, and answers alike for every account
and slot. -/
def turningRemote : Remote := fun k request =>
  let state := turnedState (turnedHead k)
  let answer (text : List Char) : Reply := .body (.obj [("result", .str text)])
  match request.params.getLast? with
  | some (.str tag) =>
    if tag ≠ latestTag then .unreachable "unknown block"
    else if request.method = "eth_getCode" then answer (hexPrefixed (state.code 0))
    else answer (quantity (state.balance 0))
  | _ => answer (quantity (1 : U64))

section Turning

variable {P : Platform} {url : String}

theorem ask_turning (k : ℕ) (query : StateQuery) (tag : List Char) :
    ask url turningRemote k query.method (query.params P tag) =
      if tag = latestTag then .ok (.str (query.text (turnedState (turnedHead k))))
      else .error (.message (url ++ " unreachable: " ++ "unknown block")) := by
  by_cases htag : tag = latestTag
  · subst htag
    rw [if_pos rfl]
    cases query with
    | balance addr => rfl
    | code addr => rfl
    | storage slot => rfl
  · rw [if_neg htag]
    cases query with
    | balance addr => simp [ask, turningRemote, StateQuery.params, htag, rpcCall]
    | code addr => simp [ask, turningRemote, StateQuery.params, htag, rpcCall]
    | storage slot => simp [ask, turningRemote, StateQuery.params, htag, rpcCall]

theorem turningRemote_truthful : turningChain.Truthful P url turningRemote := by
  intro k query tag text h
  rw [ask_turning] at h
  split_ifs at h with htag
  cases h
  refine ⟨turnedHead k, ?_, query.shows_text _⟩
  rw [RemoteChain.named, if_pos htag]
  rfl

theorem ask_latest (k : ℕ) (query : StateQuery) :
    ask url turningRemote k query.method (query.params P latestTag) =
      .ok (.str (query.text (turnedState (turnedHead k)))) := by
  rw [ask_turning, if_pos rfl]

theorem fetchBalance_turning (k : ℕ) (addr : Address) :
    fetchBalance P url turningRemote latestTag k addr =
      .ok ((turnedState (turnedHead k)).balance addr) := by
  have hask : ask url turningRemote k "eth_getBalance" [.address P addr, .str latestTag] =
      .ok (.str (quantity ((turnedState (turnedHead k)).balance addr))) :=
    ask_latest k (.balance addr)
  rw [fetchBalance, hask]
  exact parseHexU256_of_isQuantity (isQuantity_quantity _)

theorem fetchCode_turning (k : ℕ) (addr : Address) :
    fetchCode P url turningRemote latestTag k addr =
      .ok ((turnedState (turnedHead k)).code addr) := by
  have hask : ask url turningRemote k "eth_getCode" [.address P addr, .str latestTag] =
      .ok (.str (hexPrefixed ((turnedState (turnedHead k)).code addr))) :=
    ask_latest k (.code addr)
  have hread : bytesFromStr (hexPrefixed ((turnedState (turnedHead k)).code addr)) = _ :=
    bytesFromStr_of_isHex (isHex_hexPrefixed _)
  rw [fetchCode, hask]
  simp only [bind, Except.bind, Json.asStr, hread]
  rfl

theorem fetchSlot_turning (k : ℕ) (slot : SlotRef) :
    fetchSlot P url turningRemote latestTag k slot =
      .ok ((turnedState (turnedHead k)).storage slot.address slot.slot) := by
  have hask : ask url turningRemote k "eth_getStorageAt"
      [.address P slot.address, .quantity slot.slot, .str latestTag] =
      .ok (.str (quantity ((turnedState (turnedHead k)).storage slot.address slot.slot))) :=
    ask_latest k (.storage slot)
  rw [fetchSlot, hask]
  exact parseHexU256_of_isQuantity (isQuantity_quantity _)

theorem fetchAccounts_turning (k : ℕ) (accounts : List Address) :
    ∃ fetched, fetchAccounts P url turningRemote latestTag k accounts = .ok fetched := by
  induction accounts generalizing k with
  | nil => exact ⟨([], []), rfl⟩
  | cons addr rest ih =>
    obtain ⟨⟨alloc, code⟩, hrest⟩ := ih (k + 2)
    rw [fetchAccounts, fetchBalance_turning, fetchCode_turning, hrest]
    exact ⟨_, rfl⟩

theorem fetchSlots_turning (k : ℕ) (slots : List SlotRef) :
    ∃ storage, fetchSlots P url turningRemote latestTag k slots = .ok storage := by
  induction slots generalizing k with
  | nil => exact ⟨[], rfl⟩
  | cons slot rest ih =>
    obtain ⟨storage, hrest⟩ := ih (k + 1)
    rw [fetchSlots, fetchSlot_turning, hrest]
    exact ⟨_, rfl⟩

theorem fetchForkGenesis_turning (accounts : List Address) (slots : List SlotRef) :
    ∃ forked, fetchForkGenesis P url turningRemote latestTag accounts slots = .ok forked := by
  have haccepted : acceptedBlock latestTag = true := by decide
  have hchain : ask url turningRemote 0 "eth_chainId" [] = .ok (.str (quantity (1 : U64))) := rfl
  have hread : fromStrRadix16 64 (utf8 (trimStart0x (quantity (1 : U64)))) = some 1 := by
    decide +kernel
  have hid : parseHexU64 (.str (quantity (1 : U64))) = .ok 1 := by
    simp only [parseHexU64, parseHex, Json.asStr, hread]
  obtain ⟨⟨alloc, code⟩, haccounts⟩ : ∃ fetched,
    fetchAccounts P url turningRemote latestTag 1 accounts = .ok fetched :=
      fetchAccounts_turning 1 accounts
  obtain ⟨storage, hslots⟩ : ∃ storage, fetchSlots P url turningRemote latestTag
    (1 + 2 * accounts.length) slots = .ok storage :=
      fetchSlots_turning (1 + 2 * accounts.length) slots
  refine ⟨⟨1, alloc, code, storage⟩, ?_⟩
  rw [fetchForkGenesis, if_neg (by rw [haccepted]; decide)]
  simp only [hchain, hid, haccounts, hslots, bind, Except.bind]
  rfl

theorem turned_apart {n : ℕ} (h : (0 : U256) = if n = 0 then 0 else 1)
    (h' : ([1] : Bytes) = (if n = 0 then [0] else [1]) ∨ (1 : U256) = if n = 0 then 0 else 1) :
    False := by
  by_cases hn : n = 0
  · simp [hn] at h'
  · simp [hn] at h

theorem fetchAccounts_turning_cons {addr : Address} {rest : List Address}
    {alloc : List (Address × U256)} {code : List (Address × Bytes)}
    (h : fetchAccounts P url turningRemote latestTag 1 (addr :: rest) = .ok (alloc, code)) :
    (addr, 0) ∈ alloc ∧ (addr, [1]) ∈ code := by
  obtain ⟨⟨restAlloc, restCode⟩, hrest⟩ : ∃ fetched,
    fetchAccounts P url turningRemote latestTag 3 rest = .ok fetched :=
      fetchAccounts_turning 3 rest
  rw [fetchAccounts, fetchBalance_turning, fetchCode_turning, hrest] at h
  obtain ⟨rfl, rfl⟩ := Prod.mk.inj (Except.ok.inj h)
  exact ⟨List.mem_cons_self, List.mem_cons_self⟩

theorem fetchSlots_turning_cons {first second : SlotRef} {rest : List SlotRef}
    {storage : List (Address × U256 × U256)}
    (h : fetchSlots P url turningRemote latestTag 1 (first :: second :: rest) = .ok storage) :
    (first.address, first.slot, 0) ∈ storage ∧ (second.address, second.slot, 1) ∈ storage := by
  obtain ⟨restStorage, hrest⟩ : ∃ storage,
    fetchSlots P url turningRemote latestTag 3 rest = .ok storage := fetchSlots_turning 3 rest
  rw [fetchSlots, fetchSlot_turning, fetchSlots, fetchSlot_turning, hrest] at h
  obtain rfl := Except.ok.inj h
  exact ⟨List.mem_cons_self, List.mem_cons_of_mem _ List.mem_cons_self⟩

theorem turning_tears {accounts : List Address} {slots : List SlotRef}
    (h : 2 ≤ stateRequests accounts slots) :
    ∃ forked, fetchForkGenesis P url turningRemote latestTag accounts slots = .ok forked ∧
      ∀ n, ¬forked.GivenBy (turningChain.state n) := by
  obtain ⟨forked, hforked⟩ : ∃ forked,
    fetchForkGenesis P url turningRemote latestTag accounts slots = .ok forked :=
      fetchForkGenesis_turning accounts slots
  refine ⟨forked, hforked, fun n hgiven => ?_⟩
  obtain ⟨haccounts, hslots⟩ := fetchForkGenesis_ok hforked
  rcases accounts with - | ⟨addr, rest⟩
  · rcases slots with - | ⟨first, - | ⟨second, rest⟩⟩
    · simp [stateRequests] at h
    · simp [stateRequests] at h
    · obtain ⟨hfirst, hsecond⟩ := fetchSlots_turning_cons hslots
      exact turned_apart (hgiven.storage _ hfirst) (.inr (hgiven.storage _ hsecond))
  · obtain ⟨hbalance, hcode⟩ := fetchAccounts_turning_cons haccounts
    exact turned_apart (hgiven.alloc _ hbalance) (.inl (hgiven.code _ hcode))

end Turning

section Snapshot

variable {P : Platform} {url : String} {block : List Char} {accounts : List Address}
  {slots : List SlotRef}

/-- A block given by its number gives the whole fork. -/
theorem snapshot_of_number (hblock : block ≠ latestTag) :
    SnapshotOfOneBlock P url block accounts slots := by
  intro chain remote htrue forked hforked
  by_cases hnone : stateRequests accounts slots = 0
  · exact ⟨chain.head 0, chain.grows (Nat.zero_le _),
      givenBy_of_one htrue (fun j hj hj' => by omega) hforked⟩
  · obtain ⟨n, hn⟩ := exists_named htrue (by omega) hforked
    refine ⟨n, (named_le hn).trans (chain.grows (by omega)), ?_⟩
    exact givenBy_of_one htrue (fun j _ _ m hm => named_unique hblock hn hm) hforked

theorem snapshot_of_one_request (h : stateRequests accounts slots ≤ 1) :
    SnapshotOfOneBlock P url latestTag accounts slots := by
  intro chain remote htrue forked hforked
  refine ⟨chain.head (stateRequests accounts slots), le_rfl, ?_⟩
  refine givenBy_of_one htrue (fun j hj hj' m hm => ?_) hforked
  have hlast : j = stateRequests accounts slots := by omega
  rw [RemoteChain.named, if_pos rfl, hlast] at hm
  exact (Option.some.inj hm).symm

/-- A fork is a snapshot of one block, whatever the remote chain does while it is read, exactly if
the block is given by its number or there is no account and at most one slot to read. -/
theorem fork_snapshot_iff : SnapshotOfOneBlock P url block accounts slots ↔
    block ≠ latestTag ∨ accounts = [] ∧ slots.length ≤ 1 := by
  have hcount : stateRequests accounts slots ≤ 1 ↔ accounts = [] ∧ slots.length ≤ 1 := by
    rw [stateRequests, ← List.length_eq_zero_iff]
    omega
  by_cases hblock : block = latestTag
  · subst hblock
    rw [← hcount]
    constructor
    · intro hsnapshot
      right
      by_contra hmany
      obtain ⟨forked, hforked, htorn⟩ : ∃ forked,
          fetchForkGenesis P url turningRemote latestTag accounts slots = .ok forked ∧
            ∀ n, ¬forked.GivenBy (turningChain.state n) := turning_tears (by omega)
      obtain ⟨n, -, hgiven⟩ :=
        hsnapshot turningChain turningRemote turningRemote_truthful forked hforked
      exact htorn n hgiven
    · rintro (hne | hfew)
      · exact absurd rfl hne
      · exact snapshot_of_one_request hfew
  · exact ⟨fun _ => .inl hblock, fun _ => snapshot_of_number hblock⟩

end Snapshot

/-- The default tag and one account, on a truthful remote: the balance comes from one block and the
code from the next. -/
theorem fork_of_latest_is_torn :
    turningChain.Truthful Reference.platform "http://127.0.0.1:8545" turningRemote ∧
      ∃ forked, fetchForkGenesis Reference.platform "http://127.0.0.1:8545" turningRemote latestTag
          [Reference.funded] [] = .ok forked ∧
        ∀ n, ¬forked.GivenBy (turningChain.state n) :=
  ⟨turningRemote_truthful, turning_tears (by decide)⟩

end KanariEvm
