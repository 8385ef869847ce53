import KanariEvm.ForkSnapshot
import KanariEvm.Supply

namespace KanariEvm

open LastWrite

/-- The accounts and slots that were asked for, in one state. Accounts without code are not listed
as contracts. -/
def RemoteState.genesis (state : RemoteState) (chainId : U64) (accounts : List Address)
    (slots : List SlotRef) : ForkedGenesis where
  chainId := chainId
  alloc := accounts.map fun a => (a, state.balance a)
  code := (accounts.filter fun a => state.code a ≠ []).map fun a => (a, state.code a)
  storage := slots.map fun s => (s.address, s.slot, state.storage s.address s.slot)

section Fetched

variable {P : Platform} {url : String} {remote : Remote} {block : List Char} {chain : RemoteChain}
  {k n : ℕ} (htrue : chain.Truthful P url remote)

include htrue

theorem fetchAccounts_eq {accounts : List Address} {alloc : List (Address × U256)}
    {code : List (Address × Bytes)}
    (hone : ∀ j, k ≤ j → j < k + 2 * accounts.length → ∀ m, chain.named j block = some m → m = n)
    (h : fetchAccounts P url remote block k accounts = .ok (alloc, code)) :
    alloc = ((chain.state n).genesis 0 accounts []).alloc ∧
      code = ((chain.state n).genesis 0 accounts []).code := by
  induction accounts generalizing k alloc code with
  | nil =>
    cases h
    exact ⟨rfl, rfl⟩
  | cons addr rest ih =>
    rw [List.length_cons] at hone
    obtain ⟨balance, hbalance, h⟩ := bind_eq_ok h
    obtain ⟨bytes, hcode, h⟩ := bind_eq_ok h
    obtain ⟨⟨restAlloc, restCode⟩, hrest, h⟩ := bind_eq_ok h
    cases h
    obtain ⟨m, hm, rfl⟩ := fetchBalance_ok htrue hbalance
    obtain rfl := hone k le_rfl (by omega) m hm
    obtain ⟨m', hm', rfl⟩ := fetchCode_ok htrue hcode
    obtain rfl := hone (k + 1) (by omega) (by omega) m' hm'
    obtain ⟨hallocs, hcodes⟩ := ih (fun j hj hj' => hone j (by omega) (by omega)) hrest
    rw [hallocs, hcodes]
    refine ⟨rfl, ?_⟩
    by_cases hempty : (chain.state m').code addr = [] <;>
      simp [RemoteState.genesis, hempty]

theorem fetchSlots_eq {slots : List SlotRef} {storage : List (Address × U256 × U256)}
    (hone : ∀ j, k ≤ j → j < k + slots.length → ∀ m, chain.named j block = some m → m = n)
    (h : fetchSlots P url remote block k slots = .ok storage) :
    storage = ((chain.state n).genesis 0 [] slots).storage := by
  induction slots generalizing k storage with
  | nil =>
    cases h
    rfl
  | cons slot rest ih =>
    rw [List.length_cons] at hone
    obtain ⟨value, hvalue, h⟩ := bind_eq_ok h
    obtain ⟨restStorage, hrest, h⟩ := bind_eq_ok h
    cases h
    obtain ⟨m, hm, rfl⟩ := fetchSlot_ok htrue hvalue
    obtain rfl := hone k le_rfl (by omega) m hm
    rw [ih (fun j hj hj' => hone j (by omega) (by omega)) hrest]
    rfl

/-- A fork at a block that is given by its number is what that block has of the accounts and slots
it asked for. -/
theorem fork_of_number {accounts : List Address} {slots : List SlotRef} {forked : ForkedGenesis}
    (hblock : block ≠ latestTag)
    (h : fetchForkGenesis P url remote block accounts slots = .ok forked) :
    ∃ n ≤ chain.head (stateRequests accounts slots),
      forked = (chain.state n).genesis forked.chainId accounts slots := by
  obtain ⟨n, hle, hone⟩ : ∃ n ≤ chain.head (stateRequests accounts slots),
      ∀ j, 1 ≤ j → j ≤ stateRequests accounts slots → ∀ m, chain.named j block = some m →
        m = n := by
    by_cases hnone : stateRequests accounts slots = 0
    · exact ⟨chain.head 0, chain.grows (Nat.zero_le _), fun j hj hj' => by omega⟩
    · obtain ⟨n, hn⟩ := exists_named htrue (by omega) h
      exact ⟨n, (named_le hn).trans (chain.grows (by omega)),
        fun j _ _ m hm => named_unique hblock hn hm⟩
  refine ⟨n, hle, ?_⟩
  rw [stateRequests] at hone
  obtain ⟨haccounts, hslots⟩ := fetchForkGenesis_ok h
  obtain ⟨halloc, hcode⟩ := fetchAccounts_eq htrue (fun j hj hj' => hone j hj (by omega)) haccounts
  have hstorage := fetchSlots_eq htrue (fun j hj hj' => hone j (by omega) (by omega)) hslots
  obtain ⟨chainId, alloc, code, storage⟩ := forked
  rw [show alloc = _ from halloc, show code = _ from hcode, show storage = _ from hstorage]
  rfl

end Fetched

structure DataDir.Unused (dir : DataDir) : Prop where
  stateFile : dir.stateFile = none
  chain : dir.chain.storedChainId = .ok none

theorem db_of_open_unused {P : Platform} {spec : KanariChainSpec} {dir opened : DataDir}
    {node : KanariNode} (hdir : dir.Unused)
    (hopen : KanariNode.open P spec dir = (opened, .ok node)) :
    node.db = spec.applyGenesis P .empty := by
  simp only [KanariNode.open, hdir.chain, KanariNode.openFresh, hdir.stateFile,
    KanariNode.finishOpen, Prod.mk.injEq] at hopen
  have hpicked := hopen.2
  unfold KanariNode.pickUpFaucetKey at hpicked
  split at hpicked
  · cases hpicked
  · cases hpicked
    rfl
  · cases hpicked
    rfl

/-- A node that imports a fork: allocations of its own before and after the imported ones, and the
imported code and storage. -/
def forkSpec (forked : ForkedGenesis) (before after : List (Address × U256)) : KanariChainSpec :=
  { KanariChainSpec.withAlloc forked.chainId kanariEvmGenesisSpec
      (before ++ forked.alloc ++ after) with
    genesisCode := forked.code
    genesisStorage := forked.storage }

def forkFaucetWei : U256 := (saturatingMul forkFaucetEth weiInEth).setWidth 256

theorem forkStartOptions_spec (dataDir : String) (forked : ForkedGenesis)
    (faucet : Address × B256) :
    (forkStartOptions dataDir true forked faucet).spec true =
      forkSpec forked [(devFundedAccount, devFundedBalance.setWidth 256), (faucet.1, forkFaucetWei)]
        [(faucet.1, forkFaucetWei)] := by
  simp only [StartOptions.spec, StartOptions.baseSpec, forkStartOptions, forkSpec,
    List.append_assoc]
  rfl

/-- What a node with an imported state answers: what was allocated after the import, else the
accounts and slots that were asked for as they are in the state, else what was allocated before. -/
structure KanariNode.ServesFork (P : Platform) (node : KanariNode) (state : RemoteState)
    (accounts : List Address) (slots : List SlotRef) (before after : List (Address × U256)) :
    Prop where
  balance : ∀ a, (node.balanceOf P a).2 = (last (under a) after).getD
    (if a ∈ accounts then state.balance a else (last (under a) before).getD 0)
  nonce : ∀ a, (node.nonceOf P a).2 = 0
  code : ∀ a, (node.codeOf P a).2 = if a ∈ accounts then state.code a else []
  storage : ∀ a slot, (node.storageOf P a slot).2 =
    if ⟨a, slot⟩ ∈ slots then state.storage a slot else 0

namespace forkSpec

variable {P : Platform} (state : RemoteState) (chainId : U64) (accounts : List Address)
  (slots : List SlotRef) (before after : List (Address × U256)) (a : Address)

theorem last_alloc :
    last (under a) (forkSpec (state.genesis chainId accounts slots) before after).genesisAlloc =
      (last (under a) after).or
        ((if a ∈ accounts then some (state.balance a) else none).or (last (under a) before)) := by
  have hlisted : last (under a) (state.genesis chainId accounts slots).alloc =
      if a ∈ accounts then some (state.balance a) else none := by
    have hsame : (fun b => under a (b, state.balance b)) =
        fun b => if b = a then some (state.balance a) else none := by
      funext b
      unfold under
      split_ifs with hb
      · rw [show b = a from hb]
      · rfl
    rw [RemoteState.genesis, last_map, hsame, last_ite]
    simp only [exists_eq_right]
  rw [forkSpec, KanariChainSpec.withAlloc, last_append, last_append, hlisted]

theorem last_slot (slot : U256) :
    last (fun s => under (a, slot) ((s.1, s.2.1), s.2.2))
      (forkSpec (state.genesis chainId accounts slots) before after).genesisStorage =
      if ⟨a, slot⟩ ∈ slots then some (state.storage a slot) else none := by
  have hsame : (fun s : SlotRef => under (a, slot)
      ((s.address, s.slot), state.storage s.address s.slot)) =
      fun s => if s = ⟨a, slot⟩ then some (state.storage a slot) else none := by
    funext s
    unfold under
    by_cases hs : s = ⟨a, slot⟩
    · subst hs
      rw [if_pos rfl, if_pos rfl]
    · rw [if_neg hs, if_neg]
      intro heq
      obtain ⟨rfl, rfl⟩ := Prod.mk.inj heq
      exact hs rfl
  rw [forkSpec, RemoteState.genesis, last_map, hsame, last_ite]
  simp only [exists_eq_right]

theorem mem_code {code : Bytes} :
    (a, code) ∈ (forkSpec (state.genesis chainId accounts slots) before after).genesisCode ↔
      a ∈ accounts ∧ state.code a ≠ [] ∧ code = state.code a := by
  simp only [forkSpec, RemoteState.genesis, List.mem_map, List.mem_filter, Prod.mk.injEq]
  constructor
  · rintro ⟨b, ⟨hin, hne⟩, rfl, rfl⟩
    exact ⟨hin, of_decide_eq_true hne, rfl⟩
  · rintro ⟨hin, hne, rfl⟩
    exact ⟨a, ⟨hin, decide_eq_true hne⟩, rfl, rfl⟩

theorem listedCode (hin : a ∈ accounts) (hne : state.code a ≠ []) :
    (forkSpec (state.genesis chainId accounts slots) before after).listedCode a =
      some (state.code a) := by
  have hmem := (mem_code state chainId accounts slots before after a).mpr ⟨hin, hne, rfl⟩
  have hsome : ((forkSpec (state.genesis chainId accounts slots) before after).genesisCode.find?
      fun c => c.1 = a).isSome := by
    rw [List.find?_isSome]
    exact ⟨_, hmem, decide_eq_true rfl⟩
  obtain ⟨⟨b, code⟩, hfound⟩ := Option.isSome_iff_exists.mp hsome
  have hb : b = a := by simpa using List.find?_some hfound
  subst hb
  obtain ⟨-, -, rfl⟩ := (mem_code state chainId accounts slots before after b).mp
    (List.mem_of_find?_eq_some hfound)
  rw [KanariChainSpec.listedCode, hfound, Option.map_some, Option.filter_some]
  exact if_pos (decide_eq_true hne)

theorem code_eq (hR : P.toRevm.CacheLaws)
    (hhash : ∀ a ∈ accounts, state.code a ≠ [] → P.toRevm.HashesCode (state.code a)) :
    (((forkSpec (state.genesis chainId accounts slots) before after).applyGenesis P
      .empty).logical a).code = if a ∈ accounts then state.code a else [] := by
  set spec := forkSpec (state.genesis chainId accounts slots) before after with hspec
  have hhash' : ∀ entry ∈ spec.genesisCode, entry.2 ≠ [] → P.toRevm.HashesCode entry.2 := by
    rintro ⟨b, code⟩ hmem -
    obtain ⟨hin, hne, rfl⟩ := (mem_code state chainId accounts slots before after b).mp hmem
    exact hhash b hin hne
  by_cases hlisted : a ∈ accounts ∧ state.code a ≠ []
  · obtain ⟨hin, hne⟩ := hlisted
    have halloc : ∃ balance, last (under a) spec.genesisAlloc = some balance := by
      rw [hspec, last_alloc, if_pos hin, Option.some_or]
      cases last (under a) after with
      | some balance => exact ⟨balance, rfl⟩
      | none => exact ⟨_, rfl⟩
    obtain ⟨balance, halloc⟩ := halloc
    -- code of an account that is also allotted comes with its allotment, not from the list of codes
    have hnone : last (spec.writesCode a) spec.genesisCode = none := by
      by_contra hsome
      obtain ⟨code, hcode⟩ := Option.ne_none_iff_exists'.mp hsome
      have := (spec.last_writesCode_some a hcode).2.2
      rw [halloc] at this
      cases this
    rw [spec.applyGenesis_code a hR hhash', hnone, halloc, hspec, if_pos hin, Option.bind_some,
      listedCode state chainId accounts slots before after a hin hne]
    rfl
  · rw [KanariChainSpec.applyGenesis_code_of_unlisted hR hhash']
    · by_cases hin : a ∈ accounts
      · rw [if_pos hin]
        by_contra hne
        exact hlisted ⟨hin, Ne.symm hne⟩
      · rw [if_neg hin]
    · intro code hmem
      obtain ⟨hin, hne, -⟩ := (mem_code state chainId accounts slots before after a).mp hmem
      exact absurd ⟨hin, hne⟩ hlisted

theorem serves (hR : P.toRevm.CacheLaws)
    (hhash : ∀ a ∈ accounts, state.code a ≠ [] → P.toRevm.HashesCode (state.code a))
    {node : KanariNode} (hdb : node.db =
      (forkSpec (state.genesis chainId accounts slots) before after).applyGenesis P .empty) :
    node.ServesFork P state accounts slots before after := by
  refine ⟨fun a => ?_, fun a => ?_, fun a => ?_, fun a slot => ?_⟩
  · rw [node.balanceOf_snd hR, hdb, KanariChainSpec.applyGenesis_balance _ a hR, last_alloc]
    cases last (under a) after with
    | some balance => rfl
    | none => split_ifs <;> rfl
  · rw [node.nonceOf_snd hR, hdb, KanariChainSpec.applyGenesis_nonce _ a hR]
  · rw [node.codeOf_snd hR, hdb, code_eq state chainId accounts slots before after a hR hhash]
  · rw [node.storageOf_snd hR, hdb, KanariChainSpec.applyGenesis_slot _ a hR, last_slot]
    split_ifs <;> rfl

end forkSpec

structure ForkOptions where
  rpcUrl : Option String
  block : List Char
  accounts : List Address
  slots : List (List Char)
  dataDir : String
  faucetKey : Option B256
  logLevel : LogLevel

/-- What the machine decides of a fork: the replies of the endpoint, how an error of the fetch is
shown, the error of setting up logs in a process that has, and what it decides of any start. -/
structure ForkIo extends StartIo where
  remote : Remote
  showError : ForkError → String
  initialized : String

namespace ForkOptions

variable (P : Platform) (W : Wallet) (opts : ForkOptions) (io : ForkIo)

/-- What a fork imports: on fresh state what it fetches, else nothing but the stored chain id. -/
def imported (slots : List SlotRef) (dir : DataDir) : Except Fatal ForkedGenesis :=
  if dir.stateFile.isNone then
    match opts.rpcUrl with
    | none => .error (.message "fresh fork needs --rpc-url (reopen skips fetching)")
    | some url =>
      (fetchForkGenesis P url io.remote opts.block opts.accounts slots).mapError fun e =>
        .message ("fork fetch failed: " ++ io.showError e)
  else
    match dir.chain.storedChainId with
    | .error e => .error (.message ("failed to read store: " ++ e.message))
    | .ok none => .error (.message "chain database missing chain id")
    | .ok (some chainId) => .ok ⟨chainId, [], [], []⟩

def faucetAccount : Except Fatal (Address × B256) :=
  match opts.faucetKey with
  | some secret =>
    match W.address secret with
    | .error _ => .error (.message "invalid --faucet-key secret")
    | .ok addr => .ok (addr, secret)
  | none =>
    match W.address io.generated.2 with
    | .error e => .error (.message ("bad faucet key: " ++ e))
    | .ok addr => .ok (addr, io.generated.2)

end ForkOptions

/-- The `fork` command, `run_fork` and the `run` that it ends in. The logs are set up twice. -/
def runFork (P : Platform) (W : Wallet) (opts : ForkOptions) (io : ForkIo) (dir : DataDir) :
    DataDir × Except Fatal KanariNode :=
  match opts.slots.mapM parseSlot with
  | .error e => (dir, .error (.message e))
  | .ok slots =>
    match io.initLogging opts.logLevel.asStr with
    | some e => (dir, .error (.message e))
    | none =>
      match opts.imported P io slots dir, opts.faucetAccount W io with
      | .error e, _ => (dir, .error e)
      | .ok _, .error e => (dir, .error e)
      | .ok forked, .ok faucet =>
        run P W (forkStartOptions opts.dataDir dir.stateFile.isNone forked faucet)
          { io.toStartIo with
            initLogging := fun _ => some ("logging already initialized: " ++ io.initialized) } dir

/-- The command never gets as far as its chain: it ends with a message, at the latest where it sets
up logs again. -/
theorem runFork_ends (P : Platform) (W : Wallet) (opts : ForkOptions) (io : ForkIo)
    (dir : DataDir) : ∃ e, runFork P W opts io dir = (dir, .error e) := by
  simp only [runFork]
  split
  · exact ⟨_, rfl⟩
  split
  · exact ⟨_, rfl⟩
  split
  · exact ⟨_, rfl⟩
  · exact ⟨_, rfl⟩
  · exact ⟨_, rfl⟩

/-- A node that is opened in an unused directory on the state that was fetched at a block given by
its number serves that block of the remote chain, however its head moves while the state is fetched:
each account and slot that was asked for reads as it is there, except for balances that the node
allocates itself afterwards. -/
theorem forked_node_serves_remote_block {P : Platform} (hR : P.toRevm.CacheLaws) {url : String}
    {remote : Remote} {block : List Char} {chain : RemoteChain}
    (htrue : chain.Truthful P url remote) (hblock : block ≠ latestTag) {accounts : List Address}
    {slots : List SlotRef} {forked : ForkedGenesis}
    (hfetch : fetchForkGenesis P url remote block accounts slots = .ok forked)
    (hhash : ∀ entry ∈ forked.code, P.toRevm.HashesCode entry.2)
    {before after : List (Address × U256)} {dir opened : DataDir} (hdir : dir.Unused)
    {node : KanariNode}
    (hopen : KanariNode.open P (forkSpec forked before after) dir = (opened, .ok node)) :
    ∃ n ≤ chain.head (stateRequests accounts slots),
      node.ServesFork P (chain.state n) accounts slots before after := by
  obtain ⟨n, hle, hforked⟩ := fork_of_number htrue hblock hfetch
  refine ⟨n, hle, ?_⟩
  have hdb := db_of_open_unused hdir hopen
  rw [hforked] at hdb
  refine forkSpec.serves _ _ _ _ _ _ hR ?_ hdb
  intro a hin hne
  refine hhash (a, (chain.state n).code a) ?_
  rw [hforked]
  exact (forkSpec.mem_code _ forked.chainId accounts slots before after a).mpr ⟨hin, hne, rfl⟩

def alikeChain : RemoteChain where
  state _ := ⟨fun _ => 5, fun _ => [0x00], fun _ _ => 7⟩
  head := id
  grows := monotone_id
  number _ := some 0

def alikeRemote : Remote := fun _ request =>
  let answer (text : List Char) : Reply := .body (.obj [("result", .str text)])
  if request.method = "eth_chainId" then answer (quantity (1 : U64))
  else if request.method = "eth_getCode" then answer (hexPrefixed [0x00])
  else if request.method = "eth_getBalance" then answer (quantity (5 : U256))
  else answer (quantity (7 : U256))

theorem alikeRemote_truthful {P : Platform} {url : String} :
    alikeChain.Truthful P url alikeRemote := by
  intro k query tag text h
  have hstate : ∀ n, alikeChain.state n = ⟨fun _ => 5, fun _ => [0x00], fun _ _ => 7⟩ :=
    fun _ => rfl
  have hnamed : ∃ n, alikeChain.named k tag = some n := by
    unfold RemoteChain.named
    split_ifs
    · exact ⟨_, rfl⟩
    · exact ⟨0, by simp [alikeChain]⟩
  obtain ⟨n, hn⟩ := hnamed
  refine ⟨n, hn, ?_⟩
  have htext : text = query.text (alikeChain.state n) := by
    rw [hstate]
    cases query with
    | balance addr => cases h; rfl
    | code addr => cases h; rfl
    | storage slot => cases h; rfl
  rw [htext]
  exact query.shows_text _

/-- One account and one slot of it, at block zero; the node funds another account itself. -/
theorem forked_node_serves_remote_block_zero :
    ∃ forked, fetchForkGenesis mixedPlatform "http://127.0.0.1:8545" alikeRemote "0x0".toList [0xa1]
        [⟨0xa1, 1⟩] = .ok forked ∧
      ∃ node, (KanariNode.open mixedPlatform (forkSpec forked [] [(Reference.funded, 9)])
          .fresh).2 = .ok node ∧
        (node.balanceOf mixedPlatform 0xa1).2 = 5 ∧
        (node.balanceOf mixedPlatform Reference.funded).2 = 9 ∧
        (node.codeOf mixedPlatform 0xa1).2 = [0x00] ∧
        (node.storageOf mixedPlatform 0xa1 1).2 = 7 := by
  have hfetch : fetchForkGenesis mixedPlatform "http://127.0.0.1:8545" alikeRemote "0x0".toList
      [0xa1] [⟨0xa1, 1⟩] = .ok ⟨1, [(0xa1, 5)], [(0xa1, [0x00])], [(0xa1, 1, 7)]⟩ := by rfl
  obtain ⟨node, hnode⟩ : ∃ node, (KanariNode.open mixedPlatform
      (forkSpec ⟨1, [(0xa1, 5)], [(0xa1, [0x00])], [(0xa1, 1, 7)]⟩ [] [(Reference.funded, 9)])
      .fresh).2 = .ok node := ⟨_, rfl⟩
  have hhash : ∀ entry ∈ [((0xa1 : Address), ([0x00] : Bytes))],
      mixedPlatform.toRevm.HashesCode entry.2 := by decide +kernel
  obtain ⟨n, -, hserves⟩ := forked_node_serves_remote_block (Transfer.revm_cacheLaws _)
    alikeRemote_truthful (by decide) hfetch hhash ⟨rfl, by decide⟩ (Prod.ext rfl hnode)
  refine ⟨_, hfetch, node, hnode, ?_, ?_, ?_, ?_⟩
  · rw [hserves.balance]
    rfl
  · rw [hserves.balance]
    rfl
  · rw [hserves.code, if_pos List.mem_cons_self]
    rfl
  · rw [hserves.storage, if_pos List.mem_cons_self]
    rfl

end KanariEvm
