import KanariEvm.State
import Mathlib.Algebra.Order.BigOperators.Group.Finset

namespace KanariEvm

/-- A read of slot `s` is answered without storing anything: the slot is cached already, or the
account is known to have no other storage. -/
def DbAccount.Holds (acc : DbAccount) (s : U256) : Prop :=
  (acc.storage.lookup s).isSome ∨ acc.accountState = .storageCleared ∨
    acc.accountState = .notExisting

instance (acc : DbAccount) (s : U256) : Decidable (acc.Holds s) := by
  unfold DbAccount.Holds; infer_instance

/-- Reading a slot that is not held stores the zero read from the empty exterior database. -/
def DbAccount.afterRead (acc : DbAccount) (s : U256) : DbAccount :=
  if acc.Holds s then acc else { acc with storage := acc.storage.insert s 0 }

def DbAccount.withInfo (acc : DbAccount) (info : AccountInfo) : DbAccount :=
  { acc with
    info := info
    accountState := if acc.accountState = .notExisting then .none else acc.accountState }

def DbAccount.withSlot (acc : DbAccount) (s v : U256) : DbAccount :=
  { acc with storage := acc.storage.insert s v }

/-- `insert_contract` fills in the hash of listed code and turns a zero hash into the empty one. -/
def AccountInfo.settle (hashSlow : Bytes → B256) (info : AccountInfo) : AccountInfo :=
  let codeHash := match info.code with
    | some code => if code ≠ [] ∧ info.codeHash = keccakEmpty then hashSlow code else info.codeHash
    | none => info.codeHash
  { info with codeHash := if codeHash = 0 then keccakEmpty else codeHash }

def DbAccount.committed (hashSlow : Bytes → B256) (acc : DbAccount) (change : AccountChange) :
    DbAccount :=
  if !change.touched then acc
  else if change.selfdestructed then .newNotExisting
  else
    { info := change.info.settle hashSlow
      accountState :=
        if change.created ∨ acc.accountState = .storageCleared then .storageCleared else .touched
      storage := change.storage ∪ if change.created then ∅ else acc.storage }

/-- The documented behaviour of `CacheDB` over `EmptyDB`, entry by entry. -/
structure Revm.CacheLaws (R : Revm) : Prop where
  basic_answer : ∀ db a, (R.basic db a).1 = (db.entry a).visibleInfo
  basic_entry : ∀ db a b, (R.basic db a).2.entry b = db.entry b
  basic_contracts : ∀ db a, (R.basic db a).2.contracts = db.contracts
  storage_answer : ∀ db a s, (R.storage db a s).1 = ((db.entry a).storage.lookup s).getD 0
  storage_entry : ∀ db a s b,
    (R.storage db a s).2.entry b = if b = a then (db.entry a).afterRead s else db.entry b
  storage_contracts : ∀ db a s, (R.storage db a s).2.contracts = db.contracts
  insertAccountInfo_entry : ∀ db a info b, (R.insertAccountInfo db a info).entry b =
    if b = a then (db.entry a).withInfo (info.settle R.hashSlow) else db.entry b
  insertAccountInfo_contracts : ∀ db₁ db₂ a info, db₁.contracts = db₂.contracts →
    (R.insertAccountInfo db₁ a info).contracts = (R.insertAccountInfo db₂ a info).contracts
  insertAccountStorage_entry : ∀ db a s v b, (R.insertAccountStorage db a s v).entry b =
    if b = a then (db.entry a).withSlot s v else db.entry b
  insertAccountStorage_contracts : ∀ db a s v,
    (R.insertAccountStorage db a s v).contracts = db.contracts
  commit_entry : ∀ db state a, (R.commit db state).entry a =
    match state.lookup a with
    | none => db.entry a
    | some change => (db.entry a).committed R.hashSlow change
  commit_contracts : ∀ db₁ db₂ state, db₁.contracts = db₂.contracts →
    (R.commit db₁ state).contracts = (R.commit db₂ state).contracts

section Reads

variable {P : Platform} (node : KanariNode) (hR : P.toRevm.CacheLaws) (a : Address)

include hR

theorem KanariNode.balanceOf_snd : (node.balanceOf P a).2 = (node.db.logical a).balance := by
  simp only [balanceOf, hR.basic_answer, InMemoryDB.logical]

theorem KanariNode.nonceOf_snd : (node.nonceOf P a).2 = (node.db.logical a).nonce := by
  simp only [nonceOf, hR.basic_answer, InMemoryDB.logical]

theorem KanariNode.codeOf_snd : (node.codeOf P a).2 = (node.db.logical a).code := by
  simp only [codeOf, hR.basic_answer, InMemoryDB.logical, InMemoryDB.codeOfInfo,
    hR.basic_contracts]

theorem KanariNode.storageOf_snd (slot : U256) :
    (node.storageOf P a slot).2 = (node.db.logical a).storage slot := by
  simp only [storageOf, hR.storage_answer, InMemoryDB.logical]

end Reads

namespace InMemoryDB

structure SameCache (db₁ db₂ : InMemoryDB) : Prop where
  entry : ∀ a, db₁.entry a = db₂.entry a
  contracts : db₁.contracts = db₂.contracts

/-- The same answer to every request, whatever zero slots are cached. -/
structure SameAccounts (db₁ db₂ : InMemoryDB) : Prop where
  info : ∀ a, (db₁.entry a).visibleInfo = (db₂.entry a).visibleInfo
  slot : ∀ a s, ((db₁.entry a).storage.lookup s).getD 0 = ((db₂.entry a).storage.lookup s).getD 0
  contracts : db₁.contracts = db₂.contracts

/-- The same balance, nonce, code and storage at every address. -/
def SameLogical (db₁ db₂ : InMemoryDB) : Prop := ∀ a, db₁.logical a = db₂.logical a

variable {db₁ db₂ db₃ : InMemoryDB}

theorem SameCache.refl (db : InMemoryDB) : SameCache db db := ⟨fun _ => rfl, rfl⟩

theorem SameCache.symm (h : SameCache db₁ db₂) : SameCache db₂ db₁ :=
  ⟨fun a => (h.entry a).symm, h.contracts.symm⟩

theorem SameCache.trans (h : SameCache db₁ db₂) (h' : SameCache db₂ db₃) : SameCache db₁ db₃ :=
  ⟨fun a => (h.entry a).trans (h'.entry a), h.contracts.trans h'.contracts⟩

theorem SameAccounts.refl (db : InMemoryDB) : SameAccounts db db :=
  ⟨fun _ => rfl, fun _ _ => rfl, rfl⟩

theorem SameAccounts.symm (h : SameAccounts db₁ db₂) : SameAccounts db₂ db₁ :=
  ⟨fun a => (h.info a).symm, fun a s => (h.slot a s).symm, h.contracts.symm⟩

theorem SameAccounts.trans (h : SameAccounts db₁ db₂) (h' : SameAccounts db₂ db₃) :
    SameAccounts db₁ db₃ :=
  ⟨fun a => (h.info a).trans (h'.info a), fun a s => (h.slot a s).trans (h'.slot a s),
    h.contracts.trans h'.contracts⟩

theorem SameCache.sameAccounts (h : SameCache db₁ db₂) : SameAccounts db₁ db₂ :=
  ⟨fun a => by rw [h.entry], fun a s => by rw [h.entry], h.contracts⟩

theorem SameAccounts.sameLogical (h : SameAccounts db₁ db₂) : SameLogical db₁ db₂ := by
  intro a
  ext1
  · simp only [logical, h.info]
  · simp only [logical, h.info]
  · simp only [logical, h.info, codeOfInfo, h.contracts]
  · funext s
    exact h.slot a s

theorem SameCache.sameLogical (h : SameCache db₁ db₂) : SameLogical db₁ db₂ :=
  h.sameAccounts.sameLogical

theorem logical_balance_of_notMem {db : InMemoryDB} {a : Address} (h : a ∉ db.accounts.keys) :
    (db.logical a).balance = 0 := by
  have hl : db.accounts.lookup a = none := by
    rwa [Finmap.lookup_eq_none, ← Finmap.mem_keys]
  simp [logical, entry, hl, DbAccount.newNotExisting, DbAccount.visibleInfo]

theorem totalBalance_eq_sum {db : InMemoryDB} {s : Finset Address} (h : db.accounts.keys ⊆ s) :
    db.totalBalance = ∑ a ∈ s, (db.logical a).balance.toNat := by
  apply Finset.sum_subset h
  intro a _ ha
  rw [logical_balance_of_notMem ha]
  rfl

theorem balance_le_totalBalance (db : InMemoryDB) (a : Address) :
    (db.logical a).balance.toNat ≤ db.totalBalance := by
  by_cases ha : a ∈ db.accounts.keys
  · exact Finset.single_le_sum (f := fun b => (db.logical b).balance.toNat)
      (fun _ _ => Nat.zero_le _) ha
  · rw [logical_balance_of_notMem ha]
    exact Nat.zero_le _

theorem totalBalance_add_sum (t : Finset Address)
    (h : ∀ a ∉ t, (db₁.logical a).balance = (db₂.logical a).balance) :
    db₁.totalBalance + ∑ a ∈ t, (db₂.logical a).balance.toNat =
      db₂.totalBalance + ∑ a ∈ t, (db₁.logical a).balance.toNat := by
  have h₁ : db₁.accounts.keys ⊆ db₁.accounts.keys ∪ db₂.accounts.keys ∪ t :=
    fun a ha => Finset.mem_union_left _ (Finset.mem_union_left _ ha)
  have h₂ : db₂.accounts.keys ⊆ db₁.accounts.keys ∪ db₂.accounts.keys ∪ t :=
    fun a ha => Finset.mem_union_left _ (Finset.mem_union_right _ ha)
  have ht : t ⊆ db₁.accounts.keys ∪ db₂.accounts.keys ∪ t := Finset.subset_union_right
  rw [totalBalance_eq_sum h₁, totalBalance_eq_sum h₂, ← Finset.sum_sdiff ht,
    ← Finset.sum_sdiff ht]
  have hout : ∑ a ∈ (db₁.accounts.keys ∪ db₂.accounts.keys ∪ t) \ t,
        (db₁.logical a).balance.toNat =
      ∑ a ∈ (db₁.accounts.keys ∪ db₂.accounts.keys ∪ t) \ t,
        (db₂.logical a).balance.toNat := by
    apply Finset.sum_congr rfl
    intro a ha
    rw [h a (Finset.mem_sdiff.mp ha).2]
  omega

theorem SameLogical.totalBalance (h : SameLogical db₁ db₂) :
    db₁.totalBalance = db₂.totalBalance := by
  have h₁ : db₁.accounts.keys ⊆ db₁.accounts.keys ∪ db₂.accounts.keys := Finset.subset_union_left
  have h₂ : db₂.accounts.keys ⊆ db₁.accounts.keys ∪ db₂.accounts.keys := Finset.subset_union_right
  rw [totalBalance_eq_sum h₁, totalBalance_eq_sum h₂]
  exact Finset.sum_congr rfl fun a _ => by rw [h a]

end InMemoryDB

/-- Execution is a function of the logical state, the block environment and the transaction,
traced or not. -/
structure Revm.Deterministic (R : Revm) : Prop where
  outcome : ∀ {db₁ db₂} params tx, db₁.SameLogical db₂ →
    R.outcome db₁ params tx = R.outcome db₂ params tx
  reads : ∀ {db₁ db₂} params tx, db₁.SameLogical db₂ →
    R.reads db₁ params tx = R.reads db₂ params tx
  inspect : ∀ {db₁ db₂} params tx, db₁.SameLogical db₂ →
    R.inspect db₁ params tx = R.inspect db₂ params tx

/-- A rejected transaction was refused from the accounts alone: it read no storage slot. -/
def Revm.RejectsQuietly (R : Revm) : Prop :=
  ∀ db params tx e, R.outcome db params tx = .error e →
    ∀ r ∈ R.reads db params tx, ∃ a, r = .basic a

def Revm.after (R : Revm) (db : InMemoryDB) (params : KanariEvmParams) (tx : TxEnv)
    (state : EvmState) : InMemoryDB :=
  R.commit (R.readAll db (R.reads db params tx)) state

/-- The EIP-1559 burn: an executed transaction destroys gas used times base fee. -/
def Revm.BurnsBaseFee (R : Revm) : Prop :=
  ∀ db params tx result state, R.outcome db params tx = .ok (result, state) →
    (R.after db params tx state).totalBalance +
      result.gasUsed.toNat * params.basefee.toNat = db.totalBalance

def Revm.SpendsGas (R : Revm) : Prop :=
  ∀ db params tx result state, R.outcome db params tx = .ok (result, state) →
    0 < result.gasUsed.toNat

/-- An account that can send transactions and has done so: it has no code, or an EIP-7702
delegation under its hash. -/
def AccountInfo.External (info : AccountInfo) : Prop :=
  0 < info.nonce.toNat ∧ ((info.codeHash = keccakEmpty ∧ info.code.getD [] = []) ∨
    (info.codeHash ≠ keccakEmpty ∧ info.codeHash ≠ 0 ∧
      (info.code.getD []).take 3 = [0xef, 0x01, 0x00]))

def InMemoryDB.External (db : InMemoryDB) (a : Address) : Prop :=
  ∃ info, (db.entry a).visibleInfo = some info ∧ info.External

/-- Replay protection: a transaction executes at the nonce of its sender only, raises it, and no
execution lowers the nonce of an account that has sent transactions. -/
structure Revm.NonceLaws (R : Revm) : Prop where
  checked : ∀ {db params tx result state}, R.outcome db params tx = .ok (result, state) →
    (db.logical tx.caller).nonce = tx.nonce
  raised : ∀ {db params tx result state}, R.outcome db params tx = .ok (result, state) →
    (db.logical tx.caller).nonce.toNat <
      ((R.after db params tx state).logical tx.caller).nonce.toNat
  sender : ∀ {db params tx result state}, R.outcome db params tx = .ok (result, state) →
    (R.after db params tx state).External tx.caller
  kept : ∀ {db params tx result state} a, R.outcome db params tx = .ok (result, state) →
    db.External a → (R.after db params tx state).External a ∧
      (db.logical a).nonce.toNat ≤ ((R.after db params tx state).logical a).nonce.toNat

/-- Nonces count executions: a transaction executes at the nonce of its sender only and raises it,
and no execution lowers a nonce. -/
structure Revm.CountsNonces (R : Revm) : Prop where
  checked : ∀ {db params tx result state}, R.outcome db params tx = .ok (result, state) →
    (db.logical tx.caller).nonce = tx.nonce
  raised : ∀ {db params tx result state}, R.outcome db params tx = .ok (result, state) →
    (db.logical tx.caller).nonce.toNat <
      ((R.after db params tx state).logical tx.caller).nonce.toNat
  kept : ∀ {db params tx result state} a, R.outcome db params tx = .ok (result, state) →
    (db.logical a).nonce.toNat ≤ ((R.after db params tx state).logical a).nonce.toNat

def AccountInfo.Coded (info : AccountInfo) : Prop :=
  info.codeHash ≠ keccakEmpty → info.code.getD [] ≠ []

/-- An execution leaves no account with a code hash and no code: it takes accounts from the
database with their code, and hashes the code it deploys. -/
def Revm.KeepsCode (R : Revm) : Prop :=
  ∀ db params tx result state, R.outcome db params tx = .ok (result, state) →
    (∀ a, (db.entry a).info.Coded) →
    ∀ a change, state.lookup a = some change → change.touched = true → change.info.Coded

/-- The tracer watches the execution without changing it, and its output is well-formed JSON. -/
def Revm.TracesFaithfully (R : Revm) : Prop :=
  ∀ db params tx result state, R.outcome db params tx = .ok (result, state) →
    ∃ lines, R.inspect db params tx = .ok (result, .ok lines)

/-- `effective_gas_price`: legacy and EIP-2930 environments pay their gas price, later types at
most the base fee plus their priority fee. -/
def Revm.ChargesEffectivePrice (R : Revm) : Prop :=
  ∀ tx baseFee, R.gasPriceCharged tx baseFee =
    if tx.txType = 0 ∨ tx.txType = 1 then tx.gasPrice
    else match tx.gasPriorityFee with
      | none => tx.gasPrice
      | some priority => umin tx.gasPrice (saturatingAdd baseFee priority)

end KanariEvm
