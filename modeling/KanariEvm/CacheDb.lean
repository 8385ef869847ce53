import KanariEvm.RevmLaws
import KanariEvm.CacheRelations

namespace KanariEvm.CacheDb

open InMemoryDB

/-! `CacheDB` over the empty database, written out: the cache of the reference platform. -/

/-- `load_account`: an unknown address is cached as one that does not exist. -/
def load (db : InMemoryDB) (a : Address) : InMemoryDB :=
  { db with accounts := db.accounts.insert a (db.entry a) }

def basic (db : InMemoryDB) (a : Address) : Option AccountInfo × InMemoryDB :=
  ((db.entry a).visibleInfo, load db a)

def storage (db : InMemoryDB) (a : Address) (s : U256) : U256 × InMemoryDB :=
  (((db.entry a).storage.lookup s).getD 0,
    { db with accounts := db.accounts.insert a ((db.entry a).afterRead s) })

/-- The code map after `insert_contract`: code that is known already is kept. -/
def insertContract (contracts : Map B256 Bytes) (info : AccountInfo) : Map B256 Bytes :=
  match info.code with
  | none => contracts
  | some code =>
    if code = [] ∨ (contracts.lookup info.codeHash).isSome then contracts
    else contracts.insert info.codeHash code

def insertAccountInfo (hashSlow : Bytes → B256) (db : InMemoryDB) (a : Address)
    (info : AccountInfo) : InMemoryDB where
  accounts := db.accounts.insert a ((db.entry a).withInfo (info.settle hashSlow))
  contracts := insertContract db.contracts (info.settle hashSlow)

def insertAccountStorage (db : InMemoryDB) (a : Address) (s v : U256) : InMemoryDB :=
  { db with accounts := db.accounts.insert a ((db.entry a).withSlot s v) }

def committedAccounts (hashSlow : Bytes → B256) (db : InMemoryDB) (state : EvmState) :
    Map Address DbAccount where
  entries := state.entries.map fun e => ⟨e.1, (db.entry e.1).committed hashSlow e.2⟩
  nodupKeys := by
    have h := state.nodupKeys
    rw [← Multiset.nodup_keys] at h ⊢
    simpa [Multiset.keys, Multiset.map_map] using h

/-- Commits that bring no new code, which is all the reference interpreter produces. -/
def commit (hashSlow : Bytes → B256) (db : InMemoryDB) (state : EvmState) : InMemoryDB :=
  { db with accounts := committedAccounts hashSlow db state ∪ db.accounts }

theorem entry_insert (db : InMemoryDB) (contracts : Map B256 Bytes) (a b : Address)
    (acc : DbAccount) :
    (InMemoryDB.mk (db.accounts.insert a acc) contracts).entry b =
      if b = a then acc else db.entry b := by
  simp only [entry, Map.lookup_insert_ite]
  split_ifs <;> rfl

theorem load_entry (db : InMemoryDB) (a b : Address) : (load db a).entry b = db.entry b := by
  rw [load, entry_insert]
  split_ifs with h
  · rw [h]
  · rfl

theorem committedAccounts_lookup (hashSlow : Bytes → B256) (db : InMemoryDB) (state : EvmState)
    (a : Address) : (committedAccounts hashSlow db state).lookup a =
      (state.lookup a).map ((db.entry a).committed hashSlow) := by
  apply Option.ext
  intro v
  rw [Option.map_eq_some_iff]
  change v ∈ (committedAccounts hashSlow db state).lookup a ↔ _
  rw [Finmap.mem_lookup_iff]
  simp only [committedAccounts, Multiset.mem_map]
  constructor
  · rintro ⟨⟨b, change⟩, hmem, he⟩
    cases he
    exact ⟨change, Finmap.mem_lookup_iff.mpr hmem, rfl⟩
  · rintro ⟨change, hl, rfl⟩
    exact ⟨⟨a, change⟩, Finmap.mem_lookup_iff.mp hl, rfl⟩

theorem commit_entry (hashSlow : Bytes → B256) (db : InMemoryDB) (state : EvmState)
    (a : Address) : (commit hashSlow db state).entry a =
      match state.lookup a with
      | none => db.entry a
      | some change => (db.entry a).committed hashSlow change := by
  unfold commit entry
  rw [Map.lookup_union, committedAccounts_lookup]
  cases state.lookup a <;> rfl

theorem cacheLaws {R : Revm} (hbasic : R.basic = basic) (hstorage : R.storage = storage)
    (hinfo : R.insertAccountInfo = insertAccountInfo R.hashSlow)
    (hslot : R.insertAccountStorage = insertAccountStorage)
    (hcommit : R.commit = commit R.hashSlow) : R.CacheLaws where
  basic_answer db a := by rw [hbasic]; rfl
  basic_entry db a b := by rw [hbasic]; exact load_entry db a b
  basic_contracts db a := by rw [hbasic]; rfl
  storage_answer db a s := by rw [hstorage]; rfl
  storage_entry db a s b := by rw [hstorage]; exact entry_insert _ _ _ _ _
  storage_contracts db a s := by rw [hstorage]; rfl
  insertAccountInfo_entry db a info b := by rw [hinfo]; exact entry_insert _ _ _ _ _
  insertAccountInfo_contracts db₁ db₂ a info h := by
    rw [hinfo]
    simp only [insertAccountInfo, h]
  insertAccountStorage_entry db a s v b := by rw [hslot]; exact entry_insert _ _ _ _ _
  insertAccountStorage_contracts db a s v := by rw [hslot]; rfl
  commit_entry db state a := by rw [hcommit]; exact commit_entry _ _ _ _
  commit_contracts db₁ db₂ state h := by rw [hcommit]; exact h

end KanariEvm.CacheDb
