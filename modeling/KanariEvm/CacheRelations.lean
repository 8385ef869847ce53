import KanariEvm.RevmLaws

namespace KanariEvm

open InMemoryDB

theorem DbAccount.afterRead_visibleInfo (acc : DbAccount) (s : U256) :
    (acc.afterRead s).visibleInfo = acc.visibleInfo := by
  unfold DbAccount.afterRead
  split_ifs <;> rfl

/-- A read may cache a zero, which is what an uncached slot reads as anyway. -/
theorem DbAccount.afterRead_slot (acc : DbAccount) (s t : U256) :
    ((acc.afterRead s).storage.lookup t).getD 0 = (acc.storage.lookup t).getD 0 := by
  unfold DbAccount.afterRead
  split_ifs with h
  · rfl
  · have hs : acc.storage.lookup s = none := by
      simp only [DbAccount.Holds, not_or, Option.not_isSome_iff_eq_none] at h
      exact h.1
    rw [Map.lookup_insert_ite]
    split_ifs with ht
    · subst ht
      rw [hs]
      rfl
    · rfl

theorem DbAccount.withInfo_visibleInfo (acc : DbAccount) (info : AccountInfo) :
    (acc.withInfo info).visibleInfo = some info := by
  unfold DbAccount.withInfo DbAccount.visibleInfo
  by_cases h : acc.accountState = .notExisting <;> simp [h]

theorem DbAccount.committed_visibleInfo (hashSlow : Bytes → B256) {acc₁ acc₂ : DbAccount}
    (change : AccountChange) (h : acc₁.visibleInfo = acc₂.visibleInfo) :
    (acc₁.committed hashSlow change).visibleInfo =
      (acc₂.committed hashSlow change).visibleInfo := by
  unfold DbAccount.committed
  split_ifs with ht hs hc₁ hc₂ hc₂ <;> first | exact h | rfl

theorem Map.lookup_union {κ ν : Type} [DecidableEq κ] (m n : Map κ ν) (a : κ) :
    (m ∪ n).lookup a = (m.lookup a).or (n.lookup a) := by
  by_cases h : a ∈ m
  · obtain ⟨v, hv⟩ := Finmap.mem_iff.mp h
    rw [Finmap.lookup_union_left h, hv]
    rfl
  · rw [Finmap.lookup_union_right h, Finmap.lookup_eq_none.mpr h]
    rfl

theorem DbAccount.committed_slot (hashSlow : Bytes → B256) {acc₁ acc₂ : DbAccount}
    (change : AccountChange) (s : U256)
    (h : (acc₁.storage.lookup s).getD 0 = (acc₂.storage.lookup s).getD 0) :
    ((acc₁.committed hashSlow change).storage.lookup s).getD 0 =
      ((acc₂.committed hashSlow change).storage.lookup s).getD 0 := by
  unfold DbAccount.committed
  by_cases ht : change.touched
  · by_cases hd : change.selfdestructed
    · simp [ht, hd]
    · by_cases hc : change.created
      · simp [ht, hd, hc]
      · simp only [ht, hd, hc, Bool.not_true, Bool.false_eq_true, ↓reduceIte, Map.lookup_union]
        cases change.storage.lookup s with
        | some v => rfl
        | none => exact h
  · simpa [ht] using h

/-- A request that finds what it asks for in the cache, or caches only that an account is empty. -/
def DbRead.Quiet (db : InMemoryDB) : DbRead → Prop
  | .basic _ => True
  | .storage a s => (db.entry a).Holds s

instance (db : InMemoryDB) (r : DbRead) : Decidable (r.Quiet db) := by
  cases r <;> unfold DbRead.Quiet <;> infer_instance

theorem DbRead.Quiet.congr {db₁ db₂ : InMemoryDB} (h : SameCache db₁ db₂) {r : DbRead}
    (hr : r.Quiet db₂) : r.Quiet db₁ := by
  cases r with
  | basic a => trivial
  | storage a s =>
    change (db₁.entry a).Holds s
    rw [h.entry]
    exact hr

namespace Revm

variable {R : Revm} (hR : R.CacheLaws)

include hR

theorem read_sameAccounts (db : InMemoryDB) (r : DbRead) : SameAccounts (R.read db r) db := by
  cases r with
  | basic a =>
    exact ⟨fun b => by rw [read, hR.basic_entry], fun b s => by rw [read, hR.basic_entry],
      hR.basic_contracts db a⟩
  | storage a t =>
    refine ⟨fun b => ?_, fun b s => ?_, hR.storage_contracts db a t⟩
    · rw [read, hR.storage_entry]
      split_ifs with h
      · subst h
        exact DbAccount.afterRead_visibleInfo _ _
      · rfl
    · rw [read, hR.storage_entry]
      split_ifs with h
      · subst h
        exact DbAccount.afterRead_slot _ _ _
      · rfl

theorem readAll_sameAccounts (reads : List DbRead) (db : InMemoryDB) :
    SameAccounts (R.readAll db reads) db := by
  induction reads generalizing db with
  | nil => exact SameAccounts.refl db
  | cons r rest ih => exact (ih (R.read db r)).trans (read_sameAccounts hR db r)

theorem read_sameCache_of_quiet {db : InMemoryDB} {r : DbRead} (h : r.Quiet db) :
    SameCache (R.read db r) db := by
  cases r with
  | basic a => exact ⟨fun b => hR.basic_entry db a b, hR.basic_contracts db a⟩
  | storage a s =>
    refine ⟨fun b => ?_, hR.storage_contracts db a s⟩
    rw [read, hR.storage_entry]
    split_ifs with hb
    · subst hb
      exact if_pos h
    · rfl

theorem readAll_sameCache_of_quiet {reads : List DbRead} {db : InMemoryDB}
    (h : ∀ r ∈ reads, r.Quiet db) : SameCache (R.readAll db reads) db := by
  induction reads generalizing db with
  | nil => exact SameCache.refl db
  | cons r rest ih =>
    have hr := read_sameCache_of_quiet hR (h r List.mem_cons_self)
    refine (ih fun q hq => ?_).trans hr
    exact (h q (List.mem_cons_of_mem r hq)).congr hr

omit hR

/-- A relation between caches that every operation of the database respects, and that the
interpreter cannot look behind. -/
structure Congruence (R : Revm) (rel : InMemoryDB → InMemoryDB → Prop) : Prop where
  logical : ∀ {db₁ db₂}, rel db₁ db₂ → SameLogical db₁ db₂
  info : ∀ {db₁ db₂} a, rel db₁ db₂ → (R.basic db₁ a).1 = (R.basic db₂ a).1
  read : ∀ {db₁ db₂} q, rel db₁ db₂ → rel (R.read db₁ q) (R.read db₂ q)
  commit : ∀ {db₁ db₂} state, rel db₁ db₂ → rel (R.commit db₁ state) (R.commit db₂ state)
  insertAccountInfo : ∀ {db₁ db₂} a info, rel db₁ db₂ →
    rel (R.insertAccountInfo db₁ a info) (R.insertAccountInfo db₂ a info)

theorem Congruence.readAll {rel : InMemoryDB → InMemoryDB → Prop} (h : R.Congruence rel)
    (reads : List DbRead) {db₁ db₂ : InMemoryDB} (hdb : rel db₁ db₂) :
    rel (R.readAll db₁ reads) (R.readAll db₂ reads) := by
  induction reads generalizing db₁ db₂ with
  | nil => exact hdb
  | cons r rest ih => exact ih (h.read r hdb)

include hR

theorem sameCache_congruence : R.Congruence SameCache where
  logical h := h.sameLogical
  info a h := by rw [hR.basic_answer, hR.basic_answer, h.entry]
  read q h := by
    cases q with
    | basic a =>
      refine ⟨fun b => ?_, ?_⟩
      · simp only [Revm.read, hR.basic_entry, h.entry]
      · simp only [Revm.read, hR.basic_contracts, h.contracts]
    | storage a s =>
      refine ⟨fun b => ?_, ?_⟩
      · simp only [Revm.read, hR.storage_entry, h.entry]
      · simp only [Revm.read, hR.storage_contracts, h.contracts]
  commit state h :=
    ⟨fun a => by simp only [hR.commit_entry, h.entry], hR.commit_contracts _ _ _ h.contracts⟩
  insertAccountInfo a info h :=
    ⟨fun b => by simp only [hR.insertAccountInfo_entry, h.entry],
      hR.insertAccountInfo_contracts _ _ _ _ h.contracts⟩

theorem commit_sameAccounts {db₁ db₂ : InMemoryDB} (h : SameAccounts db₁ db₂) (state : EvmState) :
    SameAccounts (R.commit db₁ state) (R.commit db₂ state) := by
  refine ⟨fun a => ?_, fun a s => ?_, hR.commit_contracts _ _ _ h.contracts⟩
  · rw [hR.commit_entry, hR.commit_entry]
    cases state.lookup a with
    | none => exact h.info a
    | some change => exact DbAccount.committed_visibleInfo _ _ (h.info a)
  · rw [hR.commit_entry, hR.commit_entry]
    cases state.lookup a with
    | none => exact h.slot a s
    | some change => exact DbAccount.committed_slot _ _ s (h.slot a s)

/-- What a run has read before makes no difference to what it leaves. -/
theorem after_sameLogical (db : InMemoryDB) (params : KanariEvmParams) (tx : TxEnv)
    (state : EvmState) : SameLogical (R.after db params tx state) (R.commit db state) :=
  (commit_sameAccounts hR (readAll_sameAccounts hR _ db) state).sameLogical

theorem insertAccountInfo_sameAccounts {db₁ db₂ : InMemoryDB} (h : SameAccounts db₁ db₂)
    (a : Address) (info : AccountInfo) :
    SameAccounts (R.insertAccountInfo db₁ a info) (R.insertAccountInfo db₂ a info) := by
  refine ⟨fun b => ?_, fun b s => ?_, hR.insertAccountInfo_contracts _ _ _ _ h.contracts⟩
  · rw [hR.insertAccountInfo_entry, hR.insertAccountInfo_entry]
    split_ifs with hb
    · simp only [DbAccount.withInfo_visibleInfo]
    · exact h.info b
  · rw [hR.insertAccountInfo_entry, hR.insertAccountInfo_entry]
    split_ifs with hb
    · subst hb
      exact h.slot b s
    · exact h.slot b s

theorem sameAccounts_congruence : R.Congruence SameAccounts where
  logical h := h.sameLogical
  info a h := by rw [hR.basic_answer, hR.basic_answer, h.info]
  read q h := (read_sameAccounts hR _ q).trans (h.trans (read_sameAccounts hR _ q).symm)
  commit state h := commit_sameAccounts hR h state
  insertAccountInfo a info h := insertAccountInfo_sameAccounts hR h a info

end Revm

theorem mem_smtEntries {P : Platform} {db : InMemoryDB} {e : Bytes × Bytes} :
    e ∈ smtEntries P db ↔ ∃ a, e ∈ accountEntries P a (db.entry a) := by
  have hblank : ∀ a, accountEntries P a .newNotExisting = ∅ := fun a => if_pos ⟨rfl, rfl, rfl⟩
  simp only [smtEntries, Multiset.mem_toFinset, Multiset.mem_bind, Finset.mem_val]
  constructor
  · rintro ⟨⟨a, acc⟩, hmem, he⟩
    have hl : db.accounts.lookup a = some acc := Finmap.mem_lookup_iff.mpr hmem
    exact ⟨a, by simpa [InMemoryDB.entry, hl] using he⟩
  · rintro ⟨a, he⟩
    cases hl : db.accounts.lookup a with
    | none =>
      rw [InMemoryDB.entry, hl] at he
      simp [hblank] at he
    | some acc =>
      rw [InMemoryDB.entry, hl] at he
      exact ⟨⟨a, acc⟩, Finmap.mem_lookup_iff.mp hl, he⟩

theorem InMemoryDB.SameCache.smtEntries {db₁ db₂ : InMemoryDB} (h : SameCache db₁ db₂)
    (P : Platform) : smtEntries P db₁ = smtEntries P db₂ := by
  ext e
  simp only [mem_smtEntries, h.entry]

end KanariEvm
