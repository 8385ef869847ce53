import KanariEvm.CacheRelations

namespace KanariEvm

/-- What a key of the tree stands for: an account, or one of its storage slots. -/
abbrev Leaf := Address × Option U256

def Leaf.preimage : Leaf → Bytes
  | (a, none) => smtDomain ++ 0x00 :: addressBytes a
  | (a, some slot) => smtDomain ++ 0x01 :: (addressBytes a ++ toBeBytes 32 slot.toNat)

def Leaf.key (P : Platform) (l : Leaf) : Bytes := P.blake3 l.preimage

theorem addressBytes_injective : Function.Injective addressBytes := by
  intro a b h
  apply BitVec.eq_of_toNat_eq
  exact toBeBytes_injective (by simpa using a.isLt) (by simpa using b.isLt) h

/-- The tag keeps accounts and slots apart, and the fields after it have fixed widths. -/
theorem Leaf.preimage_injective : Function.Injective Leaf.preimage := by
  rintro ⟨a, slot⟩ ⟨b, slot'⟩ h
  cases slot with
  | none =>
    cases slot' with
    | none =>
      simp only [preimage, List.append_cancel_left_eq, List.cons.injEq, true_and] at h
      rw [addressBytes_injective h]
    | some t =>
      simp only [preimage, List.append_cancel_left_eq, List.cons.injEq] at h
      exact absurd h.1 (by decide)
  | some s =>
    cases slot' with
    | none =>
      simp only [preimage, List.append_cancel_left_eq, List.cons.injEq] at h
      exact absurd h.1 (by decide)
    | some t =>
      simp only [preimage, List.append_cancel_left_eq, List.cons.injEq, true_and] at h
      obtain ⟨haddr, hslot⟩ := List.append_inj h (by simp [addressBytes])
      have hst : s = t := BitVec.eq_of_toNat_eq
        (toBeBytes_injective (by simpa using s.isLt) (by simpa using t.isLt) hslot)
      rw [addressBytes_injective haddr, hst]

/-- BLAKE3 has no collision on the preimages of a set of leaves. -/
def Platform.HashesApart (P : Platform) (leaves : Finset Leaf) : Prop :=
  ∀ l ∈ leaves, ∀ l' ∈ leaves, P.blake3 l.preimage = P.blake3 l'.preimage →
    l.preimage = l'.preimage

-- by name: the instance search may also enumerate every leaf there is
instance (P : Platform) (leaves : Finset Leaf) : Decidable (P.HashesApart leaves) :=
  @Finset.decidableDforallFinset _ _ _ fun _ _ => Finset.decidableDforallFinset

theorem Platform.HashesApart.key_inj {P : Platform} {leaves : Finset Leaf}
    (h : P.HashesApart leaves) {l l' : Leaf} (hl : l ∈ leaves) (hl' : l' ∈ leaves)
    (hkey : l.key P = l'.key P) : l = l' := Leaf.preimage_injective (h l hl l' hl' hkey)

theorem Platform.HashesApart.pair {P : Platform} {l l' : Leaf} (h : P.HashesApart {l, l'})
    (hkey : l.key P = l'.key P) : l = l' :=
  h.key_inj (Finset.mem_insert_self _ _)
    (Finset.mem_insert_of_mem (Finset.mem_singleton_self _)) hkey

namespace InMemoryDB

def leafValue (db : InMemoryDB) (l : Leaf) : Option Bytes :=
  if (db.entry l.1).info.Blank then none
  else match l.2 with
    | none => some (encodeAccount (db.entry l.1).info)
    | some slot => ((db.entry l.1).storage.lookup slot).map fun v => toBeBytes 32 v.toNat

/-- The leaves a rebuild files. -/
def leaves (db : InMemoryDB) : Finset Leaf :=
  (db.accounts.entries.bind fun e =>
    if e.2.info.Blank then 0
    else (e.1, none) ::ₘ e.2.storage.entries.map fun slot => (e.1, some slot.1)).toFinset

theorem entry_of_mem {db : InMemoryDB} {a : Address} {acc : DbAccount}
    (h : ⟨a, acc⟩ ∈ db.accounts.entries) : db.entry a = acc := by
  have hl : db.accounts.lookup a = some acc := Finmap.mem_lookup_iff.mpr h
  rw [entry, hl]
  rfl

theorem newNotExisting_blank : DbAccount.newNotExisting.info.Blank := ⟨rfl, rfl, rfl⟩

theorem mem_of_not_blank {db : InMemoryDB} {a : Address} (h : ¬(db.entry a).info.Blank) :
    ⟨a, db.entry a⟩ ∈ db.accounts.entries := by
  cases hl : db.accounts.lookup a with
  | none =>
    rw [entry, hl] at h
    exact absurd newNotExisting_blank h
  | some acc =>
    rw [entry, hl]
    exact Finmap.mem_lookup_iff.mp hl

theorem mem_leaves {db : InMemoryDB} {l : Leaf} : l ∈ db.leaves ↔ (db.leafValue l).isSome := by
  obtain ⟨a, slot⟩ := l
  simp only [leaves, Multiset.mem_toFinset, Multiset.mem_bind]
  constructor
  · rintro ⟨⟨b, acc⟩, hmem, hin⟩
    split_ifs at hin with hblank
    · exact absurd hin (Multiset.notMem_zero _)
    · have hacc := entry_of_mem hmem
      rcases Multiset.mem_cons.mp hin with heq | hslot
      · cases heq
        simp [leafValue, hacc, hblank]
      · obtain ⟨⟨s, v⟩, hs, heq⟩ := Multiset.mem_map.mp hslot
        cases heq
        have hv : acc.storage.lookup s = some v := Finmap.mem_lookup_iff.mpr hs
        simp [leafValue, hacc, hblank, hv]
  · intro hsome
    by_cases hblank : (db.entry a).info.Blank
    · simp [leafValue, hblank] at hsome
    · refine ⟨⟨a, db.entry a⟩, mem_of_not_blank hblank, ?_⟩
      rw [if_neg hblank]
      cases slot with
      | none => exact Multiset.mem_cons_self _ _
      | some s =>
        simp only [leafValue, if_neg hblank, Option.isSome_map] at hsome
        obtain ⟨v, hv⟩ := Option.isSome_iff_exists.mp hsome
        apply Multiset.mem_cons_of_mem
        exact Multiset.mem_map.mpr ⟨⟨s, v⟩, Finmap.mem_lookup_iff.mp hv, rfl⟩

/-- A rebuild files each leaf of the cache under its key, and nothing else. -/
theorem mem_smtEntries_iff {P : Platform} {db : InMemoryDB} {key value : Bytes} :
    (key, value) ∈ smtEntries P db ↔
      ∃ l : Leaf, key = l.key P ∧ db.leafValue l = some value := by
  rw [mem_smtEntries]
  constructor
  · rintro ⟨a, hmem⟩
    unfold accountEntries at hmem
    split_ifs at hmem with hblank
    · exact absurd hmem (Finset.notMem_empty _)
    · rcases Finset.mem_insert.mp hmem with heq | hslot
      · cases heq
        exact ⟨(a, none), rfl, by simp [leafValue, hblank]⟩
      · obtain ⟨⟨s, v⟩, hs, heq⟩ := Multiset.mem_map.mp (Multiset.mem_toFinset.mp hslot)
        cases heq
        have hv : (db.entry a).storage.lookup s = some v := Finmap.mem_lookup_iff.mpr hs
        exact ⟨(a, some s), rfl, by simp [leafValue, hblank, hv]⟩
  · rintro ⟨⟨a, slot⟩, rfl, hvalue⟩
    refine ⟨a, ?_⟩
    unfold leafValue at hvalue
    split_ifs at hvalue with hblank
    rw [accountEntries, if_neg hblank]
    cases slot with
    | none =>
      rw [← Option.some.inj hvalue]
      exact Finset.mem_insert_self _ _
    | some s =>
      obtain ⟨v, hv, rfl⟩ := Option.map_eq_some_iff.mp hvalue
      apply Finset.mem_insert_of_mem
      rw [Multiset.mem_toFinset, Multiset.mem_map]
      exact ⟨⟨s, v⟩, Finmap.mem_lookup_iff.mp hv, rfl⟩

end InMemoryDB

/-- The documented behaviour of the `smt` crate: after a rebuild from entries with distinct keys,
lookups and proofs answer for these entries and no others. -/
structure Platform.SmtExact (P : Platform) : Prop where
  get : ∀ {entries : Finset (Bytes × Bytes)} key value,
    (∀ e ∈ entries, ∀ e' ∈ entries, e.1 = e'.1 → e = e') →
    (P.smtGet entries key = some value ↔ (key, value) ∈ entries)
  proof : ∀ {entries : Finset (Bytes × Bytes)} key,
    (P.smtProof entries key).1 = true ↔ ∃ value, (key, value) ∈ entries

namespace InMemoryDB

variable {P : Platform} {db : InMemoryDB} {l : Leaf}
  (hash : P.HashesApart (insert l db.leaves))

include hash

theorem mem_smtEntries_key {value : Bytes} :
    (l.key P, value) ∈ smtEntries P db ↔ db.leafValue l = some value := by
  rw [mem_smtEntries_iff]
  constructor
  · rintro ⟨l', hkey, hvalue⟩
    have hl' : l' ∈ db.leaves := mem_leaves.mpr (by rw [hvalue]; rfl)
    have heq := hash.key_inj (Finset.mem_insert_self _ _) (Finset.mem_insert_of_mem hl') hkey
    rw [heq]
    exact hvalue
  · exact fun hvalue => ⟨l, rfl, hvalue⟩

variable (hsmt : P.SmtExact)

include hsmt

theorem smtProof_isMember :
    (P.smtProof (smtEntries P db) (l.key P)).1 = (db.leafValue l).isSome := by
  apply Bool.eq_iff_iff.mpr
  rw [hsmt.proof, Option.isSome_iff_exists]
  exact exists_congr fun value => mem_smtEntries_key hash

theorem smtGet_leaf : P.smtGet (smtEntries P db) (l.key P) = db.leafValue l := by
  have hunique : ∀ e ∈ smtEntries P db, ∀ e' ∈ smtEntries P db, e.1 = e'.1 → e = e' := by
    rintro ⟨k, v⟩ he ⟨k', v'⟩ he' rfl
    obtain ⟨m, rfl, hv⟩ := mem_smtEntries_iff.mp he
    obtain ⟨m', hkey, hv'⟩ := mem_smtEntries_iff.mp he'
    have hm : m ∈ db.leaves := mem_leaves.mpr (by rw [hv]; rfl)
    have hm' : m' ∈ db.leaves := mem_leaves.mpr (by rw [hv']; rfl)
    obtain rfl := hash.key_inj (Finset.mem_insert_of_mem hm) (Finset.mem_insert_of_mem hm') hkey
    rw [Option.some.inj (hv.symm.trans hv')]
  apply Option.ext
  intro value
  rw [hsmt.get _ _ hunique, mem_smtEntries_key hash]

end InMemoryDB

def decodeAccount (bytes : Bytes) : U256 × U64 × B256 :=
  (BitVec.ofNat 256 (fromLeBytes (bytes.take 32).reverse),
    BitVec.ofNat 64 (fromLeBytes ((bytes.drop 32).take 8).reverse),
    BitVec.ofNat 256 (fromLeBytes (bytes.drop 40).reverse))

@[simp] theorem encodeAccount_length (info : AccountInfo) : (encodeAccount info).length = 72 := by
  simp [encodeAccount, B256.asSlice]

theorem fromLeBytes_toBeBytes {k n : ℕ} (h : n < 256 ^ k) :
    fromLeBytes (toBeBytes k n).reverse = n := by
  rw [toBeBytes, List.reverse_reverse, fromLeBytes_toLeBytes k n h]

theorem decodeAccount_encodeAccount (info : AccountInfo) :
    decodeAccount (encodeAccount info) = (info.balance, info.nonce, info.codeHash) := by
  have hbalance : (encodeAccount info).take 32 = toBeBytes 32 info.balance.toNat := by
    rw [encodeAccount, List.append_assoc]
    exact List.take_left' (toBeBytes_length _ _)
  have hdrop : (encodeAccount info).drop 32 =
      toBeBytes 8 info.nonce.toNat ++ info.codeHash.asSlice := by
    rw [encodeAccount, List.append_assoc]
    exact List.drop_left' (toBeBytes_length _ _)
  have hnonce : ((encodeAccount info).drop 32).take 8 = toBeBytes 8 info.nonce.toNat := by
    rw [hdrop]
    exact List.take_left' (toBeBytes_length _ _)
  have hcode : (encodeAccount info).drop 40 = toBeBytes 32 info.codeHash.toNat :=
    List.drop_left' (by simp)
  rw [decodeAccount, hbalance, hnonce, hcode,
    fromLeBytes_toBeBytes (by simpa using info.balance.isLt),
    fromLeBytes_toBeBytes (by simpa using info.nonce.isLt),
    fromLeBytes_toBeBytes (by simpa using info.codeHash.isLt)]
  simp

end KanariEvm
