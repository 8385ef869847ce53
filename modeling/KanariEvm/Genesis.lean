import KanariEvm.Lib.LastWrite
import KanariEvm.Opening
import KanariEvm.Reference

namespace KanariEvm

open LastWrite

namespace KanariChainSpec

variable {P : Platform} (spec : KanariChainSpec) (a : Address)

/-- The code that the allocation loop finds for an address; an empty entry counts as none. -/
def listedCode : Option Bytes :=
  ((spec.genesisCode.find? fun c => c.1 = a).map (·.2)).filter (· ≠ [])

def allocated (P : Platform) (balance : U256) : DbAccount where
  info := AccountInfo.settle P.hashSlow {
    balance := balance
    nonce := 0
    codeHash := match spec.listedCode a with
      | some bc => P.hashSlow bc
      | none => keccakEmpty
    code := spec.listedCode a }
  accountState := .none
  storage := ∅

def contract (P : Platform) (code : Bytes) : DbAccount where
  info := AccountInfo.settle P.hashSlow ⟨0, 0, P.hashSlow code, some code⟩
  accountState := .none
  storage := ∅

/-- What an entry of the code loop writes to an address. -/
def writesCode (entry : Address × Bytes) : Option Bytes :=
  if entry.1 = a ∧ ¬(entry.2 = [] ∨ spec.genesisAlloc.any fun e => e.1 = entry.1) then
    some entry.2
  else none

section Entries

variable (hR : P.toRevm.CacheLaws)

include hR

/-- The last allocation of an address counts. -/
theorem entry_foldl_insertAlloc (alloc : List (Address × U256)) :
    (alloc.foldl (spec.insertAlloc P) .empty).entry a =
      ((last (under a) alloc).map (spec.allocated a P)).getD .newNotExisting := by
  induction alloc using List.reverseRecOn with
  | nil => rfl
  | append_singleton alloc e ih =>
    rw [List.foldl_append, List.foldl_cons, List.foldl_nil, last_append, last_singleton,
      insertAlloc, hR.insertAccountInfo_entry]
    by_cases ha : a = e.1
    · subst ha
      rw [if_pos rfl, ih, under, if_pos rfl]
      cases last (under e.1) alloc <;> rfl
    · rw [if_neg ha, ih, under, if_neg (Ne.symm ha)]
      rfl

/-- An address without an allocation gets the last code listed for it. -/
theorem entry_foldl_insertCode {db : InMemoryDB}
    (hdb : spec.genesisAlloc.any (fun e => e.1 = a) = false → db.entry a = .newNotExisting)
    (codes : List (Address × Bytes)) :
    (codes.foldl (spec.insertCode P) db).entry a =
      ((last (spec.writesCode a) codes).map (contract P)).getD (db.entry a) := by
  induction codes using List.reverseRecOn with
  | nil => rfl
  | append_singleton codes e ih =>
    rw [List.foldl_append, List.foldl_cons, List.foldl_nil, last_append, last_singleton, insertCode]
    split_ifs with hskip
    · have hnone : spec.writesCode a e = none := if_neg fun h => h.2 hskip
      rw [hnone, ih]
      rfl
    · rw [hR.insertAccountInfo_entry]
      by_cases ha : a = e.1
      · subst ha
        have hfresh : db.entry e.1 = .newNotExisting := by
          apply hdb
          rw [Bool.eq_false_iff]
          exact fun h => hskip (.inr h)
        rw [if_pos rfl, ih, writesCode, if_pos ⟨rfl, hskip⟩, hfresh]
        cases last (spec.writesCode e.1) codes <;> rfl
      · rw [if_neg ha, ih, writesCode, if_neg fun h => ha h.1.symm]
        rfl

theorem foldl_insertAccountStorage (db : InMemoryDB) (slots : List (Address × U256 × U256)) :
    ((slots.foldl (fun db s => P.insertAccountStorage db s.1 s.2.1 s.2.2) db).entry a).visibleInfo =
        (db.entry a).visibleInfo ∧
      ∀ slot, ((slots.foldl (fun db s => P.insertAccountStorage db s.1 s.2.1 s.2.2) db).entry
          a).storage.lookup slot =
        (last (fun s => under (a, slot) ((s.1, s.2.1), s.2.2)) slots).or
          ((db.entry a).storage.lookup slot) := by
  induction slots using List.reverseRecOn with
  | nil => exact ⟨rfl, fun _ => rfl⟩
  | append_singleton slots s ih =>
    obtain ⟨hinfo, hslot⟩ := ih
    simp only [List.foldl_append, List.foldl_cons, List.foldl_nil, last_append, last_singleton,
      hR.insertAccountStorage_entry]
    by_cases ha : a = s.1
    · subst ha
      refine ⟨?_, fun slot => ?_⟩
      · rw [if_pos rfl, ← hinfo]
        rfl
      · rw [if_pos rfl, DbAccount.withSlot, Map.lookup_insert_ite, hslot, under]
        by_cases heq : slot = s.2.1
        · subst heq
          rw [if_pos rfl, if_pos rfl]
          rfl
        · rw [if_neg heq, if_neg fun h => heq (Prod.mk.inj h).2.symm]
          rfl
    · have hne (slot : U256) : under (a, slot) ((s.1, s.2.1), s.2.2) = none :=
        if_neg fun h => ha (Prod.mk.inj h).1.symm
      refine ⟨by rw [if_neg ha, hinfo], fun slot => ?_⟩
      rw [if_neg ha, hslot, hne, Option.none_or]

theorem entry_accounts :
    (spec.genesisCode.foldl (spec.insertCode P)
      (spec.genesisAlloc.foldl (spec.insertAlloc P) .empty)).entry a =
      ((last (spec.writesCode a) spec.genesisCode).map (contract P)).getD
        (((last (under a) spec.genesisAlloc).map (spec.allocated a P)).getD .newNotExisting) := by
  have hfresh : spec.genesisAlloc.any (fun e => e.1 = a) = false →
      (spec.genesisAlloc.foldl (spec.insertAlloc P) .empty).entry a = .newNotExisting := by
    intro hany
    rw [entry_foldl_insertAlloc spec a hR, last_eq_none]
    · rfl
    · intro e he
      have := List.any_eq_false.mp hany e he
      exact if_neg fun heq => this (decide_eq_true heq)
  rw [entry_foldl_insertCode spec a hR hfresh, entry_foldl_insertAlloc spec a hR]

theorem applyGenesis_visibleInfo :
    ((spec.applyGenesis P .empty).entry a).visibleInfo =
      (((last (spec.writesCode a) spec.genesisCode).map (contract P)).getD
        (((last (under a) spec.genesisAlloc).map (spec.allocated a P)).getD
          .newNotExisting)).visibleInfo := by
  rw [applyGenesis, (foldl_insertAccountStorage a hR _ _).1, entry_accounts spec a hR]

theorem applyGenesis_slot (slot : U256) :
    ((spec.applyGenesis P .empty).logical a).storage slot =
      (last (fun s => under (a, slot) ((s.1, s.2.1), s.2.2)) spec.genesisStorage).getD 0 := by
  have hfresh : ((spec.genesisCode.foldl (spec.insertCode P)
      (spec.genesisAlloc.foldl (spec.insertAlloc P) .empty)).entry a).storage.lookup slot =
      none := by
    rw [entry_accounts spec a hR]
    cases last (spec.writesCode a) spec.genesisCode with
    | some code => rfl
    | none => cases last (under a) spec.genesisAlloc <;> rfl
  simp only [InMemoryDB.logical, applyGenesis]
  rw [(foldl_insertAccountStorage a hR _ _).2, hfresh, Option.or_none]

end Entries

/-- The code loop writes to addresses without an allocation, and only code that is not empty. -/
theorem last_writesCode_some {code : Bytes}
    (h : last (spec.writesCode a) spec.genesisCode = some code) :
    (a, code) ∈ spec.genesisCode ∧ code ≠ [] ∧ last (under a) spec.genesisAlloc = none := by
  obtain ⟨e, he, hwrites⟩ := List.exists_of_findSome?_eq_some h
  unfold writesCode at hwrites
  split_ifs at hwrites with hcond
  cases hwrites
  obtain ⟨rfl, hskip⟩ := hcond
  push Not at hskip
  refine ⟨List.mem_reverse.mp he, hskip.1, last_eq_none fun put hput => if_neg fun heq => ?_⟩
  apply hskip.2
  exact List.any_eq_true.mpr ⟨put, hput, decide_eq_true heq⟩

section Logical

variable (hR : P.toRevm.CacheLaws)

include hR

theorem applyGenesis_balance :
    ((spec.applyGenesis P .empty).logical a).balance =
      (last (under a) spec.genesisAlloc).getD 0 := by
  simp only [InMemoryDB.logical, applyGenesis_visibleInfo spec a hR]
  cases hcode : last (spec.writesCode a) spec.genesisCode with
  | some code =>
    rw [(spec.last_writesCode_some a hcode).2.2]
    rfl
  | none => cases last (under a) spec.genesisAlloc <;> rfl

theorem applyGenesis_nonce : ((spec.applyGenesis P .empty).logical a).nonce = 0 := by
  simp only [InMemoryDB.logical, applyGenesis_visibleInfo spec a hR]
  cases last (spec.writesCode a) spec.genesisCode with
  | some code => rfl
  | none => cases last (under a) spec.genesisAlloc <;> rfl

end Logical

end KanariChainSpec

/-- The hash of the code is neither that of the empty code nor zero, the two values by which an
account says that it has none. -/
def Revm.HashesCode (R : Revm) (code : Bytes) : Prop :=
  R.hashSlow code ≠ keccakEmpty ∧ R.hashSlow code ≠ 0

instance (R : Revm) (code : Bytes) : Decidable (R.HashesCode code) := by
  unfold Revm.HashesCode; infer_instance

theorem codeOfInfo_settle {R : Revm} {code : Bytes} (hhash : R.HashesCode code)
    (db : InMemoryDB) (balance : U256) (nonce : U64) :
    db.codeOfInfo (some (AccountInfo.settle R.hashSlow
      ⟨balance, nonce, R.hashSlow code, some code⟩)) = code := by
  obtain ⟨hempty, hzero⟩ := hhash
  have hkept : (AccountInfo.settle R.hashSlow ⟨balance, nonce, R.hashSlow code, some code⟩) =
      ⟨balance, nonce, R.hashSlow code, some code⟩ := by
    simp only [AccountInfo.settle, hempty, and_false, if_false, if_neg hzero]
  simp only [hkept, InMemoryDB.codeOfInfo, if_neg hempty]

namespace KanariChainSpec

variable {P : Platform} (spec : KanariChainSpec) (a : Address)

theorem mem_of_listedCode {spec : KanariChainSpec} {a : Address} {code : Bytes}
    (h : spec.listedCode a = some code) :
    (a, code) ∈ spec.genesisCode ∧ code ≠ [] := by
  obtain ⟨hsome, hne⟩ := Option.filter_eq_some_iff.mp h
  obtain ⟨c, hfind, rfl⟩ := Option.map_eq_some_iff.mp hsome
  have haddr : c.1 = a := by simpa using List.find?_some hfind
  subst haddr
  exact ⟨List.mem_of_find?_eq_some hfind, by simpa using hne⟩

theorem applyGenesis_code (hR : P.toRevm.CacheLaws)
    (hhash : ∀ entry ∈ spec.genesisCode, entry.2 ≠ [] → P.toRevm.HashesCode entry.2) :
    ((spec.applyGenesis P .empty).logical a).code =
      ((last (spec.writesCode a) spec.genesisCode).or
        ((last (under a) spec.genesisAlloc).bind fun _ => spec.listedCode a)).getD [] := by
  simp only [InMemoryDB.logical, applyGenesis_visibleInfo spec a hR]
  cases hcode : last (spec.writesCode a) spec.genesisCode with
  | some code =>
    obtain ⟨hmem, hne, _⟩ := spec.last_writesCode_some a hcode
    exact codeOfInfo_settle (hhash _ hmem hne) _ 0 0
  | none =>
    cases last (under a) spec.genesisAlloc with
    | none => rfl
    | some balance =>
      cases hlisted : spec.listedCode a with
      | none =>
        have hinfo : (spec.allocated a P balance).visibleInfo = some
            (AccountInfo.settle P.hashSlow ⟨balance, 0, keccakEmpty, none⟩) := by
          simp only [allocated, hlisted]
          rfl
        simp only [Option.map_some, Option.map_none, Option.getD_some, Option.getD_none, hinfo]
        rfl
      | some code =>
        obtain ⟨hmem, hne⟩ := mem_of_listedCode hlisted
        have hinfo : (spec.allocated a P balance).visibleInfo = some
            (AccountInfo.settle P.hashSlow ⟨balance, 0, P.hashSlow code, some code⟩) := by
          simp only [allocated, hlisted]
          rfl
        simp only [Option.map_some, Option.map_none, Option.getD_some, Option.getD_none, hinfo]
        exact codeOfInfo_settle (hhash _ hmem hne) _ balance 0

structure ListedOnce : Prop where
  alloc : (spec.genesisAlloc.map (·.1)).Nodup
  code : (spec.genesisCode.map (·.1)).Nodup
  storage : (spec.genesisStorage.map fun s => (s.1, s.2.1)).Nodup

variable {spec a}

theorem last_slot_of_mem (h : spec.ListedOnce) {slot value : U256}
    (hmem : (a, slot, value) ∈ spec.genesisStorage) :
    last (fun s => under (a, slot) ((s.1, s.2.1), s.2.2)) spec.genesisStorage = some value := by
  have hnd : ((spec.genesisStorage.map fun s => ((s.1, s.2.1), s.2.2)).map (·.1)).Nodup := by
    rw [List.map_map]
    exact h.storage
  have hlast := last_under_of_mem hnd (List.mem_map.mpr ⟨_, hmem, rfl⟩)
  rwa [last, ← List.map_reverse, List.findSome?_map] at hlast

theorem listedCode_of_mem (h : spec.ListedOnce) {code : Bytes}
    (hmem : (a, code) ∈ spec.genesisCode) (hne : code ≠ []) : spec.listedCode a = some code := by
  have hfind : ∀ codes : List (Address × Bytes), (codes.map (·.1)).Nodup → (a, code) ∈ codes →
      (codes.find? fun c => c.1 = a) = some (a, code) := by
    intro codes hnd hin
    induction codes with
    | nil => cases hin
    | cons c codes ih =>
      rw [List.map_cons, List.nodup_cons] at hnd
      rcases List.mem_cons.mp hin with rfl | hin
      · exact List.find?_cons_of_pos (decide_eq_true rfl)
      · have hca : c.1 ≠ a := by
          intro heq
          exact hnd.1 (List.mem_map.mpr ⟨_, hin, heq.symm⟩)
        rw [List.find?_cons_of_neg (by simpa using hca)]
        exact ih hnd.2 hin
  rw [listedCode, hfind _ h.code hmem, Option.map_some, Option.filter_some]
  simp [hne]

theorem last_writesCode_of_mem (h : spec.ListedOnce) {code : Bytes}
    (hmem : (a, code) ∈ spec.genesisCode) (hne : code ≠ [])
    (halloc : ∀ balance, (a, balance) ∉ spec.genesisAlloc) :
    last (spec.writesCode a) spec.genesisCode = some code := by
  have hwrites : ∀ e ∈ spec.genesisCode, spec.writesCode a e = under a e := by
    intro e he
    unfold writesCode under
    by_cases hea : e.1 = a
    · have heq : e = (a, code) := by
        have hinj := List.inj_on_of_nodup_map h.code he hmem hea
        exact hinj
      subst heq
      have hany : ¬(spec.genesisAlloc.any fun e => e.1 = a) = true := by
        intro hany
        obtain ⟨put, hput, hpa⟩ := List.any_eq_true.mp hany
        have hpa' := of_decide_eq_true hpa
        exact halloc put.2 (hpa' ▸ hput)
      rw [if_pos ⟨rfl, fun hor => hor.elim hne hany⟩, if_pos rfl]
    · rw [if_neg fun hcond => hea hcond.1, if_neg hea]
  rw [last_congr hwrites]
  exact last_under_of_mem h.code hmem

theorem applyGenesis_code_of_mem (hR : P.toRevm.CacheLaws)
    (hhash : ∀ entry ∈ spec.genesisCode, entry.2 ≠ [] → P.toRevm.HashesCode entry.2)
    (h : spec.ListedOnce) {code : Bytes} (hmem : (a, code) ∈ spec.genesisCode) (hne : code ≠ []) :
    ((spec.applyGenesis P .empty).logical a).code = code := by
  rw [applyGenesis_code spec a hR hhash]
  by_cases halloc : ∃ balance, (a, balance) ∈ spec.genesisAlloc
  · obtain ⟨balance, hin⟩ := halloc
    rw [last_under_of_mem h.alloc hin, listedCode_of_mem h hmem hne]
    cases hcode : last (spec.writesCode a) spec.genesisCode with
    | none => rfl
    | some code' =>
      have hnone := (spec.last_writesCode_some a hcode).2.2
      rw [last_under_of_mem h.alloc hin] at hnone
      cases hnone
  · push Not at halloc
    rw [last_writesCode_of_mem h hmem hne halloc]
    rfl

theorem applyGenesis_code_of_unlisted (hR : P.toRevm.CacheLaws)
    (hhash : ∀ entry ∈ spec.genesisCode, entry.2 ≠ [] → P.toRevm.HashesCode entry.2)
    (h : ∀ code, (a, code) ∈ spec.genesisCode → code = []) :
    ((spec.applyGenesis P .empty).logical a).code = [] := by
  have hwrites : last (spec.writesCode a) spec.genesisCode = none := by
    cases hcode : last (spec.writesCode a) spec.genesisCode with
    | none => rfl
    | some code =>
      obtain ⟨hmem, hne, _⟩ := spec.last_writesCode_some a hcode
      exact absurd (h code hmem) hne
  have hlisted : spec.listedCode a = none := by
    cases hcode : spec.listedCode a with
    | none => rfl
    | some code =>
      obtain ⟨hmem, hne⟩ := mem_of_listedCode hcode
      exact absurd (h code hmem) hne
  rw [applyGenesis_code spec a hR hhash, hwrites, hlisted]
  cases last (under a) spec.genesisAlloc <;> rfl

end KanariChainSpec

/-- Genesis reads back: on the database that genesis leaves, every listed balance, code and slot is
answered for its address whatever else is listed there, and everything else is zero or empty. -/
theorem genesis_reads_back {P : Platform} (hR : P.toRevm.CacheLaws) {spec : KanariChainSpec}
    (hhash : ∀ entry ∈ spec.genesisCode, entry.2 ≠ [] → P.toRevm.HashesCode entry.2)
    (h : spec.ListedOnce) {node : KanariNode}
    (hnode : node.db = spec.applyGenesis P .empty) :
    (∀ a balance, (a, balance) ∈ spec.genesisAlloc → (node.balanceOf P a).2 = balance) ∧
    (∀ a, (∀ balance, (a, balance) ∉ spec.genesisAlloc) → (node.balanceOf P a).2 = 0) ∧
    (∀ a code, (a, code) ∈ spec.genesisCode → code ≠ [] → (node.codeOf P a).2 = code) ∧
    (∀ a, (∀ code, (a, code) ∈ spec.genesisCode → code = []) → (node.codeOf P a).2 = []) ∧
    (∀ a slot value, (a, slot, value) ∈ spec.genesisStorage →
      (node.storageOf P a slot).2 = value) ∧
    (∀ a slot, (∀ value, (a, slot, value) ∉ spec.genesisStorage) →
      (node.storageOf P a slot).2 = 0) ∧
    ∀ a, (node.nonceOf P a).2 = 0 := by
  simp only [node.balanceOf_snd hR, node.codeOf_snd hR, node.storageOf_snd hR,
    node.nonceOf_snd hR, hnode]
  refine ⟨?_, ?_, ?_, ?_, ?_, ?_, fun a => spec.applyGenesis_nonce a hR⟩
  · intro a balance hmem
    rw [spec.applyGenesis_balance a hR, last_under_of_mem h.alloc hmem]
    rfl
  · intro a hnone
    rw [spec.applyGenesis_balance a hR, last_under_of_notMem hnone]
    rfl
  · intro a code hmem hne
    exact KanariChainSpec.applyGenesis_code_of_mem hR hhash h hmem hne
  · intro a hnone
    exact KanariChainSpec.applyGenesis_code_of_unlisted hR hhash hnone
  · intro a slot value hmem
    rw [spec.applyGenesis_slot a hR, KanariChainSpec.last_slot_of_mem h hmem]
    rfl
  · intro a slot hnone
    rw [spec.applyGenesis_slot a hR, last_eq_none]
    · rfl
    · intro s hs
      refine if_neg fun heq => hnone s.2.2 ?_
      obtain ⟨rfl, rfl⟩ := Prod.mk.inj heq
      exact hs

/-- A genesis with an address in each list alone and one in all three. -/
def mixedSpec : KanariChainSpec :=
  { Reference.spec with
    genesisAlloc := [(Reference.funded, 1000000000000000000), (0xa1, 5)]
    genesisCode := [(0xc0de, [0x00]), (0xa1, [0x60, 0x00]), (0xe0, [])]
    genesisStorage := [(0xa1, 1, 7), (0x510, 2, 8)] }

def mixedPlatform : Platform :=
  Reference.platformWith Transfer.revm []
    [([0x00], 0xbc36789e7a1e281436464229828f817d6612f7b477d66591ff96a9e064bcc98a),
      ([0x60, 0x00], 0x07ad118d6cc8642c86c03827f276d8b791a65e5c99a3845faf186be720a1455d)]

theorem genesis_reads_back_mixed :
    let node := KanariNode.created mixedPlatform mixedSpec
    (node.balanceOf mixedPlatform 0xa1).2 = 5 ∧
      (node.codeOf mixedPlatform 0xa1).2 = [0x60, 0x00] ∧
      (node.storageOf mixedPlatform 0xa1 1).2 = 7 ∧ (node.nonceOf mixedPlatform 0xa1).2 = 0 := by
  have hhash : ∀ entry ∈ mixedSpec.genesisCode, entry.2 ≠ [] →
      mixedPlatform.toRevm.HashesCode entry.2 := by decide +kernel
  have honce : mixedSpec.ListedOnce := ⟨by decide, by decide, by decide⟩
  obtain ⟨hbalance, _, hcode, _, hslot, _, hnonce⟩ :=
    genesis_reads_back (Transfer.revm_cacheLaws _) hhash honce
      (rfl : (KanariNode.created mixedPlatform mixedSpec).db = _)
  exact ⟨hbalance 0xa1 5 (by decide), hcode 0xa1 [0x60, 0x00] (by decide) (by decide),
    hslot 0xa1 1 7 (by decide), hnonce 0xa1⟩

end KanariEvm
