import KanariEvm.Fees
import KanariEvm.Leaves
import KanariEvm.Reached

namespace KanariEvm

/-- An account that does not exist has nothing, and a code hash comes with its code. -/
structure DbAccount.Sound (acc : DbAccount) : Prop where
  absent : acc.accountState = .notExisting → acc.info.Blank
  coded : acc.info.Coded

theorem AccountInfo.Coded.settle {info : AccountInfo} (h : info.Coded) (hashSlow : Bytes → B256) :
    (info.settle hashSlow).Coded := by
  intro hcode
  change info.code.getD [] ≠ []
  by_cases hhash : info.codeHash = keccakEmpty
  · -- only listed code gives such an account a hash of its own
    intro hempty
    apply hcode
    cases hc : info.code with
    | none => simp [AccountInfo.settle, hc, hhash]
    | some code =>
      rw [hc, Option.getD_some] at hempty
      simp [AccountInfo.settle, hc, hhash, hempty]
  · exact h hhash

namespace DbAccount

theorem newNotExisting_sound : newNotExisting.Sound :=
  ⟨fun _ => ⟨rfl, rfl, rfl⟩, fun h => absurd rfl h⟩

variable {acc : DbAccount}

theorem Sound.afterRead (h : acc.Sound) (s : U256) : (acc.afterRead s).Sound := by
  unfold DbAccount.afterRead
  split_ifs
  · exact h
  · exact ⟨h.absent, h.coded⟩

theorem withInfo_sound (acc : DbAccount) {info : AccountInfo} (h : info.Coded) :
    (acc.withInfo info).Sound := by
  refine ⟨fun hstate => ?_, h⟩
  simp only [withInfo] at hstate
  split_ifs at hstate with hnew
  exact absurd hstate hnew

theorem Sound.withSlot (h : acc.Sound) (s v : U256) : (acc.withSlot s v).Sound :=
  ⟨h.absent, h.coded⟩

theorem Sound.committed (h : acc.Sound) {change : AccountChange} {hashSlow : Bytes → B256}
    (hchange : change.touched = true → change.info.Coded) :
    (acc.committed hashSlow change).Sound := by
  by_cases htouched : change.touched = true
  · by_cases hdead : change.selfdestructed = true
    · simp only [DbAccount.committed, htouched, hdead, Bool.not_true, Bool.false_eq_true, if_false,
        if_true]
      exact newNotExisting_sound
    · simp only [DbAccount.committed, htouched, hdead, Bool.not_true, Bool.false_eq_true, if_false]
      refine ⟨fun hstate => ?_, (hchange htouched).settle hashSlow⟩
      simp only at hstate
      split_ifs at hstate
  · simpa [DbAccount.committed, htouched] using h

end DbAccount

/-- No slot is cached as zero, and none at all under an account the commitment leaves out. -/
structure DbAccount.Tidy (acc : DbAccount) : Prop where
  blank : acc.info.Blank → acc.storage = ∅
  slots : ∀ s, acc.storage.lookup s ≠ some 0

/-- What a change must be for its account to stay tidy: it sets no slot to zero, and slots only
where the account is not blank. -/
structure AccountChange.Tidy (hashSlow : Bytes → B256) (acc : DbAccount)
    (change : AccountChange) : Prop where
  blank : (change.info.settle hashSlow).Blank →
    change.storage = ∅ ∧ (change.created = true ∨ acc.storage = ∅)
  slots : ∀ s, change.storage.lookup s ≠ some 0

namespace DbAccount

theorem newNotExisting_tidy : newNotExisting.Tidy := ⟨fun _ => rfl, fun _ => nofun⟩

variable {acc : DbAccount}

theorem tidy_iff : acc.Tidy ↔
    (acc.info.Blank → acc.storage = ∅) ∧ ∀ e ∈ acc.storage.entries, e.2 ≠ 0 := by
  constructor
  · rintro ⟨hblank, hslots⟩
    refine ⟨hblank, fun e he hzero => hslots e.1 ?_⟩
    rw [← hzero]
    exact Finmap.mem_lookup_iff.mpr he
  · rintro ⟨hblank, hslots⟩
    exact ⟨hblank, fun s hs => hslots ⟨s, 0⟩ (Finmap.mem_lookup_iff.mp hs) rfl⟩

-- by name: the instance search may also enumerate every pair of words
instance (acc : DbAccount) : Decidable acc.Tidy :=
  letI : Decidable (∀ e ∈ acc.storage.entries, e.2 ≠ 0) := Multiset.decidableForallMultiset
  decidable_of_iff _ tidy_iff.symm

theorem Tidy.withInfo (h : acc.Tidy) {info : AccountInfo} (hinfo : ¬info.Blank) :
    (acc.withInfo info).Tidy :=
  ⟨fun hblank => absurd hblank hinfo, h.slots⟩

theorem Tidy.committed (h : acc.Tidy) {change : AccountChange} {hashSlow : Bytes → B256}
    (hchange : change.touched = true → change.selfdestructed = false →
      change.Tidy hashSlow acc) :
    (acc.committed hashSlow change).Tidy := by
  by_cases htouched : change.touched = true
  · by_cases hdead : change.selfdestructed = true
    · simp only [DbAccount.committed, htouched, hdead, Bool.not_true, Bool.false_eq_true, if_false,
        if_true]
      exact newNotExisting_tidy
    · have hc := hchange htouched (by simpa using hdead)
      simp only [DbAccount.committed, htouched, hdead, Bool.not_true, Bool.false_eq_true, if_false]
      constructor
      · intro hblank
        obtain ⟨hnone, hold⟩ := hc.blank hblank
        rcases hold with hcreated | hold
        · simp [hnone, hcreated]
        · simp [hnone, hold]
      · intro s hs
        rw [Map.lookup_union, Option.or_eq_some_iff] at hs
        rcases hs with hs | ⟨-, hs⟩
        · exact hc.slots s hs
        · split_ifs at hs
          · rw [Finmap.lookup_empty] at hs
            exact absurd hs.symm (Option.some_ne_none 0)
          · exact h.slots s hs
  · simpa [DbAccount.committed, htouched] using h

end DbAccount

namespace InMemoryDB

def Sound (db : InMemoryDB) : Prop := ∀ a, (db.entry a).Sound

def Tidy (db : InMemoryDB) : Prop := ∀ a, (db.entry a).Tidy

theorem Sound.blank_iff {db : InMemoryDB} (h : db.Sound) (a : Address) :
    (db.entry a).info.Blank ↔
      (db.logical a).balance = 0 ∧ (db.logical a).nonce = 0 ∧ (db.logical a).code = [] := by
  by_cases hstate : (db.entry a).accountState = .notExisting
  · have hnone : (db.entry a).visibleInfo = none := if_pos hstate
    simp only [logical, hnone]
    exact iff_of_true ((h a).absent hstate) ⟨rfl, rfl, rfl⟩
  · have hsome : (db.entry a).visibleInfo = some (db.entry a).info := if_neg hstate
    simp only [logical, hsome, Option.map_some, Option.getD_some, AccountInfo.Blank]
    refine and_congr_right fun _ => and_congr_right fun _ => ⟨fun hhash => if_pos hhash, ?_⟩
    intro hcode
    by_contra hhash
    have hcoded := (h a).coded hhash
    rw [codeOfInfo, if_neg hhash] at hcode
    cases hc : (db.entry a).info.code with
    | none => simp [hc] at hcoded
    | some code =>
      simp only [hc] at hcode hcoded
      exact hcoded hcode

/-- Where code hashes come with their code, the entry of an account tells its code. -/
theorem Sound.code_congr {db₁ db₂ : InMemoryDB} (h₁ : db₁.Sound) {a : Address}
    (h : db₁.entry a = db₂.entry a) : (db₁.logical a).code = (db₂.logical a).code := by
  simp only [logical, ← h, DbAccount.visibleInfo]
  split_ifs
  · rfl
  · simp only [codeOfInfo]
    split_ifs with hhash
    · rfl
    · cases hc : (db₁.entry a).info.code with
      | some code => rfl
      | none => exact absurd (by rw [hc]; rfl) ((h₁ a).coded hhash)

theorem Tidy.of_sameCache {db₁ db₂ : InMemoryDB} (h : db₂.Tidy) (hsame : SameCache db₁ db₂) :
    db₁.Tidy := by
  intro a
  rw [hsame.entry]
  exact h a

theorem tidy_iff {db : InMemoryDB} : db.Tidy ↔ ∀ e ∈ db.accounts.entries, e.2.Tidy := by
  constructor
  · rintro h ⟨a, acc⟩ hmem
    rw [← entry_of_mem hmem]
    exact h a
  · intro h a
    cases hl : db.accounts.lookup a with
    | none =>
      rw [entry, hl]
      exact DbAccount.newNotExisting_tidy
    | some acc =>
      rw [entry, hl]
      exact h _ (Finmap.mem_lookup_iff.mp hl)

instance (db : InMemoryDB) : Decidable db.Tidy := decidable_of_iff _ tidy_iff.symm

variable {P : Platform} (hR : P.toRevm.CacheLaws) {db : InMemoryDB}

include hR

theorem Sound.read (h : db.Sound) (r : DbRead) : (P.read db r).Sound := by
  intro b
  cases r with
  | basic a =>
    rw [Revm.read, hR.basic_entry]
    exact h b
  | storage a s =>
    rw [Revm.read, hR.storage_entry]
    split_ifs
    · exact (h a).afterRead s
    · exact h b

theorem Sound.readAll (h : db.Sound) (reads : List DbRead) : (P.readAll db reads).Sound := by
  induction reads generalizing db with
  | nil => exact h
  | cons r rest ih => exact ih (h.read hR r)

theorem Sound.insertAccountInfo (h : db.Sound) (a : Address) {info : AccountInfo}
    (hinfo : info.Coded) : (P.insertAccountInfo db a info).Sound := by
  intro b
  rw [hR.insertAccountInfo_entry]
  split_ifs
  · exact DbAccount.withInfo_sound _ (hinfo.settle _)
  · exact h b

theorem Sound.insertAccountStorage (h : db.Sound) (a : Address) (s v : U256) :
    (P.insertAccountStorage db a s v).Sound := by
  intro b
  rw [hR.insertAccountStorage_entry]
  split_ifs
  · exact (h a).withSlot s v
  · exact h b

theorem Sound.commit (h : db.Sound) {state : EvmState} (hstate : ∀ a change,
      state.lookup a = some change → change.touched = true → change.info.Coded) :
    (P.commit db state).Sound := by
  intro a
  rw [hR.commit_entry]
  cases hchange : state.lookup a with
  | none => exact h a
  | some change => exact (h a).committed (hstate a change hchange)

theorem Tidy.commit (h : db.Tidy) {state : EvmState} (hstate : ∀ a change,
      state.lookup a = some change → change.touched = true → change.selfdestructed = false →
        change.Tidy P.hashSlow (db.entry a)) :
    (P.commit db state).Tidy := by
  intro a
  rw [hR.commit_entry]
  cases hchange : state.lookup a with
  | none => exact h a
  | some change => exact (h a).committed (hstate a change hchange)

theorem Sound.settleFees (h : db.Sound) (result : ExecutionResult) (baseFee : U64) :
    (KanariNode.settleFees P db result baseFee).Sound := by
  simp only [KanariNode.settleFees]
  split_ifs
  · exact h
  · simp only [creditBeneficiary]
    apply (h.read hR (.basic blockBeneficiary)).insertAccountInfo hR
    rw [hR.basic_answer, DbAccount.visibleInfo]
    split_ifs
    · exact fun hcode => absurd rfl hcode
    · exact (h blockBeneficiary).coded

theorem Sound.settleFees_code (h : db.Sound) (result : ExecutionResult) (baseFee : U64)
    {a : Address} (ha : a ≠ blockBeneficiary) :
    ((KanariNode.settleFees P db result baseFee).logical a).code = (db.logical a).code :=
  (h.settleFees hR result baseFee).code_congr (settleFees_entry_of_ne hR db result baseFee ha)

theorem Tidy.settleFees (h : db.Tidy) (result : ExecutionResult) (baseFee : U64) :
    (KanariNode.settleFees P db result baseFee).Tidy := by
  simp only [KanariNode.settleFees]
  split_ifs with hburned
  · exact h
  · intro a
    rw [creditBeneficiary_entry hR]
    split_ifs with ha
    · apply (h blockBeneficiary).withInfo
      rintro ⟨hbalance, -, -⟩
      have hzero := congrArg BitVec.toNat hbalance
      simp only [AccountInfo.settle, saturatingAdd_toNat] at hzero
      have hpos : 0 < (Gas.baseFeeShare result.gasUsed (baseFee.setWidth 128)).toNat := by
        have hne := BitVec.toNat_ne.mp hburned
        exact Nat.pos_of_ne_zero hne
      simp at hzero
      omega
    · exact h a

end InMemoryDB

theorem KanariChainSpec.applyGenesis_sound {P : Platform} (hR : P.toRevm.CacheLaws)
    (spec : KanariChainSpec) : (spec.applyGenesis P .empty).Sound := by
  have halloc : (spec.genesisAlloc.foldl (spec.insertAlloc P) .empty).Sound := by
    apply List.foldlRecOn spec.genesisAlloc _ (fun a => DbAccount.newNotExisting_sound)
    intro db h entry _
    apply h.insertAccountInfo hR
    intro hhash
    simp only at hhash ⊢
    cases hc : ((spec.genesisCode.find? fun c => c.1 = entry.1).map (·.2)).filter (· ≠ []) with
    | none =>
      rw [hc] at hhash
      exact absurd rfl hhash
    | some code => simpa using (Option.filter_eq_some_iff.mp hc).2
  have hcode : (spec.genesisCode.foldl (spec.insertCode P)
      (spec.genesisAlloc.foldl (spec.insertAlloc P) .empty)).Sound := by
    apply List.foldlRecOn spec.genesisCode _ halloc
    intro db h entry _
    unfold KanariChainSpec.insertCode
    split_ifs with hskip
    · exact h
    · exact h.insertAccountInfo hR _ fun _ hempty => hskip (.inl hempty)
  apply List.foldlRecOn spec.genesisStorage _ hcode
  intro db h entry _
  exact h.insertAccountStorage hR entry.1 entry.2.1 entry.2.2

namespace KanariNode

variable {P : Platform} (hR : P.toRevm.CacheLaws) {spec : KanariChainSpec} {node : KanariNode}

/-- A step that leaves the cache tidy: it asks for no slot that the cache would have to store, and
an execution makes tidy changes only. -/
def KeepsTidy (P : Platform) (node : KanariNode) : Touch → Prop
  | .serve request => node.ServesQuietly P request
  | .sealRaw raw number timestamp baseFee _ =>
    ∀ prepared, PreparedTx.decode P raw node.spec.chainId = .ok prepared →
      (∀ r ∈ P.reads node.db (evmParams node.spec number timestamp baseFee) prepared.inner,
        r.Quiet node.db) ∧
      ∀ result state, P.outcome node.db (evmParams node.spec number timestamp baseFee)
          prepared.inner = .ok (result, state) →
        ∀ a change, state.lookup a = some change → change.touched = true →
          change.selfdestructed = false → change.Tidy P.hashSlow (node.db.entry a)

include hR

theorem Reached.sound (hcode : P.toRevm.KeepsCode) {guard : KanariNode → Touch → Prop}
    (h : Reached P spec guard node) : node.db.Sound := by
  induction h with
  | genesis dir => exact spec.applyGenesis_sound hR
  | attach faucet sender _ ih => exact ih
  | touch t _ _ ih =>
    cases t with
    | serve request =>
      rw [KanariNode.touch, serve_eq]
      exact ih.readAll hR _
    | sealRaw raw number timestamp baseFee io =>
      rcases sealRawWithFee_db P _ raw number timestamp baseFee io with
        hsame | ⟨prepared, -, hread | ⟨result, state, ho, hexec⟩⟩
      · rw [KanariNode.touch, hsame]
        exact ih
      · rw [KanariNode.touch, hread]
        exact ih.readAll hR _
      · rw [KanariNode.touch, hexec]
        apply InMemoryDB.Sound.settleFees hR
        exact (ih.readAll hR _).commit hR (hcode _ _ _ _ _ ho fun a => (ih a).coded)

theorem Reached.tidy (hgenesis : (spec.applyGenesis P .empty).Tidy)
    (h : Reached P spec (KeepsTidy P) node) : node.db.Tidy := by
  induction h with
  | genesis dir => exact hgenesis
  | attach faucet sender _ ih => exact ih
  | touch t _ met ih =>
    cases t with
    | serve request =>
      rw [KanariNode.touch, serve_eq]
      exact ih.of_sameCache (Revm.readAll_sameCache_of_quiet hR met)
    | sealRaw raw number timestamp baseFee io =>
      rcases sealRawWithFee_db P _ raw number timestamp baseFee io with
        hsame | ⟨prepared, hd, hread | ⟨result, state, ho, hexec⟩⟩
      · rw [KanariNode.touch, hsame]
        exact ih
      · rw [KanariNode.touch, hread]
        exact ih.of_sameCache (Revm.readAll_sameCache_of_quiet hR (met prepared hd).1)
      · have hsame := Revm.readAll_sameCache_of_quiet hR (met prepared hd).1
        rw [KanariNode.touch, hexec]
        apply InMemoryDB.Tidy.settleFees hR
        apply (ih.of_sameCache hsame).commit hR
        intro a change hchange htouched halive
        rw [hsame.entry]
        exact (met prepared hd).2 result state ho a change hchange htouched halive

end KanariNode

end KanariEvm
